import HybridPqc.Network.Proofs.NonceProofs

/-!
# Every accepted packet is a client's

Under ideal AES-GCM, a packet accepted in a session that has its key for itself was encrypted by a
client: an acknowledgement of the server cannot be reflected, because its counter does not exceed the
stored one. The stored counter of the session is the initial one or that of an accepted packet.
-/

open GuardedRuns

namespace HybridPqc

namespace World

/-- The record comes from the telemetry packet that a client encrypted under the session key. -/
structure FromClient (X : Externals) (w : World) (a : Acceptance) (i : Nat) (e : Sealing) : Prop where
  sealed : (Sender.client i, e) ∈ w.sealings
  packet : a.packet = e.packet X
  key : ∃ s, w.sessions[a.session]? = some s ∧ e.key = s.key
  content : ∃ (t : TelemetryData) (receivedAt : DateTime), t.Small ∧ e.plaintext = jsonPayload t ∧
    a.record = telemetryRecord receivedAt t

/-- What holds of the sessions with a key under which packets cannot be forged. -/
structure KeyInv (X : Externals) (w : World) (key : ByteArr 32) : Prop where
  origin : ∀ k s, w.sessions[k]? = some s → s.key = key →
    ∀ a ∈ w.acceptedOf k, ∃ i e, FromClient X w a i e
  stored : ∀ sid c, w.server.sessions.get? sid = some key →
    w.server.sessionCounters.get? sid = some c →
      c = -1 ∨ ∃ a ∈ w.acceptedOf (w.current sid), (packetCounter a.packet : Int) = c

variable {X : Externals} {key : ByteArr 32}

/-! ## Sessions with a key of their own -/

theorem FromClient.mono {w w' : World} {a : Acceptance} {i : Nat} {e : Sealing}
    (h : FromClient X w a i e) (hsealings : w.sealings ⊆ w'.sealings)
    (hsessions : w.sessions <+: w'.sessions) : FromClient X w' a i e := by
  obtain ⟨s, hs, hkey⟩ := h.key
  exact ⟨hsealings h.sealed, h.packet, ⟨s, Growing.getElem?_prefix hsessions hs, hkey⟩, h.content⟩

theorem KeyInv.init : KeyInv X World.init key where
  origin := by simp [World.init]
  stored := by simp [World.init, Server.init]

/-- An event that leaves the server and its history alone keeps the invariant. -/
theorem KeyInv.frame {w w' : World} (h : w.KeyInv X key) (hserver : w'.server = w.server)
    (hsessions : w'.sessions = w.sessions) (hcurrent : w'.current = w.current)
    (haccepted : w'.accepted = w.accepted) (hsealings : w.sealings ⊆ w'.sealings) :
    w'.KeyInv X key := by
  constructor
  · intro k s hk hs a ha
    rw [hsessions] at hk
    rw [acceptedOf, haccepted] at ha
    obtain ⟨i, e, hfrom⟩ := h.origin k s hk hs a ha
    exact ⟨i, e, hfrom.mono hsealings (by rw [hsessions])⟩
  · rw [hserver, hcurrent]
    intro sid c hsid hc
    rw [acceptedOf, haccepted]
    exact h.stored sid c hsid hc

theorem KeyInv.start {w : World} (h : w.KeyInv X key) (mode : Mode) (keys : KeyPairs) (seq : UInt32)
    (hmacRet : Int) : (w.onStart X mode keys seq hmacRet).KeyInv X key := by
  rw [onStart_eq]
  split
  · exact h.frame rfl rfl rfl rfl (List.Subset.refl _)
  · exact h

theorem KeyInv.event {w : World} (h : w.KeyInv X key) (i : Nat) (e : DeviceEvent) :
    (w.onClient X i e).KeyInv X key := by
  unfold onClient
  cases w.clients[i]? with
  | none => exact h
  | some c => exact h.frame rfl rfl rfl rfl (List.subset_append_left _ _)

/-- In a new session nothing has been accepted. -/
theorem KeyInv.handshake {w : World} (h : w.KeyInv X key) (hs : w.SessionsInv X) (env : HandshakeEnv)
    (body : Bytes) : (w.onHandshake X env body).KeyInv X key := by
  rcases onHandshake_cases X env body w with ⟨-, he⟩ | ⟨m, -, he⟩
  · rw [he]
    exact h
  rw [he]
  constructor
  · intro k s hk hkey a ha
    rcases Growing.getElem?_concat hk with hk | ⟨rfl, -⟩
    · obtain ⟨i, e, hfrom⟩ := h.origin k s hk hkey a ha
      exact ⟨i, e, hfrom.mono (List.Subset.refl _) (List.prefix_append _ _)⟩
    · have ha' : a ∈ w.acceptedOf w.sessions.length := ha
      rw [acceptedOf_length_eq_nil hs] at ha'
      cases ha'
  · intro sid c hsid hc
    simp only at hsid hc
    have hmem := Dict.mem_keys_of_get? hsid
    by_cases hnew : sid = env.sessionId.toList
    · left
      rw [hnew, established, Server.createSession_counter_self] at hc
      exact (Option.some.inj hc).symm
    · rw [established] at hsid hc hmem
      rw [Server.createSession_get?_ne hnew hmem] at hsid
      rw [Server.createSession_counter_ne hnew hmem] at hc
      show c = -1 ∨ ∃ a ∈ w.acceptedOf (if sid = env.sessionId.toList then _ else w.current sid), _
      rw [if_neg hnew]
      exact h.stored sid c hsid hc

/-- A packet that passes the server's checks was encrypted by a client under the session key: an
acknowledgement of this session does not have a high enough counter, and no other session has the
key. -/
theorem opens_fromClient {w : World} (hc : w.ClientsInv X) (hs : w.SessionsInv X)
    (hone : w.OneSession key) (hgcm : X.GcmCorrect) {env : TelemetryEnv} {body : Bytes}
    {plaintext : Bytes} (hg : GcmIdeal X w (.telemetry env body))
    (hopens : Opens X w.server body key plaintext) :
    ∃ i e t, (Sender.client i, e) ∈ w.sealings ∧ e.key = key ∧ e.packet X = body.drop 16 ∧
      TelemetryData.Small t ∧ e.plaintext = jsonPayload t ∧ plaintext = jsonPayload t := by
  obtain ⟨⟨sender, e⟩, hmem, hkey, hpacket⟩ := hg key plaintext hopens.session hopens.opens
  simp only at hkey hpacket
  cases sender with
  | server k =>
    exfalso
    obtain ⟨a, ha, -, hack⟩ := hs.sealing hmem
    obtain ⟨s, hsk, hskey⟩ := hack.key
    obtain ⟨s', hs', -, hkey'⟩ := hs.session _ _ hopens.session
    have hcur : k = w.current (body.take 16) := by
      rw [(mem_acceptedOf.mp ha).2] at hsk
      exact hone _ _ s s' hsk hs' (by rw [← hskey, hkey]) hkey'
    have hlt := hs.below_of_opens hopens a (hcur ▸ ha)
    rw [← hpacket, Sealing.packet_counter, hack.counter] at hlt
    omega
  | client i =>
    obtain ⟨c, -, -, -, hinv⟩ := hc.sealing hmem
    obtain ⟨t, ht, hplain⟩ := hinv.payload e (mem_sealingsOf.mpr hmem)
    refine ⟨i, e, t, hmem, hkey, hpacket, ht, hplain, ?_⟩
    have hopen := Sealing.openPacket_packet X e hgcm
    rw [hkey, hpacket, hopens.opens, Option.some.injEq] at hopen
    rw [hopen, hplain]

/-- A request of another session, or one that is refused. -/
theorem KeyInv.telemetry_other {w : World} (h : w.KeyInv X key) (hs : w.SessionsInv X)
    {env : TelemetryEnv} {body : Bytes}
    (hno : ∀ plaintext, ¬ Opens X w.server body key plaintext) :
    (w.onTelemetry X env body).KeyInv X key := by
  have ht := onTelemetry_step (X := X) env body w
  generalize w.onTelemetry X env body = w' at ht ⊢
  cases ht with
  | refused => exact h
  | counted key' plaintext data hopens hdata hrecord =>
    refine ⟨fun k s hk hkey a ha => ?_, fun sid c hsid hc => ?_⟩
    · obtain ⟨i, e, hfrom⟩ := h.origin k s hk hkey a ha
      exact ⟨i, e, hfrom.mono (List.Subset.refl _) List.prefix_rfl⟩
    have hne : sid ≠ body.take 16 := by
      rintro rfl
      have hsid' : w.server.sessions.get? (body.take 16) = some key := hsid
      rw [hopens.session, Option.some.injEq] at hsid'
      exact hno plaintext (hsid' ▸ hopens)
    simp only [counted_counter_ne hne] at hc
    exact h.stored sid c hsid hc
  | logged key' plaintext data record ack hopens hdata hrecord hack =>
    have hkeys : key' ≠ key := by
      rintro rfl
      exact hno plaintext hopens
    obtain ⟨s', hs', -, hkey'⟩ := hs.session _ _ hopens.session
    constructor
    · intro k s hk hkey a ha
      have hne : w.current (body.take 16) ≠ k := by
        rintro rfl
        have hk' : w.sessions[w.current (body.take 16)]? = some s := hk
        rw [hs', Option.some.injEq] at hk'
        exact hkeys (by rw [← hkey', hk', hkey])
      rw [acceptedOf_concat w rfl, if_neg hne, List.append_nil] at ha
      obtain ⟨i, e, hfrom⟩ := h.origin k s hk hkey a ha
      exact ⟨i, e, hfrom.mono (List.subset_append_left _ _) List.prefix_rfl⟩
    · intro sid c hsid hc
      have hne : sid ≠ body.take 16 := by
        rintro rfl
        have hsid' : w.server.sessions.get? (body.take 16) = some key := hsid
        rw [hopens.session, Option.some.injEq] at hsid'
        exact hkeys hsid'
      simp only [logged_sessionCounters, counted_counter_ne hne] at hc
      rcases h.stored sid c hsid hc with hneg | ⟨a, ha, hac⟩
      · exact .inl hneg
      · refine .inr ⟨a, ?_, hac⟩
        rw [acceptedOf_concat w rfl]
        exact List.mem_append_left _ ha

/-- A request that passes the checks is a client's packet, which is logged. -/
theorem KeyInv.telemetry {w : World} (h : w.KeyInv X key) (hc : w.ClientsInv X)
    (hs : w.SessionsInv X) (hone : w.OneSession key) (hgcm : X.GcmCorrect) {env : TelemetryEnv}
    {body : Bytes} (hg : GcmIdeal X w (.telemetry env body)) :
    (w.onTelemetry X env body).KeyInv X key := by
  by_cases hopens : ∃ plaintext, Opens X w.server body key plaintext
  swap
  · exact h.telemetry_other hs fun plaintext ho => hopens ⟨plaintext, ho⟩
  obtain ⟨plaintext, hopens⟩ := hopens
  obtain ⟨i, e, t, hmem, hekey, hpacket, hsmall, hplain, rfl⟩ :=
    opens_fromClient hc hs hone hgcm hg hopens
  obtain ⟨s', hs', -, hkey'⟩ := hs.session _ _ hopens.session
  rw [onTelemetry_of_payload hsmall env hopens]
  constructor
  · intro k s hk hkey a ha
    rw [acceptedOf_concat w rfl] at ha
    rcases List.mem_append.mp ha with ha | ha
    · obtain ⟨j, e', hfrom⟩ := h.origin k s hk hkey a ha
      exact ⟨j, e', hfrom.mono (List.subset_append_left _ _) List.prefix_rfl⟩
    · split at ha
      · rw [List.mem_singleton.mp ha]
        exact ⟨i, e, List.mem_append_left _ hmem, hpacket.symm, ⟨s', hs', hekey.trans hkey'.symm⟩,
          ⟨t, env.receivedAt, hsmall, hplain, rfl⟩⟩
      · cases ha
  · intro sid c hsid hctr
    rw [acceptedOf_concat w rfl]
    simp only [logged_sessionCounters] at hctr
    by_cases hself : sid = body.take 16
    · subst hself
      rw [counted_counter_self, Option.some.injEq] at hctr
      rw [if_pos rfl]
      exact .inr ⟨_, List.mem_append_right _ (List.mem_singleton_self _), hctr⟩
    · rw [counted_counter_ne hself] at hctr
      rcases h.stored sid c hsid hctr with hneg | ⟨a, ha, hac⟩
      · exact .inl hneg
      · exact .inr ⟨a, List.mem_append_left _ ha, hac⟩

theorem KeyInv.step {w : World} (h : w.KeyInv X key) (hc : w.ClientsInv X) (hs : w.SessionsInv X)
    (hone : w.OneSession key) (hgcm : X.GcmCorrect) {e : Event} (hg : GcmIdeal X w e) :
    (step X w e).KeyInv X key := by
  cases e with
  | start mode keys seq hmacRet => exact h.start mode keys seq hmacRet
  | handshake env body => exact h.handshake hs env body
  | telemetry env body => exact h.telemetry hc hs hone hgcm hg
  | client i e => exact h.event i e

/-- What a key belongs to, it has belonged to before. -/
theorem OneSession.of_step {w : World} {e : Event} (h : (step X w e).OneSession key) :
    w.OneSession key := fun k l s s' hk hl =>
  h k l s s' (Growing.getElem?_prefix (sessions_step w e) hk)
    (Growing.getElem?_prefix (sessions_step w e) hl)

/-- What is known of a session key that belongs to one client and one session. -/
structure Inv (X : Externals) (w : World) (key : ByteArr 32) : Prop where
  clients : w.ClientsInv X
  sessions : w.SessionsInv X
  oneClient : w.OneClient key
  oneSession : w.OneSession key
  auth : w.KeyInv X key

/-- After every run against ideal AES-GCM, for every key of one client and one session. -/
theorem run_key (hgcm : X.GcmCorrect) {es : List Event}
    (hg : Guarded (World.step X) (GcmIdeal X) init es)
    (hclient : (run (World.step X) init es).OneClient key)
    (hsession : (run (World.step X) init es).OneSession key) :
    (run (World.step X) init es).Inv X key := by
  obtain ⟨hc, hs⟩ := run_inv X es
  refine ⟨hc, hs, hclient, hsession, ?_⟩
  have hkey : (run (World.step X) init es).OneSession key →
      (run (World.step X) init es).KeyInv X key :=
    hg.invariant_of (J := fun w => w.ClientsInv X ∧ w.SessionsInv X)
      (I := fun w => w.OneSession key → w.KeyInv X key)
      (fun _ e hJ _ => ⟨hJ.1.step e, hJ.2.step e⟩)
      (fun _ _ hJ hI hP hone => (hI hone.of_step).step hJ.1 hJ.2 hone.of_step hgcm hP)
      ⟨ClientsInv.init, SessionsInv.init⟩ fun _ => KeyInv.init
  exact hkey hsession

/-! ## Distinct sessions -/

/-- The assumptions on an event: ideal AES-GCM, and distinct sessions. -/
def IdealGcm (X : Externals) (w : World) (e : Event) : Prop :=
  GcmIdeal X w e ∧ DistinctSessions X w e

/-- Every key belongs to one client and one session. -/
structure DistinctInv (w : World) : Prop where
  keys : (w.sessions.map Session.key).Nodup
  oneClient : ∀ key, w.OneClient key

theorem DistinctInv.init : DistinctInv World.init where
  keys := List.nodup_nil
  oneClient := by
    intro key i j c c' r r' hc
    simp [World.init] at hc

theorem DistinctInv.oneSession {w : World} (h : w.DistinctInv) (key : ByteArr 32) :
    w.OneSession key := fun _ _ _ _ hk hl hkey hkey' =>
  Growing.eq_of_nodup_map h.keys hk hl (hkey.trans hkey'.symm)

theorem completed_eq_some {d : Device} {e : DeviceEvent} {response : Bytes} {key : ByteArr 32}
    (h : completed d (d.step X e) e = some (response, key)) :
    ∃ env, e = .response env (some response) ∧ d.phase = .handshake ∧ Agrees X env d.ctx response ∧
      key = clientKey X d.ctx response := by
  have ht := Device.step_transition X d e
  generalize d.step X e = d' at ht h
  generalize d.sealing? X e = sealing at ht
  generalize d.posted? X e = body at ht
  cases ht with
  | agree env bytes hphase hag =>
    have hif : (Phase.handshake = Phase.handshake ∧ Phase.loop = Phase.loop) := ⟨rfl, rfl⟩
    simp only [completed, hphase, and_self, if_true, Option.some.injEq, Prod.mk.injEq] at h
    obtain ⟨rfl, rfl⟩ := h
    exact ⟨env, rfl, hphase, hag, rfl⟩
  | idle =>
    rw [completed_of_phase e (by intro hp; rw [hp]; simp)] at h
    cases h
  | stop _ _ hphase hctx =>
    rw [completed_of_phase e (by rw [hphase]; simp)] at h
    cases h
  | skip env hphase => cases h
  | spoil env hphase => cases h
  | post env hphase => cases h
  | refuse env reply hphase => cases h
  | accept env reply plaintext hphase => cases h

/-- A new client has agreed on nothing. -/
theorem DistinctInv.start {w : World} (h : w.DistinctInv) (mode : Mode) (keys : KeyPairs)
    (seq : UInt32) (hmacRet : Int) : (w.onStart X mode keys seq hmacRet).DistinctInv := by
  rw [onStart_eq]
  split
  swap
  · exact h
  refine ⟨h.keys, ?_⟩
  have hold : ∀ (i : Nat) (c : Client) (r : Bytes × ByteArr 32),
      (w.clients ++ [newClient X mode keys seq])[i]? = some c → c.agreed = some r →
        w.clients[i]? = some c := by
    intro i c r hc hr
    rcases Growing.getElem?_concat hc with hc | ⟨-, rfl⟩
    · exact hc
    · cases hr
  intro key i j c c' r r' hc hc' hr hr'
  exact h.oneClient key i j c c' r r' (hold i c _ hc hr) (hold j c' _ hc' hr') hr hr'

theorem DistinctInv.handshake {w : World} (h : w.DistinctInv) {env : HandshakeEnv} {body : Bytes}
    (hg : DistinctSessions X w (.handshake env body)) : (w.onHandshake X env body).DistinctInv := by
  rcases onHandshake_cases X env body w with ⟨-, he⟩ | ⟨m, hacc, he⟩
  · rw [he]
    exact h
  · rw [he]
    exact ⟨Growing.nodup_map_concat h.keys fun s hs => (hg m hacc s hs).2, h.oneClient⟩

theorem DistinctInv.event {w : World} (h : w.DistinctInv) {i : Nat} {e : DeviceEvent}
    (hg : DistinctSessions X w (.client i e)) : (w.onClient X i e).DistinctInv := by
  unfold onClient
  cases hci : w.clients[i]? with
  | none => exact h
  | some c =>
    have hi : i < w.clients.length := (List.getElem?_eq_some_iff.mp hci).1
    refine ⟨h.keys, ?_⟩
    -- A key agreed on after the event was agreed on before, or the event completes a handshake.
    have hagreed : ∀ (j : Nat) (c' : Client) (r : Bytes) (key : ByteArr 32),
        (w.clients.set i (c.next X e))[j]? = some c' → c'.agreed = some (r, key) →
          (∃ c₀, w.clients[j]? = some c₀ ∧ c₀.agreed = some (r, key)) ∨
            j = i ∧ ∃ env, e = .response env (some r) ∧ Agrees X env c.task.ctx r ∧
              key = clientKey X c.task.ctx r := by
      intro j c' r key hj hr
      rw [List.getElem?_set] at hj
      by_cases hij : i = j
      · subst hij
        simp only [hi, if_true, Option.some.injEq] at hj
        subst hj
        cases hcomp : completed c.task (c.task.step X e) e with
        | none =>
          left
          refine ⟨c, hci, ?_⟩
          simpa [Client.next, hcomp] using hr
        | some p =>
          right
          have hp : p = (r, key) := by simpa [Client.next, hcomp] using hr
          subst hp
          obtain ⟨env, he, -, hag, hkey⟩ := completed_eq_some hcomp
          exact ⟨rfl, env, he, hag, hkey⟩
      · rw [if_neg hij] at hj
        exact .inl ⟨c', hj, hr⟩
    intro key j l c₁ c₂ r₁ r₂ h₁ h₂ hr₁ hr₂
    by_contra hne
    rcases hagreed j c₁ r₁ key h₁ hr₁ with ⟨c₁', hc₁', hr₁'⟩ | ⟨rfl, env, rfl, hag, hkey⟩
    · rcases hagreed l c₂ r₂ key h₂ hr₂ with ⟨c₂', hc₂', hr₂'⟩ | ⟨rfl, env, rfl, hag, hkey⟩
      · exact hne (h.oneClient key j l c₁' c₂' r₁ r₂ hc₁' hc₂' hr₁' hr₂')
      · exact hg c hci hag j c₁' r₁ key hne hc₁' hr₁' hkey.symm
    · rcases hagreed l c₂ r₂ key h₂ hr₂ with ⟨c₂', hc₂', hr₂'⟩ | ⟨rfl, -⟩
      · exact hg c hci hag l c₂' r₂ key (Ne.symm hne) hc₂' hr₂' hkey.symm
      · exact hne rfl

theorem DistinctInv.step {w : World} (h : w.DistinctInv) {e : Event} (hg : DistinctSessions X w e) :
    (step X w e).DistinctInv := by
  cases e with
  | start mode keys seq hmacRet => exact h.start mode keys seq hmacRet
  | handshake env body => exact h.handshake hg
  | telemetry env body => exact ⟨h.keys, h.oneClient⟩
  | client i e => exact h.event hg

/-- After every run against ideal AES-GCM with distinct sessions, for every key. -/
theorem run_auth (hgcm : X.GcmCorrect) {es : List Event}
    (hg : Guarded (World.step X) (IdealGcm X) init es) (key : ByteArr 32) :
    (run (World.step X) init es).Inv X key := by
  have h : (run (World.step X) init es).DistinctInv :=
    hg.invariant (fun _ _ hI hP => hI.step hP.2) DistinctInv.init
  exact run_key hgcm (hg.mono fun _ _ hP => hP.1) (h.oneClient key) (h.oneSession key)

/-! ## The reference exchange -/

theorem produced_packet : Produced Reference.externals (Reference.world 4) Reference.sessionKey
    Reference.packet := by
  unfold Produced
  decide +kernel

theorem produced_ack : Produced Reference.externals (Reference.world 5) Reference.sessionKey
    Reference.ack := by
  unfold Produced
  decide +kernel

theorem reference_idealGcm :
    Guarded (World.step Reference.externals) (IdealGcm Reference.externals) init Reference.events := by
  refine ⟨⟨trivial, trivial⟩, ⟨trivial, ?_⟩, ⟨trivial, ?_⟩, ⟨trivial, trivial⟩, ⟨?_, trivial⟩,
    ⟨?_, trivial⟩, trivial⟩
  · intro m _ s hs
    have hnone : (Reference.world 1).sessions.length = 0 := by decide +kernel
    have hmem : s ∈ (Reference.world 1).sessions := hs
    rw [List.eq_nil_of_length_eq_zero hnone] at hmem
    cases hmem
  · intro c _ _ j c' response key hj hc'
    have hone : (Reference.world 2).clients.length = 1 := by decide +kernel
    have hlt : j < (Reference.world 2).clients.length := (List.getElem?_eq_some_iff.mp hc').1
    omega
  · intro key plaintext hkey _
    have hsession : (Reference.world 4).server.sessions.get?
        ((Reference.sessionId.toList ++ Reference.packet).take 16) = some Reference.sessionKey := by
      decide +kernel
    have heq : some Reference.sessionKey = some key := hsession.symm.trans hkey
    rw [← Option.some.inj heq]
    exact produced_packet
  · intro c plaintext hc _ _
    have hkey : ∀ c ∈ (Reference.world 5).clients[0]?,
        c.task.ctx.sessionKey = Reference.sessionKey := by decide +kernel
    rw [hkey c hc]
    exact produced_ack

end World

end HybridPqc
