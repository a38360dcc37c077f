import HybridPqc.Lib.Growing
import HybridPqc.Network.Proofs.ClientProofs

/-!
# The history is consistent

The invariant that needs no assumption at all: whatever the attacker delivers, the clients' sealings
are those of their tasks, the table holds sessions of the history, the log holds the accepted records,
the counters accepted within a session increase strictly, and each acknowledgement carries the counter
of the packet it acknowledges.
-/

namespace HybridPqc

namespace World

/-- Each client has performed the sealings that the history attributes to it. -/
structure ClientsInv (X : Externals) (w : World) : Prop where
  client : ∀ i c, w.clients[i]? = some c → ClientInv X c (w.sealingsOf (.client i))
  none : ∀ i, w.clients.length ≤ i → w.sealingsOf (.client i) = []

/-- An acknowledgement belongs to its record: it carries the record's counter and text, under the
session key. -/
structure AckOf (X : Externals) (sessions : List Session) (a : Acceptance) (ack : Sealing) :
    Prop where
  counter : ack.counter = packetCounter a.packet
  key : ∃ s, sessions[a.session]? = some s ∧ ack.key = s.key
  plaintext : ∃ serverTime, ack.plaintext = jsonBody X (ackFields serverTime a.record)

/-- The server's table, log and acknowledgements agree with the history. -/
structure SessionsInv (X : Externals) (w : World) : Prop where
  table : w.server.TableInv
  session : ∀ sid key, w.server.sessions.get? sid = some key →
    ∃ s, w.sessions[w.current sid]? = some s ∧ s.sid = sid ∧ s.key = key
  sidLength : ∀ s ∈ w.sessions, s.sid.length = 16
  log : w.server.telemetryLog = w.accepted.map fun a => .obj a.record
  known : ∀ a ∈ w.accepted, a.session < w.sessions.length
  order : ∀ k, ((w.acceptedOf k).map fun a => packetCounter a.packet).Pairwise (· < ·)
  bound : ∀ sid c, w.server.sessionCounters.get? sid = some c →
    ∀ a ∈ w.acceptedOf (w.current sid), (packetCounter a.packet : Int) ≤ c
  acks : ∀ k, w.sealingsOf (.server k) = (w.acceptedOf k).filterMap Acceptance.ack
  ack : ∀ a ∈ w.accepted, ∀ ack, a.ack = some ack → AckOf X w.sessions a ack

variable {X : Externals}

theorem ClientsInv.init : ClientsInv X World.init where
  client := by simp [World.init]
  none := fun _ _ => rfl

theorem SessionsInv.init : SessionsInv X World.init where
  table := Server.TableInv.init
  session := by simp [World.init, Server.init]
  sidLength := by simp [World.init]
  log := rfl
  known := by simp [World.init]
  order := fun _ => List.Pairwise.nil
  bound := by simp [World.init, Server.init]
  acks := fun _ => rfl
  ack := by simp [World.init]

/-! ## Clients -/

theorem ClientsInv.start {w : World} (h : w.ClientsInv X) (mode : Mode) (keys : KeyPairs)
    (seq : UInt32) (hmacRet : Int) : (w.onStart X mode keys seq hmacRet).ClientsInv X := by
  rw [onStart_eq]
  split
  swap
  · exact h
  constructor
  · intro i c hc
    rcases Growing.getElem?_concat hc with hc | ⟨rfl, rfl⟩
    · exact h.client i c hc
    · have hnone := h.none w.clients.length (le_refl _)
      show ClientInv X _ (w.sealingsOf (.client w.clients.length))
      rw [hnone]
      exact ClientInv.new X mode keys seq
  · intro i hi
    simp only [List.length_append, List.length_singleton] at hi
    exact h.none i (by omega)

theorem ClientsInv.frame {w w' : World} (h : w.ClientsInv X) (hclients : w'.clients = w.clients)
    (hsealings : ∀ i, w'.sealingsOf (.client i) = w.sealingsOf (.client i)) : w'.ClientsInv X := by
  constructor
  · intro i c hc
    rw [hsealings]
    exact h.client i c (hclients ▸ hc)
  · intro i hi
    rw [hsealings]
    exact h.none i (hclients ▸ hi)

theorem onHandshake_clients (env : HandshakeEnv) (body : Bytes) (w : World) :
    (w.onHandshake X env body).clients = w.clients ∧
      (w.onHandshake X env body).sealings = w.sealings := by
  rcases onHandshake_cases X env body w with ⟨-, he⟩ | ⟨m, -, he⟩
  · rw [he]
    exact ⟨rfl, rfl⟩
  · rw [he]
    exact ⟨rfl, rfl⟩

theorem onTelemetry_clients (env : TelemetryEnv) (body : Bytes) (w : World) :
    (w.onTelemetry X env body).clients = w.clients ∧
      ∀ i, (w.onTelemetry X env body).sealingsOf (.client i) = w.sealingsOf (.client i) := by
  refine ⟨rfl, ?_⟩
  intro i
  unfold onTelemetry sealingsOf
  simp only [List.filter_append, List.map_append]
  cases (telemetryRoute X env w.server body).ack with
  | none => simp
  | some ack => simp

theorem sealing?_filter_ne (c : Client) (i : Nat) (e : DeviceEvent) {sender : Sender}
    (h : sender ≠ .client i) :
    (((c.task.sealing? X e).map fun sealing => (Sender.client i, sealing)).toList.filter
      fun p => p.1 = sender) = [] := by
  cases c.task.sealing? X e with
  | none => rfl
  | some sealing => simp [h.symm]

theorem ClientsInv.event {w : World} (h : w.ClientsInv X) (i : Nat) (e : DeviceEvent) :
    (w.onClient X i e).ClientsInv X := by
  unfold onClient
  cases hc : w.clients[i]? with
  | none => exact h
  | some c =>
    simp only
    have hi : i < w.clients.length := (List.getElem?_eq_some_iff.mp hc).1
    constructor
    · intro j c' hc'
      rw [sealingsOf_append w rfl]
      simp only [List.getElem?_set] at hc'
      by_cases hij : i = j
      · subst hij
        simp only [hi, if_true, Option.some.injEq] at hc'
        subst hc'
        have hnext := (h.client i c hc).next (X := X) e
        cases hs : c.task.sealing? X e with
        | none => simpa [hs] using hnext
        | some sealing => simpa [hs] using hnext
      · rw [if_neg hij] at hc'
        rw [sealing?_filter_ne c i e fun heq => hij (Sender.client.inj heq).symm]
        simpa using h.client j c' hc'
    · intro j hj
      rw [sealingsOf_append w rfl]
      simp only [List.length_set] at hj
      have hij : i ≠ j := by omega
      rw [sealing?_filter_ne c i e fun heq => hij (Sender.client.inj heq).symm, h.none j hj]
      rfl

theorem ClientsInv.step {w : World} (h : w.ClientsInv X) (e : Event) : (step X w e).ClientsInv X := by
  cases e with
  | start mode keys seq hmacRet => exact h.start mode keys seq hmacRet
  | handshake env body =>
    obtain ⟨hc, hs⟩ := onHandshake_clients (X := X) env body w
    apply h.frame hc
    intro i
    show (w.onHandshake X env body).sealingsOf (.client i) = _
    rw [sealingsOf, hs]
    rfl
  | telemetry env body =>
    obtain ⟨hc, hs⟩ := onTelemetry_clients (X := X) env body w
    exact h.frame hc hs
  | client i e => exact h.event i e

/-! ## Sessions -/

theorem SessionsInv.frame {w w' : World} (h : w.SessionsInv X) (hserver : w'.server = w.server)
    (hsessions : w'.sessions = w.sessions) (hcurrent : w'.current = w.current)
    (haccepted : w'.accepted = w.accepted)
    (hsealings : ∀ k, w'.sealingsOf (.server k) = w.sealingsOf (.server k)) : w'.SessionsInv X := by
  obtain ⟨server', clients', signed', sessions', current', sealings', accepted'⟩ := w'
  simp only at hserver hsessions hcurrent haccepted
  subst hserver hsessions hcurrent haccepted
  refine ⟨h.table, h.session, h.sidLength, h.log, h.known, h.order, h.bound, ?_, h.ack⟩
  intro k
  rw [hsealings]
  exact h.acks k

theorem SessionsInv.start {w : World} (h : w.SessionsInv X) (mode : Mode) (keys : KeyPairs)
    (seq : UInt32) (hmacRet : Int) : (w.onStart X mode keys seq hmacRet).SessionsInv X := by
  rw [onStart_eq]
  split
  · exact h.frame rfl rfl rfl rfl fun _ => rfl
  · exact h

theorem SessionsInv.event {w : World} (h : w.SessionsInv X) (i : Nat) (e : DeviceEvent) :
    (w.onClient X i e).SessionsInv X := by
  unfold onClient
  cases hc : w.clients[i]? with
  | none => exact h
  | some c =>
    refine h.frame rfl rfl rfl rfl ?_
    intro k
    rw [sealingsOf_append w rfl, sealing?_filter_ne c i e (by simp)]
    simp

/-- Two ids of the table with the same session number are the same id. -/
theorem SessionsInv.current_inj {w : World} (h : w.SessionsInv X) {sid sid' : Bytes}
    {key key' : ByteArr 32} (hsid : w.server.sessions.get? sid = some key)
    (hsid' : w.server.sessions.get? sid' = some key') (hcur : w.current sid = w.current sid') :
    sid = sid' := by
  obtain ⟨s, hs, rfl, -⟩ := h.session sid key hsid
  obtain ⟨s', hs', rfl, -⟩ := h.session sid' key' hsid'
  rw [hcur, hs', Option.some.injEq] at hs
  rw [hs]

theorem acceptedOf_length_eq_nil {w : World} (h : w.SessionsInv X) :
    w.acceptedOf w.sessions.length = [] := by
  unfold acceptedOf
  rw [List.filter_eq_nil_iff]
  intro a ha
  have := h.known a ha
  simp
  omega

/-- A new session is the last one of the history, and nothing has been accepted for it. -/
theorem SessionsInv.handshake {w : World} (h : w.SessionsInv X) (env : HandshakeEnv) (body : Bytes) :
    (w.onHandshake X env body).SessionsInv X := by
  rcases onHandshake_cases X env body w with ⟨-, he⟩ | ⟨m, hacc, he⟩
  · rw [he]
    exact h
  rw [he]
  have htable := Server.established_tableInv X env m h.table body
  refine ⟨htable, ?_, ?_, ?_, ?_, h.order, ?_, h.acks, ?_⟩
  · intro sid key hkey
    simp only at hkey ⊢
    by_cases hsid : sid = env.sessionId.toList
    · subst hsid
      rw [if_pos rfl, List.getElem?_concat_length]
      refine ⟨_, rfl, rfl, ?_⟩
      rw [established, Server.createSession_get?_self] at hkey
      exact Option.some.inj hkey
    · rw [if_neg hsid]
      rw [established, Server.createSession_get?_ne hsid (Dict.mem_keys_of_get? hkey)] at hkey
      obtain ⟨s, hs, h1, h2⟩ := h.session sid key hkey
      exact ⟨s, Growing.getElem?_append hs _, h1, h2⟩
  · intro s hs
    rcases List.mem_append.mp hs with hs | hs
    · exact h.sidLength s hs
    · rw [List.mem_singleton.mp hs]
      exact List.Vector.toList_length _
  · show (established X env m w.server body).telemetryLog = _
    rw [established, Server.createSession_telemetryLog]
    exact h.log
  · intro a ha
    have := h.known a ha
    simp only [List.length_append, List.length_singleton]
    omega
  · intro sid c hc a ha
    simp only at hc ha
    by_cases hsid : sid = env.sessionId.toList
    · rw [if_pos hsid] at ha
      have hnil := acceptedOf_length_eq_nil h
      have ha' : a ∈ w.acceptedOf w.sessions.length := ha
      rw [hnil] at ha'
      cases ha'
    · rw [if_neg hsid] at ha
      have hmem : sid ∈ (established X env m w.server body).sessions.keys := by
        rw [← htable.keys]
        exact Dict.mem_keys_of_get? hc
      rw [established, Server.createSession_counter_ne hsid hmem] at hc
      exact h.bound sid c hc a ha
  · intro a ha ack hack
    obtain ⟨h1, ⟨s, hs, h2⟩, h3⟩ := h.ack a ha ack hack
    exact ⟨h1, ⟨s, Growing.getElem?_append hs _, h2⟩, h3⟩

/-- The counter of a packet that passes the checks exceeds all that were accepted for its session. -/
theorem SessionsInv.below_of_opens {w : World} (h : w.SessionsInv X) {body : Bytes} {key : ByteArr 32}
    {plaintext : Bytes} (hopens : Opens X w.server body key plaintext) :
    ∀ a ∈ w.acceptedOf (w.current (body.take 16)),
      packetCounter a.packet < packetCounter (body.drop 16) := by
  intro a ha
  have hlast := hopens.counter
  obtain ⟨c₀, hc₀⟩ := h.table.exists_counter hopens.session
  have hle := h.bound _ c₀ hc₀ a ha
  rw [Server.lastCounter, hc₀, Option.getD_some] at hlast
  omega

/-- Storing the counter of an accepted packet keeps the bound on the counters accepted before. -/
theorem SessionsInv.counted {w : World} (h : w.SessionsInv X) {body : Bytes} {key : ByteArr 32}
    {plaintext : Bytes} (hopens : Opens X w.server body key plaintext) :
    SessionsInv X { w with server := HybridPqc.counted w.server body } := by
  refine ⟨hopens.counted_tableInv h.table, h.session, h.sidLength, h.log, h.known, h.order, ?_, h.acks,
    h.ack⟩
  intro sid c hc a ha
  simp only at hc
  by_cases hsid : sid = body.take 16
  · subst hsid
    rw [counted_counter_self, Option.some.injEq] at hc
    have hlt := h.below_of_opens hopens a ha
    omega
  · rw [counted_counter_ne hsid] at hc
    exact h.bound sid c hc a ha

theorem SessionsInv.logged {w : World} (h : w.SessionsInv X) (env : TelemetryEnv) {body : Bytes}
    {key : ByteArr 32} {plaintext : Bytes} (hopens : Opens X w.server body key plaintext)
    (record : List (PyStr × Json)) {ack : Option Sealing}
    (hack : ∀ e, ack = some e → e = ackOf X env key body record) :
    SessionsInv X
      { w with
        server := HybridPqc.logged w.server body record
        sealings := w.sealings ++
          (ack.map fun ack => (.server (w.current (body.take 16)), ack)).toList
        accepted := w.accepted ++ [⟨w.current (body.take 16), body.drop 16, record, ack⟩] } := by
  have hc := h.counted hopens
  obtain ⟨s, hs, -, hkey⟩ := h.session _ _ hopens.session
  have hlt : w.current (body.take 16) < w.sessions.length := (List.getElem?_eq_some_iff.mp hs).1
  refine ⟨⟨hc.table.keys, hc.table.size⟩, h.session, h.sidLength, ?_, ?_, ?_, ?_, ?_, ?_⟩
  · show w.server.telemetryLog ++ [.obj record] = _
    rw [h.log, List.map_append]
    rfl
  · intro a ha
    rcases List.mem_append.mp ha with ha | ha
    · exact h.known a ha
    · rw [List.mem_singleton.mp ha]
      exact hlt
  · intro k
    rw [acceptedOf_concat w rfl]
    split
    · next hk =>
      subst hk
      rw [List.map_append, List.pairwise_append]
      refine ⟨h.order _, by simp, ?_⟩
      intro x hx y hy
      obtain ⟨a, ha, rfl⟩ := List.mem_map.mp hx
      simp only [List.map_cons, List.map_nil, List.mem_singleton] at hy
      rw [hy]
      exact h.below_of_opens hopens a ha
    · simpa using h.order k
  · intro sid c hctr a ha
    rw [acceptedOf_concat w rfl] at ha
    rcases List.mem_append.mp ha with ha | ha
    · exact hc.bound sid c hctr a ha
    · split at ha
      · next hcur =>
        rw [List.mem_singleton.mp ha]
        have hmem : sid ∈ w.server.sessions.keys := by
          have : sid ∈ (HybridPqc.counted w.server body).sessionCounters.keys :=
            Dict.mem_keys_of_get? hctr
          rwa [hc.table.keys] at this
        obtain ⟨key', hkey'⟩ := Dict.exists_get? hmem
        have hid : sid = body.take 16 := h.current_inj hkey' hopens.session hcur.symm
        subst hid
        have hself : (HybridPqc.counted w.server body).sessionCounters.get? (body.take 16) = some c :=
          hctr
        rw [counted_counter_self, Option.some.injEq] at hself
        exact hself.le
      · cases ha
  · intro k
    rw [acceptedOf_concat w rfl, sealingsOf_append w rfl, List.filterMap_append, ← h.acks k]
    congr 1
    by_cases hk : w.current (body.take 16) = k <;> cases ack <;> simp [hk]
  · intro a ha e he
    rcases List.mem_append.mp ha with ha | ha
    · obtain ⟨h1, h2, h3⟩ := h.ack a ha e he
      exact ⟨h1, h2, h3⟩
    · rw [List.mem_singleton.mp ha] at he ⊢
      rw [hack e he]
      exact ⟨ackOf_counter env record, ⟨s, hs, hkey.symm⟩, ⟨env.serverTime, rfl⟩⟩

theorem SessionsInv.step {w : World} (h : w.SessionsInv X) (e : Event) :
    (step X w e).SessionsInv X := by
  cases e with
  | start mode keys seq hmacRet => exact h.start mode keys seq hmacRet
  | handshake env body => exact h.handshake env body
  | client i e => exact h.event i e
  | telemetry env body =>
    show SessionsInv X (w.onTelemetry X env body)
    have ht := onTelemetry_step (X := X) env body w
    generalize w.onTelemetry X env body = w' at ht ⊢
    cases ht with
    | refused => exact h
    | counted key plaintext data hopens hdata hrecord => exact h.counted hopens
    | logged key plaintext data record ack hopens hdata hrecord hack =>
      apply h.logged env hopens record
      exact fun e he => ((hack e).mp he).2.symm

theorem ClientsInv.run {w : World} (h : w.ClientsInv X) (es : List Event) :
    (GuardedRuns.run (World.step X) w es).ClientsInv X :=
  GuardedRuns.run_invariant (fun _ e h => h.step e) h es

theorem SessionsInv.run {w : World} (h : w.SessionsInv X) (es : List Event) :
    (GuardedRuns.run (World.step X) w es).SessionsInv X :=
  GuardedRuns.run_invariant (fun _ e h => h.step e) h es

theorem run_inv (X : Externals) (es : List Event) :
    (GuardedRuns.run (World.step X) init es).ClientsInv X ∧
      (GuardedRuns.run (World.step X) init es).SessionsInv X :=
  ⟨ClientsInv.init.run es, SessionsInv.init.run es⟩

end World

end HybridPqc
