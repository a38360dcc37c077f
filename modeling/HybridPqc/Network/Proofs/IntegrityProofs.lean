import HybridPqc.Lib.Increasing
import HybridPqc.Network.Proofs.AuthenticityProofs

/-!
# Integrity and order of the telemetry log

The records of a session are those of a sublist of the packets that its owner encrypted: nothing is
forged, nothing is logged twice, the order is kept. The owner is never locked out: the counter stored
for its session stays below its own.
-/

open GuardedRuns

namespace HybridPqc

namespace World

variable {X : Externals}

/-- The client owns the session: it holds its key. -/
def Owns (w : World) (i : Nat) (key : ByteArr 32) : Prop :=
  ∃ c response, w.clients[i]? = some c ∧ c.agreed = some (response, key)

theorem Inv.owner_unique {w : World} {key : ByteArr 32} (h : w.Inv X key) {i j : Nat}
    (hi : w.Owns i key) (hj : w.Owns j key) : i = j := by
  obtain ⟨c, r, hc, hr⟩ := hi
  obtain ⟨c', r', hc', hr'⟩ := hj
  exact h.oneClient i j c c' r r' hc hc' hr hr'

theorem ClientsInv.sealing_owner {w : World} (h : w.ClientsInv X) {i : Nat} {e : Sealing}
    (he : (Sender.client i, e) ∈ w.sealings) : w.Owns i e.key := by
  obtain ⟨c, response, hc, hr, -⟩ := h.sealing he
  exact ⟨c, response, hc, hr⟩

theorem ClientsInv.owner_sealing_key {w : World} (h : w.ClientsInv X) {i : Nat} {key : ByteArr 32}
    (hi : w.Owns i key) {e : Sealing} (he : e ∈ w.sealingsOf (.client i)) : e.key = key := by
  obtain ⟨c, response, hc, hr⟩ := hi
  obtain ⟨response', hr'⟩ := (h.client i c hc).key e he
  rw [hr, Option.some.injEq, Prod.mk.injEq] at hr'
  exact hr'.2.symm

/-- A record of a session comes from a packet of the client that owns the session. -/
theorem Inv.accepted_source {w : World} {s : Session} (h : w.Inv X s.key) {k : Nat}
    (hk : w.sessions[k]? = some s) {a : Acceptance} (ha : a ∈ w.acceptedOf k) :
    ∃ i e, w.Owns i s.key ∧ FromClient X w a i e ∧ e.key = s.key := by
  obtain ⟨i, e, hfrom⟩ := h.auth.origin k s hk rfl a ha
  obtain ⟨s', hs', hkey⟩ := hfrom.key
  rw [(mem_acceptedOf.mp ha).2, hk, Option.some.injEq] at hs'
  subst hs'
  refine ⟨i, e, ?_, hfrom, hkey⟩
  rw [← hkey]
  exact h.clients.sealing_owner hfrom.sealed

/-- A record is what the server makes of the plaintext of the packet `e`. -/
def RecordOf (X : Externals) (e : Sealing) (a : Acceptance) : Prop :=
  e.packet X = a.packet ∧ ∃ fields receivedAt, telemetryLoads X e.plaintext = .ok (.obj fields) ∧
    logRecord receivedAt (.obj fields) = .ok a.record

/-- The records of a session are those of a sublist of its owner's packets. -/
theorem Inv.accepted_sublist {w : World} {s : Session} (h : w.Inv X s.key) (hgcm : X.GcmCorrect)
    {k : Nat} (hk : w.sessions[k]? = some s) {i : Nat} (hi : w.Owns i s.key) :
    ∃ sub : List Sealing, sub.Sublist (w.sealingsOf (.client i)) ∧
      List.Forall₂ (RecordOf X) sub (w.acceptedOf k) := by
  have hsource : ∀ a ∈ w.acceptedOf k, ∃ e ∈ w.sealingsOf (.client i), e.packet X = a.packet := by
    intro a ha
    obtain ⟨j, e, hj, hfrom, -⟩ := h.accepted_source hk ha
    have hij : j = i := h.owner_unique hj hi
    subst hij
    exact ⟨e, mem_sealingsOf.mpr hfrom.sealed, hfrom.packet.symm⟩
  have horder : ((w.sealingsOf (.client i)).map fun e => packetCounter (e.packet X)).Pairwise
      (· < ·) := by
    have heq : (fun e : Sealing => packetCounter (e.packet X)) = Sealing.counter :=
      funext fun e => Sealing.packet_counter X e
    rw [heq]
    exact h.clients.order i
  obtain ⟨sub, hsub, hall⟩ := Increasing.exists_sublist (Sealing.packet X) Acceptance.packet
    packetCounter horder (h.sessions.order k) hsource
  refine ⟨sub, hsub, Increasing.forall₂_of_mem hall fun e he a ha hpacket => ⟨hpacket, ?_⟩⟩
  obtain ⟨j, e', -, hfrom, hkey'⟩ := h.accepted_source hk ha
  obtain ⟨t, receivedAt, hsmall, hplain, hrecord⟩ := hfrom.content
  -- Equal packets under the session key have equal plaintexts.
  have hkey : e.key = s.key := h.clients.owner_sealing_key hi (hsub.subset he)
  have hopen := Sealing.openPacket_packet X e hgcm
  rw [hpacket, hfrom.packet, hkey, ← hkey', Sealing.openPacket_packet X e' hgcm,
    Option.some.injEq] at hopen
  refine ⟨telemetryFields t, receivedAt, ?_, ?_⟩
  · rw [← hopen, hplain]
    exact telemetryLoads_jsonPayload X hsmall
  · rw [hrecord]
    exact logRecord_telemetryFields receivedAt t

/-- No acknowledgement under a session's key is among the packets logged for it. -/
theorem Inv.ack_not_accepted {w : World} {s : Session} (h : w.Inv X s.key) (hgcm : X.GcmCorrect)
    {k l : Nat} (hk : w.sessions[k]? = some s) {a : Acceptance} (ha : a ∈ w.acceptedOf k)
    {ack : Sealing} (hack : (Sender.server l, ack) ∈ w.sealings) (hkey : ack.key = s.key) :
    a.packet ≠ ack.packet X := by
  intro heq
  obtain ⟨i, e, -, hfrom, hekey⟩ := h.accepted_source hk ha
  obtain ⟨t, receivedAt, hsmall, hplain, -⟩ := hfrom.content
  obtain ⟨a', -, -, hof⟩ := h.sessions.sealing hack
  obtain ⟨serverTime, hackplain⟩ := hof.plaintext
  have hopen := Sealing.openPacket_packet X e hgcm
  rw [← hfrom.packet, heq, hekey, ← hkey, Sealing.openPacket_packet X ack hgcm,
    Option.some.injEq, hackplain, hplain] at hopen
  exact ack_ne_payload X serverTime a'.record hsmall hopen

/-- After every run against ideal AES-GCM with distinct sessions: the log is that of the accepted
records; those of a session are the records of a sublist of the packets that its owner encrypted, each
packet at most once, in the order of encryption; a session without an owner has none; and no
acknowledgement is logged. -/
theorem telemetry_log_integrity (X : Externals) (hgcm : X.GcmCorrect) (es : List Event)
    (hg : Guarded (World.step X) (IdealGcm X) init es) :
    let w := run (World.step X) init es
    w.server.telemetryLog = (w.accepted.map fun a => Json.obj a.record) ∧
      (∀ a ∈ w.accepted, ∃ s, w.sessions[a.session]? = some s) ∧
      ∀ k s, w.sessions[k]? = some s →
        (∀ i, w.Owns i s.key → ∃ sub : List Sealing, sub.Sublist (w.sealingsOf (.client i)) ∧
          List.Forall₂ (RecordOf X) sub (w.acceptedOf k)) ∧
        (w.acceptedOf k ≠ [] → ∃ i, w.Owns i s.key) ∧
        ((w.acceptedOf k).map Acceptance.packet).Nodup ∧
        ∀ a ∈ w.acceptedOf k, ∀ l ack, (Sender.server l, ack) ∈ w.sealings → ack.key = s.key →
          a.packet ≠ ack.packet X := by
  intro w
  have h : ∀ key, w.Inv X key := run_auth hgcm hg
  have hs : w.SessionsInv X := (run_inv X es).2
  refine ⟨hs.log, fun a ha => ?_, fun k s hk => ⟨fun i hi => ?_, fun hne => ?_, ?_, ?_⟩⟩
  · exact ⟨_, List.getElem?_eq_getElem (hs.known a ha)⟩
  · exact (h s.key).accepted_sublist hgcm hk hi
  · obtain ⟨a, ha⟩ := List.exists_mem_of_ne_nil _ hne
    obtain ⟨i, -, hi, -⟩ := (h s.key).accepted_source hk ha
    exact ⟨i, hi⟩
  · apply Increasing.nodup packetCounter
    rw [List.map_map]
    exact hs.order k
  · exact fun a ha l ack hack hkey => (h s.key).ack_not_accepted hgcm hk ha hack hkey

theorem telemetry_log_integrity_reference :
    (Reference.world 5).server.telemetryLog.length = 1 ∧
      ∃ s, (Reference.world 5).sessions[0]? = some s ∧ ∃ sub : List Sealing,
        sub.Sublist ((Reference.world 5).sealingsOf (.client 0)) ∧
          List.Forall₂ (RecordOf Reference.externals) sub ((Reference.world 5).acceptedOf 0) := by
  have hg : Guarded (World.step Reference.externals) (IdealGcm Reference.externals) init
      (Reference.events.take 5) := (guarded_append.mp reference_idealGcm).1
  obtain ⟨s, hs, hkey⟩ : ∃ s ∈ (Reference.world 5).sessions[0]?, s.key = Reference.sessionKey := by
    decide +kernel
  have howns : (Reference.world 5).Owns 0 s.key := by
    obtain ⟨c, hc, p, hp, hpkey⟩ : ∃ c ∈ (Reference.world 5).clients[0]?, ∃ p ∈ c.agreed,
        p.2 = Reference.sessionKey := by decide +kernel
    exact ⟨c, p.1, hc, by rw [hkey, ← hpkey]; exact hp⟩
  exact ⟨by decide +kernel, s, hs,
    ((telemetry_log_integrity Reference.externals Reference.gcmCorrect _ hg).2.2 0 s hs).1 0 howns⟩

/-! ## No lockout -/

/-- A client in its telemetry loop is ahead of the counter stored for its session. -/
theorem Inv.stored_lt {w : World} {key : ByteArr 32} (h : w.Inv X key) {sid : Bytes}
    (hsid : w.server.sessions.get? sid = some key) {i : Nat} {c : Client}
    (hc : w.clients[i]? = some c) {response : Bytes} (hr : c.agreed = some (response, key))
    (hphase : c.task.phase = .loop ∨ c.task.phase = .posted) {ctr : Int}
    (hctr : w.server.sessionCounters.get? sid = some ctr) :
    ctr < c.task.ctx.telemetryCounter.toNat := by
  obtain ⟨s, hs, -, rfl⟩ := h.sessions.session sid key hsid
  rcases h.auth.stored sid ctr hsid hctr with rfl | ⟨a, ha, rfl⟩
  · omega
  · obtain ⟨j, e, hj, hfrom, -⟩ := h.accepted_source hs ha
    have hij : j = i := h.owner_unique hj ⟨c, response, hc, hr⟩
    subst hij
    have hlt := (h.clients.client j c hc).below (by rcases hphase with hp | hp <;> rw [hp] <;> simp)
      e (mem_sealingsOf.mpr hfrom.sealed)
    rw [hfrom.packet, Sealing.packet_counter]
    omega

theorem Inv.opens {w : World} {key : ByteArr 32} (h : w.Inv X key) (hgcm : X.GcmCorrect)
    {sid : Bytes} (hsid : w.server.sessions.get? sid = some key) {i : Nat} (hi : w.Owns i key) {e : Sealing}
    (he : e ∈ w.sealingsOf (.client i))
    (hfirst : ∀ a ∈ w.acceptedOf (w.current sid), packetCounter a.packet < e.counter) :
    Opens X w.server (sid ++ e.packet X) key e.plaintext := by
  obtain ⟨s, hs, rfl, -⟩ := h.sessions.session sid key hsid
  have hlen : s.sid.length = 16 := h.sessions.sidLength s (List.mem_of_getElem? hs)
  have hkey : e.key = key := h.clients.owner_sealing_key hi he
  subst hkey
  apply opens_packet hgcm hlen hsid
  obtain ⟨ctr, hctr⟩ := h.sessions.table.exists_counter hsid
  rw [Server.lastCounter, hctr, Option.getD_some]
  rcases h.auth.stored s.sid ctr hsid hctr with rfl | ⟨a, ha, rfl⟩
  · omega
  · have := hfirst a ha
    omega

/-- After every run against ideal AES-GCM with distinct sessions, for every session in the table: the
stored counter is below that of the owner in its telemetry loop; and a packet of the owner that
arrives before any packet of this session with the same or a higher counter was accepted is not taken
for a replay, but accepted. -/
theorem owner_not_locked_out (X : Externals) (hgcm : X.GcmCorrect) (es : List Event)
    (hg : Guarded (World.step X) (IdealGcm X) init es) :
    let w := run (World.step X) init es
    ∀ sid key, w.server.sessions.get? sid = some key → ∀ i c response, w.clients[i]? = some c →
      c.agreed = some (response, key) →
        (c.task.phase = .loop ∨ c.task.phase = .posted →
          ∃ ctr, w.server.sessionCounters.get? sid = some ctr ∧
            ctr < c.task.ctx.telemetryCounter.toNat) ∧
        ∀ e ∈ w.sealingsOf (.client i),
          (∀ a ∈ w.acceptedOf (w.current sid), packetCounter a.packet < e.counter) →
            ∀ env, (telemetryRoute X env w.server (sid ++ e.packet X)).dict ≠ errorDict replayText ∧
              (telemetryRoute X env w.server (sid ++ e.packet X)).reply.status = 200 := by
  intro w sid key hsid i c response hc hr
  have h : w.Inv X key := run_auth hgcm hg key
  constructor
  · intro hphase
    obtain ⟨ctr, hctr⟩ := h.sessions.table.exists_counter hsid
    exact ⟨ctr, hctr, h.stored_lt hsid hc hr hphase hctr⟩
  · intro e he hfirst env
    have hopens := h.opens hgcm hsid ⟨c, response, hc, hr⟩ he hfirst
    obtain ⟨t, hsmall, hplain⟩ := (h.clients.client i c hc).payload e he
    rw [hplain] at hopens
    rw [telemetryRoute_of_payload hsmall env hopens]
    refine ⟨?_, rfl⟩
    intro heq
    have herr := telemetryRecord_noError env.receivedAt t
    simp only at heq
    rw [heq] at herr
    exact herr (errorDict_hasError _)

theorem owner_not_locked_out_reference :
    ∃ c ∈ (Reference.world 5).clients[0]?, ∃ ctr,
      (Reference.world 5).server.sessionCounters.get? Reference.sessionId.toList = some ctr ∧
        ctr < c.task.ctx.telemetryCounter.toNat := by
  have hg : Guarded (World.step Reference.externals) (IdealGcm Reference.externals) init
      (Reference.events.take 5) := (guarded_append.mp reference_idealGcm).1
  have hsid : (Reference.world 5).server.sessions.get? Reference.sessionId.toList =
      some Reference.sessionKey := by decide +kernel
  obtain ⟨c, hc, hphase, p, hp, hkey⟩ : ∃ c ∈ (Reference.world 5).clients[0]?,
      c.task.phase = .posted ∧ ∃ p ∈ c.agreed, p.2 = Reference.sessionKey := by decide +kernel
  obtain ⟨response, key⟩ := p
  simp only at hkey
  subst hkey
  exact ⟨c, hc, (owner_not_locked_out Reference.externals Reference.gcmCorrect _ hg _ _ hsid 0 c response
    hc hp).1 (.inr hphase)⟩

end World

end HybridPqc
