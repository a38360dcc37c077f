import HybridPqc.Network.Proofs.IntegrityProofs

/-!
# Whom a client's acknowledgement comes from

A reply that decrypts carries the counter of the packet just posted, so it is either the
acknowledgement that the server encrypted for that packet, after it had accepted it, or the posted
packet itself: both directions use one key and one counter, and nothing tells them apart.
-/

open GuardedRuns

namespace HybridPqc

namespace World

/-- The server has accepted the packet that the client posted last: its record is in the log and its
counter is the one stored for the session, as long as the session is in the table. The reply is the
acknowledgement encrypted for it, and `plaintext` its text. -/
structure Acknowledged (X : Externals) (w : World) (c : Client) (reply plaintext : Bytes) : Prop where
  accepted : ∃ a ∈ w.accepted, c.posted.drop 16 = a.packet ∧
    .obj a.record ∈ w.server.telemetryLog ∧
    (∀ sid key, w.server.sessions.get? sid = some key → w.current sid = a.session →
      w.server.sessionCounters.get? sid = some (packetCounter a.packet : Int)) ∧
    ∃ ack, a.ack = some ack ∧ AckOf X w.sessions a ack ∧ ack.packet X = reply ∧
      ack.plaintext = plaintext

variable {X : Externals}

theorem posted_packet {c : Client} {es : List Sealing} (h : ClientInv X c es)
    (hphase : c.task.phase = .posted) :
    ∃ e ∈ es, c.posted.drop 16 = e.packet X ∧ e.counter + 1 = c.task.ctx.telemetryCounter.toNat ∧
      e.key = c.task.ctx.sessionKey := by
  obtain ⟨e, he, hposted, hctr⟩ := h.posted hphase
  obtain ⟨response, hr, hsid, hlen⟩ := h.live (.inr hphase)
  obtain ⟨response', hr'⟩ := h.key e he
  rw [hr, Option.some.injEq, Prod.mk.injEq] at hr'
  refine ⟨e, he, ?_, hctr, hr'.2.symm⟩
  rw [hposted, hsid]
  exact List.drop_left' (by simp [hlen])

theorem sealing_eq_of_counter {c : Client} {es : List Sealing} (h : ClientInv X c es) {e e' : Sealing}
    (he : e ∈ es) (he' : e' ∈ es) (hctr : e.counter = e'.counter) : e = e' :=
  List.inj_on_of_nodup_map (h.order.imp fun hlt => Nat.ne_of_lt hlt) he he' hctr

theorem expected_counter {c : Client} {es : List Sealing} (h : ClientInv X c es)
    (hphase : c.task.phase = .posted) {e : Sealing}
    (hctr : e.counter + 1 = c.task.ctx.telemetryCounter.toNat) :
    (c.task.ctx.telemetryCounter - 1).toNat = e.counter := by
  have hpos := (h.loop.posted hphase).1
  have h1 : (1 : UInt32).toNat = 1 := rfl
  rw [UInt32.toNat_sub_of_le _ _ (by rw [UInt32.le_iff_toNat_le]; exact hpos)]
  omega

/-- As long as its client waits, the counter stored for a session is that of the record accepted with
the counter of the packet posted. -/
theorem Inv.stored_eq {w : World} {key : ByteArr 32} (h : w.Inv X key) {i : Nat} {c : Client}
    (hc : w.clients[i]? = some c) (hphase : c.task.phase = .posted) {a : Acceptance} (ha : a ∈ w.accepted)
    (hctr : packetCounter a.packet + 1 = c.task.ctx.telemetryCounter.toNat) {sid : Bytes}
    (hsid : w.server.sessions.get? sid = some key)
    (hcur : w.current sid = a.session) {response : Bytes} (hr : c.agreed = some (response, key)) :
    w.server.sessionCounters.get? sid = some (packetCounter a.packet : Int) := by
  obtain ⟨ctr, hstored⟩ := h.sessions.table.exists_counter hsid
  have hlt := h.stored_lt hsid hc hr (.inr hphase) hstored
  have hle := h.sessions.bound sid ctr hstored a (mem_acceptedOf.mpr ⟨ha, hcur.symm⟩)
  rw [hstored]
  congr 1
  omega

/-- An acknowledgement under the client's key with the counter of the packet posted is the one that
the server encrypted for this packet. -/
theorem Inv.acknowledged {w : World} {c : Client} (h : w.Inv X c.task.ctx.sessionKey)
    (hgcm : X.GcmCorrect) {i : Nat} (hc : w.clients[i]? = some c) (hphase : c.task.phase = .posted)
    {k : Nat} {e : Sealing} (he : (Sender.server k, e) ∈ w.sealings) (hkey : e.key = c.task.ctx.sessionKey)
    (hctr : e.counter + 1 = c.task.ctx.telemetryCounter.toNat) {plaintext : Bytes}
    (hopen : openPacket X c.task.ctx.sessionKey (e.packet X) = some plaintext) :
    Acknowledged X w c (e.packet X) plaintext := by
  have hinv := h.clients.client i c hc
  obtain ⟨e₀, he₀, hposted, hctr₀, -⟩ := posted_packet hinv hphase
  obtain ⟨response, hr, -⟩ := hinv.live (.inr hphase)
  obtain ⟨a, ha, hack, hof⟩ := h.sessions.sealing he
  obtain ⟨hmem, hsession⟩ := mem_acceptedOf.mp ha
  obtain ⟨s, hs, hskey⟩ := hof.key
  have hk : w.sessions[k]? = some s := hsession ▸ hs
  have hown : s.key = c.task.ctx.sessionKey := by rw [← hskey, hkey]
  rw [← hown] at h hr
  -- The record comes from the owner of the session, which is this client, so from the packet posted.
  obtain ⟨j, e', hj, hfrom, -⟩ := h.accepted_source hk ha
  have hij : j = i := h.owner_unique hj ⟨c, response, hc, hr⟩
  subst hij
  have he' : e' = e₀ := by
    refine sealing_eq_of_counter hinv (mem_sealingsOf.mpr hfrom.sealed) he₀ ?_
    have hsame : e.counter = e'.counter := by rw [hof.counter, hfrom.packet, Sealing.packet_counter]
    omega
  subst he'
  refine ⟨a, hmem, by rw [hposted, hfrom.packet], ?_, fun sid key' hsid hcur => ?_, e, hack, hof, rfl,
    ?_⟩
  · rw [h.sessions.log]
    exact List.mem_map_of_mem hmem
  · obtain ⟨s', hs', -, hskey'⟩ := h.sessions.session sid key' hsid
    rw [hcur, hs, Option.some.injEq] at hs'
    subst hs'
    rw [← hskey'] at hsid
    exact h.stored_eq hc hphase hmem (by rw [← hof.counter]; exact hctr) hsid hcur hr
  · have hopen' := Sealing.openPacket_packet X e hgcm
    rw [hkey, hopen, Option.some.injEq] at hopen'
    exact hopen'.symm

/-- A reply that decrypts is the posted packet, or its acknowledgement by the server. -/
theorem Inv.reply_cases {w : World} {c : Client} (h : w.Inv X c.task.ctx.sessionKey)
    (hgcm : X.GcmCorrect) {i : Nat} (hc : w.clients[i]? = some c) (hphase : c.task.phase = .posted)
    {env : DecryptEnv} {reply plaintext : Bytes} (hg : GcmIdeal X w (.client i (.reply env (some reply))))
    (hdec : hybridDecryptResponse X env c.task.ctx reply = some plaintext) :
    reply = c.posted.drop 16 ∨ Acknowledged X w c reply plaintext := by
  have hinv := h.clients.client i c hc
  obtain ⟨-, -, -, -, hctr, hopen⟩ := hybridDecryptResponse_eq_some.mp hdec
  obtain ⟨e₀, he₀, hposted, hctr₀, -⟩ := posted_packet hinv hphase
  obtain ⟨⟨sender, e⟩, hmem, hkey, hpacket⟩ := hg c plaintext hc hphase hopen
  simp only at hkey hpacket
  subst hpacket
  rw [Sealing.packet_counter, expected_counter hinv hphase hctr₀] at hctr
  cases sender with
  | client j =>
    left
    obtain ⟨response, hr, -⟩ := hinv.live (.inr hphase)
    have hij : j = i :=
      h.owner_unique (hkey ▸ h.clients.sealing_owner hmem) ⟨c, response, hc, hr⟩
    subst hij
    rw [hposted, sealing_eq_of_counter hinv (mem_sealingsOf.mpr hmem) he₀ hctr]
  | server k =>
    right
    exact h.acknowledged hgcm hc hphase hmem hkey (by omega) hopen

/-- The text of the posted packet is not an acknowledgement. -/
theorem ClientsInv.not_acknowledged_of_posted {w : World} (h : w.ClientsInv X)
    (hgcm : X.GcmCorrect) {i : Nat} {c : Client} (hc : w.clients[i]? = some c)
    (hphase : c.task.phase = .posted) {env : DecryptEnv} {plaintext : Bytes}
    (hdec : hybridDecryptResponse X env c.task.ctx (c.posted.drop 16) = some plaintext) :
    ¬ Acknowledged X w c (c.posted.drop 16) plaintext := by
  rintro ⟨a, -, -, -, -, ack, -, hof, -, hplain⟩
  have hinv := h.client i c hc
  obtain ⟨-, -, -, -, -, hopen⟩ := hybridDecryptResponse_eq_some.mp hdec
  obtain ⟨e, he, hposted, -, hkey⟩ := posted_packet hinv hphase
  obtain ⟨t, hsmall, hpayload⟩ := hinv.payload e he
  obtain ⟨serverTime, htext⟩ := hof.plaintext
  have hopen' := Sealing.openPacket_packet X e hgcm
  rw [hkey, ← hposted, hopen, Option.some.injEq, ← hplain, htext, hpayload] at hopen'
  exact ack_ne_payload X serverTime a.record hsmall hopen'

/-- In every run against ideal AES-GCM, when a client that has posted a packet decrypts a reply under a
key of its own and of one session: the reply is the server's acknowledgement of that packet, which the
server had accepted, exactly when it is not the posted packet itself. -/
theorem acknowledgement_authentic_iff (X : Externals) (hgcm : X.GcmCorrect) (es : List Event) (i : Nat)
    (env : DecryptEnv) (reply : Bytes)
    (hg : Guarded (World.step X) (GcmIdeal X) init (es ++ [.client i (.reply env (some reply))])) :
    let w := run (World.step X) init es
    ∀ c plaintext, w.clients[i]? = some c → c.task.phase = .posted →
      w.OneClient c.task.ctx.sessionKey → w.OneSession c.task.ctx.sessionKey →
        hybridDecryptResponse X env c.task.ctx reply = some plaintext →
          (Acknowledged X w c reply plaintext ↔ reply ≠ c.posted.drop 16) := by
  intro w c plaintext hc hphase hclient hsession hdec
  obtain ⟨hes, hlast⟩ := guarded_append.mp hg
  have h : w.Inv X c.task.ctx.sessionKey := run_key hgcm hes hclient hsession
  constructor
  · rintro hack rfl
    exact h.clients.not_acknowledged_of_posted hgcm hc hphase hdec hack
  · intro hne
    exact (h.reply_cases hgcm hc hphase hlast.1 hdec).resolve_left hne

theorem acknowledgement_authentic_iff_reference :
    ∃ c ∈ (Reference.world 5).clients[0]?,
      Acknowledged Reference.externals (Reference.world 5) c Reference.ack Reference.ackText := by
  obtain ⟨c, hc, hphase, hdec, hne⟩ : ∃ c ∈ (Reference.world 5).clients[0]?,
      c.task.phase = .posted ∧
        hybridDecryptResponse Reference.externals ⟨0, 0⟩ c.task.ctx Reference.ack =
          some Reference.ackText ∧ Reference.ack ≠ c.posted.drop 16 := by decide +kernel
  have hg : Guarded (World.step Reference.externals) (GcmIdeal Reference.externals) init
      (Reference.events.take 5 ++ [.client 0 (.reply ⟨0, 0⟩ (some Reference.ack))]) :=
    reference_idealGcm.mono fun _ _ hP => hP.1
  have h : (Reference.world 5).Inv Reference.externals c.task.ctx.sessionKey :=
    run_auth Reference.gcmCorrect (guarded_append.mp reference_idealGcm).1 _
  exact ⟨c, hc, (acknowledgement_authentic_iff Reference.externals Reference.gcmCorrect
    (Reference.events.take 5) 0 ⟨0, 0⟩ Reference.ack hg c _ hc hphase h.oneClient h.oneSession
    hdec).mpr hne⟩

/-- The attacker keeps the client's packet from the server and returns it to the client, which takes it
for an acknowledgement of itself. -/
theorem packet_reflected :
    Guarded (World.step Reference.externals) (IdealGcm Reference.externals) init
        (Reference.events.take 4 ++ [.client 0 (.reply ⟨0, 0⟩ (some Reference.packet))]) ∧
      (Reference.world 4).server.telemetryLog = [] ∧
      ∃ c ∈ (Reference.world 4).clients[0]?, c.task.phase = .posted ∧
        hybridDecryptResponse Reference.externals ⟨0, 0⟩ c.task.ctx Reference.packet =
          some Reference.packetText ∧
        ¬ Acknowledged Reference.externals (Reference.world 4) c Reference.packet
          Reference.packetText := by
  have hg : Guarded (World.step Reference.externals) (IdealGcm Reference.externals) init
      (Reference.events.take 4) := (guarded_append.mp reference_idealGcm).1
  have hnone : (Reference.world 4).accepted.length = 0 := by decide +kernel
  have hlog : (Reference.world 4).server.telemetryLog.length = 0 := by decide +kernel
  obtain ⟨c, hc, hphase, hkey, hdec⟩ : ∃ c ∈ (Reference.world 4).clients[0]?,
      c.task.phase = .posted ∧ c.task.ctx.sessionKey = Reference.sessionKey ∧
        hybridDecryptResponse Reference.externals ⟨0, 0⟩ c.task.ctx Reference.packet =
          some Reference.packetText := by decide +kernel
  refine ⟨guarded_append.mpr ⟨hg, ⟨?_, trivial⟩, trivial⟩, List.eq_nil_of_length_eq_zero hlog, c, hc,
    hphase, hdec, ?_⟩
  · intro c' plaintext hc' _ _
    have heq : some c = some c' := hc.symm.trans hc'
    rw [← Option.some.inj heq, hkey]
    exact produced_packet
  · rintro ⟨a, ha, -⟩
    rw [List.eq_nil_of_length_eq_zero hnone] at ha
    cases ha

end World

end HybridPqc
