import HybridPqc.Device.Telemetry

/-!
# Packets

Both programs cut a packet into nonce, ciphertext and tag. `openPacket` is what a packet decrypts to
under a key; a packet that a sealing produced opens to its plaintext, and determines nonce, ciphertext
and tag.
-/

namespace HybridPqc

/-- The plaintext of a packet under a key, `none` when its tag does not verify. -/
def openPacket (X : Externals) (key : ByteArr 32) (packet : Bytes) : Option Bytes :=
  X.gcmDecrypt key (ByteArr.ofBytes 12 packet) ((packet.drop 12).rdrop 16)
    (ByteArr.ofBytes 16 (packet.rtake 16))

/-- The counter in the first four bytes of a packet. -/
def packetCounter (packet : Bytes) : Nat := Bytes.ofBigEndian (packet.take 4)

namespace Sealing

variable (X : Externals) (e : Sealing)

theorem ciphertext_length : (e.ciphertext X).length = e.plaintext.length :=
  X.gcmEncrypt_length _ _ _

theorem packet_length : (e.packet X).length = 28 + e.plaintext.length := by
  simp only [packet, List.length_append, List.Vector.toList_length, ciphertext_length]
  omega

theorem packet_iv : ByteArr.ofBytes 12 (e.packet X) = e.iv := by
  rw [packet, List.append_assoc]
  exact ByteArr.ofBytes_append _ _

theorem packet_ciphertext : ((e.packet X).drop 12).rdrop 16 = e.ciphertext X := by
  have hdrop : (e.packet X).drop 12 = e.ciphertext X ++ (e.tag X).toList := by
    rw [packet, List.append_assoc]
    exact List.drop_left' (by simp)
  rw [hdrop, List.rdrop]
  exact List.take_left' (by simp)

theorem packet_tag : ByteArr.ofBytes 16 ((e.packet X).rtake 16) = e.tag X := by
  have htake : (e.packet X).rtake 16 = (e.tag X).toList := by
    rw [packet, List.rtake]
    exact List.drop_left' (by simp; omega)
  rw [htake, ByteArr.ofBytes_toList]

theorem packet_counter : packetCounter (e.packet X) = e.counter := by
  rw [packetCounter, counter, packet, List.append_assoc, List.take_append_of_le_length (by simp)]

theorem openPacket_packet (hgcm : X.GcmCorrect) :
    openPacket X e.key (e.packet X) = some e.plaintext := by
  rw [openPacket, packet_iv, packet_ciphertext, packet_tag]
  exact hgcm e.key e.iv e.plaintext

end Sealing

/-! ## The client's side -/

section

variable {X : Externals}

theorem telemetryIv_counter (key : ByteArr 32) (count : UInt32) (random : ByteArr 8)
    (plaintext : Bytes) :
    Sealing.counter ⟨key, telemetryIv count random, plaintext⟩ = count.toNat := by
  show Bytes.ofBigEndian ((Bytes.ofUInt32 count ++ random.toList).take 4) = _
  rw [List.take_append_of_le_length (by simp), List.take_of_length_le (by simp),
    Bytes.ofBigEndian_ofUInt32]

theorem received_counter {packet : Bytes} (h : 4 ≤ packet.length) :
    (Bytes.toUInt32 (packet.getD 0 0) (packet.getD 1 0) (packet.getD 2 0)
      (packet.getD 3 0)).toNat = packetCounter packet := by
  rw [Bytes.toNat_toUInt32, packetCounter]
  match packet, h with
  | _ :: _ :: _ :: _ :: _, _ => rfl

/-- Decryption succeeds exactly on a packet that opens under the session key and carries the counter
of the packet encrypted last. -/
theorem hybridDecryptResponse_eq_some {env : DecryptEnv} {ctx : HybridCtx} {reply plaintext : Bytes} :
    hybridDecryptResponse X env ctx reply = some plaintext ↔
      ctx.handshakeComplete = true ∧ 28 ≤ reply.length ∧ env.setkeyRet = 0 ∧
        env.decryptRet = 0 ∧ packetCounter reply = (ctx.telemetryCounter - 1).toNat ∧
        openPacket X ctx.sessionKey reply = some plaintext := by
  unfold hybridDecryptResponse
  by_cases hc : ctx.handshakeComplete = false
  · simp [hc]
  rw [if_neg hc]
  by_cases hlen : reply.length < 12 + 16
  · rw [if_pos hlen]
    simp only [reduceCtorEq, false_iff]
    rintro ⟨-, h, -⟩
    omega
  rw [if_neg hlen]
  by_cases hkey : env.setkeyRet ≠ 0
  · simp [hkey]
  rw [if_neg hkey]
  have hlen' : 28 ≤ reply.length := by omega
  have hcount : (Bytes.toUInt32 (reply.getD 0 0) (reply.getD 1 0) (reply.getD 2 0)
      (reply.getD 3 0) ≠ ctx.telemetryCounter - 1) ↔
      ¬ packetCounter reply = (ctx.telemetryCounter - 1).toNat := by
    rw [← received_counter (by omega : 4 ≤ reply.length)]
    exact not_congr UInt32.toNat_inj.symm
  by_cases hctr : packetCounter reply = (ctx.telemetryCounter - 1).toNat
  · rw [if_neg (by rw [hcount]; exact not_not.mpr hctr)]
    have hct : (reply.drop 12).take (reply.length - 12 - 16) = (reply.drop 12).rdrop 16 := by
      rw [List.rdrop, List.length_drop]
    have htag : reply.drop (12 + (reply.length - 12 - 16)) = reply.rtake 16 := by
      rw [List.rtake]
      congr 1
      omega
    simp only [hct, htag]
    simp only [Bool.not_eq_false] at hc
    simp only [ne_eq, not_not] at hkey
    unfold openPacket
    cases X.gcmDecrypt ctx.sessionKey (ByteArr.ofBytes 12 reply) ((reply.drop 12).rdrop 16)
      (ByteArr.ofBytes 16 (reply.rtake 16)) with
    | none => simp
    | some p =>
      by_cases hdec : env.decryptRet = 0 <;> simp [hc, hlen', hkey, hctr, hdec]
  · rw [if_pos (hcount.mpr hctr)]
    simp [hctr]

/-- What one encryption does: at most one sealing, under the session key and with the current counter,
which it consumes. -/
theorem hybridEncryptTelemetry_cases (env : EncryptEnv) (ctx : HybridCtx) (plaintext : Bytes) :
    ((hybridEncryptTelemetry X env ctx plaintext).ret ≠ 0 ∧
        (hybridEncryptTelemetry X env ctx plaintext).ctx = ctx ∧
        (hybridEncryptTelemetry X env ctx plaintext).sealing = none) ∨
      (ctx.handshakeComplete = true ∧
        (hybridEncryptTelemetry X env ctx plaintext).ctx =
          { ctx with telemetryCounter := ctx.telemetryCounter + 1 } ∧
        (hybridEncryptTelemetry X env ctx plaintext).sealing =
          some ⟨ctx.sessionKey, telemetryIv ctx.telemetryCounter env.random, plaintext⟩ ∧
        ((hybridEncryptTelemetry X env ctx plaintext).ret = 0 →
          (hybridEncryptTelemetry X env ctx plaintext).out =
            Sealing.packet X
              ⟨ctx.sessionKey, telemetryIv ctx.telemetryCounter env.random, plaintext⟩)) := by
  unfold hybridEncryptTelemetry
  by_cases hc : ctx.handshakeComplete = false
  · left
    simp [hc]
  rw [if_neg hc]
  by_cases hkey : env.setkeyRet ≠ 0
  · left
    simp [hkey]
  rw [if_neg hkey]
  right
  by_cases hcrypt : env.cryptRet ≠ 0
  · simp [hcrypt, hc]
  · simp [hcrypt, hc]

end

end HybridPqc
