import HybridPqc.Device.Proofs.HandshakeProofs
import HybridPqc.Device.Proofs.PacketProofs
import HybridPqc.Device.Proofs.PayloadProofs
import HybridPqc.Device.Task

/-!
# What the client task can do

`Transition` lists the ways in which an event changes a task, with the sealing and the posted body it
gives rise to. The counter of a task is bounded by the packets acknowledged and the errors since the
last of them, so it never comes near the end of its 32 bits.
-/

namespace HybridPqc

namespace Device

/-- The sealing that an iteration of the telemetry loop performs. -/
def nextSealing (env : SendEnv) (d : Device) : Sealing where
  key := d.ctx.sessionKey
  iv := telemetryIv d.ctx.telemetryCounter env.encrypt.random
  plaintext := jsonPayload (d.nextTelemetry env)

/-- The task with its counter consumed and its sequence number advanced. -/
def sealedNext (d : Device) : Device :=
  { d with
    telemetrySeq := d.telemetrySeq + 1
    ctx := { d.ctx with telemetryCounter := d.ctx.telemetryCounter + 1 } }

/-- Everything that an event can do to a task: the task after it, the sealing performed and the body
posted. -/
inductive Transition (X : Externals) (d : Device) :
    DeviceEvent → Device → Option Sealing → Option Bytes → Prop
  /-- The task does not wait for this event. -/
  | idle (e : DeviceEvent) : Transition X d e d none none
  /-- The pass ends and the context is wiped. -/
  | stop (e : DeviceEvent) (d' : Device) (hphase : d'.phase = .done)
      (hctx : d'.ctx = hybridCleanup) : Transition X d e d' none none
  /-- The response completes the handshake. -/
  | agree (env : ResponseEnv) (response : Bytes) (hphase : d.phase = .handshake)
      (h : Agrees X env d.ctx response) :
      Transition X d (.response env (some response))
        { d with
          ctx := agreedCtx X d.ctx response
          sessionId := response.take 16
          telemetryErrors := 0
          packetsSent := 0
          phase := .loop } none none
  /-- An iteration fails before it has a nonce. -/
  | skip (env : SendEnv) (hphase : d.phase = .loop) (herrors : d.telemetryErrors < 3)
      (hsent : d.packetsSent < 50) :
      Transition X d (.send env)
        { d with telemetrySeq := d.telemetrySeq + 1, telemetryErrors := d.telemetryErrors + 1 }
        none none
  /-- An encryption fails after its nonce was used. -/
  | spoil (env : SendEnv) (hphase : d.phase = .loop) (herrors : d.telemetryErrors < 3)
      (hsent : d.packetsSent < 50) :
      Transition X d (.send env)
        { d.sealedNext with telemetryErrors := d.telemetryErrors + 1 }
        (some (d.nextSealing env)) none
  /-- A packet is posted. -/
  | post (env : SendEnv) (hphase : d.phase = .loop) (herrors : d.telemetryErrors < 3)
      (hsent : d.packetsSent < 50) :
      Transition X d (.send env) { d.sealedNext with phase := .posted }
        (some (d.nextSealing env)) (some (d.sessionId ++ (d.nextSealing env).packet X))
  /-- No reply, or one that is refused. -/
  | refuse (env : DecryptEnv) (reply : Option Bytes) (hphase : d.phase = .posted)
      (h : d.acceptedReply X env reply = none) :
      Transition X d (.reply env reply)
        { d with telemetryErrors := d.telemetryErrors + 1, phase := .loop } none none
  /-- The reply decrypts. -/
  | accept (env : DecryptEnv) (reply plaintext : Bytes) (hphase : d.phase = .posted)
      (h : hybridDecryptResponse X env d.ctx reply = some plaintext) :
      Transition X d (.reply env (some reply))
        { d with
          telemetryErrors := 0
          packetsSent := d.packetsSent + 1
          phase := .loop } none none

variable {X : Externals}

theorem onResponse_of_agrees {env : ResponseEnv} {response : Bytes} {d : Device}
    (h : Agrees X env d.ctx response) : d.onResponse X env (some response) =
      { d with
        ctx := agreedCtx X d.ctx response
        sessionId := response.take 16
        telemetryErrors := 0
        packetsSent := 0
        phase := .loop } := by
  have hlen := h.length
  unfold onResponse
  simp only
  rw [if_neg (by omega), hybridProcessServerResponse_of_agrees h]
  rfl

theorem transition_onResponse (env : ResponseEnv) (response : Option Bytes) {d : Device}
    (hphase : d.phase = .handshake) :
    Transition X d (.response env response) (d.onResponse X env response) none none := by
  cases response with
  | none => exact .stop _ _ rfl rfl
  | some bytes =>
    by_cases h : Agrees X env d.ctx bytes
    · rw [onResponse_of_agrees h]
      exact .agree env bytes hphase h
    unfold onResponse
    by_cases hlen : bytes.length < 16
    · simp only [if_pos hlen]
      exact .stop _ _ rfl rfl
    · simp only [if_neg hlen]
      rw [if_pos (by rw [hybridProcessServerResponse_of_refused h]; decide)]
      exact .stop _ _ rfl rfl

theorem transition_onSend (env : SendEnv) {d : Device} (hphase : d.phase = .loop) :
    Transition X d (.send env) (d.onSend X env).device (d.onSend X env).sealing
      (d.onSend X env).body := by
  unfold onSend
  by_cases hend : 3 ≤ d.telemetryErrors ∨ 50 ≤ d.packetsSent
  · rw [if_pos hend]
    exact .stop _ _ rfl rfl
  rw [if_neg hend]
  have herrors : d.telemetryErrors < 3 := by omega
  have hsent : d.packetsSent < 50 := by omega
  rcases hybridEncryptTelemetry_cases (X := X) env.encrypt d.ctx (jsonPayload (d.nextTelemetry env))
    with ⟨hret, hctx, hseal⟩ | ⟨-, hctx, hseal, hout⟩
  · simp only [hret, ne_eq, not_false_eq_true, if_true, hctx, hseal]
    exact .skip env hphase herrors hsent
  · by_cases hret : (hybridEncryptTelemetry X env.encrypt d.ctx
        (jsonPayload (d.nextTelemetry env))).ret = 0
    · simp only [hret, ne_eq, not_true_eq_false, if_false, hctx, hseal, hout hret]
      exact .post env hphase herrors hsent
    · simp only [hret, ne_eq, not_false_eq_true, if_true, hctx, hseal]
      exact .spoil env hphase herrors hsent

theorem transition_onReply (env : DecryptEnv) (reply : Option Bytes) {d : Device}
    (hphase : d.phase = .posted) :
    Transition X d (.reply env reply) (d.onReply X env reply) none none := by
  unfold onReply
  cases hacc : d.acceptedReply X env reply with
  | none => exact .refuse env reply hphase hacc
  | some plaintext =>
    cases reply with
    | none => cases hacc
    | some bytes => exact .accept env bytes plaintext hphase hacc

theorem step_transition (X : Externals) (d : Device) (e : DeviceEvent) :
    Transition X d e (d.step X e) (d.sealing? X e) (d.posted? X e) := by
  cases e with
  | response env response =>
    show Transition X d _ (if d.phase = .handshake then _ else d) none none
    split
    · next h => exact transition_onResponse env response h
    · exact .idle _
  | send env =>
    unfold step sealing? posted?
    by_cases h : d.phase = .loop
    · simp only [if_pos h]
      exact transition_onSend env h
    · simp only [if_neg h]
      exact .idle _
  | reply env reply =>
    show Transition X d _ (if d.phase = .posted then _ else d) none none
    split
    · next h => exact transition_onReply env reply h
    · exact .idle _

/-! ## The counter -/

/-- What holds of a task whose context held fresh keys when the pass began: before the handshake the
counter is zero; in the loop every acknowledged packet and every error since accounts for the counter
values consumed. -/
structure LoopInv (d : Device) : Prop where
  handshake : d.phase = .handshake → d.ctx.handshakeComplete = false ∧ d.ctx.telemetryCounter = 0
  complete : d.phase = .loop ∨ d.phase = .posted → d.ctx.handshakeComplete = true
  loop : d.phase = .loop →
    d.ctx.telemetryCounter.toNat ≤ 3 * d.packetsSent + d.telemetryErrors ∧ d.telemetryErrors ≤ 3 ∧
      (d.packetsSent < 50 ∨ d.packetsSent = 50 ∧ d.telemetryErrors = 0)
  posted : d.phase = .posted →
    0 < d.ctx.telemetryCounter.toNat ∧
      d.ctx.telemetryCounter.toNat ≤ 3 * d.packetsSent + d.telemetryErrors + 1 ∧
      d.telemetryErrors < 3 ∧ d.packetsSent < 50
  done : d.phase = .done → d.ctx = hybridCleanup

theorem LoopInv.start (mode : Mode) (keys : KeyPairs) (seq : UInt32) :
    (Device.start (keyedCtx mode keys) seq).LoopInv := by
  refine ⟨fun _ => ⟨rfl, rfl⟩, ?_, ?_, ?_, ?_⟩
  · rintro (hp | hp) <;> cases hp
  · intro hp
    cases hp
  · intro hp
    cases hp
  · intro hp
    cases hp

/-- At most 150 nonces are used under one session key. -/
theorem LoopInv.counter_le {d : Device} (h : d.LoopInv) : d.ctx.telemetryCounter.toNat ≤ 150 := by
  cases hp : d.phase with
  | handshake =>
    rw [(h.handshake hp).2]
    decide
  | loop =>
    have := h.loop hp
    omega
  | posted =>
    have := h.posted hp
    omega
  | done =>
    rw [h.done hp]
    decide

theorem counter_succ {c : UInt32} (h : c.toNat ≤ 150) : (c + 1).toNat = c.toNat + 1 := by
  have h1 : (1 : UInt32).toNat = 1 := rfl
  rw [UInt32.toNat_add, h1]
  omega

theorem LoopInv.step {d : Device} (h : d.LoopInv) (e : DeviceEvent) : (d.step X e).LoopInv := by
  have hle := h.counter_le
  have ht := step_transition X d e
  generalize d.step X e = d' at ht
  generalize d.sealing? X e = sealing at ht
  generalize d.posted? X e = body at ht
  cases ht with
  | idle => exact h
  | stop _ _ hphase hctx =>
    refine ⟨?_, ?_, ?_, ?_, fun _ => hctx⟩ <;> rw [hphase] <;> simp
  | agree env response hphase hag =>
    have hzero : (agreedCtx X d.ctx response).telemetryCounter = 0 := (h.handshake hphase).2
    refine ⟨?_, fun _ => rfl, ?_, ?_, ?_⟩
    · simp
    · intro _
      simp [hzero]
    · simp
    · simp
  | skip env hphase herrors hsent =>
    have hl := h.loop hphase
    refine ⟨?_, fun _ => h.complete (.inl hphase), ?_, ?_, ?_⟩
    · simp [hphase]
    · intro _
      simp only
      omega
    · simp [hphase]
    · simp [hphase]
  | spoil env hphase herrors hsent =>
    have hl := h.loop hphase
    refine ⟨?_, fun _ => h.complete (.inl hphase), ?_, ?_, ?_⟩
    · simp [sealedNext, hphase]
    · intro _
      simp only [sealedNext, counter_succ hle]
      omega
    · simp [sealedNext, hphase]
    · simp [sealedNext, hphase]
  | post env hphase herrors hsent =>
    have hl := h.loop hphase
    refine ⟨?_, fun _ => h.complete (.inl hphase), ?_, ?_, ?_⟩
    · simp
    · simp
    · intro _
      simp only [sealedNext, counter_succ hle]
      omega
    · simp
  | refuse env reply hphase hreply =>
    have hp := h.posted hphase
    refine ⟨?_, fun _ => h.complete (.inr hphase), ?_, ?_, ?_⟩
    · simp
    · intro _
      simp only
      omega
    · simp
    · simp
  | accept env reply plaintext hphase hreply =>
    have hp := h.posted hphase
    refine ⟨?_, fun _ => h.complete (.inr hphase), ?_, ?_, ?_⟩
    · simp
    · intro _
      simp only [and_true]
      omega
    · simp
    · simp

end Device

end HybridPqc
