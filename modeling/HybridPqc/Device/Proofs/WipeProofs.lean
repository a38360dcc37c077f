import HybridPqc.Device.Proofs.HandshakeProofs
import HybridPqc.Reference

/-!
# Which secrets survive `hybrid_process_server_response`

The wiping stands after the key derivation, so the paths that return before it rely on having copied
nothing into `combined_secret` yet. One does not: in hybrid mode the X25519 secret is already there
when the ML-KEM-768 stage fails.
-/

namespace HybridPqc

variable {X : Externals}

/-- Whatever the stack held before, `combined_secret` ends as it was or zeroed: it holds no byte of a
computed secret. -/
def BufferClean (X : Externals) (env : ResponseEnv) (ctx : HybridCtx) (response : Bytes) : Prop :=
  ∀ stack : ByteArr 64,
    let r := hybridProcessServerResponse X { env with stack := stack } ctx response
    r.combinedSecret = stack.toList ∨ r.combinedSecret = List.replicate 64 0

/-- The private keys and shared secrets of the context are zero. -/
structure Wiped (ctx : HybridCtx) : Prop where
  x25519Privkey : ctx.x25519Privkey = ByteArr.zero 32
  x25519SharedSecret : ctx.x25519SharedSecret = ByteArr.zero 32
  mlkemSk : ctx.mlkemSk = ByteArr.zero 2400
  mlkemSharedSecret : ctx.mlkemSharedSecret = ByteArr.zero 32

theorem isZero_zero (n : Nat) : (ByteArr.zero n).isZero = true := by
  rw [ByteArr.isZero, ByteArr.zero_toList, beq_iff_eq, Bytes.foldl_or_eq_zero]
  exact ⟨rfl, fun b hb => List.eq_of_mem_replicate hb⟩

theorem FailsAtMlkem.stack {env : ResponseEnv} {ctx : HybridCtx} {response : Bytes}
    (h : FailsAtMlkem X env ctx response) (stack : ByteArr 64) :
    FailsAtMlkem X { env with stack := stack } ctx response := by
  refine ⟨h.length, h.hmac, h.tag, ?_, h.usesMlkem, ?_⟩
  · intro hx
    exact ⟨(h.x25519 hx).length, (h.x25519 hx).shared, (h.x25519 hx).secret⟩
  · intro hm
    exact h.mlkem ⟨hm.length, hm.decaps⟩

theorem FailsAtMlkem.not_agrees {env : ResponseEnv} {ctx : HybridCtx} {response : Bytes}
    (h : FailsAtMlkem X env ctx response) : ¬ Agrees X env ctx response :=
  fun hag => h.mlkem (hag.mlkem h.usesMlkem)

theorem usesX25519_of_hybrid {m : Mode} (hm : m.usesMlkem = true) :
    m.usesX25519 = true ↔ m = .hybrid := by
  cases m <;> simp_all [Mode.usesX25519, Mode.usesMlkem]

/-- A non-zero secret at the start of a zero buffer shows. -/
theorem overwrite_zero_ne {secret : ByteArr 32} (h : secret.isZero = false) :
    Bytes.overwrite (List.replicate 64 0) 0 secret.toList ≠ List.replicate 64 0 := by
  intro heq
  have htake : (Bytes.overwrite (List.replicate 64 0) 0 secret.toList).take 32 = secret.toList := by
    have hcut : (Bytes.overwrite (List.replicate 64 0) 0 secret.toList).take
        (0 + secret.toList.length) = _ := Bytes.take_overwrite (by simp)
    simpa using hcut
  have hzero : secret = ByteArr.zero 32 := by
    rw [← ByteArr.toList_inj, ← htake, heq]
    rfl
  rw [hzero, isZero_zero] at h
  cases h

/-- In every mode but the hybrid one no early return leaves a secret behind. -/
theorem bufferClean_iff {env : ResponseEnv} {ctx : HybridCtx} {response : Bytes} :
    BufferClean X env ctx response ↔
      ¬ (ctx.mode = .hybrid ∧ FailsAtMlkem X env ctx response) := by
  constructor
  · rintro hclean ⟨hmode, hfails⟩
    have hfails' := hfails.stack (ByteArr.zero 64)
    have hx : ctx.mode.usesX25519 = true := by rw [hmode]; rfl
    have hsecret := (hfails.x25519 hx).secret
    have hrefused := hybridProcessServerResponse_refused hfails'.not_agrees
    have hleft : (hybridProcessServerResponse X { env with stack := ByteArr.zero 64 } ctx
        response).combinedSecret = Bytes.overwrite (List.replicate 64 0) 0
          (X.x25519 ctx.x25519Privkey (serverX25519 response)).toList := by
      rcases hrefused.buffer with ⟨hnot, -⟩ | ⟨-, hbuf⟩
      · exact absurd hfails' hnot
      · rw [hbuf, afterX25519, if_pos hx]
        rfl
    rcases hclean (ByteArr.zero 64) with hbuf | hbuf
    · exact overwrite_zero_ne hsecret (hleft.symm.trans hbuf)
    · exact overwrite_zero_ne hsecret (hleft.symm.trans hbuf)
  · intro hnot stack r
    by_cases hag : Agrees X { env with stack := stack } ctx response
    · right
      have hr : r = _ := hybridProcessServerResponse_of_agrees hag
      rw [hr]
    have hrefused : RefusedWith X { env with stack := stack } ctx response r :=
      hybridProcessServerResponse_refused hag
    rcases hrefused.buffer with ⟨-, hbuf⟩ | ⟨hfails, hbuf⟩
    · exact hbuf
    · left
      have hx : ¬ ctx.mode.usesX25519 = true := by
        intro hx
        exact hnot ⟨(usesX25519_of_hybrid hfails.usesMlkem).mp hx, hfails.stack env.stack⟩
      rw [hbuf, afterX25519, if_neg hx]

/-- The function returns 0 or -1; `combined_secret` holds no computed secret afterwards, a success leaves
the context wiped with the HKDF output as its key, and a failure does not complete the handshake: all
this holds unless, in hybrid mode, the ML-KEM-768 stage fails after the X25519 stage. -/
theorem secrets_wiped_iff (X : Externals) (env : ResponseEnv) (ctx : HybridCtx) (response : Bytes) :
    let r := hybridProcessServerResponse X env ctx response
    ((r.ret = 0 ∨ r.ret = -1) ∧ BufferClean X env ctx response ∧
        (r.ret = 0 → Wiped r.ctx ∧ r.ctx.sessionKey = clientKey X ctx response) ∧
        (r.ret = -1 → r.ctx.handshakeComplete = ctx.handshakeComplete)) ↔
      ¬ (ctx.mode = .hybrid ∧ FailsAtMlkem X env ctx response) := by
  intro r
  rw [← bufferClean_iff]
  constructor
  · rintro ⟨-, hclean, -⟩
    exact hclean
  intro hclean
  by_cases hag : Agrees X env ctx response
  · have hr : r = _ := hybridProcessServerResponse_of_agrees hag
    rw [hr]
    refine ⟨.inl rfl, hclean, ?_, ?_⟩
    · intro _
      exact ⟨⟨rfl, rfl, rfl, rfl⟩, rfl⟩
    · intro hret
      cases hret
  · have hrefused : RefusedWith X env ctx response r := hybridProcessServerResponse_refused hag
    refine ⟨.inr hrefused.ret, hclean, ?_, fun _ => hrefused.complete⟩
    intro hret
    rw [hrefused.ret] at hret
    cases hret

/-- A signed response of 80 bytes, which is the classical format, to a hybrid request: the function
returns -1 and leaves the X25519 secret in its buffer. -/
theorem secret_left_behind :
    let ctx := { hybridInit .hybrid with x25519Privkey := Reference.clientPrivkey }
    let env : ResponseEnv := ⟨0, 0, 0, 0, ByteArr.zero 64, ByteArr.zero 32⟩
    let response := Reference.sessionId.toList ++ Reference.serverPubkey.toList ++
      List.replicate 32 0
    let r := hybridProcessServerResponse Reference.externals env ctx response
    r.ret = -1 ∧ r.combinedSecret.take 32 = Reference.sharedSecret.toList ∧
      ¬ BufferClean Reference.externals env ctx response := by
  intro ctx env response r
  refine ⟨by decide +kernel, by decide +kernel, ?_⟩
  intro hclean
  have hdirty : r.combinedSecret ≠ List.replicate 64 0 := by decide +kernel
  rcases hclean (ByteArr.zero 64) with hbuf | hbuf
  · exact hdirty hbuf
  · exact hdirty hbuf

end HybridPqc
