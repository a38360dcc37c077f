import HybridPqc.Device.Handshake

/-!
# What the client sends and accepts in a handshake

The request is the client's handshake data with its tag. `Agrees` is the condition under which
`hybrid_process_server_response` returns 0; the session key is then derived from the secrets that the
fields of the response and the context's private keys give.
-/

namespace HybridPqc

variable {X : Externals}

/-! ## The request -/

theorem clientData_length (ctx : HybridCtx) : (clientData ctx).length = ctx.mode.helloLength := by
  unfold clientData Mode.helloLength
  cases ctx.mode <;> simp [Mode.usesX25519, Mode.usesMlkem]

theorem clientData_head (ctx : HybridCtx) : (clientData ctx).head? = some ctx.mode.toByte := rfl

/-- The request of a context: its handshake data and the tag. -/
def helloOf (X : Externals) (ctx : HybridCtx) : Bytes :=
  clientData ctx ++ (X.hmacSha256 handshakePsk (clientData ctx)).toList

/-- Every caller's buffer is large enough, so only a failing HMAC makes `hybrid_pack_pubkeys` fail. -/
theorem hybridPackPubkeys_eq (hmacRet : Int) (ctx : HybridCtx) :
    hybridPackPubkeys X hmacRet ctx pubkeyBufSize =
      if hmacRet = 0 then some (helloOf X ctx) else none := by
  unfold hybridPackPubkeys helloOf clientData
  by_cases hret : hmacRet = 0 <;> cases ctx.mode <;>
    simp [packField, pubkeyBufSize, Mode.usesX25519, Mode.usesMlkem, hret]

theorem helloOf_rdrop (ctx : HybridCtx) : (helloOf X ctx).rdrop 32 = clientData ctx := by
  rw [helloOf, List.rdrop]
  exact List.take_left' (by simp)

theorem helloOf_rtake (ctx : HybridCtx) :
    (helloOf X ctx).rtake 32 = (X.hmacSha256 handshakePsk (clientData ctx)).toList := by
  rw [helloOf, List.rtake]
  exact List.drop_left' (by simp)

theorem helloOf_length (ctx : HybridCtx) : (helloOf X ctx).length = ctx.mode.helloLength + 32 := by
  rw [helloOf, List.length_append, clientData_length, List.Vector.toList_length]

/-! ## The response -/

/-- The server's X25519 public key in a response. -/
def serverX25519 (response : Bytes) : ByteArr 32 := ByteArr.ofBytes 32 (response.drop 16)

/-- The server's ML-KEM ciphertext in a response. -/
def serverCiphertext (m : Mode) (response : Bytes) : ByteArr 1088 :=
  ByteArr.ofBytes 1088 (response.drop (16 + if m.usesX25519 then 32 else 0))

/-- The shared secrets that the client derives the session key from. -/
def clientSecrets (X : Externals) (ctx : HybridCtx) (response : Bytes) : List (ByteArr 32) :=
  (if ctx.mode.usesX25519 then [X.x25519 ctx.x25519Privkey (serverX25519 response)] else []) ++
    (if ctx.mode.usesMlkem then [X.kemDec (serverCiphertext ctx.mode response) ctx.mlkemSk] else [])

/-- The session key of the client. -/
def clientKey (X : Externals) (ctx : HybridCtx) (response : Bytes) : ByteArr 32 :=
  X.hkdfSha256 hkdfSalt ((clientSecrets X ctx response).flatMap List.Vector.toList) hkdfInfo

/-- The X25519 stage succeeds. -/
structure X25519Ok (X : Externals) (env : ResponseEnv) (ctx : HybridCtx) (response : Bytes) :
    Prop where
  length : 16 + 32 ≤ response.length - 32
  shared : env.sharedRet = 0
  secret : (X.x25519 ctx.x25519Privkey (serverX25519 response)).isZero = false

/-- The ML-KEM-768 stage succeeds. -/
structure MlkemOk (env : ResponseEnv) (ctx : HybridCtx) (response : Bytes) : Prop where
  length : 16 + ctx.mode.replyLength ≤ response.length - 32
  decaps : env.decapsRet = 0

/-- The response carries a valid tag and the key material of the context's mode, possibly followed by
more, and every library call succeeds. -/
structure Agrees (X : Externals) (env : ResponseEnv) (ctx : HybridCtx) (response : Bytes) : Prop where
  length : 48 ≤ response.length
  hmac : env.hmacRet = 0
  tag : (X.hmacSha256 handshakePsk (clientData ctx ++ response.rdrop 32)).toList = response.rtake 32
  x25519 : ctx.mode.usesX25519 = true → X25519Ok X env ctx response
  mlkem : ctx.mode.usesMlkem = true → MlkemOk env ctx response
  hkdf : env.hkdfRet = 0

/-- The context after the handshake: the session key, and the secrets wiped. -/
def agreedCtx (X : Externals) (ctx : HybridCtx) (response : Bytes) : HybridCtx :=
  { ctx with
    sessionKey := clientKey X ctx response
    x25519Privkey := ByteArr.zero 32
    x25519SharedSecret := ByteArr.zero 32
    mlkemSk := ByteArr.zero 2400
    mlkemSharedSecret := ByteArr.zero 32
    handshakeComplete := true }

/-- The state after a successful X25519 stage. -/
def afterX25519 (X : Externals) (ctx : HybridCtx) (stack response : Bytes) : ResponseState :=
  if ctx.mode.usesX25519 then
    ResponseState.addSecret
      ⟨{ ctx with x25519SharedSecret := X.x25519 ctx.x25519Privkey (serverX25519 response) }, stack, 0,
        48⟩ (X.x25519 ctx.x25519Privkey (serverX25519 response))
  else ⟨ctx, stack, 0, 16⟩

/-- The state after a successful ML-KEM-768 stage. -/
def afterMlkem (X : Externals) (ctx : HybridCtx) (stack response : Bytes) : ResponseState :=
  let st := afterX25519 X ctx stack response
  let secret := X.kemDec (serverCiphertext ctx.mode response) ctx.mlkemSk
  if ctx.mode.usesMlkem then
    ResponseState.addSecret
      { st with ctx := { st.ctx with mlkemSharedSecret := secret }, offset := st.offset + 1088 } secret
  else st

theorem afterX25519_ctx (ctx : HybridCtx) (stack response : Bytes) :
    ∃ secret, (afterX25519 X ctx stack response).ctx = { ctx with x25519SharedSecret := secret } := by
  unfold afterX25519
  split <;> exact ⟨_, rfl⟩

theorem afterX25519_offset (ctx : HybridCtx) (stack response : Bytes) :
    (afterX25519 X ctx stack response).offset = 16 + if ctx.mode.usesX25519 then 32 else 0 := by
  unfold afterX25519
  split <;> rfl

theorem x25519Stage_ok {env : ResponseEnv} {ctx : HybridCtx} {response : Bytes}
    (h : ctx.mode.usesX25519 = true → X25519Ok X env ctx response) :
    x25519Stage X env response ⟨ctx, env.stack.toList, 0, 16⟩ =
      .ok (afterX25519 X ctx env.stack.toList response) := by
  unfold x25519Stage afterX25519
  by_cases hx : ctx.mode.usesX25519 = true
  · obtain ⟨hlen, hshared, hsecret⟩ := h hx
    simp only [serverX25519] at hsecret
    have hfit : ¬ 16 + 32 > response.length - 32 := by omega
    simp only [hx, if_true, if_neg hfit, hshared, ne_eq, not_true_eq_false, if_false, hsecret,
      Bool.false_eq_true]
    rfl
  · simp only [hx, if_false, Bool.false_eq_true]

/-- A failing X25519 stage has not touched `combined_secret`. -/
theorem x25519Stage_error {env : ResponseEnv} {ctx : HybridCtx} {response : Bytes}
    (hx : ctx.mode.usesX25519 = true) (h : ¬ X25519Ok X env ctx response) :
    ∃ st, x25519Stage X env response ⟨ctx, env.stack.toList, 0, 16⟩ = .error st ∧
      st.combinedSecret = env.stack.toList ∧
      st.ctx.handshakeComplete = ctx.handshakeComplete := by
  unfold x25519Stage
  rw [if_pos hx]
  by_cases hlen : 16 + 32 > response.length - 32
  · exact ⟨_, if_pos hlen, rfl, rfl⟩
  rw [if_neg hlen]
  by_cases hshared : env.sharedRet = 0
  · by_cases hsecret : (X.x25519 ctx.x25519Privkey (serverX25519 response)).isZero = true
    · simp only [serverX25519] at hsecret
      simp only [hshared, ne_eq, not_true_eq_false, if_false, hsecret, if_true]
      exact ⟨_, rfl, rfl, rfl⟩
    · exact absurd ⟨by omega, hshared, by simpa using hsecret⟩ h
  · simp only [ne_eq, hshared, not_false_eq_true, if_true]
    exact ⟨_, rfl, rfl, rfl⟩

theorem mlkemStage_ok {env : ResponseEnv} {ctx : HybridCtx} {stack response : Bytes}
    (h : ctx.mode.usesMlkem = true → MlkemOk env ctx response) :
    mlkemStage X env response (afterX25519 X ctx stack response) =
      .ok (afterMlkem X ctx stack response) := by
  obtain ⟨secret, hctx⟩ := afterX25519_ctx (X := X) ctx stack response
  have hoff := afterX25519_offset (X := X) ctx stack response
  have hmode : (afterX25519 X ctx stack response).ctx.mode = ctx.mode := by rw [hctx]
  have hsk : (afterX25519 X ctx stack response).ctx.mlkemSk = ctx.mlkemSk := by rw [hctx]
  unfold mlkemStage afterMlkem
  rw [hmode]
  by_cases hm : ctx.mode.usesMlkem = true
  · obtain ⟨hlen, hdecaps⟩ := h hm
    have hreply : ctx.mode.replyLength = (if ctx.mode.usesX25519 then 32 else 0) + 1088 := by
      rw [Mode.replyLength, if_pos hm]
    have hfit : ¬ (16 + if ctx.mode.usesX25519 then 32 else 0) + 1088 > response.length - 32 := by
      omega
    simp only [hm, if_true, hoff, if_neg hfit, hdecaps, ne_eq, not_true_eq_false, if_false, hsk]
    rfl
  · simp only [hm, if_false, Bool.false_eq_true]

/-- A failing ML-KEM-768 stage leaves `combined_secret` as the X25519 stage left it. -/
theorem mlkemStage_error {env : ResponseEnv} {ctx : HybridCtx} {response : Bytes} (stack : Bytes)
    (hm : ctx.mode.usesMlkem = true) (h : ¬ MlkemOk env ctx response) :
    ∃ st, mlkemStage X env response (afterX25519 X ctx stack response) = .error st ∧
      st.combinedSecret = (afterX25519 X ctx stack response).combinedSecret ∧
      st.ctx.handshakeComplete = ctx.handshakeComplete := by
  obtain ⟨secret, hctx⟩ := afterX25519_ctx (X := X) ctx stack response
  have hoff := afterX25519_offset (X := X) ctx stack response
  have hmode : (afterX25519 X ctx stack response).ctx.mode = ctx.mode := by rw [hctx]
  have hdone : (afterX25519 X ctx stack response).ctx.handshakeComplete = ctx.handshakeComplete := by
    rw [hctx]
  have hreply : ctx.mode.replyLength = (if ctx.mode.usesX25519 then 32 else 0) + 1088 := by
    rw [Mode.replyLength, if_pos hm]
  unfold mlkemStage
  rw [hmode, if_pos hm, hoff]
  by_cases hlen : 16 + (if ctx.mode.usesX25519 then 32 else 0) + 1088 > response.length - 32
  · exact ⟨_, if_pos hlen, rfl, hdone⟩
  rw [if_neg hlen]
  by_cases hdecaps : env.decapsRet = 0
  · exact absurd ⟨by omega, hdecaps⟩ h
  · simp only [ne_eq, hdecaps, not_false_eq_true, if_true]
    exact ⟨_, rfl, rfl, hdone⟩

theorem addSecret_combined {st : ResponseState} {secret : ByteArr 32}
    (h : st.combinedLen ≤ st.combinedSecret.length) :
    (st.addSecret secret).combinedSecret.take (st.addSecret secret).combinedLen =
      st.combinedSecret.take st.combinedLen ++ secret.toList := by
  have htake :
      (Bytes.overwrite st.combinedSecret st.combinedLen secret.toList).take
          (st.combinedLen + secret.toList.length) =
        st.combinedSecret.take st.combinedLen ++ secret.toList := Bytes.take_overwrite h
  rwa [List.Vector.toList_length] at htake

/-- The combined secret holds the shared secrets one after the other. -/
theorem afterMlkem_combined (ctx : HybridCtx) {stack : Bytes} (hstack : stack.length = 64)
    (response : Bytes) :
    (afterMlkem X ctx stack response).combinedSecret.take
        (afterMlkem X ctx stack response).combinedLen =
      (clientSecrets X ctx response).flatMap List.Vector.toList := by
  have hx : (afterX25519 X ctx stack response).combinedLen ≤ 32 ∧
      (afterX25519 X ctx stack response).combinedSecret.length = 64 ∧
      (afterX25519 X ctx stack response).combinedSecret.take
          (afterX25519 X ctx stack response).combinedLen =
        (if ctx.mode.usesX25519 then [X.x25519 ctx.x25519Privkey (serverX25519 response)] else []).flatMap
          List.Vector.toList := by
    unfold afterX25519
    by_cases hu : ctx.mode.usesX25519 = true
    · simp only [hu, if_true]
      refine ⟨le_refl 32, ?_, ?_⟩
      · exact (Bytes.overwrite_length (by simp [hstack])).trans hstack
      · rw [addSecret_combined (by simp)]
        simp
    · simp only [hu, if_false, Bool.false_eq_true]
      exact ⟨by omega, hstack, rfl⟩
  obtain ⟨hlen, hbuf, htake⟩ := hx
  unfold afterMlkem clientSecrets
  rw [List.flatMap_append, ← htake]
  by_cases hm : ctx.mode.usesMlkem = true
  · simp only [hm, if_true]
    rw [addSecret_combined (by simp only; omega)]
    simp
  · simp only [hm, if_false, Bool.false_eq_true]
    simp

theorem afterMlkem_ctx (ctx : HybridCtx) (stack response : Bytes) :
    ∃ xs ms, (afterMlkem X ctx stack response).ctx =
      { ctx with x25519SharedSecret := xs, mlkemSharedSecret := ms } := by
  obtain ⟨secret, hctx⟩ := afterX25519_ctx (X := X) ctx stack response
  unfold afterMlkem
  by_cases hm : ctx.mode.usesMlkem = true
  · simp only [hm, if_true]
    simp only [ResponseState.addSecret, hctx]
    exact ⟨secret, _, rfl⟩
  · simp only [hm, if_false, Bool.false_eq_true]
    exact ⟨secret, ctx.mlkemSharedSecret, hctx⟩

theorem hybridProcessServerResponse_of_agrees {env : ResponseEnv} {ctx : HybridCtx}
    {response : Bytes} (h : Agrees X env ctx response) :
    hybridProcessServerResponse X env ctx response =
      ⟨0, agreedCtx X ctx response, List.replicate 64 0⟩ := by
  have hlen := h.length
  have hdiff : Bytes.diff (X.hmacSha256 handshakePsk (clientData ctx ++ response.rdrop 32)).toList
      (response.rtake 32) = 0 := by
    rw [h.tag, Bytes.diff_eq_zero rfl]
  obtain ⟨xs, ms, hctx⟩ := afterMlkem_ctx (X := X) ctx env.stack.toList response
  unfold hybridProcessServerResponse
  rw [if_neg (by omega)]
  simp only [h.hmac, ne_eq, not_true_eq_false, if_false, hdiff, x25519Stage_ok h.x25519, Except.bind,
    mlkemStage_ok h.mlkem]
  simp only [deriveStage, h.hkdf, ne_eq, not_true_eq_false, if_false, if_true, hctx,
    afterMlkem_combined ctx env.stack.toList_length]
  rfl

/-- The response passes the tag and the X25519 stage, and the ML-KEM-768 stage then fails. -/
structure FailsAtMlkem (X : Externals) (env : ResponseEnv) (ctx : HybridCtx) (response : Bytes) :
    Prop where
  length : 48 ≤ response.length
  hmac : env.hmacRet = 0
  tag : (X.hmacSha256 handshakePsk (clientData ctx ++ response.rdrop 32)).toList = response.rtake 32
  x25519 : ctx.mode.usesX25519 = true → X25519Ok X env ctx response
  usesMlkem : ctx.mode.usesMlkem = true
  mlkem : ¬ MlkemOk env ctx response

/-- What a refused response leaves behind: `combined_secret` is untouched or wiped, unless the
ML-KEM-768 stage fails, which leaves it as the X25519 stage left it. -/
structure RefusedWith (X : Externals) (env : ResponseEnv) (ctx : HybridCtx) (response : Bytes)
    (r : ResponseResult) : Prop where
  ret : r.ret = -1
  complete : r.ctx.handshakeComplete = ctx.handshakeComplete
  buffer : (¬ FailsAtMlkem X env ctx response ∧
      (r.combinedSecret = env.stack.toList ∨ r.combinedSecret = List.replicate 64 0)) ∨
    FailsAtMlkem X env ctx response ∧
      r.combinedSecret = (afterX25519 X ctx env.stack.toList response).combinedSecret

theorem hybridProcessServerResponse_refused {env : ResponseEnv} {ctx : HybridCtx}
    {response : Bytes} (h : ¬ Agrees X env ctx response) :
    RefusedWith X env ctx response (hybridProcessServerResponse X env ctx response) := by
  unfold hybridProcessServerResponse
  by_cases hlen : response.length < 16 + 32
  · rw [if_pos hlen]
    refine ⟨rfl, rfl, .inl ⟨?_, .inl rfl⟩⟩
    intro hf
    have := hf.length
    omega
  rw [if_neg hlen]
  by_cases hhmac : env.hmacRet = 0
  swap
  · simp only [ne_eq, hhmac, not_false_eq_true, if_true]
    exact ⟨rfl, rfl, .inl ⟨fun hf => hhmac hf.hmac, .inl rfl⟩⟩
  simp only [hhmac, ne_eq, not_true_eq_false, if_false]
  have hrtake : (response.rtake 32).length = 32 := by
    rw [List.rtake, List.length_drop]
    omega
  by_cases htag : (X.hmacSha256 handshakePsk (clientData ctx ++ response.rdrop 32)).toList =
      response.rtake 32
  swap
  · have hdiff : ¬ Bytes.diff (X.hmacSha256 handshakePsk (clientData ctx ++ response.rdrop 32)).toList
        (response.rtake 32) = 0 := by
      rwa [Bytes.diff_eq_zero (by rw [hrtake, List.Vector.toList_length])]
    simp only [hdiff, not_false_eq_true, if_true]
    exact ⟨rfl, rfl, .inl ⟨fun hf => htag hf.tag, .inl rfl⟩⟩
  have hdiff : Bytes.diff (X.hmacSha256 handshakePsk (clientData ctx ++ response.rdrop 32)).toList
      (response.rtake 32) = 0 := by
    rw [htag, Bytes.diff_eq_zero rfl]
  simp only [hdiff, not_true_eq_false, if_false]
  by_cases hx : ctx.mode.usesX25519 = true → X25519Ok X env ctx response
  swap
  · have hfails : ¬ FailsAtMlkem X env ctx response := fun hf => hx hf.x25519
    rw [Classical.not_imp] at hx
    obtain ⟨st, hst, hbuf, hdone⟩ := x25519Stage_error hx.1 hx.2
    simp only [hst, Except.bind]
    exact ⟨rfl, hdone, .inl ⟨hfails, .inl hbuf⟩⟩
  simp only [x25519Stage_ok hx, Except.bind]
  by_cases hm : ctx.mode.usesMlkem = true → MlkemOk env ctx response
  swap
  · rw [Classical.not_imp] at hm
    obtain ⟨st, hst, hbuf, hdone⟩ := mlkemStage_error (X := X) env.stack.toList hm.1 hm.2
    simp only [hst]
    exact ⟨rfl, hdone, .inr ⟨⟨by omega, hhmac, htag, hx, hm.1, hm.2⟩, hbuf⟩⟩
  have hfails : ¬ FailsAtMlkem X env ctx response := fun hf => hf.mlkem (hm hf.usesMlkem)
  simp only [mlkemStage_ok hm]
  by_cases hhkdf : env.hkdfRet = 0
  · exact absurd ⟨by omega, hhmac, htag, hx, hm, hhkdf⟩ h
  · obtain ⟨xs, ms, hctx⟩ := afterMlkem_ctx (X := X) ctx env.stack.toList response
    simp only [deriveStage, ne_eq, hhkdf, not_false_eq_true, if_true, hctx]
    exact ⟨rfl, rfl, .inl ⟨hfails, .inr rfl⟩⟩

theorem hybridProcessServerResponse_of_refused {env : ResponseEnv} {ctx : HybridCtx}
    {response : Bytes} (h : ¬ Agrees X env ctx response) :
    (hybridProcessServerResponse X env ctx response).ret = -1 :=
  (hybridProcessServerResponse_refused h).ret

end HybridPqc
