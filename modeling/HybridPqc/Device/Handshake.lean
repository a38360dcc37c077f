import HybridPqc.Device.Context

/-!
# The handshake on the client

`hybrid_pack_pubkeys` and `hybrid_process_server_response` of `crypto_hybrid.c`. The results of the
library calls are inputs, so the functions cover every combination of them; logging and benchmark
timers are left out.
-/

namespace HybridPqc

/-! ## The request -/

/-- Append `data` to the buffer when it fits into `buflen` bytes. -/
def packField (buflen : Nat) (buf data : Bytes) : Option Bytes :=
  if buf.length + data.length > buflen then none else some (buf ++ data)

/-- `hybrid_pack_pubkeys`: the bytes written to a buffer of `buflen` bytes, `none` for `-1`;
`hmacRet` is the result of `compute_hmac_sha256`. -/
def hybridPackPubkeys (X : Externals) (hmacRet : Int) (ctx : HybridCtx) (buflen : Nat) :
    Option Bytes := do
  let buf ← packField buflen [] [ctx.mode.toByte]
  let buf ← if ctx.mode.usesX25519 then packField buflen buf ctx.x25519Pubkey.toList else some buf
  let buf ← if ctx.mode.usesMlkem then packField buflen buf ctx.mlkemPk.toList else some buf
  if buf.length + 32 > buflen then none
  else if hmacRet ≠ 0 then none
  else some (buf ++ (X.hmacSha256 handshakePsk buf).toList)

/-- `sizeof(pubkey_buf)` of every caller. -/
def pubkeyBufSize : Nat := 1 + 32 + 1184 + 32

/-! ## The response -/

/-- What the library calls of `hybrid_process_server_response` return, and what memory held before. -/
structure ResponseEnv where
  /-- Result of `compute_hmac_sha256`. -/
  hmacRet : Int
  /-- Result of `mbedtls_ecdh_compute_shared`. -/
  sharedRet : Int
  /-- Result of `mlkem768_decaps`. -/
  decapsRet : Int
  /-- Result of `mbedtls_hkdf`. -/
  hkdfRet : Int
  /-- The stack bytes that become `combined_secret`. -/
  stack : ByteArr 64
  /-- What a failed `mbedtls_hkdf` leaves in `session_key`. -/
  failedKey : ByteArr 32

/-- The locals of `hybrid_process_server_response` that its stages share. -/
structure ResponseState where
  ctx : HybridCtx
  /-- `combined_secret`, 64 bytes. -/
  combinedSecret : Bytes
  combinedLen : Nat
  offset : Nat

/-- What `hybrid_process_server_response` leaves behind: its return value, the context, and the bytes
of its local `combined_secret`. -/
structure ResponseResult where
  ret : Int
  ctx : HybridCtx
  combinedSecret : Bytes

/-- The handshake data of the client, rebuilt from the context: mode byte and public keys. -/
def clientData (ctx : HybridCtx) : Bytes :=
  [ctx.mode.toByte] ++ (if ctx.mode.usesX25519 then ctx.x25519Pubkey.toList else []) ++
    (if ctx.mode.usesMlkem then ctx.mlkemPk.toList else [])

/-- `memcpy(combined_secret + combined_len, secret, 32)`. -/
def ResponseState.addSecret (st : ResponseState) (secret : ByteArr 32) : ResponseState :=
  { st with
    combinedSecret := Bytes.overwrite st.combinedSecret st.combinedLen secret.toList
    combinedLen := st.combinedLen + 32 }

/-- The X25519 stage; an error is an early return. -/
def x25519Stage (X : Externals) (env : ResponseEnv) (serverData : Bytes) (st : ResponseState) :
    Except ResponseState ResponseState :=
  if st.ctx.mode.usesX25519 then
    if st.offset + 32 > serverData.length - 32 then .error st
    else
      let serverPub := ByteArr.ofBytes 32 (serverData.drop st.offset)
      let st := { st with offset := st.offset + 32 }
      if env.sharedRet ≠ 0 then .error st
      else
        let secret := X.x25519 st.ctx.x25519Privkey serverPub
        let st := { st with ctx := { st.ctx with x25519SharedSecret := secret } }
        -- RFC 7748 section 6.1: an all-zero shared secret is refused.
        if secret.isZero then .error st else .ok (st.addSecret secret)
  else .ok st

/-- The ML-KEM-768 stage; an error is an early return. -/
def mlkemStage (X : Externals) (env : ResponseEnv) (serverData : Bytes) (st : ResponseState) :
    Except ResponseState ResponseState :=
  if st.ctx.mode.usesMlkem then
    if st.offset + 1088 > serverData.length - 32 then .error st
    else
      let serverCt := ByteArr.ofBytes 1088 (serverData.drop st.offset)
      let secret := X.kemDec serverCt st.ctx.mlkemSk
      let st := { st with
        offset := st.offset + 1088
        ctx := { st.ctx with mlkemSharedSecret := secret } }
      if env.decapsRet ≠ 0 then .error st else .ok (st.addSecret secret)
  else .ok st

/-- The key derivation and the wiping that follows it. -/
def deriveStage (X : Externals) (env : ResponseEnv) (st : ResponseState) : ResponseResult :=
  let derived := X.hkdfSha256 hkdfSalt (st.combinedSecret.take st.combinedLen) hkdfInfo
  let ctx := { st.ctx with
    sessionKey := if env.hkdfRet = 0 then derived else env.failedKey
    x25519Privkey := ByteArr.zero 32
    x25519SharedSecret := ByteArr.zero 32
    mlkemSk := ByteArr.zero 2400
    mlkemSharedSecret := ByteArr.zero 32 }
  let wiped := List.replicate 64 0
  if env.hkdfRet ≠ 0 then ⟨-1, ctx, wiped⟩
  else ⟨0, { ctx with handshakeComplete := true }, wiped⟩

/-- `hybrid_process_server_response`. -/
def hybridProcessServerResponse (X : Externals) (env : ResponseEnv) (ctx : HybridCtx)
    (serverData : Bytes) : ResponseResult :=
  if serverData.length < 16 + 32 then ⟨-1, ctx, env.stack.toList⟩
  else
    let transcript := clientData ctx ++ serverData.rdrop 32
    let calculated := X.hmacSha256 handshakePsk transcript
    if env.hmacRet ≠ 0 then ⟨-1, ctx, env.stack.toList⟩
    else if Bytes.diff calculated.toList (serverData.rtake 32) ≠ 0 then
      ⟨-1, ctx, env.stack.toList⟩
    else
      -- The first 16 bytes are the session id, which the caller has read.
      let stages := (x25519Stage X env serverData ⟨ctx, env.stack.toList, 0, 16⟩).bind
        (mlkemStage X env serverData)
      match stages with
      | .error st => ⟨-1, st.ctx, st.combinedSecret⟩
      | .ok st => deriveStage X env st

end HybridPqc
