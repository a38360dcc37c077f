import HybridPqc.Server.State

/-!
# The handshake on the server

`HybridPQCServer.handle_handshake` of `server.py` and what it calls, down to the `randombytes` that
is linked into `libmlkem.so`. A raised exception is an `error` with its text; the state is returned
in either case.
-/

namespace HybridPqc

/-! ## Entropy of the native library -/

/-- What `open("/dev/urandom")` and `read` do. -/
inductive UrandomOutcome where
  | openFailed
  | readFailed
  /-- `read` stores these bytes. -/
  | read (bytes : Bytes)

/-- `randombytes` of `components/mlkem768/randombytes.c` on a buffer of `n` bytes. -/
def randombytes {n : Nat} (out : ByteArr n) : UrandomOutcome → ByteArr n
  | .openFailed => out
  | .readFailed => out
  | .read bytes => ByteArr.ofBytes n (Bytes.overwrite out.toList 0 (bytes.take n))

/-! ## Key material -/

/-- The random draws of one `handle_handshake` call. -/
structure HandshakeEnv where
  /-- `X25519PrivateKey.generate()`. -/
  x25519Privkey : ByteArr 32
  /-- `secrets.token_bytes(16)`. -/
  sessionId : ByteArr 16
  urandom : UrandomOutcome
  /-- The stack bytes that become the `coins` of `crypto_kem_enc`. -/
  stack : ByteArr 32
  /-- `secrets.token_bytes(KYBER_CT_SIZE)` of the fallback. -/
  fallbackCt : ByteArr 1088
  /-- `secrets.token_bytes(KYBER_SS_SIZE)` of the fallback. -/
  fallbackSs : ByteArr 32

/-- `_perform_x25519`: the server's public key and the shared secret. -/
def performX25519 (X : Externals) (env : HandshakeEnv) (clientPubkey : ByteArr 32) :
    Except PyStr (ByteArr 32 × ByteArr 32) :=
  let sharedSecret := X.x25519 env.x25519Privkey clientPubkey
  if sharedSecret.isZero then
    .error (PyStr.lit "RFC 7748 violation: X25519 shared secret is all zeros")
  else .ok (X.x25519Base env.x25519Privkey, sharedSecret)

/-- `_perform_mlkem_encaps`: the ciphertext and the shared secret. The result of
`mlkem768_encaps` is dropped; without the library both are random. -/
def performMlkemEncaps (X : Externals) (env : HandshakeEnv) (clientPk : ByteArr 1184) :
    ByteArr 1088 × ByteArr 32 :=
  if X.libmlkem then X.kemEncDerand clientPk (randombytes env.stack env.urandom)
  else (env.fallbackCt, env.fallbackSs)

/-- `_derive_session_key`. -/
def deriveSessionKey (X : Externals) (sharedSecrets : List (ByteArr 32)) : ByteArr 32 :=
  X.hkdfSha256 hkdfSalt (sharedSecrets.flatMap List.Vector.toList) hkdfInfo

/-- The locals of `handle_handshake` that the components share. -/
structure KeyMaterial where
  offset : Nat
  response : Bytes
  sharedSecrets : List (ByteArr 32)

/-- How `handle_handshake` ends early. -/
inductive HandshakeExit where
  /-- `return b''`. -/
  | empty
  /-- An exception with this text. -/
  | raised (text : PyStr)

/-- The X25519 component of `handle_handshake`. -/
def x25519Component (X : Externals) (env : HandshakeEnv) (mode : UInt8) (handshakeData : Bytes)
    (km : KeyMaterial) : Except HandshakeExit KeyMaterial :=
  if mode = 0 ∨ mode = 2 then
    if km.offset + 32 > handshakeData.length then .error .empty
    else
      match performX25519 X env (ByteArr.ofBytes 32 (handshakeData.drop km.offset)) with
      | .error text => .error (.raised text)
      | .ok (serverPub, sharedSecret) => .ok
          { offset := km.offset + 32
            response := km.response ++ serverPub.toList
            sharedSecrets := km.sharedSecrets ++ [sharedSecret] }
  else .ok km

/-- The ML-KEM-768 component of `handle_handshake`. -/
def mlkemComponent (X : Externals) (env : HandshakeEnv) (mode : UInt8) (handshakeData : Bytes)
    (km : KeyMaterial) : Except HandshakeExit KeyMaterial :=
  if mode = 1 ∨ mode = 2 then
    if km.offset + 1184 > handshakeData.length then .error .empty
    else
      let (ciphertext, sharedSecret) :=
        performMlkemEncaps X env (ByteArr.ofBytes 1184 (handshakeData.drop km.offset))
      .ok
        { offset := km.offset + 1184
          response := km.response ++ ciphertext.toList
          sharedSecrets := km.sharedSecrets ++ [sharedSecret] }
  else .ok km

/-- Both components, after the mode byte. -/
def keyMaterial (X : Externals) (env : HandshakeEnv) (mode : UInt8) (handshakeData : Bytes) :
    Except HandshakeExit KeyMaterial :=
  (x25519Component X env mode handshakeData ⟨1, [], []⟩).bind
    (mlkemComponent X env mode handshakeData)

/-! ## The handler -/

/-- `handle_handshake`: its return value or exception, and the state it leaves. -/
def handleHandshake (X : Externals) (env : HandshakeEnv) (s : Server) (body : Bytes) :
    Except PyStr Bytes × Server :=
  if body.length < 32 then (.ok [], s)
  else
    let receivedHmac := body.rtake 32
    let handshakeData := body.rdrop 32
    let expectedHmac := X.hmacSha256 serverPsk handshakeData
    if receivedHmac ≠ expectedHmac.toList then (.ok [], s)
    else
      match handshakeData with
      | [] => (.ok [], s)
      | mode :: _ =>
        match keyMaterial X env mode handshakeData with
        | .error .empty => (.ok [], s)
        | .error (.raised text) => (.error text, s)
        | .ok km =>
          -- An unknown mode leaves `shared_secrets` empty and the response too.
          if km.sharedSecrets = [] then (.ok km.response, s)
          else
            let sessionKey := deriveSessionKey X km.sharedSecrets
            let s := { s with handshakeCount := s.handshakeCount + 1 }
            let s := s.createSession env.sessionId.toList sessionKey
            let response := env.sessionId.toList ++ km.response
            let transcript := handshakeData ++ response
            (.ok (response ++ (X.hmacSha256 serverPsk transcript).toList), s)

end HybridPqc
