import HybridPqc.Externals

/-!
# The client context

`hybrid_ctx_t` of `crypto_hybrid.h`, the modes, and the functions that create and wipe a context.
-/

namespace HybridPqc

/-- `handshake_mode_t`. -/
inductive Mode where
  | classical
  | pqc
  | hybrid
  deriving DecidableEq, Repr

namespace Mode

/-- The mode byte on the wire. -/
def toByte : Mode → UInt8
  | classical => 0
  | pqc => 1
  | hybrid => 2

/-- The mode exchanges X25519 keys. -/
def usesX25519 : Mode → Bool
  | classical => true
  | pqc => false
  | hybrid => true

/-- The mode exchanges ML-KEM-768 keys. -/
def usesMlkem : Mode → Bool
  | classical => false
  | pqc => true
  | hybrid => true

/-- The length of the mode byte and the client's public keys. -/
def helloLength (m : Mode) : Nat :=
  1 + (if m.usesX25519 then 32 else 0) + (if m.usesMlkem then 1184 else 0)

/-- The length of the server's key material. -/
def replyLength (m : Mode) : Nat :=
  (if m.usesX25519 then 32 else 0) + (if m.usesMlkem then 1088 else 0)

theorem toByte_injective {m n : Mode} (h : m.toByte = n.toByte) : m = n := by
  cases m <;> cases n <;> first | rfl | exact absurd h (by decide)

end Mode

/-- `hybrid_ctx_t`. -/
structure HybridCtx where
  x25519Privkey : ByteArr 32
  x25519Pubkey : ByteArr 32
  x25519SharedSecret : ByteArr 32
  mlkemPk : ByteArr 1184
  mlkemSk : ByteArr 2400
  mlkemSharedSecret : ByteArr 32
  sessionKey : ByteArr 32
  mode : Mode
  handshakeComplete : Bool
  /-- Sequence counter of the telemetry packets. -/
  telemetryCounter : UInt32

/-- `hybrid_init`: `memset` to zero, then the mode. -/
def hybridInit (mode : Mode) : HybridCtx where
  x25519Privkey := ByteArr.zero 32
  x25519Pubkey := ByteArr.zero 32
  x25519SharedSecret := ByteArr.zero 32
  mlkemPk := ByteArr.zero 1184
  mlkemSk := ByteArr.zero 2400
  mlkemSharedSecret := ByteArr.zero 32
  sessionKey := ByteArr.zero 32
  mode := mode
  handshakeComplete := false
  telemetryCounter := 0

/-- `hybrid_cleanup`: every byte of the context is zero, which is the classical mode. -/
def hybridCleanup : HybridCtx := hybridInit .classical

/-- The key pairs that a successful `hybrid_keygen` stores. -/
structure KeyPairs where
  x25519Privkey : ByteArr 32
  x25519Pubkey : ByteArr 32
  mlkemPk : ByteArr 1184
  mlkemSk : ByteArr 2400

/-- The context after `hybrid_init` and a successful `hybrid_keygen`. -/
def keyedCtx (mode : Mode) (keys : KeyPairs) : HybridCtx :=
  { hybridInit mode with
    x25519Privkey := keys.x25519Privkey
    x25519Pubkey := keys.x25519Pubkey
    mlkemPk := keys.mlkemPk
    mlkemSk := keys.mlkemSk }

/-- The key pairs that the mode uses are matched: each public key belongs to its private key. -/
structure KeyPairs.Matched (X : Externals) (mode : Mode) (keys : KeyPairs) : Prop where
  x25519 : mode.usesX25519 = true → keys.x25519Pubkey = X.x25519Base keys.x25519Privkey
  mlkem : mode.usesMlkem = true →
    ∃ seed, keys.mlkemPk = (X.kemKeypairDerand seed).1 ∧ keys.mlkemSk = (X.kemKeypairDerand seed).2

end HybridPqc
