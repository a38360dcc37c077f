import HybridPqc.Lib.PyJson

/-!
# The code outside the repository

What the firmware calls from mbedTLS and what the server calls from `cryptography` and the Python
library are the same standardised functions; the ML-KEM-768 core under
`firmware/components/mlkem768/src/ref` is linked into both. All of them are parameters of the model.
Sizes are those of `crypto_hybrid.h` and `params.h`: X25519 keys and secrets 32 bytes, ML-KEM-768
public key 1184, secret key 2400, ciphertext 1088, shared secret 32, AES-256-GCM key 32, nonce 12,
tag 16.
-/

namespace HybridPqc

/-- The functions both programs call. -/
structure Externals where
  /-- HMAC-SHA256 of a message under a key. -/
  hmacSha256 : Bytes → Bytes → ByteArr 32
  /-- HKDF-SHA256 with 32 bytes of output: salt, input key material, info. -/
  hkdfSha256 : Bytes → Bytes → Bytes → ByteArr 32
  /-- The X25519 public key of a private key. -/
  x25519Base : ByteArr 32 → ByteArr 32
  /-- X25519 of a private key and a peer's public key. -/
  x25519 : ByteArr 32 → ByteArr 32 → ByteArr 32
  /-- `crypto_kem_keypair_derand`: public and secret key of 64 random bytes. -/
  kemKeypairDerand : ByteArr 64 → ByteArr 1184 × ByteArr 2400
  /-- `crypto_kem_enc_derand`: ciphertext and shared secret for a public key and 32 coins. -/
  kemEncDerand : ByteArr 1184 → ByteArr 32 → ByteArr 1088 × ByteArr 32
  /-- `crypto_kem_dec`: the shared secret of a ciphertext. -/
  kemDec : ByteArr 1088 → ByteArr 2400 → ByteArr 32
  /-- AES-256-GCM without associated data: ciphertext and tag of a key, nonce and plaintext. -/
  gcmEncrypt : ByteArr 32 → ByteArr 12 → Bytes → Bytes × ByteArr 16
  /-- GCM is a stream mode: the ciphertext is as long as the plaintext. -/
  gcmEncrypt_length : ∀ key iv plaintext,
    (gcmEncrypt key iv plaintext).1.length = plaintext.length
  /-- Authenticated decryption; `none` when the tag does not verify. -/
  gcmDecrypt : ByteArr 32 → ByteArr 12 → Bytes → ByteArr 16 → Option Bytes
  /-- Whether `ctypes.CDLL` found `libmlkem.so` when the server module was loaded. -/
  libmlkem : Bool
  /-- What `json.dumps` writes for the double nearest to a literal: its `float.__repr__`, or `NaN`,
  `Infinity`, `-Infinity`. -/
  floatRepr : PyStr → PyStr
  /-- `str(e)` of the exception that `json.loads` raises on these bytes. -/
  jsonErrorText : Bytes → PyStr
  /-- The nesting that `json.loads` reads in `handle_telemetry`. -/
  telemetryNesting : Json.Nesting
  /-- The nesting that `json.loads` reads in `handle_request`. -/
  benchmarksNesting : Json.Nesting
  /-- The nesting that `json.dumps` writes in `handle_request`. -/
  dumpsNesting : Json.Nesting
  /-- `str(e)` of the `RecursionError` that `json.dumps` raises beyond it. -/
  dumpsErrorText : Json → PyStr
  /-- `json.dumps` with an indentation, which is another encoder. -/
  dumpsIndent : Json.Walk
  /-- The formatting of a value in an f-string. -/
  format : Json.Walk
  /-- `str(e)` of the exception that `AESGCM(None)` raises. -/
  aesKeyErrorText : PyStr

/-- X25519 commutes: both ends of an exchange compute one secret. -/
def Externals.X25519Comm (X : Externals) : Prop :=
  ∀ a b, X.x25519 a (X.x25519Base b) = X.x25519 b (X.x25519Base a)

/-- Decapsulation inverts encapsulation, for every key pair and all coins. -/
def Externals.KemCorrect (X : Externals) : Prop :=
  ∀ seed coins,
    X.kemDec (X.kemEncDerand (X.kemKeypairDerand seed).1 coins).1 (X.kemKeypairDerand seed).2 =
      (X.kemEncDerand (X.kemKeypairDerand seed).1 coins).2

/-- AES-GCM decrypts what it encrypted. -/
def Externals.GcmCorrect (X : Externals) : Prop :=
  ∀ key iv plaintext,
    X.gcmDecrypt key iv (X.gcmEncrypt key iv plaintext).1 (X.gcmEncrypt key iv plaintext).2 =
      some plaintext

/-- The pre-shared key of the firmware (`handshake_psk`). -/
def handshakePsk : Bytes :=
  [0x53, 0x65, 0x63, 0x75, 0x72, 0x49, 0x6f, 0x54,
   0x2d, 0x51, 0x75, 0x61, 0x6e, 0x74, 0x75, 0x6d,
   0x2d, 0x50, 0x51, 0x43, 0x2d, 0x48, 0x79, 0x62,
   0x72, 0x69, 0x64, 0x2d, 0x50, 0x53, 0x4b, 0x21]

/-- The pre-shared key of the server (`HANDSHAKE_PSK`). -/
def serverPsk : Bytes := PyStr.encodeAscii (PyStr.lit "SecurIoT-Quantum-PQC-Hybrid-PSK!")

/-- Both programs hold the same pre-shared key. -/
theorem serverPsk_eq : serverPsk = handshakePsk := by decide

/-- The HKDF salt of both programs. -/
def hkdfSalt : Bytes := PyStr.encodeAscii (PyStr.lit "HybridPQC-ESP32-Session-v1")

/-- The HKDF info of both programs. -/
def hkdfInfo : Bytes := PyStr.encodeAscii (PyStr.lit "session-key")

end HybridPqc
