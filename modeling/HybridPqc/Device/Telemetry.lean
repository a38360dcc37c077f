import HybridPqc.Device.Context

/-!
# Authenticated telemetry on the client

`hybrid_encrypt_telemetry` and `hybrid_decrypt_response` of `crypto_hybrid.c`, and the telemetry
packet that `main.c` formats. A packet is `[12-byte nonce][ciphertext][16-byte tag]`; the nonce is the
sequence counter in big-endian order followed by eight random bytes.
-/

namespace HybridPqc

/-- One AES-GCM encryption: the key, the nonce and the plaintext it was given. -/
structure Sealing where
  key : ByteArr 32
  iv : ByteArr 12
  plaintext : Bytes

namespace Sealing

def ciphertext (X : Externals) (e : Sealing) : Bytes := (X.gcmEncrypt e.key e.iv e.plaintext).1

def tag (X : Externals) (e : Sealing) : ByteArr 16 := (X.gcmEncrypt e.key e.iv e.plaintext).2

/-- The packet on the wire. -/
def packet (X : Externals) (e : Sealing) : Bytes :=
  e.iv.toList ++ e.ciphertext X ++ (e.tag X).toList

/-- The counter in the first four bytes of the nonce. -/
def counter (e : Sealing) : Nat := Bytes.ofBigEndian (e.iv.toList.take 4)

end Sealing

/-! ## Encryption -/

/-- What the library calls of `hybrid_encrypt_telemetry` return, and the random bytes they draw. -/
structure EncryptEnv where
  /-- Result of `mbedtls_gcm_setkey`. -/
  setkeyRet : Int
  /-- Result of `mbedtls_gcm_crypt_and_tag`. -/
  cryptRet : Int
  /-- The eight bytes of `randombytes(iv + 4, 8)`. -/
  random : ByteArr 8

/-- What `hybrid_encrypt_telemetry` leaves behind: its return value, the context, the encryption it
performed, and the output buffer, which its caller does not use after a failure. -/
structure EncryptResult where
  ret : Int
  ctx : HybridCtx
  sealing : Option Sealing
  out : Bytes

/-- The nonce of counter `count`. -/
def telemetryIv (count : UInt32) (random : ByteArr 8) : ByteArr 12 :=
  ⟨Bytes.ofUInt32 count ++ random.toList, by simp⟩

/-- `hybrid_encrypt_telemetry`. The counter is consumed as soon as the nonce is built, also when the
encryption then fails. -/
def hybridEncryptTelemetry (X : Externals) (env : EncryptEnv) (ctx : HybridCtx)
    (plaintext : Bytes) : EncryptResult :=
  if ctx.handshakeComplete = false then ⟨-1, ctx, none, []⟩
  else if env.setkeyRet ≠ 0 then ⟨-1, ctx, none, []⟩
  else
    let iv := telemetryIv ctx.telemetryCounter env.random
    let sealing : Sealing := ⟨ctx.sessionKey, iv, plaintext⟩
    let ctx := { ctx with telemetryCounter := ctx.telemetryCounter + 1 }
    if env.cryptRet ≠ 0 then ⟨-1, ctx, some sealing, []⟩
    else ⟨0, ctx, some sealing, sealing.packet X⟩

/-! ## Decryption -/

/-- What the library calls of `hybrid_decrypt_response` return. -/
structure DecryptEnv where
  /-- Result of `mbedtls_gcm_setkey`. -/
  setkeyRet : Int
  /-- Result of `mbedtls_gcm_auth_decrypt` when the tag verifies. -/
  decryptRet : Int

/-- `hybrid_decrypt_response`: the plaintext, `none` for `-1`. -/
def hybridDecryptResponse (X : Externals) (env : DecryptEnv) (ctx : HybridCtx)
    (ciphertext : Bytes) : Option Bytes :=
  if ctx.handshakeComplete = false then none
  else if ciphertext.length < 12 + 16 then none
  else if env.setkeyRet ≠ 0 then none
  else
    let expectedCount := ctx.telemetryCounter - 1
    let receivedCount := Bytes.toUInt32 (ciphertext.getD 0 0) (ciphertext.getD 1 0)
      (ciphertext.getD 2 0) (ciphertext.getD 3 0)
    if receivedCount ≠ expectedCount then none
    else
      let iv := ByteArr.ofBytes 12 ciphertext
      let actualCt := (ciphertext.drop 12).take (ciphertext.length - 12 - 16)
      let tag := ByteArr.ofBytes 16 (ciphertext.drop (12 + (ciphertext.length - 12 - 16)))
      match X.gcmDecrypt ctx.sessionKey iv actualCt tag with
      | none => none
      | some plaintext => if env.decryptRet ≠ 0 then none else some plaintext

/-! ## The telemetry packet -/

/-- `telemetry_data_t`. The two `float` fields are given in hundredths: both are whole tenths below
one hundred, so the error of single precision is far below what `%.2f` shows. -/
structure TelemetryData where
  temperature : Nat
  humidity : Nat
  timestamp : UInt32
  sequence : UInt32

/-- `generate_telemetry` for the value of `esp_random()`, the seconds of `esp_timer_get_time()` and
the value of the static `telemetry_seq`. -/
def generateTelemetry (rand timestamp telemetrySeq : UInt32) : TelemetryData where
  temperature := 2200 + rand.toNat % 100 * 10
  humidity := 4500 + (rand >>> 8).toNat % 200 * 10
  timestamp := timestamp
  sequence := telemetrySeq

/-- `%.2f` of a number of hundredths. -/
def formatHundredths (h : Nat) : PyStr :=
  PyStr.decimal (h / 100) ++ PyStr.lit "." ++ PyStr.decimalPad 2 h

/-- The text that `snprintf` formats. -/
def jsonText (t : TelemetryData) : PyStr :=
  PyStr.lit "\x7b\"temperature\":" ++ formatHundredths t.temperature ++
    PyStr.lit ",\"humidity\":" ++ formatHundredths t.humidity ++
    PyStr.lit ",\"timestamp\":" ++ PyStr.decimal t.timestamp.toNat ++
    PyStr.lit ",\"sequence\":" ++ PyStr.decimal t.sequence.toNat ++
    PyStr.lit ",\"device_id\":\"ESP32-Edge\"\x7d"

/-- `json_payload` up to its terminator: the text cut to a buffer of 256 bytes. -/
def jsonPayload (t : TelemetryData) : Bytes := PyStr.encodeAscii ((jsonText t).take 255)

end HybridPqc
