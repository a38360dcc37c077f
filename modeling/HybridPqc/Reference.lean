import HybridPqc.Externals

/-!
# Reference values

What the cryptographic functions return on the inputs of one exchange in classical mode and of a second
handshake, completed to functions on all inputs for which the laws hold. The laws are consistent, and
what the model computes on this exchange is what the two programs exchange.
-/

namespace HybridPqc

namespace Reference

/-- An array of `n` bytes, written as a number in big-endian order. -/
def bytes (n v : Nat) : ByteArr n := ⟨Bytes.toBigEndian n v, Bytes.toBigEndian_length n v⟩

theorem bytes_inj {n v w : Nat} (hv : v < 256 ^ n) (hw : w < 256 ^ n)
    (h : (bytes n v).toList = (bytes n w).toList) : v = w := by
  rw [← Bytes.ofBigEndian_toBigEndian n v hv, ← Bytes.ofBigEndian_toBigEndian n w hw]
  exact congrArg Bytes.ofBigEndian h

/-! ## The handshake -/

def clientPrivkey : ByteArr 32 :=
  bytes 32 0x0102030405060708090a0b0c0d0e0f101112131415161718191a1b1c1d1e1f20

def clientPubkey : ByteArr 32 :=
  bytes 32 0x07a37cbc142093c8b755dc1b10e86cb426374ad16aa853ed0bdfc0b2b86d1c7c

def serverPrivkey : ByteArr 32 :=
  bytes 32 0x2122232425262728292a2b2c2d2e2f303132333435363738393a3b3c3d3e3f40

def serverPubkey : ByteArr 32 :=
  bytes 32 0x5869aff450549732cbaaed5e5df9b30a6da31cb0e5742bad5ad4a1a768f1a67b

def sharedSecret : ByteArr 32 :=
  bytes 32 0xa84dc7c3c8f058b1b2dc4cd1e9b5dc0a7987f88b6a9564cde3391fc421159e77

def sessionKey : ByteArr 32 :=
  bytes 32 0xf5d7f7e293d703f1e39b13059d9d5b2ceefc8f2754be76df7191e7e519059a85

def sessionId : ByteArr 16 := bytes 16 0xa0a1a2a3a4a5a6a7a8a9aaabacadaeaf

/-- The client's handshake data: the classical mode and its public key. -/
def hello : Bytes := 0 :: clientPubkey.toList

/-- The string under the tag of the response. -/
def transcript : Bytes := hello ++ sessionId.toList ++ serverPubkey.toList

def request : Bytes :=
  hello ++ (bytes 32 0x7c8ffa222ea09c9b85b3812b4486e90f505e249ee84d6fc56f76d26c2c381adb).toList

def response : Bytes :=
  sessionId.toList ++ serverPubkey.toList ++
    (bytes 32 0xbd4c4d43c77bcf79d083f53b1b688d3ff749b282bb1aa9386bc7dcd84abd687e).toList

/-! ## A second handshake of the server -/

def laterPrivkey : ByteArr 32 :=
  bytes 32 0x4142434445464748494a4b4c4d4e4f505152535455565758595a5b5c5d5e5f60

def laterPubkey : ByteArr 32 :=
  bytes 32 0x64b101b1d0be5a8704bd078f9895001fc03e8e9f9522f188dd128d9846d48466

def laterSecret : ByteArr 32 :=
  bytes 32 0x26c2c17fdb82161cb21ad16e721315355b64d1763119b10bfc962530dc7cc163

def laterKey : ByteArr 32 :=
  bytes 32 0xee983b09053064239d5609064baa0fef23a726c093f6b8a3978c5e7d0e2c70b9

def laterId : ByteArr 16 := bytes 16 0xb0b1b2b3b4b5b6b7b8b9babbbcbdbebf

/-- The string under the tag of the response to the first transcript, sent as a request. -/
def laterTranscript : Bytes := transcript ++ laterId.toList ++ laterPubkey.toList

/-! ## Telemetry -/

def packetIv : ByteArr 12 := bytes 12 0x0102030405060708

def packetText : Bytes := PyStr.encodeAscii (PyStr.lit
  "\x7b\"temperature\":22.50,\"humidity\":45.00,\"timestamp\":15,\"sequence\":0,\"device_id\":\"ESP32-Edge\"\x7d")

def packetCiphertext : Bytes := Bytes.toBigEndian 91
  0x9c09fc6bd3e8bcdc9131ba141799361c49c86873458c1daa307a1c5f171b4d4ad409ac78f33be9d9d969071c70da18ace9e6c3b3ff4aa9ff42b7c1b2c7c97af8827079c80623a8979d5ecfc2b14a1b95cea952c34de09db59b70b5

def packetTag : ByteArr 16 := bytes 16 0x0e4e45fae6913690f0bc13186e78c4f1

def ackIv : ByteArr 12 := bytes 12 0x090a0b0c0d0e0f10

def ackText : Bytes := PyStr.encodeAscii (PyStr.lit
  "\x7b\"status\": \"acknowledged\", \"command\": \"KEEP_ALIVE\", \"server_time\": \"2026-01-01T00:00:15\", \"received_seq\": 0\x7d")

def ackCiphertext : Bytes := Bytes.toBigEndian 108
  0x14d1fe3af7563dc310d508e65ff19b6a95c87d05f1052e1f3dd22afca1eecf02067f211279998432627f98d7f174d724f1a3ca8dce97b0a92ac42d3cdb0931cedffd0b2076667aae5a6ef7f12ab676f3ba00e5fb59e45ad08301a0ddbfe99915892399b08a2404fb9ca5b9eb

def ackTag : ByteArr 16 := bytes 16 0x53143acfb88f0d0a9903c1b1ce4fcced

def packet : Bytes := packetIv.toList ++ packetCiphertext ++ packetTag.toList

def ack : Bytes := ackIv.toList ++ ackCiphertext ++ ackTag.toList

/-! ## The functions -/

/-- The private key of a listed key pair, for either of its keys. -/
def privkey (k : ByteArr 32) : ByteArr 32 :=
  if k = clientPubkey then clientPrivkey
  else if k = serverPubkey then serverPrivkey
  else if k = laterPubkey then laterPrivkey
  else k

/-- The shared secret of two private keys. -/
def secretOf (a b : ByteArr 32) : ByteArr 32 :=
  if a = clientPrivkey ∧ b = serverPrivkey ∨ b = clientPrivkey ∧ a = serverPrivkey then sharedSecret
  else if a = clientPrivkey ∧ b = laterPrivkey ∨ b = clientPrivkey ∧ a = laterPrivkey then laterSecret
  else ByteArr.zero 32

theorem kem_length (coins : ByteArr 32) :
    (coins.toList ++ List.replicate 1056 (0 : UInt8)).length = 1088 := by
  rw [List.length_append, List.Vector.toList_length, List.length_replicate]

theorem packetCiphertext_length : packetCiphertext.length = packetText.length :=
  (Bytes.toBigEndian_length 91 _).trans (by decide +kernel)

theorem ackCiphertext_length : ackCiphertext.length = ackText.length :=
  (Bytes.toBigEndian_length 108 _).trans (by decide +kernel)

/-- The functions with these values. -/
def externals : Externals where
  hmacSha256 key message :=
    if key ≠ handshakePsk then ByteArr.zero 32
    else if message = hello then ByteArr.ofBytes 32 (request.rtake 32)
    else if message = transcript then ByteArr.ofBytes 32 (response.rtake 32)
    else if message = laterTranscript then
      bytes 32 0x9cfc25e948193ed6062cdfae3f17a97963c0b4e3116fa4e0684313f34d38de19
    else ByteArr.zero 32
  hkdfSha256 salt secret info :=
    if salt ≠ hkdfSalt ∨ info ≠ hkdfInfo then ByteArr.zero 32
    else if secret = sharedSecret.toList then sessionKey
    else if secret = laterSecret.toList then laterKey
    else ByteArr.ofBytes 32 secret
  x25519Base k :=
    if k = clientPrivkey then clientPubkey
    else if k = serverPrivkey then serverPubkey
    else if k = laterPrivkey then laterPubkey
    else k
  x25519 k pub := secretOf (privkey k) (privkey pub)
  kemKeypairDerand _ := (ByteArr.zero 1184, ByteArr.zero 2400)
  kemEncDerand _ coins := (⟨coins.toList ++ List.replicate 1056 0, kem_length coins⟩, coins)
  kemDec ct _ := ByteArr.ofBytes 32 ct.toList
  gcmEncrypt key iv plaintext :=
    if key = sessionKey ∧ iv = packetIv ∧ plaintext = packetText then (packetCiphertext, packetTag)
    else if key = sessionKey ∧ iv = ackIv ∧ plaintext = ackText then (ackCiphertext, ackTag)
    else (plaintext, ByteArr.zero 16)
  gcmEncrypt_length key iv plaintext := by
    split
    · next h => rw [h.2.2, packetCiphertext_length]
    · split
      · next h => rw [h.2.2, ackCiphertext_length]
      · rfl
  gcmDecrypt key iv ciphertext tag :=
    if key = sessionKey ∧ iv = packetIv ∧ ciphertext = packetCiphertext ∧ tag = packetTag then
      some packetText
    else if key = sessionKey ∧ iv = ackIv ∧ ciphertext = ackCiphertext ∧ tag = ackTag then some ackText
    else if tag = ByteArr.zero 16 then some ciphertext
    else none
  libmlkem := true
  floatRepr literal := literal
  jsonErrorText _ := PyStr.lit "Expecting value: line 1 column 1 (char 0)"
  telemetryNesting := ⟨990, by decide⟩
  benchmarksNesting := ⟨990, by decide⟩
  dumpsNesting := ⟨990, by decide⟩
  dumpsErrorText _ := PyStr.lit "maximum recursion depth exceeded while encoding a JSON object"
  dumpsIndent := Json.Walk.upTo ⟨990, by decide⟩ (PyStr.lit "maximum recursion depth exceeded")
  format := Json.Walk.upTo ⟨990, by decide⟩
    (PyStr.lit "maximum recursion depth exceeded while getting the repr of an object")
  aesKeyErrorText := PyStr.lit "key must be bytes-like"

/-! ## The laws -/

theorem privkey_base (k : ByteArr 32) : privkey (externals.x25519Base k) = privkey k := by
  simp only [externals]
  by_cases hclient : k = clientPrivkey
  · rw [if_pos hclient, hclient]
    decide +kernel
  rw [if_neg hclient]
  by_cases hserver : k = serverPrivkey
  · rw [if_pos hserver, hserver]
    decide +kernel
  rw [if_neg hserver]
  by_cases hlater : k = laterPrivkey
  · rw [if_pos hlater, hlater]
    decide +kernel
  rw [if_neg hlater]

theorem secretOf_comm (a b : ByteArr 32) : secretOf a b = secretOf b a := by
  unfold secretOf
  simp only [or_comm]

theorem x25519Comm : externals.X25519Comm := by
  intro a b
  show secretOf (privkey a) (privkey (externals.x25519Base b)) =
    secretOf (privkey b) (privkey (externals.x25519Base a))
  rw [privkey_base, privkey_base, secretOf_comm]

theorem kemCorrect : externals.KemCorrect := fun _ coins => ByteArr.ofBytes_append coins _

theorem gcmCorrect : externals.GcmCorrect := by
  intro key iv plaintext
  have hpacket : packetTag ≠ ByteArr.zero 16 := by decide +kernel
  have hack : ackTag ≠ ByteArr.zero 16 := by decide +kernel
  have hiv : ackIv ≠ packetIv := by decide +kernel
  simp only [externals]
  by_cases hp : key = sessionKey ∧ iv = packetIv ∧ plaintext = packetText
  · simp [hp]
  rw [if_neg hp]
  by_cases ha : key = sessionKey ∧ iv = ackIv ∧ plaintext = ackText
  · simp [ha, hiv]
  rw [if_neg ha]
  simp [hpacket.symm, hack.symm]

end Reference

end HybridPqc
