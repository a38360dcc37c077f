import HybridPqc.Device.Benchmark
import HybridPqc.Lib.Loops
import HybridPqc.Network.Link

/-!
# Posting and reading a body

`send_http_post` of `main.c` and `do_network_handshake` of `benchmark.c`, with the machine integers of the
device: `int` and `size_t` have 32 bits, and what `esp_http_client_fetch_headers` returns has 64.
-/

open PyStr (lit)

namespace HybridPqc

/-! ## The HTTP client library -/

/-- What a read returns, and the bytes that it stores: as many as it returns, none if that is negative. -/
structure ReadResult where
  ret : Int32
  data : Bytes
  length_data : data.length = ret.toNatClampNeg

/-- `esp_http_client`: what its functions return, and how they change a client in the state `σ`. -/
structure HttpClient (σ : Type) where
  /-- `esp_http_client_init` for a POST to the URL; `none` for `NULL`. -/
  init : PyStr → Option σ
  setHeader : PyStr → PyStr → σ → σ
  setPostField : Bytes → σ → σ
  /-- `esp_http_client_open`, with the length of the body; 0 is `ESP_OK`. -/
  openRequest : Int32 → σ → Int32 × σ
  write : Bytes → σ → σ
  fetchHeaders : σ → Int64 × σ
  getStatusCode : σ → Int32
  /-- `esp_http_client_read`, with the length that is requested. -/
  read : Int32 → σ → ReadResult × σ
  read_le : ∀ len s, 0 < len → (read len s).1.ret ≤ len

/-! ## Reading the body -/

/-- The bytes `data` at the addresses from `at` on, relative to the buffer. -/
def storesAt (address : Int) (data : Bytes) : List (Int × UInt8) :=
  data.zipIdx.map fun b => (address + b.2, b.1)

/-- `target_len`. The conditional expression has the type of `*response_len`, and for the comparison
`target_len` is converted to that. -/
def targetLen (contentLength : Int32) (responseLen : UInt32) : Int32 :=
  let target := (if 0 < contentLength then contentLength.toUInt32 else responseLen).toInt32
  if responseLen < target.toUInt32 then responseLen.toInt32 else target

/-- The client and the locals of the loop that reads the body, and what it has stored so far. -/
structure BodyRead (σ : Type) where
  client : σ
  readLen : Int32
  stores : List (Int × UInt8)

/-- One iteration of the loop. -/
def BodyRead.next {σ : Type} (http : HttpClient σ) (target : Int32) (b : BodyRead σ) :
    Option (BodyRead σ) :=
  if b.readLen < target then
    let (r, client) := http.read (target - b.readLen) b.client
    if r.ret ≤ 0 then none
    else some ⟨client, b.readLen + r.ret, b.stores ++ storesAt b.readLen.toInt r.data⟩
  else none

/-! ## The two functions -/

/-- What a call returns, leaves in `*response_len` and stores, at addresses relative to `response_buf`. -/
structure PostCall where
  ret : Int32
  responseLen : UInt32
  stores : List (Int × UInt8)

namespace HttpClient

variable {σ : Type} (http : HttpClient σ)

/-- `send_http_post`; `none` if its loop has not ended after `fuel` tests. -/
def sendHttpPost (fuel : Nat) (url : PyStr) (payload : Bytes) (responseLen : UInt32) : Option PostCall :=
  match http.init url with
  | none => some ⟨-1, responseLen, []⟩
  | some client =>
    let client := http.setHeader (lit "Content-Type") (lit "application/octet-stream") client
    let client := http.setPostField payload client
    let (err, client) := http.openRequest (Int32.ofNat payload.length) client
    if err ≠ 0 then some ⟨-1, responseLen, []⟩
    else
      let client := http.write payload client
      let (contentLength, client) := http.fetchHeaders client
      if http.getStatusCode client ≠ 200 then some ⟨-1, responseLen, []⟩
      else
        let target := targetLen contentLength.toInt32 responseLen
        (Loops.loop (BodyRead.next http target) fuel ⟨client, 0, []⟩).map fun b =>
          ⟨0, b.readLen.toUInt32, b.stores⟩

/-- The URL that is formatted into 128 characters. -/
def handshakeUrl (serverHost : PyStr) (serverPort : Int32) : PyStr :=
  (lit "http://" ++ serverHost ++ lit ":" ++ PyStr.decimalInt serverPort.toInt ++ lit "/handshake").take 127

/-- `do_network_handshake`; `hmacRet` is the result of `compute_hmac_sha256`. -/
def doNetworkHandshake (X : Externals) (fuel : Nat) (hmacRet : Int) (ctx : HybridCtx) (serverHost : PyStr)
    (serverPort : Int32) (responseLen : UInt32) : Option PostCall :=
  match hybridPackPubkeys X hmacRet ctx pubkeyBufSize with
  | none => some ⟨-1, responseLen, []⟩
  | some pubkeyBuf =>
    match http.init (handshakeUrl serverHost serverPort) with
    | none => some ⟨-1, responseLen, []⟩
    | some client =>
      let client := http.setHeader (lit "Content-Type") (lit "application/octet-stream") client
      let client := http.setPostField pubkeyBuf client
      let (err, client) := http.openRequest (Int32.ofNat pubkeyBuf.length) client
      if err ≠ 0 then some ⟨-1, responseLen, []⟩
      else
        let client := http.write pubkeyBuf client
        let (contentLength, client) := http.fetchHeaders client
        if http.getStatusCode client ≠ 200 then some ⟨-1, responseLen, []⟩
        else
          let target := targetLen contentLength.toInt32 responseLen
          (Loops.loop (BodyRead.next http target) fuel ⟨client, 0, []⟩).map fun b =>
            ⟨0, b.readLen.toUInt32, b.stores⟩

end HttpClient

/-! ## A server that answers -/

namespace HttpClient

variable {σ : Type} (http : HttpClient σ)

/-- The length that the headers announce and the client after them; `none` without a connection. -/
def connect (url : PyStr) (payload : Bytes) : Option (Int64 × σ) := do
  let client ← http.init url
  let client := http.setHeader (lit "Content-Type") (lit "application/octet-stream") client
  let client := http.setPostField payload client
  let (err, client) := http.openRequest (Int32.ofNat payload.length) client
  if err ≠ 0 then none else some (http.fetchHeaders (http.write payload client))

/-- The reads deliver what is left of a body, in order, and nothing only at its end. -/
structure Delivers (rest : σ → Bytes) : Prop where
  read : ∀ len s, 0 < len → rest s = (http.read len s).1.data ++ rest (http.read len s).2
  atEnd : ∀ len s, 0 < len → (http.read len s).1.data = [] → rest s = []

/-- A post is answered with `reply`, whose length the headers announce, or no positive length. -/
structure Serves (url : PyStr) (payload : Bytes) (reply : HttpReply) (rest : σ → Bytes) : Prop where
  delivers : http.Delivers rest
  connects : ∃ announced client, http.connect url payload = some (announced, client) ∧
    http.getStatusCode client = Int32.ofNat reply.status ∧ rest client = reply.body ∧
    (announced.toInt32.toInt = reply.body.length ∨ announced.toInt32 ≤ 0)

/-- The client of a server that sends `reply` and announces the length `announced`. -/
def serving (reply : HttpReply) (announced : Int64) : HttpClient Bytes where
  init _ := some reply.body
  setHeader _ _ rest := rest
  setPostField _ rest := rest
  openRequest _ rest := (0, rest)
  write _ rest := rest
  fetchHeaders rest := (announced, rest)
  getStatusCode _ := Int32.ofNat reply.status
  read len rest :=
    (⟨Int32.ofNat (min len.toNatClampNeg rest.length), rest.take len.toNatClampNeg, by
      rw [Int32.toNatClampNeg_ofNat_of_lt, List.length_take]
      have hlt := len.toNatClampNeg_lt
      omega⟩, rest.drop len.toNatClampNeg)
  read_le len rest hlen := by
    have hlt := len.toNatClampNeg_lt
    rw [Int32.le_iff_toInt_le, Int32.toInt_ofNat_of_lt (by omega)]
    rw [Int32.lt_iff_toInt_lt, Int32.toInt_zero] at hlen
    have hclamp : (len.toNatClampNeg : Int) = len.toInt := Int.toNat_of_nonneg (Int.le_of_lt hlen)
    omega

end HttpClient

end HybridPqc
