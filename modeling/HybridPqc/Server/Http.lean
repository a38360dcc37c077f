import HybridPqc.Server.Telemetry

/-!
# The HTTP server

`HybridPQCServer.handle_request` of `server.py`, with the benchmark data that the server keeps. `None` and
the values of `json.loads` are JSON values; setting a key of a value and its truth are those of Python.
-/

namespace HybridPqc

/-- The attributes of `HybridPQCServer`. -/
structure HttpServer where
  core : Server
  latestBenchmarks : Json

/-- `HybridPQCServer.__init__`. -/
def HttpServer.init : HttpServer := ⟨Server.init, .null⟩

/-- Texts of exceptions. -/
structure ErrorTexts where
  /-- `str(e)` of the exception that `body.decode()` raises. -/
  decodeError : Bytes → PyStr
  /-- `str(e)` of the exception that `json.loads` raises on a text. -/
  jsonError : PyStr → PyStr

/-- `body.decode()`: UTF-8, and no surrogates. -/
def decodeBody (body : Bytes) : Option PyStr :=
  (Json.decodeUtf8 (body.map UInt8.toNat)).bind fun text =>
    if text.any fun c => Json.isHighSurrogate c || Json.isLowSurrogate c then none else some text

/-- `json.loads(body.decode())` on the decoded body. -/
def benchmarksLoads (X : Externals) (text : PyStr) : Except Json.LoadsError Json :=
  Json.parse (Json.loadsLimits X.benchmarksNesting) text

/-- `bool(value)`. -/
def truthy (X : Externals) : Json → Bool
  | .null => false
  | .bool b => b
  | .int i => decide (i ≠ 0)
  | .float literal =>
    decide (X.floatRepr literal ≠ PyStr.lit "0.0" ∧ X.floatRepr literal ≠ PyStr.lit "-0.0")
  | .str s => decide (s ≠ [])
  | .arr items => !items.isEmpty
  | .obj fields => !fields.isEmpty

/-! ## The benchmark routes -/

/-- One mode of the default data. -/
def defaultMode (latencyMs peakHeapKb : String) (payloadBytes cpuCycles : Int) : Json :=
  .obj [(PyStr.lit "latency_ms", .float (PyStr.lit latencyMs)),
    (PyStr.lit "peak_heap_kb", .float (PyStr.lit peakHeapKb)),
    (PyStr.lit "payload_bytes", .int payloadBytes), (PyStr.lit "cpu_cycles", .int cpuCycles)]

/-- `_get_default_benchmarks`. -/
def defaultBenchmarks : List (PyStr × Json) :=
  [(PyStr.lit "classical", defaultMode "3.4" "2.1" 64 816000),
    (PyStr.lit "pqc", defaultMode "17.1" "12.0" 1568 4100000),
    (PyStr.lit "hybrid", defaultMode "21.3" "13.8" 1713 4730000),
    (PyStr.lit "iterations", .int 0), (PyStr.lit "chip", .str (PyStr.lit "ESP32-D0WD-V3")),
    (PyStr.lit "freq_mhz", .int 240), (PyStr.lit "sram_kb", .int 520), (PyStr.lit "demo", .bool true)]

/-- What a request reads off the clock, draws and finds on the disk. -/
structure HttpEnv where
  handshake : HandshakeEnv
  telemetry : TelemetryEnv
  /-- `datetime.now()` of `POST /api/benchmarks`. -/
  now : DateTime
  /-- `int(time.time() - self.start_time)`. -/
  uptime : Int
  /-- The dashboard file, if it exists. -/
  dashboard : Option Bytes

/-- `POST /api/benchmarks`: the value is stored before a key of it is set and before it is written to the
log. Only a `JSONDecodeError` is caught. -/
def postBenchmarks (X : Externals) (T : ErrorTexts) (env : HttpEnv) (s : HttpServer) (body : Bytes) :
    HttpReply × HttpServer :=
  match decodeBody body with
  | none => (internalError X (T.decodeError body), s)
  | some text =>
    match benchmarksLoads X text with
    | .error .decode => (jsonReply X 400 (errorDict (T.jsonError text)), s)
    | .error _ => (internalError X (T.jsonError text), s)
    | .ok value =>
      let s := { s with latestBenchmarks := value }
      match setItem (PyStr.lit "timestamp") (.str env.now.isoformat) value with
      | .error text => (internalError X text, s)
      | .ok fields =>
        let s := { s with latestBenchmarks := .obj fields }
        if X.dumpsIndent.returns (.obj fields) then
          (⟨200, PyStr.encodeAscii (PyStr.lit "\x7b\"status\":\"ok\"\x7d")⟩, s)
        else (internalError X (X.dumpsIndent.errorText (.obj fields)), s)

/-- The three keys that `GET /api/benchmarks` sets. -/
def withServerData (env : HttpEnv) (s : Server) (data : Json) : Except PyStr (List (PyStr × Json)) := do
  let data ← setItem (PyStr.lit "handshake_count") (.int s.handshakeCount) data
  let data ← setItem (PyStr.lit "uptime_s") (.int env.uptime) (.obj data)
  setItem (PyStr.lit "telemetry") (.arr (s.telemetryLog.rtake 20)) (.obj data)

/-- `GET /api/benchmarks`: the keys are set in the stored object itself, unless it is the default one. -/
def getBenchmarks (X : Externals) (env : HttpEnv) (s : HttpServer) : HttpReply × HttpServer :=
  let stored := truthy X s.latestBenchmarks
  let data := if stored then s.latestBenchmarks else .obj defaultBenchmarks
  match withServerData env s.core data with
  | .error text => (internalError X text, s)
  | .ok fields =>
    (jsonReply X 200 fields, if stored then { s with latestBenchmarks := .obj fields } else s)

/-! ## All routes -/

/-- A request as `handle_request` has read it. -/
structure HttpRequest where
  method : PyStr
  path : PyStr
  body : Bytes

/-- The request is for this method and path. -/
def HttpRequest.Is (r : HttpRequest) (method path : String) : Prop :=
  r.method = PyStr.lit method ∧ r.path = PyStr.lit path

instance (r : HttpRequest) (method path : String) : Decidable (r.Is method path) :=
  inferInstanceAs (Decidable (r.method = PyStr.lit method ∧ r.path = PyStr.lit path))

/-- What arrives on a connection. -/
inductive Incoming where
  | request (env : HttpEnv) (r : HttpRequest)
  /-- The request cannot be read: an exception with this text. -/
  | malformed (text : PyStr)
  /-- Nothing arrives in time. -/
  | dropped

/-- The page without a dashboard file. -/
def plainPage : Bytes := PyStr.encodeAscii
  (PyStr.lit "<h1>Hybrid PQC Server Running</h1><p>Dashboard not found.</p>")

/-- The routes of `handle_request`. -/
def route (X : Externals) (T : ErrorTexts) (env : HttpEnv) (s : HttpServer) (r : HttpRequest) :
    HttpReply × HttpServer :=
  if r.Is "POST" "/handshake" then
    let (reply, core) := handshakeRoute X env.handshake s.core r.body
    (reply, { s with core := core })
  else if r.Is "POST" "/api/telemetry" then
    let result := telemetryRoute X env.telemetry s.core r.body
    (result.reply, { s with core := result.server })
  else if r.Is "POST" "/api/benchmarks" then postBenchmarks X T env s r.body
  else if r.Is "GET" "/api/benchmarks" then getBenchmarks X env s
  else if r.Is "GET" "/api/telemetry" then
    (jsonReply X 200 [(PyStr.lit "telemetry", .arr (s.core.telemetryLog.rtake 50))], s)
  else if r.Is "GET" "/" then (⟨200, env.dashboard.getD plainPage⟩, s)
  else if r.method = PyStr.lit "OPTIONS" then (⟨200, []⟩, s)
  else (⟨404, PyStr.encodeAscii (PyStr.lit "Not Found")⟩, s)

/-- `handle_request`: the reply, if there is one, and the state it leaves. -/
def handleRequest (X : Externals) (T : ErrorTexts) (s : HttpServer) :
    Incoming → Option HttpReply × HttpServer
  | .request env r => ((route X T env s r).1, (route X T env s r).2)
  | .malformed text => (internalError X text, s)
  | .dropped => (none, s)

/-- The state after an input. -/
def HttpServer.next (X : Externals) (T : ErrorTexts) (s : HttpServer) (i : Incoming) : HttpServer :=
  (handleRequest X T s i).2

end HybridPqc
