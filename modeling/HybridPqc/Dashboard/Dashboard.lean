import HybridPqc.Lib.Decimals
import HybridPqc.Server.Http

/-!
# The dashboard

`normalizeServerData` and `fetchData` of `index.html`. The values of JavaScript that come from
`JSON.parse` are JSON values; `undefined` is `none`.
-/

namespace HybridPqc

/-- One bar of a chart. -/
structure Bar where
  value : Json
  label : PyStr
  /-- The key exchange, on the latency chart. -/
  algo : Option PyStr
  /-- The memory of the chip in KB, on the memory chart. -/
  total : Option Nat

/-- What `applyData` shows. -/
structure DashboardData where
  iteration : Json
  totalIterations : Json
  latency : Mode → Bar
  memory : Mode → Bar
  payload : Mode → Bar
  cpu : Mode → Bar

/-- The label of a mode. -/
def modeLabel : Mode → PyStr
  | .classical => PyStr.lit "Classical"
  | .pqc => PyStr.lit "PQC"
  | .hybrid => PyStr.lit "Hybrid"

/-- The key exchange of a mode. -/
def modeAlgo : Mode → PyStr
  | .classical => PyStr.lit "X25519"
  | .pqc => PyStr.lit "ML-KEM-768"
  | .hybrid => PyStr.lit "X25519 + ML-KEM-768"

/-- The values of the `DEMO` data. -/
structure DemoValues where
  latency : String
  memory : String
  payload : Int
  cpu : Int

def demoValues : Mode → DemoValues
  | .classical => ⟨"3.4", "2.1", 64, 816000⟩
  | .pqc => ⟨"17.1", "12.0", 1568, 4100000⟩
  | .hybrid => ⟨"20.5", "14.1", 1632, 4900000⟩

/-- `DEMO`. -/
def demo : DashboardData where
  iteration := .int 47
  totalIterations := .int 100
  latency mode := ⟨.float (PyStr.lit (demoValues mode).latency), modeLabel mode, modeAlgo mode, none⟩
  memory mode := ⟨.float (PyStr.lit (demoValues mode).memory), modeLabel mode, none, some 520⟩
  payload mode := ⟨.int (demoValues mode).payload, modeLabel mode, none, none⟩
  cpu mode := ⟨.int (demoValues mode).cpu, modeLabel mode, none, none⟩

/-! ## JavaScript -/

/-- `value.key` of a value other than `null`; none of the keys read here is one of the prototypes. -/
def property (key : String) : Json → Option Json
  | .obj fields => fields.lookup (PyStr.lit key)
  | _ => none

/-- `value?.key`. -/
def optionalProperty (key : String) (value : Option Json) : Option Json := value.bind (property key)

/-- `value ?? other`. -/
def nullish (value : Option Json) (other : Json) : Json :=
  match value with
  | none => other
  | some .null => other
  | some value => value

/-- A literal that Python writes and `JSON.parse` refuses. -/
def isConstant (literal : PyStr) : Bool :=
  literal = PyStr.lit "NaN" || literal = PyStr.lit "Infinity" || literal = PyStr.lit "-Infinity"

mutual

/-- The value was written without the literals that `JSON.parse` refuses. -/
def isStandard : Json → Bool
  | .float literal => !isConstant literal
  | .arr items => itemsStandard items
  | .obj fields => fieldsStandard fields
  | _ => true

def itemsStandard : List Json → Bool
  | [] => true
  | v :: l => isStandard v && itemsStandard l

def fieldsStandard : List (PyStr × Json) → Bool
  | [] => true
  | (_, v) :: l => isStandard v && fieldsStandard l

end

/-- `JSON.parse`: the grammar of Python's `json` without these literals. -/
def jsonParse (text : PyStr) : Option Json := (Json.parse .unlimited text).toOption.filter isStandard

/-- `res.json()` of a body in UTF-8, as the server sends it. -/
def responseJson (body : Bytes) : Option Json :=
  (Json.decodeUtf8 (body.map UInt8.toNat)).bind jsonParse

/-! ## The data of the server -/

/-- The keys of the modes. -/
def modeKey : Mode → String
  | .classical => "classical"
  | .pqc => "pqc"
  | .hybrid => "hybrid"

/-- `raw.section?.mode?.value ?? DEMO.section.mode.value`, with the rest of the bar. -/
def readBar (raw : Json) (chart : String) (demo : Mode → Bar) (mode : Mode) : Bar :=
  let value := optionalProperty "value" (optionalProperty (modeKey mode) (property chart raw))
  { demo mode with value := nullish value (demo mode).value }

/-- `normalizeServerData`; reading a property of `null` ends in `jitterDemo`, whose data is given. -/
def normalizeServerData (jitterDemo : DashboardData) : Json → DashboardData
  | .null => jitterDemo
  | raw =>
    { iteration := nullish (property "iteration" raw) demo.iteration
      totalIterations := nullish (property "total_iterations" raw) demo.totalIterations
      latency := readBar raw "latency" demo.latency
      memory := readBar raw "memory" demo.memory
      payload := readBar raw "payload" demo.payload
      cpu := readBar raw "cpu" demo.cpu }

/-- The request that `fetchData` sends. -/
def fetchRequest : HttpRequest := ⟨PyStr.lit "GET", PyStr.lit "/api/benchmarks", []⟩

/-- `fetchData`: the data that is shown under the `CONNECTED` badge for the reply, if it comes in time;
`none` when the dashboard goes offline. -/
def fetchData (jitterDemo : DashboardData) (reply : Option HttpReply) : Option DashboardData :=
  match reply with
  | none => none
  | some res =>
    if 200 ≤ res.status ∧ res.status ≤ 299 then
      (responseJson res.body).map (normalizeServerData jitterDemo)
    else none

end HybridPqc
