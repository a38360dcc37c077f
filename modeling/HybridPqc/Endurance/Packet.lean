import HybridPqc.Lib.PyTime

/-!
# Lines of a packet capture

What `parse_log` in `analyze_endurance_log.py` reads off one line of a `tcpdump` log, and how it tells
the protocol and the direction of a packet.
-/

open PyStr (lit)

namespace HybridPqc

/-- What `parse_log` takes from a line. -/
structure Packet where
  dt : DateTime
  src : PyStr
  dst : PyStr
  flags : PyStr
  length : Nat

/-- `Flags \[([^\]]+)\]`. -/
def flagsPattern (s : PyStr) : Option PyStr := do
  let rest ← PyStr.after? (lit "Flags [") s
  let (group, _) ← PyStr.cut 93 rest
  if group = [] then none else some group

/-- `length\s+(\d+)`. -/
def lengthPattern (s : PyStr) : Option PyStr := do
  let rest ← PyStr.after? (lit "length") s
  let digits := (rest.dropWhile PyStr.isSpace).takeWhile PyStr.isDecimal
  if rest.takeWhile PyStr.isSpace = [] ∨ digits = [] then none else some digits

/-- The packet of a line; `none` for the lines that `parse_log` skips at once. The first 26 characters of
`parts[0] + ' ' + parts[1]` hold the time. -/
def parseLine (line : PyStr) : Option Packet :=
  if (lit "2026-").isPrefixOf line then
    match PyStr.split line with
    | date :: time :: _ :: src :: _ :: dst :: _ => do
      let dt ← DateTime.strptime date (time.take (25 - date.length))
      some
        { dt := dt
          src := src
          dst := PyStr.rstrip 58 dst
          flags := (PyStr.search flagsPattern line).getD []
          length := ((PyStr.search lengthPattern line).map PyStr.intValue).getD 0 }
    | _ => none
  else none

/-- `int(m_len.group(1))` raises `ValueError`: the length of a dated line has too many digits. -/
def overlong (line : PyStr) : Bool :=
  (parseLine line).isSome &&
    ((PyStr.search lengthPattern line).map fun digits => decide (Json.maxStrDigits < digits.length)).getD false

/-- A line of `tcpdump -tttt` about a TCP segment of the ninth of September. -/
def captureLine (time src dst flags : PyStr) (length : Nat) : PyStr :=
  lit "2026-09-09 " ++ time ++ lit " IP " ++ src ++ lit " > " ++ dst ++ lit ": Flags [" ++ flags ++
    lit "], seq 1, ack 1, win 5744, length " ++ PyStr.decimal length

example : (parseLine (captureLine (lit "08:24:23.651742") (lit "192.168.1.3.60420")
      (lit "192.168.1.9.8443") (lit "P.") 1249)).map
    (fun p => (p.src, p.dst, p.flags, p.length, p.dt.microsecond)) =
      some (lit "192.168.1.3.60420", lit "192.168.1.9.8443", lit "P.", 1249, 651742) := by decide +kernel

/-! ## Protocol and direction -/

/-- `proto`: the service on port 8443 or the one on port 4443. -/
inductive Proto where
  | hybridPqc
  | classicalTls
  deriving DecidableEq, Repr

namespace Proto

/-- `'Hybrid-PQC'`, `'Classical-TLS'`. -/
def name : Proto → PyStr
  | hybridPqc => lit "Hybrid-PQC"
  | classicalTls => lit "Classical-TLS"

/-- The port of the service. -/
def port : Proto → Nat
  | hybridPqc => 8443
  | classicalTls => 4443

end Proto

/-- `proto`, `client_ep` and `is_client`. -/
structure Classification where
  proto : Proto
  clientEp : PyStr
  isClient : Bool
  deriving DecidableEq

/-- An endpoint as `tcpdump` prints it. -/
def endpoint (ip : PyStr) (port : Nat) : PyStr := ip ++ lit "." ++ PyStr.decimal port

/-- `':8443' in ep or '.8443' in ep`, or the same with 4443. -/
def mentions (proto : Proto) (ep : PyStr) : Bool :=
  decide (PyStr.Contains (lit ":" ++ PyStr.decimal proto.port) ep) ||
    decide (PyStr.Contains (lit "." ++ PyStr.decimal proto.port) ep)

/-- The identification of the protocol; `none` for a packet of neither service. -/
def classify (src dst : PyStr) : Option Classification :=
  if mentions .hybridPqc dst then some ⟨.hybridPqc, src, true⟩
  else if mentions .hybridPqc src then some ⟨.hybridPqc, dst, false⟩
  else if mentions .classicalTls dst then some ⟨.classicalTls, src, true⟩
  else if mentions .classicalTls src then some ⟨.classicalTls, dst, false⟩
  else none

end HybridPqc
