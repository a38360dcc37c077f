import HybridPqc.Endurance.ParseLog
import HybridPqc.Endurance.Pandas
import HybridPqc.Lib.Samples

/-!
# The endurance analysis

`main` of `analyze_endurance_log.py`: the latencies, the statistics, the CSV file and the report of a
log, and what it prints from the CSV file when there is no log. Times are exact; a latency in
milliseconds is held in microseconds, which are the three decimals it is printed with.
-/

open PyStr (lit)

namespace HybridPqc

/-! ## Latencies -/

/-- `(b - a).total_seconds()`, in microseconds. -/
def elapsed (a b : DateTime) : Int := (b.micros : Int) - a.micros

/-- `turnaround_ms` and `total_duration_ms`. -/
structure Latency where
  turnaround : Int
  totalDuration : Int

/-- The latencies of a handshake; `none` for the `TypeError` of one without an end time. -/
def latency (h : Stream) : Option Latency :=
  h.endTime.map fun endTime =>
    let totalDuration := elapsed h.startTime endTime
    { turnaround :=
        match h.reqTime, h.respTime with
        | some req, some resp => elapsed req resp
        | _, _ => totalDuration
      totalDuration := totalDuration }

/-- The dictionary of `calculate_stats`, with the square of the standard deviation. -/
structure Stats where
  count : Nat
  mean : ℚ
  variance : ℚ
  min : Int
  median : ℚ
  p95 : Int
  p99 : Int
  max : Int

/-- `calculate_stats`: `some none` for the empty dictionary, `none` for an `IndexError`. -/
def calculateStats (latencies : List Int) : Option (Option Stats) :=
  if latencies = [] then some none
  else do
    let s := latencies.insertionSort (· ≤ ·)
    let n := s.length
    let values := s.map fun x : Int => (x : ℚ)
    let upper ← s[n / 2]?
    let median ← if n % 2 ≠ 0 then some (upper : ℚ)
      else do
        let lower ← s[n / 2 - 1]?
        some (Samples.mean [(lower : ℚ), (upper : ℚ)])
    some (some
      { count := n
        mean := Samples.mean values
        variance := Samples.variance values
        min := ← s[0]?
        median := median
        p95 := ← s[n * 95 / 100]?
        p99 := ← s[n * 99 / 100]?
        max := ← s[n - 1]? })

/-! ## The CSV file -/

/-- `fieldnames`. -/
def fieldnames : List PyStr :=
  [lit "handshake_id", lit "session_id", lit "protocol", lit "client_ip", lit "client_port",
   lit "start_time", lit "end_time", lit "turnaround_latency_ms", lit "total_duration_ms",
   lit "client_hello_bytes", lit "server_hello_bytes", lit "total_client_bytes",
   lit "total_server_bytes", lit "status"]

/-- `s.rsplit(chr(c), 1)` of a text that contains the character. -/
def rsplit (c : Nat) (s : PyStr) : Option (PyStr × PyStr) :=
  (PyStr.cut c s.reverse).map fun (after, before) => (before.reverse, after.reverse)

/-- `c_ip` and `c_port`. -/
def splitEndpoint (ep : PyStr) : PyStr × PyStr :=
  ((rsplit 46 ep).or (rsplit 58 ep)).getD (ep, [])

/-- `f"{ms:.3f}"` of a latency. -/
def millis (us : Int) : PyStr := (if us < 0 then lit "-" else []) ++ PyStr.fixed 3 us.natAbs

/-- The row of the handshake with number `idx`. -/
def csvRow (idx : Nat) (h : Stream) (l : Latency) : List PyStr :=
  [PyStr.decimal idx, PyStr.decimal h.sessionId, h.proto.name, (splitEndpoint h.clientEp).1,
   (splitEndpoint h.clientEp).2, h.startTime.isoformat, (h.endTime.map DateTime.isoformat).getD [],
   millis l.turnaround, millis l.totalDuration, PyStr.decimal h.cHelloLen, PyStr.decimal h.sHelloLen,
   PyStr.decimal h.clientBytes, PyStr.decimal h.serverBytes,
   if h.completed then lit "SUCCESS" else lit "FAILED"]

/-! ## The program -/

/-- The statistics of both protocols. -/
structure LatencyStats where
  pqcTurn : Option Stats
  pqcDur : Option Stats
  tlsTurn : Option Stats
  tlsDur : Option Stats

/-- `pqc_turnarounds` and the lists beside it. -/
def latenciesOf (proto : Proto) (timed : List (Stream × Latency)) (field : Latency → Int) : List Int :=
  (timed.filter fun t => decide (t.1.proto = proto)).map fun t => field t.2

def latencyStats (timed : List (Stream × Latency)) : Option LatencyStats := do
  some
    { pqcTurn := ← calculateStats (latenciesOf .hybridPqc timed Latency.turnaround)
      pqcDur := ← calculateStats (latenciesOf .hybridPqc timed Latency.totalDuration)
      tlsTurn := ← calculateStats (latenciesOf .classicalTls timed Latency.turnaround)
      tlsDur := ← calculateStats (latenciesOf .classicalTls timed Latency.totalDuration) }

/-- `endurance_test_report.md`: the table of the sittings, and the part that names the fourth one. -/
structure MdReport where
  sessions : List LogSession
  findings : Option (LogSession × LatencyStats)

/-- The files that `main` looks for and writes. -/
structure Disk where
  /-- The file that the first argument names. -/
  argLog : Option (List PyStr)
  /-- `default_log`. -/
  defaultLog : Option (List PyStr)
  /-- `/home/kali/dual_bench_final_complete.log`. -/
  kaliLog : Option (List PyStr)
  /-- `default_csv`, which is also where the CSV file is written. -/
  csv : Option CsvFile
  md : Option MdReport

/-- What `main` prints of the number of handshakes: their total, the hybrid and the TLS ones, and those
of each sitting, under its number. -/
structure Printed where
  total : Nat
  protocols : Option (Nat × Nat)
  sittings : List (PyStr × Nat)

structure MainRun where
  disk : Disk
  printed : Option Printed
  error : Option MainError

/-- The counts of a log. -/
def printedOfLog (r : ParsedLog) : Printed :=
  let totalPqc := (r.sessions.map LogSession.pqcCount).sum
  let totalTls := (r.sessions.map LogSession.tlsCount).sum
  { total := totalPqc + totalTls
    protocols := some (totalPqc, totalTls)
    sittings := r.sessions.map fun s => (PyStr.decimal s.id, s.pqcCount + s.tlsCount) }

/-- The handshakes with their latencies. -/
def timedHandshakes (hs : List Stream) : Option (List (Stream × Latency)) :=
  hs.mapM fun h => (latency h).map fun l => (h, l)

/-- The CSV file of the handshakes, which are numbered from 1. -/
def csvOf (timed : List (Stream × Latency)) : CsvFile :=
  ⟨fieldnames, (timed.zipIdx 1).map fun t => csvRow t.2 t.1.1 t.1.2⟩

/-- `main` with a log that `parse_log` reads to the end. -/
def mainOnParsed (disk : Disk) (r : ParsedLog) : MainRun :=
  let printed := some (printedOfLog r)
  match timedHandshakes r.handshakes with
  | none => ⟨disk, printed, some .typeError⟩
  | some timed =>
    match latencyStats timed with
    | none => ⟨disk, printed, some .indexError⟩
    | some stats =>
      let disk := { disk with csv := some (csvOf timed) }
      match r.sessions[3]? with
      | none => ⟨{ disk with md := some ⟨r.sessions, none⟩ }, printed, some .indexError⟩
      | some fourth =>
        ⟨{ disk with md := some ⟨r.sessions, some (fourth, stats)⟩ }, printed, none⟩

/-- `main` with a log. -/
def mainOnLog (disk : Disk) (log : List PyStr) : MainRun :=
  if log.any overlong then ⟨disk, none, some .valueError⟩ else mainOnParsed disk (parseLog log)

namespace Pandas

variable (P : Pandas)

/-- The lines on the sittings, and the exception that ends them. -/
def printSittings : List (PyStr × P.Frame) → List (PyStr × Nat) × Option MainError
  | [] => ([], none)
  | (sid, grp) :: groups =>
    match P.column grp (lit "timestamp") with
    | none => ([], some (.keyError (lit "timestamp")))
    | some timestamps =>
      match P.range timestamps with
      | .error e => ([], some e)
      | .ok _ =>
        let (sittings, error) := printSittings groups
        ((sid, P.len grp) :: sittings, error)

/-- What `main` prints of a data frame. -/
def printFrame (df : P.Frame) : Printed × Option MainError :=
  let total := P.len df
  match P.column df (lit "protocol") with
  | none => (⟨total, none, []⟩, some (.keyError (lit "protocol")))
  | some protocols =>
    let count := fun name => P.len (P.select df (P.equals protocols name))
    let counts := some (count (lit "Hybrid-PQC (ML-KEM-768)"), count (lit "Classical TLS 1.3"))
    match P.groupby df (lit "session_id") with
    | none => (⟨total, counts, []⟩, some (.keyError (lit "session_id")))
    | some groups =>
      let (sittings, error) := P.printSittings groups
      (⟨total, counts, sittings⟩, error)

end Pandas

/-- `main` without a log, on the CSV file; `none` for pandas that is not installed. -/
def mainOnCsv (pandas : Option Pandas) (disk : Disk) (csv : CsvFile) : MainRun :=
  match pandas with
  | none => ⟨disk, none, some .importError⟩
  | some P =>
    match P.readCsv csv with
    | .error e => ⟨disk, none, some e⟩
    | .ok df =>
      let (printed, error) := P.printFrame df
      ⟨disk, some printed, error⟩

/-- `log_file`. -/
def Disk.logFile (disk : Disk) : Option (List PyStr) :=
  (disk.argLog.or disk.defaultLog).or disk.kaliLog

/-- The disk after all logs are removed. -/
def Disk.withoutLogs (disk : Disk) : Disk :=
  { disk with argLog := none, defaultLog := none, kaliLog := none }

/-- `main` of `analyze_endurance_log.py`. -/
def enduranceMain (pandas : Option Pandas) (disk : Disk) : MainRun :=
  match disk.logFile, disk.csv with
  | some log, _ => mainOnLog disk log
  | none, some csv => mainOnCsv pandas disk csv
  | none, none => ⟨disk, none, some (.systemExit 1)⟩

end HybridPqc
