import Mathlib.Data.NNRat.Floor
import HybridPqc.Device.Handshake
import HybridPqc.Device.Keygen
import HybridPqc.Lib.PyText

/-!
# The benchmark engine

`benchmark_run_single`, `benchmark_run_suite` and `benchmark_run_campaign` of `benchmark.c`. Times and
their means are exact rational numbers of milliseconds; allocations succeed, and there is at least one
iteration.
-/

namespace HybridPqc

/-! ## One run -/

/-- `benchmark_result_t`. -/
structure BenchmarkResult where
  mode : Mode
  keygenCycles : UInt32
  handshakeCycles : UInt32
  totalCycles : UInt32
  keygenMs : ℚ≥0
  handshakeMs : ℚ≥0
  totalMs : ℚ≥0
  peakHeapBytes : Nat
  payloadBytes : Nat

/-- What a run draws, measures and receives. -/
structure RunEnv where
  codes : KeygenCodes
  outputs : KeygenOutputs
  /-- Result of `compute_hmac_sha256` when the public keys are packed for their size. -/
  sizeHmacRet : Int
  /-- Result of `compute_hmac_sha256` when they are packed for the request. -/
  requestHmacRet : Int
  /-- What can be read of the server's response; `none` without a connection or a status of 200. -/
  network : Option Bytes
  response : ResponseEnv
  keygenUs : Nat
  handshakeUs : Nat
  keygenCycles : UInt32
  handshakeCycles : UInt32
  totalCycles : UInt32
  heapBefore : Nat
  heapAfterKeygen : Nat
  heapAfter : Nat

/-- `sizeof(response_buf)` of `benchmark_run_single`. -/
def benchmarkBufSize : Nat := 16 + 32 + 1088 + 64

/-- The request and the response of a handshake. -/
structure NetworkHandshake where
  request : Bytes
  response : Bytes

/-- `do_network_handshake`. -/
def doNetworkHandshake (X : Externals) (env : RunEnv) (ctx : HybridCtx) : Option NetworkHandshake := do
  let request ← hybridPackPubkeys X env.requestHmacRet ctx pubkeyBufSize
  let response ← env.network
  some ⟨request, response.take benchmarkBufSize⟩

/-- What the handshake part of a run leaves in the result and in its locals. -/
structure HandshakeRun where
  handshakeCycles : UInt32
  handshakeMs : ℚ≥0
  responseLen : Nat
  /-- The result of `hybrid_process_server_response`, which goes no further than this. -/
  ret : Option Int

/-- The handshake part of `benchmark_run_single`. Without a server it measures the ML-KEM-768 operations
for the log, and `response_len` stays at the size of the buffer. -/
def handshakeRun (X : Externals) (env : RunEnv) (ctx : HybridCtx) : HandshakeRun :=
  match doNetworkHandshake X env ctx with
  | none => ⟨0, 0, benchmarkBufSize, none⟩
  | some handshake =>
    ⟨env.handshakeCycles, (env.handshakeUs : ℚ≥0) / 1000, handshake.response.length,
      some (hybridProcessServerResponse X env.response ctx handshake.response).ret⟩

/-- `benchmark_run_single`; `none` for `-1`. -/
def benchmarkRunSingle (X : Externals) (mode : Mode) (env : RunEnv) : Option BenchmarkResult :=
  let keygen := hybridKeygen X env.codes env.outputs (hybridInit mode)
  if keygen.ret ≠ 0 then none
  else
    let keygenMs := (env.keygenUs : ℚ≥0) / 1000
    let minHeap := min env.heapBefore env.heapAfterKeygen
    let pubkeyLen := ((hybridPackPubkeys X env.sizeHmacRet keygen.ctx pubkeyBufSize).map
      List.length).getD 0
    let handshake := handshakeRun X env keygen.ctx
    let minHeap := min minHeap env.heapAfter
    some
      { mode := mode
        keygenCycles := env.keygenCycles
        handshakeCycles := handshake.handshakeCycles
        totalCycles := env.totalCycles
        keygenMs := keygenMs
        handshakeMs := handshake.handshakeMs
        totalMs := keygenMs + handshake.handshakeMs
        peakHeapBytes := env.heapBefore - minHeap
        payloadBytes := pubkeyLen + handshake.responseLen }

/-! ## Statistics -/

/-- `benchmark_stats_t`, with the square of the standard deviation. -/
structure BenchmarkStats where
  mode : Mode
  iterations : Nat
  meanTotalMs : ℚ≥0
  /-- The square of `stddev_total_ms`. -/
  stddevSquared : ℚ
  meanKeygenMs : ℚ≥0
  meanHandshakeMs : ℚ≥0
  meanPeakHeap : Nat
  payloadBytes : Nat
  meanTotalCycles : Nat

/-- The locals in which the iterations are summed up. -/
structure Totals where
  /-- `latencies`, in the order of the iterations. -/
  latencies : List Nat
  totalMsSum : ℚ≥0
  keygenMsSum : ℚ≥0
  hsMsSum : ℚ≥0
  heapSum : Nat
  cyclesSum : Nat
  payloadBytes : Nat

/-- The cast of a time to `uint32_t`. -/
def truncMs (ms : ℚ≥0) : Nat := ⌊ms⌋₊ % 2 ^ 32

namespace Totals

def zero : Totals := ⟨[], 0, 0, 0, 0, 0, 0⟩

/-- A successful iteration. -/
def add (t : Totals) (r : BenchmarkResult) : Totals where
  latencies := t.latencies ++ [truncMs r.totalMs]
  totalMsSum := t.totalMsSum + r.totalMs
  keygenMsSum := t.keygenMsSum + r.keygenMs
  hsMsSum := t.hsMsSum + r.handshakeMs
  heapSum := t.heapSum + r.peakHeapBytes
  cyclesSum := t.cyclesSum + r.totalCycles.toNat
  payloadBytes := r.payloadBytes

/-- A skipped iteration: its entry stays at the zero of `calloc`. -/
def skip (t : Totals) : Totals := { t with latencies := t.latencies ++ [0] }

/-- What is computed from the sums at the end. -/
def stats (t : Totals) (mode : Mode) (iterations : Nat) : BenchmarkStats :=
  let meanTotalMs := t.totalMsSum / iterations
  { mode := mode
    iterations := iterations
    meanTotalMs := meanTotalMs
    stddevSquared := (t.latencies.map fun l : Nat => ((l : ℚ) - meanTotalMs) ^ 2).sum / iterations
    meanKeygenMs := t.keygenMsSum / iterations
    meanHandshakeMs := t.hsMsSum / iterations
    meanPeakHeap := t.heapSum / iterations
    payloadBytes := t.payloadBytes
    meanTotalCycles := t.cyclesSum / iterations }

end Totals

/-! ## The suite -/

/-- One iteration of `benchmark_run_suite`. -/
def suiteStep (t : Totals) : Option BenchmarkResult → Totals
  | none => t.skip
  | some r => t.add r

/-- The statistics of one mode, for the outcomes of its iterations. -/
def suiteStats (mode : Mode) (outcomes : List (Option BenchmarkResult)) : BenchmarkStats :=
  (outcomes.foldl suiteStep Totals.zero).stats mode outcomes.length

/-- `benchmark_run_suite`: the statistics of each mode. -/
def benchmarkRunSuite {iterations : Nat}
    (outcomes : Mode → List.Vector (Option BenchmarkResult) iterations) (mode : Mode) : BenchmarkStats :=
  suiteStats mode (outcomes mode).toList

/-! ## The campaign -/

/-- The locals of `benchmark_run_campaign`. -/
structure Campaign where
  totals : Totals
  successfulRuns : Nat
  minMs : ℚ≥0
  maxMs : ℚ≥0
  minCycles : UInt32
  maxCycles : UInt32
  minHeap : Nat
  maxHeap : Nat

namespace Campaign

def start : Campaign := ⟨Totals.zero, 0, 999999, 0, 0xFFFFFFFF, 0, 0xFFFFFFFF, 0⟩

/-- A successful iteration. -/
def add (c : Campaign) (r : BenchmarkResult) : Campaign where
  totals := c.totals.add r
  successfulRuns := c.successfulRuns + 1
  minMs := if r.totalMs < c.minMs then r.totalMs else c.minMs
  maxMs := if r.totalMs > c.maxMs then r.totalMs else c.maxMs
  minCycles := if r.totalCycles < c.minCycles then r.totalCycles else c.minCycles
  maxCycles := if r.totalCycles > c.maxCycles then r.totalCycles else c.maxCycles
  minHeap := if r.peakHeapBytes < c.minHeap then r.peakHeapBytes else c.minHeap
  maxHeap := if r.peakHeapBytes > c.maxHeap then r.peakHeapBytes else c.maxHeap

/-- The loop with `remaining` iterations to go: a failed one is tried again. `none` when the outcomes
run out before. -/
def loop : Nat → Campaign → List (Option BenchmarkResult) →
    Option (Campaign × List (Option BenchmarkResult))
  | 0, c, outcomes => some (c, outcomes)
  | _ + 1, _, [] => none
  | remaining + 1, c, none :: outcomes => loop (remaining + 1) c outcomes
  | remaining + 1, c, some r :: outcomes => loop remaining (c.add r) outcomes

end Campaign

/-- The line on the failures at the end of a campaign. -/
def failureLine (successfulRuns iterations : Nat) : PyStr :=
  PyStr.lit "  Failure Rate: 0% (" ++ PyStr.decimal successfulRuns ++ PyStr.lit "/" ++
    PyStr.decimal iterations ++ PyStr.lit " successful)"

/-- What a campaign leaves behind: the statistics, its locals and the line. -/
structure CampaignReport where
  stats : BenchmarkStats
  campaign : Campaign
  line : PyStr

/-- `benchmark_run_campaign` on the outcomes of its runs; `none` unless it takes exactly these. -/
def benchmarkRunCampaign (mode : Mode) (iterations : Nat)
    (outcomes : List (Option BenchmarkResult)) : Option CampaignReport :=
  match Campaign.loop iterations Campaign.start outcomes with
  | some (c, []) => some
      ⟨c.totals.stats mode iterations, c, failureLine c.successfulRuns iterations⟩
  | _ => none

end HybridPqc
