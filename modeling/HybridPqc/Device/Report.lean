import HybridPqc.Device.Benchmark
import HybridPqc.Lib.Decimals
import HybridPqc.Server.Http

/-!
# The benchmark report

`benchmark_send_results` of `benchmark.c`: the statistics of the three modes as the request that posts
them.
-/

namespace HybridPqc

/-- The `float` of an unsigned integer: 24 significant bits, rounded to the nearest. -/
def floatOfNat (n : Nat) : Nat :=
  let dropped := n.log2 - 23
  roundHalfEven ((n : ℚ≥0) / (2 ^ dropped : Nat)) * 2 ^ dropped

/-- The hundredths that `%.2f` prints of `mean_total_ms`. -/
def latencyHundredths (stats : BenchmarkStats) : Nat := roundHalfEven (100 * stats.meanTotalMs)

/-- The tenths that `%.1f` prints of `mean_peak_heap/1024.0f`. -/
def peakHeapTenths (stats : BenchmarkStats) : Nat :=
  roundHalfEven (10 * (floatOfNat stats.meanPeakHeap / 1024))

/-- The object of one mode. -/
def modeText (stats : BenchmarkStats) : PyStr :=
  PyStr.lit "\x7b\"latency_ms\":" ++ PyStr.fixed 2 (latencyHundredths stats) ++
    PyStr.lit ",\"peak_heap_kb\":" ++ PyStr.fixed 1 (peakHeapTenths stats) ++
    PyStr.lit ",\"payload_bytes\":" ++ PyStr.decimal stats.payloadBytes ++
    PyStr.lit ",\"cpu_cycles\":" ++ PyStr.decimal stats.meanTotalCycles ++ PyStr.lit "\x7d"

/-- The text that `snprintf` formats. -/
def resultsText (stats : Mode → BenchmarkStats) : PyStr :=
  PyStr.lit "\x7b\"classical\":" ++ modeText (stats .classical) ++
    PyStr.lit ",\"pqc\":" ++ modeText (stats .pqc) ++
    PyStr.lit ",\"hybrid\":" ++ modeText (stats .hybrid) ++
    PyStr.lit ",\"iterations\":" ++ PyStr.decimal (stats .classical).iterations ++
    PyStr.lit ",\"chip\":\"ESP32-D0WD-V3\",\"freq_mhz\":160,\"sram_kb\":520\x7d"

/-- `benchmark_send_results`: the request; the text is cut to a buffer of 1024 bytes. -/
def benchmarkSendResults (stats : Mode → BenchmarkStats) : HttpRequest where
  method := PyStr.lit "POST"
  path := PyStr.lit "/api/benchmarks"
  body := PyStr.encodeAscii ((resultsText stats).take 1023)

end HybridPqc
