import HybridPqc.Device.Report
import HybridPqc.Server.Proofs.HttpProofs

/-!
# The benchmark report as JSON

What `snprintf` formats fits its buffer, and the server reads it as the object of the three modes.
-/

namespace HybridPqc

/-- The members of one mode: key, text and value. -/
def modeMembers (stats : BenchmarkStats) : List (PyStr × PyStr × Json) :=
  [(PyStr.lit "latency_ms", PyStr.fixed 2 (latencyHundredths stats),
      .float (PyStr.fixed 2 (latencyHundredths stats))),
    (PyStr.lit "peak_heap_kb", PyStr.fixed 1 (peakHeapTenths stats),
      .float (PyStr.fixed 1 (peakHeapTenths stats))),
    (PyStr.lit "payload_bytes", PyStr.decimal stats.payloadBytes, .int stats.payloadBytes),
    (PyStr.lit "cpu_cycles", PyStr.decimal stats.meanTotalCycles, .int stats.meanTotalCycles)]

/-- The object of one mode. -/
def modeFields (stats : BenchmarkStats) : List (PyStr × Json) :=
  (modeMembers stats).map fun m => (m.1, m.2.2)

/-- The members of the report. -/
def reportMembers (stats : Mode → BenchmarkStats) : List (PyStr × PyStr × Json) :=
  [(PyStr.lit "classical", modeText (stats .classical), .obj (modeFields (stats .classical))),
    (PyStr.lit "pqc", modeText (stats .pqc), .obj (modeFields (stats .pqc))),
    (PyStr.lit "hybrid", modeText (stats .hybrid), .obj (modeFields (stats .hybrid))),
    (PyStr.lit "iterations", PyStr.decimal (stats .classical).iterations,
      .int (stats .classical).iterations),
    (PyStr.lit "chip", 34 :: PyStr.lit "ESP32-D0WD-V3" ++ [34], .str (PyStr.lit "ESP32-D0WD-V3")),
    (PyStr.lit "freq_mhz", PyStr.decimal 160, .int 160),
    (PyStr.lit "sram_kb", PyStr.decimal 520, .int 520)]

/-- The object that the report spells. -/
def reportFields (stats : Mode → BenchmarkStats) : List (PyStr × Json) :=
  (reportMembers stats).map fun m => (m.1, m.2.2)

/-- The ranges of the members of `benchmark_stats_t`. -/
structure BenchmarkStats.Fits (stats : BenchmarkStats) : Prop where
  iterations : stats.iterations < 2 ^ 32
  meanTotalMs : stats.meanTotalMs < 2 ^ 128
  meanPeakHeap : stats.meanPeakHeap < 2 ^ 32
  payloadBytes : stats.payloadBytes < 2 ^ 32
  meanTotalCycles : stats.meanTotalCycles < 2 ^ 32

theorem decimal_length_le_ten {n : Nat} (h : n < 2 ^ 32) : (PyStr.decimal n).length ≤ 10 :=
  PyStr.decimal_length_le (by omega) (by omega)

/-! ## The texts as members -/

theorem modeText_eq (stats : BenchmarkStats) :
    modeText stats = 123 :: Json.compactMembers ((modeMembers stats).map fun m => (m.1, m.2.1)) := by
  have h1 : PyStr.lit "\x7b\"latency_ms\":" = 123 :: 34 :: (PyStr.lit "latency_ms" ++ [34, 58]) := rfl
  have h2 : PyStr.lit ",\"peak_heap_kb\":" = 44 :: 34 :: (PyStr.lit "peak_heap_kb" ++ [34, 58]) := rfl
  have h3 : PyStr.lit ",\"payload_bytes\":" = 44 :: 34 :: (PyStr.lit "payload_bytes" ++ [34, 58]) := rfl
  have h4 : PyStr.lit ",\"cpu_cycles\":" = 44 :: 34 :: (PyStr.lit "cpu_cycles" ++ [34, 58]) := rfl
  have h5 : PyStr.lit "\x7d" = [125] := rfl
  rw [modeText, h1, h2, h3, h4, h5]
  simp only [modeMembers, List.map_cons, List.map_nil, Json.compactMembers, List.cons_append,
    List.append_assoc, List.nil_append]

theorem modeMembers_isPlain (stats : BenchmarkStats) : ∀ m ∈ modeMembers stats, Json.IsPlain m.1 := by
  have hkeys : ∀ key ∈ ["latency_ms", "peak_heap_kb", "payload_bytes", "cpu_cycles"],
      Json.IsPlain (PyStr.lit key) := by decide
  intro m hm
  simp only [modeMembers, List.mem_cons, List.not_mem_nil, or_false] at hm
  rcases hm with rfl | rfl | rfl | rfl
  all_goals exact hkeys _ (by simp)

section

variable {limits : Json.Limits}

theorem modeMembers_reads (hlimits : ∀ n ≤ 10, limits.Converts n) {stats : BenchmarkStats}
    (h : stats.Fits) :
    ∀ m ∈ modeMembers stats, Json.IsPlain m.1 ∧ Json.ReadsMember limits m.2.2 m.2.1 := by
  intro m hm
  refine ⟨modeMembers_isPlain stats m hm, ?_⟩
  simp only [modeMembers, List.mem_cons, List.not_mem_nil, or_false] at hm
  rcases hm with rfl | rfl | rfl | rfl
  · exact (Json.ReadsAtom.fixed _ 1 _).readsAs.member
  · exact (Json.ReadsAtom.fixed _ 0 _).readsAs.member
  · exact (Json.ReadsAtom.nat (hlimits _ (decimal_length_le_ten h.payloadBytes))).readsAs.member
  · exact (Json.ReadsAtom.nat (hlimits _ (decimal_length_le_ten h.meanTotalCycles))).readsAs.member

theorem modeText_reads (hopens : limits.Opens) (hlimits : ∀ n ≤ 10, limits.inner.Converts n)
    {stats : BenchmarkStats} (h : stats.Fits) :
    Json.ReadsMember limits (.obj (modeFields stats)) (modeText stats) := by
  have hread := Json.ReadsAs.obj hopens (modeMembers_reads hlimits h) (by simp [modeMembers])
  rw [← modeText_eq] at hread
  exact hread.member

theorem resultsText_eq (stats : Mode → BenchmarkStats) :
    resultsText stats =
      123 :: Json.compactMembers ((reportMembers stats).map fun m => (m.1, m.2.1)) := by
  have h1 : PyStr.lit "\x7b\"classical\":" = 123 :: 34 :: (PyStr.lit "classical" ++ [34, 58]) := rfl
  have h2 : PyStr.lit ",\"pqc\":" = 44 :: 34 :: (PyStr.lit "pqc" ++ [34, 58]) := rfl
  have h3 : PyStr.lit ",\"hybrid\":" = 44 :: 34 :: (PyStr.lit "hybrid" ++ [34, 58]) := rfl
  have h4 : PyStr.lit ",\"iterations\":" = 44 :: 34 :: (PyStr.lit "iterations" ++ [34, 58]) := rfl
  have h5 : PyStr.lit ",\"chip\":\"ESP32-D0WD-V3\",\"freq_mhz\":160,\"sram_kb\":520\x7d" =
      44 :: Json.compactMembers [(PyStr.lit "chip", 34 :: PyStr.lit "ESP32-D0WD-V3" ++ [34]),
        (PyStr.lit "freq_mhz", PyStr.decimal 160), (PyStr.lit "sram_kb", PyStr.decimal 520)] := by
    decide +kernel
  rw [resultsText, h1, h2, h3, h4, h5]
  simp only [reportMembers, List.map_cons, List.map_nil, Json.compactMembers, List.cons_append,
    List.append_assoc, List.nil_append]

theorem reportMembers_isPlain (stats : Mode → BenchmarkStats) :
    ∀ m ∈ reportMembers stats, Json.IsPlain m.1 := by
  have hkeys : ∀ key ∈ ["classical", "pqc", "hybrid", "iterations", "chip", "freq_mhz", "sram_kb"],
      Json.IsPlain (PyStr.lit key) := by decide
  intro m hm
  simp only [reportMembers, List.mem_cons, List.not_mem_nil, or_false] at hm
  rcases hm with rfl | rfl | rfl | rfl | rfl | rfl | rfl
  all_goals exact hkeys _ (by simp)

theorem reportMembers_reads (hopens : limits.Opens) (hlimits : ∀ n ≤ 10, limits.Converts n)
    {stats : Mode → BenchmarkStats} (h : ∀ mode, (stats mode).Fits) :
    ∀ m ∈ reportMembers stats, Json.IsPlain m.1 ∧ Json.ReadsMember limits m.2.2 m.2.1 := by
  intro m hm
  refine ⟨reportMembers_isPlain stats m hm, ?_⟩
  simp only [reportMembers, List.mem_cons, List.not_mem_nil, or_false] at hm
  rcases hm with rfl | rfl | rfl | rfl | rfl | rfl | rfl
  · exact modeText_reads hopens hlimits (h .classical)
  · exact modeText_reads hopens hlimits (h .pqc)
  · exact modeText_reads hopens hlimits (h .hybrid)
  · exact (Json.ReadsAtom.nat (hlimits _ (decimal_length_le_ten (h .classical).iterations))).readsAs.member
  · exact (Json.ReadsAtom.str (by decide)).readsAs.member
  · exact (Json.ReadsAtom.nat (n := 160) (hlimits _ (by decide))).readsAs.member
  · exact (Json.ReadsAtom.nat (n := 520) (hlimits _ (by decide))).readsAs.member

end

/-- The text of the report is read as its object. -/
theorem benchmarksLoads_resultsText (X : Externals) {stats : Mode → BenchmarkStats}
    (h : ∀ mode, (stats mode).Fits) :
    benchmarksLoads X (resultsText stats) = .ok (.obj (reportFields stats)) := by
  have hlimits : ∀ n ≤ 10, (Json.loadsLimits X.benchmarksNesting).inner.Converts n := fun n hn =>
    Json.loadsLimits_converts X.benchmarksNesting (hn.trans (by decide))
  have hread := Json.ReadsAs.obj (Json.loadsLimits_opens X.benchmarksNesting)
    (reportMembers_reads (Json.loadsLimits_inner_opens X.benchmarksNesting) hlimits h)
    (by simp [reportMembers])
  rw [← resultsText_eq] at hread
  exact hread.parse

/-! ## The buffer -/

theorem modeText_isAscii (stats : BenchmarkStats) : (modeText stats).IsAscii := by
  rw [modeText_eq]
  apply Json.compactText_isAscii
  intro m hm
  refine ⟨modeMembers_isPlain stats m hm, ?_⟩
  simp only [modeMembers, List.mem_cons, List.not_mem_nil, or_false] at hm
  rcases hm with rfl | rfl | rfl | rfl
  · exact PyStr.fixed_isAscii _ _
  · exact PyStr.fixed_isAscii _ _
  · exact PyStr.decimal_isAscii _
  · exact PyStr.decimal_isAscii _

theorem resultsText_isAscii (stats : Mode → BenchmarkStats) : (resultsText stats).IsAscii := by
  rw [resultsText_eq]
  apply Json.compactText_isAscii
  intro m hm
  refine ⟨reportMembers_isPlain stats m hm, ?_⟩
  simp only [reportMembers, List.mem_cons, List.not_mem_nil, or_false] at hm
  rcases hm with rfl | rfl | rfl | rfl | rfl | rfl | rfl
  · exact modeText_isAscii _
  · exact modeText_isAscii _
  · exact modeText_isAscii _
  · exact PyStr.decimal_isAscii _
  · exact (by decide : PyStr.IsAscii (34 :: PyStr.lit "ESP32-D0WD-V3" ++ [34]))
  · exact PyStr.decimal_isAscii 160
  · exact PyStr.decimal_isAscii 520

theorem floatOfNat_le {n : Nat} (h : n < 2 ^ 32) : floatOfNat n ≤ 2 ^ 32 := by
  have hlog : n.log2 - 23 ≤ 32 := by
    by_cases hn : n = 0
    · subst hn
      decide
    · have := (Nat.log2_lt hn).mpr h
      omega
  have hpow : (2 : Nat) ^ (32 - (n.log2 - 23)) * 2 ^ (n.log2 - 23) = 2 ^ 32 := by
    rw [← pow_add, Nat.sub_add_cancel hlog]
  have hround : roundHalfEven ((n : ℚ≥0) / (2 ^ (n.log2 - 23) : Nat)) ≤ 2 ^ (32 - (n.log2 - 23)) := by
    apply roundHalfEven_le
    rw [div_le_iff₀ (by positivity)]
    exact_mod_cast (hpow ▸ h.le : n ≤ _)
  calc floatOfNat n
      = roundHalfEven ((n : ℚ≥0) / (2 ^ (n.log2 - 23) : Nat)) * 2 ^ (n.log2 - 23) := rfl
    _ ≤ 2 ^ (32 - (n.log2 - 23)) * 2 ^ (n.log2 - 23) := Nat.mul_le_mul_right _ hround
    _ = 2 ^ 32 := hpow

theorem latencyHundredths_lt {stats : BenchmarkStats} (h : stats.Fits) :
    latencyHundredths stats < 10 ^ (39 + 2) := by
  have hround : latencyHundredths stats ≤ 100 * 2 ^ 128 := by
    apply roundHalfEven_le
    have hmul : 100 * stats.meanTotalMs ≤ 100 * 2 ^ 128 := mul_le_mul_right h.meanTotalMs.le 100
    exact hmul.trans_eq (by norm_num)
  omega

theorem peakHeapTenths_lt {stats : BenchmarkStats} (h : stats.Fits) :
    peakHeapTenths stats < 10 ^ (7 + 1) := by
  have hheap : (floatOfNat stats.meanPeakHeap : ℚ≥0) ≤ 2 ^ 32 := by
    exact_mod_cast floatOfNat_le h.meanPeakHeap
  have hround : peakHeapTenths stats ≤ 10 * (2 ^ 32 / 1024) := by
    apply roundHalfEven_le
    have hmul : 10 * ((floatOfNat stats.meanPeakHeap : ℚ≥0) / 1024) ≤ 10 * (2 ^ 32 / 1024) := by
      gcongr
    exact hmul.trans_eq (by norm_num)
  omega

theorem modeText_length_le {stats : BenchmarkStats} (h : stats.Fits) : (modeText stats).length ≤ 150 := by
  have h1 : (PyStr.lit "\x7b\"latency_ms\":").length = 14 := rfl
  have h2 : (PyStr.lit ",\"peak_heap_kb\":").length = 16 := rfl
  have h3 : (PyStr.lit ",\"payload_bytes\":").length = 17 := rfl
  have h4 : (PyStr.lit ",\"cpu_cycles\":").length = 14 := rfl
  have h5 : (PyStr.lit "\x7d").length = 1 := rfl
  have hlatency := PyStr.fixed_length_le (by omega) (latencyHundredths_lt h)
  have hheap := PyStr.fixed_length_le (by omega) (peakHeapTenths_lt h)
  have hpayload := decimal_length_le_ten h.payloadBytes
  have hcycles := decimal_length_le_ten h.meanTotalCycles
  simp only [modeText, List.length_append, h1, h2, h3, h4, h5]
  omega

theorem resultsText_length_le {stats : Mode → BenchmarkStats} (h : ∀ mode, (stats mode).Fits) :
    (resultsText stats).length ≤ 600 := by
  have h1 : (PyStr.lit "\x7b\"classical\":").length = 13 := rfl
  have h2 : (PyStr.lit ",\"pqc\":").length = 7 := rfl
  have h3 : (PyStr.lit ",\"hybrid\":").length = 10 := rfl
  have h4 : (PyStr.lit ",\"iterations\":").length = 14 := rfl
  have h5 : (PyStr.lit ",\"chip\":\"ESP32-D0WD-V3\",\"freq_mhz\":160,\"sram_kb\":520\x7d").length = 53 :=
    rfl
  have hclassical := modeText_length_le (h .classical)
  have hpqc := modeText_length_le (h .pqc)
  have hhybrid := modeText_length_le (h .hybrid)
  have hiterations := decimal_length_le_ten (h .classical).iterations
  simp only [resultsText, List.length_append, h1, h2, h3, h4, h5]
  omega

/-! ## The posted body -/

/-- The server reads the posted body as the object of the report. -/
theorem postedValue_benchmarkSendResults (X : Externals) {stats : Mode → BenchmarkStats}
    (h : ∀ mode, (stats mode).Fits) :
    postedValue X (benchmarkSendResults stats).body = some (.obj (reportFields stats)) := by
  have hlen := resultsText_length_le h
  have hbody : (benchmarkSendResults stats).body = PyStr.encodeAscii (resultsText stats) := by
    rw [benchmarkSendResults, List.take_of_length_le (by omega)]
  rw [postedValue, hbody, decodeBody_encodeAscii (resultsText_isAscii stats), Option.bind_some,
    benchmarksLoads_resultsText X h]
  rfl

end HybridPqc
