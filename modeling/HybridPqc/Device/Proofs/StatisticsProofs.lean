import HybridPqc.Device.Proofs.BenchmarkProofs
import HybridPqc.Lib.Samples

/-!
# Whose statistics are reported

The sums run over the successes, the divisor is the nominal number of iterations, and the deviations are
those of the times cut to whole milliseconds, with a zero for every skipped iteration.
-/

open Samples

namespace HybridPqc

variable {mode : Mode} {outcomes : List (Option BenchmarkResult)}

/-- `total_ms` of the iterations that succeeded. -/
def successTimes (outcomes : List (Option BenchmarkResult)) : List ℚ :=
  outcomes.reduceOption.map fun r => (r.totalMs : ℚ)

/-- The mean and the standard deviation are those of the iterations that succeeded. -/
structure StatsOfRuns (stats : BenchmarkStats) (outcomes : List (Option BenchmarkResult)) : Prop where
  mean : (stats.meanTotalMs : ℚ) = mean (successTimes outcomes)
  stddev : stats.stddevSquared = variance (successTimes outcomes)

/-- The part of a time that the cast to `uint32_t` loses. -/
def lostMs (x : ℚ) : ℚ := x - truncMs x.toNNRat

/-- The squares of the parts lost balance twice their products with the deviations from the mean. -/
def LossBalanced (xs : List ℚ) : Prop :=
  (xs.map fun x => lostMs x ^ 2).sum = 2 * (xs.map fun x => lostMs x * (x - mean xs)).sum

/-! ## The sums -/

theorem foldl_suiteStep (outcomes : List (Option BenchmarkResult)) (t : Totals) :
    (outcomes.foldl suiteStep t).totalMsSum =
        t.totalMsSum + (outcomes.reduceOption.map BenchmarkResult.totalMs).sum ∧
      (outcomes.foldl suiteStep t).latencies =
        t.latencies ++ outcomes.map fun o => (o.map fun r => truncMs r.totalMs).getD 0 := by
  induction outcomes generalizing t with
  | nil => simp
  | cons o outcomes ih =>
    obtain ⟨hsum, hlat⟩ := ih (suiteStep t o)
    rw [List.foldl_cons, hsum, hlat]
    cases o with
    | none => simp [suiteStep, Totals.skip, List.reduceOption_cons_of_none]
    | some r => simp [suiteStep, Totals.add, List.reduceOption_cons_of_some, add_assoc]

theorem foldl_campaign_totals (rs : List BenchmarkResult) (c : Campaign) :
    (rs.foldl Campaign.add c).totals.totalMsSum =
        c.totals.totalMsSum + (rs.map BenchmarkResult.totalMs).sum ∧
      (rs.foldl Campaign.add c).totals.latencies =
        c.totals.latencies ++ rs.map fun r => truncMs r.totalMs := by
  induction rs generalizing c with
  | nil => simp
  | cons r rs ih =>
    obtain ⟨hsum, hlat⟩ := ih (c.add r)
    rw [List.foldl_cons, hsum, hlat]
    simp [Campaign.add, Totals.add, add_assoc]

theorem cast_sum_totalMs (rs : List BenchmarkResult) :
    (((rs.map BenchmarkResult.totalMs).sum : ℚ≥0) : ℚ) = (rs.map fun r => (r.totalMs : ℚ)).sum := by
  induction rs with
  | nil => rfl
  | cons r rs ih =>
    rw [List.map_cons, List.sum_cons, NNRat.cast_add, ih, List.map_cons, List.sum_cons]

theorem lostMs_totalMs (r : BenchmarkResult) :
    (truncMs r.totalMs : ℚ) = (r.totalMs : ℚ) - lostMs r.totalMs := by
  unfold lostMs
  rw [NNRat.toNNRat_coe]
  ring

/-- The squared deviations of the times cut to whole milliseconds. -/
theorem sum_truncMs (rs : List BenchmarkResult) (m : ℚ) :
    ((rs.map fun r => truncMs r.totalMs).map fun l : Nat => ((l : ℚ) - m) ^ 2).sum =
      ((rs.map fun r => (r.totalMs : ℚ)).map fun x => (x - lostMs x - m) ^ 2).sum := by
  rw [List.map_map, List.map_map]
  congr 1
  apply List.map_congr_left
  intro r _
  simp only [Function.comp_apply, lostMs_totalMs]

/-- The statistics computed from sums over as many successes as there are iterations. -/
theorem statsOfRuns_of_length {t : Totals} {rs : List BenchmarkResult}
    (hsum : t.totalMsSum = (rs.map BenchmarkResult.totalMs).sum)
    (hlat : t.latencies = rs.map fun r => truncMs r.totalMs) (hrs : outcomes.reduceOption = rs) :
    StatsOfRuns (t.stats mode rs.length) outcomes ↔ LossBalanced (successTimes outcomes) := by
  have htimes : successTimes outcomes = rs.map fun r => (r.totalMs : ℚ) := by
    rw [successTimes, hrs]
  have hlen : ((rs.map fun r => (r.totalMs : ℚ)).length : ℚ) = rs.length := by
    rw [List.length_map]
  have hmean : ((t.stats mode rs.length).meanTotalMs : ℚ) = mean (successTimes outcomes) := by
    show ((t.totalMsSum / (rs.length : ℚ≥0) : ℚ≥0) : ℚ) = _
    rw [NNRat.cast_div, hsum, cast_sum_totalMs, NNRat.cast_natCast, htimes, Samples.mean, hlen]
  have hsq : (t.stats mode rs.length).stddevSquared =
      ((successTimes outcomes).map fun x => (x - lostMs x - mean (successTimes outcomes)) ^ 2).sum /
        rs.length := by
    show (t.latencies.map fun l : Nat => ((l : ℚ) - (t.stats mode rs.length).meanTotalMs) ^ 2).sum / _ = _
    rw [hmean, hlat, sum_truncMs, ← htimes]
  have hiff : StatsOfRuns (t.stats mode rs.length) outcomes ↔
      (t.stats mode rs.length).stddevSquared = variance (successTimes outcomes) := by
    constructor
    · exact StatsOfRuns.stddev
    · exact fun h => ⟨hmean, h⟩
  rw [hiff, hsq, variance, htimes, hlen, ← htimes, LossBalanced, ← sum_sq_sub_eq_iff]
  rcases Nat.eq_zero_or_pos rs.length with hzero | hpos
  · have hnil : successTimes outcomes = [] := by
      rw [htimes, List.length_eq_zero_iff.mp hzero]
      rfl
    simp [hnil]
  · have hne : (rs.length : ℚ) ≠ 0 := by
      have hne := Nat.pos_iff_ne_zero.mp hpos
      exact_mod_cast hne
    exact div_left_inj' hne

/-! ## The suite -/

/-- No iteration failed and the losses balance, or every success took no time at all. -/
def SuiteExact (outcomes : List (Option BenchmarkResult)) : Prop :=
  (∀ r, some r ∈ outcomes → r.totalMs = 0) ∨
    ((∀ o ∈ outcomes, o ≠ none) ∧ LossBalanced (successTimes outcomes))

theorem reduceOption_of_allSome (h : ∀ o ∈ outcomes, o ≠ none) :
    outcomes = outcomes.reduceOption.map some := by
  induction outcomes with
  | nil => rfl
  | cons o outcomes ih =>
    have htail := ih fun o' ho' => h o' (List.mem_cons_of_mem _ ho')
    cases o with
    | none => exact absurd rfl (h none List.mem_cons_self)
    | some r =>
      rw [List.reduceOption_cons_of_some, List.map_cons, ← htail]

theorem allSome_of_length (h : outcomes.reduceOption.length = outcomes.length) :
    ∀ o ∈ outcomes, o ≠ none := by
  intro o ho hnone
  rw [List.reduceOption_length_eq_iff] at h
  have hsome := h o ho
  rw [hnone] at hsome
  cases hsome

theorem sum_eq_zero_iff_times :
    (successTimes outcomes).sum = 0 ↔ ∀ r, some r ∈ outcomes → r.totalMs = 0 := by
  rw [successTimes, ← cast_sum_totalMs, NNRat.cast_eq_zero, List.sum_eq_zero_iff]
  constructor
  · intro h r hr
    exact h _ (List.mem_map_of_mem (List.reduceOption_mem_iff.mpr hr))
  · intro h x hx
    obtain ⟨r, hr, rfl⟩ := List.mem_map.mp hx
    exact h r (List.reduceOption_mem_iff.mp hr)

/-- When every success took no time, everything that is reported is zero, and so it should be. -/
theorem suiteStats_of_zero (h : ∀ r, some r ∈ outcomes → r.totalMs = 0) :
    StatsOfRuns (suiteStats mode outcomes) outcomes := by
  have htimes : ∀ x ∈ successTimes outcomes, x = 0 := by
    intro x hx
    obtain ⟨r, hr, rfl⟩ := List.mem_map.mp hx
    rw [h r (List.reduceOption_mem_iff.mp hr)]
    rfl
  have hmean : mean (successTimes outcomes) = 0 := by
    rw [Samples.mean, sum_eq_zero_iff_times.mpr h, zero_div]
  have hvar : variance (successTimes outcomes) = 0 := by
    rw [variance, hmean, List.sum_eq_zero, zero_div]
    intro y hy
    obtain ⟨x, hx, rfl⟩ := List.mem_map.mp hy
    rw [htimes x hx]
    ring
  obtain ⟨hsum, hlat⟩ := foldl_suiteStep outcomes Totals.zero
  have hreported : ((suiteStats mode outcomes).meanTotalMs : ℚ) = 0 := by
    show (((outcomes.foldl suiteStep Totals.zero).totalMsSum / (outcomes.length : ℚ≥0) : ℚ≥0) : ℚ) = 0
    rw [hsum, NNRat.cast_div, NNRat.cast_add, cast_sum_totalMs]
    have hzero : (outcomes.reduceOption.map fun r => (r.totalMs : ℚ)).sum = 0 :=
      sum_eq_zero_iff_times.mpr h
    rw [hzero]
    simp [Totals.zero]
  constructor
  · rw [hreported, hmean]
  · rw [hvar]
    show ((outcomes.foldl suiteStep Totals.zero).latencies.map fun l : Nat =>
      ((l : ℚ) - (suiteStats mode outcomes).meanTotalMs) ^ 2).sum / _ = 0
    rw [hreported, hlat, List.sum_eq_zero, zero_div]
    intro y hy
    obtain ⟨l, hl, rfl⟩ := List.mem_map.mp hy
    have hl0 : l = 0 := by
      obtain ⟨o, ho, rfl⟩ := List.mem_map.mp hl
      cases o with
      | none => rfl
      | some r =>
        show truncMs r.totalMs = 0
        rw [h r ho]
        rfl
    rw [hl0]
    simp

theorem suiteStats_iff : StatsOfRuns (suiteStats mode outcomes) outcomes ↔ SuiteExact outcomes := by
  obtain ⟨hsum, hlat⟩ := foldl_suiteStep outcomes Totals.zero
  have hall : (∀ o ∈ outcomes, o ≠ none) →
      (StatsOfRuns (suiteStats mode outcomes) outcomes ↔ LossBalanced (successTimes outcomes)) := by
    intro hsome
    have hmap := reduceOption_of_allSome hsome
    have hlen : outcomes.length = outcomes.reduceOption.length := by
      conv_lhs => rw [hmap]
      rw [List.length_map]
    rw [suiteStats, hlen]
    refine statsOfRuns_of_length ?_ ?_ rfl
    · rw [hsum]
      exact zero_add _
    · rw [hlat]
      conv_lhs => rw [hmap]
      simp [Totals.zero]
  constructor
  · intro h
    have hmean : (successTimes outcomes).sum / outcomes.length = mean (successTimes outcomes) := by
      rw [← h.mean]
      show _ = (((outcomes.foldl suiteStep Totals.zero).totalMsSum / (outcomes.length : ℚ≥0) : ℚ≥0) : ℚ)
      rw [hsum, NNRat.cast_div, NNRat.cast_add, cast_sum_totalMs, NNRat.cast_natCast]
      simp [Totals.zero, successTimes]
    have hle : (successTimes outcomes).length ≤ outcomes.length := by
      rw [successTimes, List.length_map]
      exact List.reduceOption_length_le _
    rcases (div_eq_mean_iff hle).mp hmean with hzero | hlen
    · exact .inl (sum_eq_zero_iff_times.mp hzero)
    · right
      rw [successTimes, List.length_map] at hlen
      have hsome := allSome_of_length hlen
      exact ⟨hsome, (hall hsome).mp h⟩
  · rintro (hzero | ⟨hsome, hloss⟩)
    · exact suiteStats_of_zero hzero
    · exact (hall hsome).mpr hloss

/-! ## The campaign -/

/-- The divisor of the campaign is the number of its successes. -/
theorem campaignStats_iff {needed : Nat} {report : CampaignReport}
    (h : benchmarkRunCampaign mode needed outcomes = some report) :
    StatsOfRuns report.stats outcomes ↔ LossBalanced (successTimes outcomes) := by
  obtain ⟨hlen, hcampaign, hstats, -, -⟩ := benchmarkRunCampaign_eq_some h
  obtain ⟨hsum, hlat⟩ := foldl_campaign_totals outcomes.reduceOption Campaign.start
  rw [hstats, hcampaign, ← hlen]
  refine statsOfRuns_of_length ?_ ?_ rfl
  · rw [hsum]
    exact zero_add _
  · rw [hlat]
    rfl

/-! ## Both -/

/-- The suite reports the statistics of its successful iterations exactly when, in each mode, no iteration
fails and the losses balance, or all successes took no time; a campaign reports them exactly when the
losses balance. -/
theorem reported_statistics_iff {iterations : Nat}
    (outcomes : Mode → List.Vector (Option BenchmarkResult) iterations) {mode : Mode}
    {needed : Nat} {runs : List (Option BenchmarkResult)} {report : CampaignReport}
    (h : benchmarkRunCampaign mode needed runs = some report) :
    ((∀ m, StatsOfRuns (benchmarkRunSuite outcomes m) (outcomes m).toList) ↔
        ∀ m, SuiteExact (outcomes m).toList) ∧
      (StatsOfRuns report.stats runs ↔ LossBalanced (successTimes runs)) := by
  constructor
  · exact forall_congr' fun m => suiteStats_iff
  · exact campaignStats_iff h

/-- A run whose key generation took `ms` milliseconds and whose handshake took none. -/
def Reference.result (ms : ℚ≥0) : BenchmarkResult where
  mode := .hybrid
  keygenCycles := 0
  handshakeCycles := 0
  totalCycles := 0
  keygenMs := ms
  handshakeMs := 0
  totalMs := ms
  peakHeapBytes := 0
  payloadBytes := 0

/-- The outcomes of three iterations in each mode. -/
def Reference.threeRuns (_ : Mode) : List.Vector (Option BenchmarkResult) 3 :=
  ⟨[some (Reference.result 600), some (Reference.result 640), some (Reference.result 650)], rfl⟩

/-- Three iterations in each mode, and three runs of which the second one fails at first. -/
theorem reported_statistics_iff_reference :
    let runs := [some (Reference.result 600), none, some (Reference.result 640), some (Reference.result 650)]
    ∃ report, benchmarkRunCampaign .hybrid 3 runs = some report ∧ report.stats.meanTotalMs = 630 ∧
      StatsOfRuns report.stats runs ∧
      ∀ m, StatsOfRuns (benchmarkRunSuite Reference.threeRuns m) (Reference.threeRuns m).toList := by
  intro runs
  have hloss : LossBalanced (successTimes runs) := by
    unfold LossBalanced
    decide +kernel
  have hreport : ∃ report, benchmarkRunCampaign .hybrid 3 runs = some report ∧
      report.stats.meanTotalMs = 630 := ⟨_, rfl, by decide +kernel⟩
  obtain ⟨report, hreport, hmean⟩ := hreport
  obtain ⟨hsuite, hcampaign⟩ := reported_statistics_iff Reference.threeRuns hreport
  refine ⟨report, hreport, hmean, hcampaign.mpr hloss, hsuite.mpr ?_⟩
  intro m
  right
  refine ⟨?_, hloss⟩
  intro o ho hnone
  rw [hnone] at ho
  exact absurd ho (by simp [Reference.threeRuns])

/-- All successes took a whole number of milliseconds that fits in the cast. -/
def WholeMs (outcomes : List (Option BenchmarkResult)) : Prop :=
  ∀ r, some r ∈ outcomes → ∃ n < 2 ^ 32, r.totalMs = (n : ℕ)

/-- The cast loses nothing of whole milliseconds. -/
theorem lossBalanced_of_whole (h : WholeMs outcomes) : LossBalanced (successTimes outcomes) := by
  have hlost : ∀ x ∈ successTimes outcomes, lostMs x = 0 := by
    intro x hx
    obtain ⟨r, hr, rfl⟩ := List.mem_map.mp hx
    obtain ⟨n, hn, htotal⟩ := h r (List.reduceOption_mem_iff.mp hr)
    rw [lostMs, NNRat.toNNRat_coe, htotal, truncMs, Nat.floor_natCast, Nat.mod_eq_of_lt hn, NNRat.cast_natCast,
      sub_self]
  have hsq : ∀ x ∈ successTimes outcomes, lostMs x ^ 2 = 0 := by
    intro x hx
    rw [hlost x hx]
    norm_num
  have hprod : ∀ x ∈ successTimes outcomes, lostMs x * (x - mean (successTimes outcomes)) = 0 := by
    intro x hx
    rw [hlost x hx, zero_mul]
  rw [LossBalanced, List.map_congr_left hsq, List.map_congr_left hprod]
  simp

/-- With whole milliseconds a campaign reports the statistics of its runs, and the suite does if no iteration
fails, or if all successes took no time. -/
theorem statistics_of_whole_ms {iterations : Nat}
    {outcomes : Mode → List.Vector (Option BenchmarkResult) iterations} {needed : Nat}
    {runs : List (Option BenchmarkResult)} {report : CampaignReport}
    (houtcomes : ∀ m, WholeMs (outcomes m).toList) (hruns : WholeMs runs)
    (h : benchmarkRunCampaign mode needed runs = some report) :
    ((∀ m, StatsOfRuns (benchmarkRunSuite outcomes m) (outcomes m).toList) ↔
        ∀ m, (∀ r, some r ∈ (outcomes m).toList → r.totalMs = 0) ∨ ∀ o ∈ (outcomes m).toList, o ≠ none) ∧
      StatsOfRuns report.stats runs := by
  refine ⟨forall_congr' fun m => ?_, (campaignStats_iff h).mpr (lossBalanced_of_whole hruns)⟩
  unfold benchmarkRunSuite
  rw [suiteStats_iff, SuiteExact, and_iff_left (lossBalanced_of_whole (houtcomes m))]

/-- One of two iterations fails: the suite halves the mean. Two runs of 600.5 ms: the campaign reports a
standard deviation of half a millisecond. -/
theorem biased_statistics :
    let oneFails := [some (Reference.result 600), none]
    let equalTimes := [some (Reference.result (1201 / 2)), some (Reference.result (1201 / 2))]
    ((suiteStats .hybrid oneFails).meanTotalMs = 300 ∧
        ¬ StatsOfRuns (suiteStats .hybrid oneFails) oneFails) ∧
      ∃ report, benchmarkRunCampaign .hybrid 2 equalTimes = some report ∧
        report.stats.stddevSquared = 1 / 4 ∧ ¬ StatsOfRuns report.stats equalTimes := by
  intro oneFails equalTimes
  have hmean : mean (successTimes oneFails) = 600 := by decide +kernel
  have hreported : (suiteStats .hybrid oneFails).meanTotalMs = 300 := by decide +kernel
  have hvariance : variance (successTimes equalTimes) = 0 := by decide +kernel
  refine ⟨⟨hreported, ?_⟩, _, rfl, by decide +kernel, ?_⟩
  · intro h
    have heq := h.mean
    rw [hmean, hreported] at heq
    exact absurd heq (by decide +kernel)
  · intro h
    have heq := h.stddev
    rw [hvariance] at heq
    exact absurd heq (by decide +kernel)

end HybridPqc
