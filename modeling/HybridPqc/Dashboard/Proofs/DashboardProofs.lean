import HybridPqc.Lib.Proofs.DumpsProofs
import HybridPqc.Device.Proofs.ReportProofs
import HybridPqc.Dashboard.Dashboard

/-!
# What the dashboard shows of a report

The report reaches the server as an object with one member for each mode, and the server's reply adds
four members of its own. The dashboard looks for members `latency`, `memory`, `payload` and `cpu`, which
neither of the two writes, and falls back to its demo values.
-/

open GuardedRuns

namespace HybridPqc

/-! ## What should be shown -/

/-- The number that was posted under a key of a mode. -/
def postedNumber (stats : BenchmarkStats) (key : String) : Option ℚ :=
  ((modeFields stats).lookup (PyStr.lit key)).bind Json.number

/-- The bars of a mode show the posted values. -/
structure ShowsMode (stats : BenchmarkStats) (d : DashboardData) (mode : Mode) : Prop where
  latency : Json.number (d.latency mode).value = postedNumber stats "latency_ms"
  memory : Json.number (d.memory mode).value = postedNumber stats "peak_heap_kb"
  payload : Json.number (d.payload mode).value = postedNumber stats "payload_bytes"
  cpu : Json.number (d.cpu mode).value = postedNumber stats "cpu_cycles"

/-- The hundredths of the demo latency. -/
def demoHundredths : Mode → Nat
  | .classical => 340
  | .pqc => 1710
  | .hybrid => 2050

/-- The tenths of the demo memory. -/
def demoTenths : Mode → Nat
  | .classical => 21
  | .pqc => 120
  | .hybrid => 141

/-- The statistics are printed as the demo values of the mode. -/
structure MatchesDemo (stats : BenchmarkStats) (mode : Mode) : Prop where
  latency : latencyHundredths stats = demoHundredths mode
  memory : peakHeapTenths stats = demoTenths mode
  payload : (stats.payloadBytes : Int) = (demoValues mode).payload
  cpu : (stats.meanTotalCycles : Int) = (demoValues mode).cpu

theorem postedNumber_latency (stats : BenchmarkStats) :
    postedNumber stats "latency_ms" = some ((latencyHundredths stats : ℚ) / 10 ^ 2) :=
  Json.number_fixed 1 (latencyHundredths stats)

theorem postedNumber_memory (stats : BenchmarkStats) :
    postedNumber stats "peak_heap_kb" = some ((peakHeapTenths stats : ℚ) / 10 ^ 1) :=
  Json.number_fixed 0 (peakHeapTenths stats)

theorem postedNumber_payload (stats : BenchmarkStats) :
    postedNumber stats "payload_bytes" = some ((stats.payloadBytes : Int) : ℚ) := rfl

theorem postedNumber_cpu (stats : BenchmarkStats) :
    postedNumber stats "cpu_cycles" = some ((stats.meanTotalCycles : Int) : ℚ) := rfl

theorem number_demo_latency (mode : Mode) :
    Json.number (demo.latency mode).value = some ((demoHundredths mode : ℚ) / 10 ^ 2) := by
  have htext : (demo.latency mode).value = .float (PyStr.fixed 1 (demoHundredths mode / 10)) := by
    cases mode with
    | classical => rfl
    | pqc => rfl
    | hybrid => rfl
  have hten : (demoHundredths mode : ℚ) = (demoHundredths mode / 10 : Nat) * 10 := by
    cases mode <;> norm_num [demoHundredths]
  rw [htext, Json.number_fixed, hten]
  congr 1
  ring

theorem number_demo_memory (mode : Mode) :
    Json.number (demo.memory mode).value = some ((demoTenths mode : ℚ) / 10 ^ 1) := by
  have htext : (demo.memory mode).value = .float (PyStr.fixed 1 (demoTenths mode)) := by
    cases mode with
    | classical => rfl
    | pqc => rfl
    | hybrid => rfl
  rw [htext, Json.number_fixed]

theorem showsMode_demo_iff (stats : BenchmarkStats) (mode : Mode) :
    ShowsMode stats demo mode ↔ MatchesDemo stats mode := by
  have hfixed : ∀ {m n k : Nat}, some ((m : ℚ) / 10 ^ k) = some ((n : ℚ) / 10 ^ k) ↔ n = m := by
    intro m n k
    have hpow : (10 : ℚ) ^ k ≠ 0 := by positivity
    rw [Option.some_inj, div_left_inj' hpow, Nat.cast_inj, eq_comm]
  have hint : ∀ {m n : Int}, Json.number (.int m) = some (n : ℚ) ↔ n = m := by
    intro m n
    rw [Json.number, Option.some_inj, Int.cast_inj, eq_comm]
  have hpayload : (demo.payload mode).value = .int (demoValues mode).payload := rfl
  have hcpu : (demo.cpu mode).value = .int (demoValues mode).cpu := rfl
  constructor
  · rintro ⟨h1, h2, h3, h4⟩
    rw [number_demo_latency, postedNumber_latency, hfixed] at h1
    rw [number_demo_memory, postedNumber_memory, hfixed] at h2
    rw [hpayload, postedNumber_payload, hint] at h3
    rw [hcpu, postedNumber_cpu, hint] at h4
    exact ⟨h1, h2, h3, h4⟩
  · rintro ⟨h1, h2, h3, h4⟩
    refine ⟨?_, ?_, ?_, ?_⟩
    · rw [number_demo_latency, postedNumber_latency, hfixed]
      exact h1
    · rw [number_demo_memory, postedNumber_memory, hfixed]
      exact h2
    · rw [hpayload, postedNumber_payload, hint]
      exact h3
    · rw [hcpu, postedNumber_cpu, hint]
      exact h4

/-! ## What the server stores -/

/-- The keys of the report, and those that the server adds. -/
def reportKeys : List PyStr :=
  ["classical", "pqc", "hybrid", "iterations", "chip", "freq_mhz", "sram_kb", "timestamp",
    "handshake_count", "uptime_s", "telemetry"].map PyStr.lit

/-- The server holds a report. -/
def HoldsReport (s : HttpServer) : Prop :=
  ∃ fields, s.latestBenchmarks = .obj fields ∧ fields ≠ [] ∧
    ∀ k ∈ fields.map Prod.fst, k ∈ reportKeys

/-- The input is another `POST /api/benchmarks`. -/
def Incoming.PostsBenchmarks : Incoming → Prop
  | .request _ r => r.Is "POST" "/api/benchmarks"
  | _ => False

variable {X : Externals} {T : ErrorTexts} {s : HttpServer} {env : HttpEnv} {r : HttpRequest}

theorem mem_reportKeys_set {fields : List (PyStr × Json)} {key : PyStr} {v : Json}
    (hkey : key ∈ reportKeys) (h : ∀ k ∈ fields.map Prod.fst, k ∈ reportKeys) :
    ∀ k ∈ (Assoc.set key v fields).map Prod.fst, k ∈ reportKeys := by
  intro k hk
  rcases Assoc.mem_map_fst_set.mp hk with rfl | hk
  · exact hkey
  · exact h k hk

theorem mem_reportKeys_serverFields (env : HttpEnv) (core : Server) {fields : List (PyStr × Json)}
    (h : ∀ k ∈ fields.map Prod.fst, k ∈ reportKeys) :
    ∀ k ∈ (serverFields env core fields).map Prod.fst, k ∈ reportKeys :=
  mem_reportKeys_set (by decide) (mem_reportKeys_set (by decide) (mem_reportKeys_set (by decide) h))

/-- The object that the server stores for a report. -/
def storedFields (posted : HttpEnv) (stats : Mode → BenchmarkStats) : List (PyStr × Json) :=
  Assoc.set (PyStr.lit "timestamp") (.str posted.now.isoformat) (reportFields stats)

/-- The posted report is stored. -/
theorem stored_report (X : Externals) (T : ErrorTexts) (s : HttpServer) (env : HttpEnv)
    {stats : Mode → BenchmarkStats} (hstats : ∀ mode, (stats mode).Fits) :
    (HttpServer.next X T s (.request env (benchmarkSendResults stats))).latestBenchmarks =
      .obj (storedFields env stats) := by
  have hpost : (benchmarkSendResults stats).Is "POST" "/api/benchmarks" := ⟨rfl, rfl⟩
  have hstored := postBenchmarks_of_obj X T env s (postedValue_benchmarkSendResults X hstats)
  rwa [← route_post hpost, ← next_request] at hstored

theorem HoldsReport.of_post {stats : Mode → BenchmarkStats} (h : ∀ mode, (stats mode).Fits) :
    HoldsReport (HttpServer.next X T s (.request env (benchmarkSendResults stats))) := by
  refine ⟨_, stored_report X T s env h, Assoc.set_ne_nil _ _ _, mem_reportKeys_set (by decide) ?_⟩
  intro k hk
  have hkeys : (reportFields stats).map Prod.fst = reportKeys.take 7 := rfl
  rw [hkeys] at hk
  exact List.mem_of_mem_take hk

theorem HoldsReport.next (h : HoldsReport s) {i : Incoming} (hi : ¬ i.PostsBenchmarks) :
    HoldsReport (HttpServer.next X T s i) := by
  cases i with
  | malformed text => exact h
  | dropped => exact h
  | request env r =>
    obtain ⟨fields, hobj, hne, hkeys⟩ := h
    rw [HoldsReport, next_request]
    by_cases hget : r.Is "GET" "/api/benchmarks"
    · rw [route_get hget, (getBenchmarks_of_obj X env hobj hne).2]
      exact ⟨_, rfl, Assoc.set_ne_nil _ _ _, mem_reportKeys_serverFields env s.core hkeys⟩
    · rw [route_other hi hget]
      exact ⟨fields, hobj, hne, hkeys⟩

theorem HoldsReport.run (h : HoldsReport s) {inputs : List Incoming}
    (hinputs : ∀ i ∈ inputs, ¬ i.PostsBenchmarks) :
    HoldsReport (run (HttpServer.next X T) s inputs) :=
  (guarded_of_forall hinputs s).invariant (fun _ _ hholds hi => hholds.next hi) h

/-! ## What the dashboard reads -/

/-- The reply is read as the object that was dumped, unless `JSON.parse` refuses a literal in it. -/
theorem responseJson_jsonBody (hfloat : Json.FloatText X.floatRepr) (fields : List (PyStr × Json)) :
    responseJson (jsonBody X fields) =
      (some (Json.readBack X.floatRepr (.obj fields))).filter isStandard := by
  have hascii := Json.dumps_isAscii hfloat (.obj fields)
  rw [responseJson, jsonBody, PyStr.encodeAscii_toNat hascii, Json.decodeUtf8_ascii hascii,
    Option.bind_some, jsonParse, Json.parse_dumps hfloat]
  rfl

theorem property_of_reportKeys {fields : List (PyStr × Json)}
    (h : ∀ k ∈ fields.map Prod.fst, k ∈ reportKeys) {key : String} (hkey : PyStr.lit key ∉ reportKeys) :
    property key (.obj fields) = none := by
  apply List.lookup_eq_none_iff.mpr
  intro p hp
  rw [bne_iff_ne]
  intro heq
  apply hkey
  rw [heq]
  exact h p.1 (List.mem_map_of_mem hp)

/-- A report is shown as the demo data. -/
theorem normalizeServerData_of_reportKeys (jitterDemo : DashboardData) {fields : List (PyStr × Json)}
    (h : ∀ k ∈ fields.map Prod.fst, k ∈ reportKeys) :
    normalizeServerData jitterDemo (.obj fields) = demo := by
  have hproperty : ∀ key ∈ ["iteration", "total_iterations", "latency", "memory", "payload", "cpu"],
      property key (.obj fields) = none := by
    intro key hkey
    have hnone : ∀ key ∈ ["iteration", "total_iterations", "latency", "memory", "payload", "cpu"],
        PyStr.lit key ∉ reportKeys := by decide
    exact property_of_reportKeys h (hnone key hkey)
  have hbar : ∀ (chart : String) (bars : Mode → Bar), property chart (.obj fields) = none →
      readBar (.obj fields) chart bars = bars := by
    intro chart bars hchart
    funext mode
    rw [readBar, hchart]
    rfl
  rw [normalizeServerData, hproperty "iteration" (by simp), hproperty "total_iterations" (by simp),
    hbar "latency" _ (hproperty _ (by simp)), hbar "memory" _ (hproperty _ (by simp)),
    hbar "payload" _ (hproperty _ (by simp)), hbar "cpu" _ (hproperty _ (by simp))]
  · rfl
  · rintro ⟨⟩

theorem fetchData_ok (jitterDemo : DashboardData) (body : Bytes) :
    fetchData jitterDemo (some ⟨200, body⟩) =
      (responseJson body).map (normalizeServerData jitterDemo) := by
  have hok : 200 ≤ 200 ∧ 200 ≤ 299 := by decide
  rw [fetchData, if_pos hok]

/-- A reply that could not be written takes the dashboard offline. -/
theorem fetchData_jsonReply (hfloat : Json.FloatText X.floatRepr) (jitterDemo : DashboardData)
    (fields : List (PyStr × Json)) :
    fetchData jitterDemo (some (jsonReply X 200 fields)) =
      if (Json.obj fields).depth ≤ X.dumpsNesting.val then
        ((some (Json.readBack X.floatRepr (.obj fields))).filter isStandard).map
          (normalizeServerData jitterDemo)
      else none := by
  unfold jsonReply dumpsBody
  by_cases hdepth : (Json.obj fields).depth ≤ X.dumpsNesting.val
  · rw [if_pos hdepth, if_pos hdepth, ← responseJson_jsonBody hfloat]
    exact fetchData_ok jitterDemo _
  · rw [if_neg hdepth, if_neg hdepth]
    rfl

/-- What the dashboard makes of the stored object. -/
theorem fetchData_of_obj (T : ErrorTexts) (env : HttpEnv) (hfloat : Json.FloatText X.floatRepr)
    {fields : List (PyStr × Json)} (hobj : s.latestBenchmarks = .obj fields) (hne : fields ≠ [])
    (jitterDemo : DashboardData) :
    fetchData jitterDemo (handleRequest X T s (.request env fetchRequest)).1 =
      if (Json.obj (serverFields env s.core fields)).depth ≤ X.dumpsNesting.val then
        ((some (Json.readBack X.floatRepr (.obj (serverFields env s.core fields)))).filter isStandard).map
          (normalizeServerData jitterDemo)
      else none := by
  have hget : fetchRequest.Is "GET" "/api/benchmarks" := ⟨rfl, rfl⟩
  rw [handleRequest, route_get hget, (getBenchmarks_of_obj X env hobj hne).1]
  exact fetchData_jsonReply hfloat jitterDemo _

/-- The reply to the dashboard, after the report was posted and the server has answered `inputs`. -/
def dashboardReply (X : Externals) (T : ErrorTexts) (s : HttpServer) (posted : HttpEnv)
    (stats : Mode → BenchmarkStats) (inputs : List Incoming) (env : HttpEnv) : Option HttpReply :=
  let s := HttpServer.next X T s (.request posted (benchmarkSendResults stats))
  (handleRequest X T (run (HttpServer.next X T) s inputs) (.request env fetchRequest)).1

/-- The data that is shown is the demo data. -/
theorem fetchData_eq_demo (hfloat : Json.FloatText X.floatRepr) {stats : Mode → BenchmarkStats}
    (hstats : ∀ mode, (stats mode).Fits) {posted : HttpEnv} {inputs : List Incoming}
    (hinputs : ∀ i ∈ inputs, ¬ i.PostsBenchmarks) {jitterDemo d : DashboardData}
    (hd : fetchData jitterDemo (dashboardReply X T s posted stats inputs env) = some d) : d = demo := by
  have hposted : HoldsReport (HttpServer.next X T s (.request posted (benchmarkSendResults stats))) :=
    HoldsReport.of_post hstats
  obtain ⟨fields, hobj, hne, hkeys⟩ := hposted.run (X := X) (T := T) hinputs
  rw [dashboardReply, fetchData_of_obj T env hfloat hobj hne, Option.ite_none_right_eq_some] at hd
  replace hd := hd.2
  obtain ⟨raw, hraw, rfl⟩ := Option.map_eq_some_iff.mp hd
  obtain ⟨hraw, -⟩ := Option.filter_eq_some_iff.mp hraw
  rw [← Option.some.inj hraw, Json.readBack]
  refine normalizeServerData_of_reportKeys jitterDemo (Json.mem_keys_of_readBack (by decide) ?_)
  exact mem_reportKeys_serverFields env _ hkeys

/-- The dashboard shows the demo data as connected when the reply is written and `JSON.parse` takes it. -/
theorem fetchData_report (hfloat : Json.FloatText X.floatRepr) {stats : Mode → BenchmarkStats}
    (hstats : ∀ mode, (stats mode).Fits) {posted : HttpEnv} (jitterDemo : DashboardData)
    (hdepth : (Json.obj (serverFields env s.core (storedFields posted stats))).depth ≤
      X.dumpsNesting.val)
    (hstandard : isStandard (Json.readBack X.floatRepr
      (.obj (serverFields env s.core (storedFields posted stats)))) = true) :
    fetchData jitterDemo (dashboardReply X T s posted stats [] env) = some demo := by
  have hcore : (HttpServer.next X T s (.request posted (benchmarkSendResults stats))).core = s.core := by
    rw [next_request, route_post ⟨rfl, rfl⟩]
    exact postBenchmarks_core X T posted s _
  have hne : storedFields posted stats ≠ [] := Assoc.set_ne_nil _ _ _
  have hfetch := fetchData_of_obj T env hfloat (stored_report X T s posted hstats) hne jitterDemo
  rw [hcore, if_pos hdepth, Option.filter_some_pos hstandard, Option.map_some] at hfetch
  have hshown : fetchData jitterDemo (dashboardReply X T s posted stats [] env) = some _ := hfetch
  rw [fetchData_eq_demo hfloat hstats (by simp) hshown] at hshown
  exact hshown

/-- Whatever the server answers between the report and the dashboard's request, what the dashboard shows
as connected are the posted values exactly when these are printed as the demo values. -/
theorem dashboard_shows_report_iff (X : Externals) (hfloat : Json.FloatText X.floatRepr) (T : ErrorTexts)
    (s : HttpServer) (posted : HttpEnv) (stats : Mode → BenchmarkStats)
    (hstats : ∀ mode, (stats mode).Fits) (inputs : List Incoming)
    (hinputs : ∀ i ∈ inputs, ¬ i.PostsBenchmarks) (env : HttpEnv) (jitterDemo d : DashboardData)
    (hd : fetchData jitterDemo (dashboardReply X T s posted stats inputs env) = some d) :
    (∀ mode, ShowsMode (stats mode) d mode) ↔ ∀ mode, MatchesDemo (stats mode) mode := by
  rw [fetchData_eq_demo hfloat hstats hinputs hd]
  exact forall_congr' fun mode => showsMode_demo_iff (stats mode) mode

/-! ## Reference values -/

namespace Reference

/-- The tenths of the numbers below, by their literals. -/
def literalTenths : List (PyStr × Nat) :=
  [(PyStr.lit "3.40", 34), (PyStr.lit "2.1", 21), (PyStr.lit "17.10", 171), (PyStr.lit "12.0", 120),
    (PyStr.lit "20.50", 205), (PyStr.lit "14.1", 141), (PyStr.lit "25.00", 250), (PyStr.lit "20.0", 200)]

/-- The functions, with what `json.dumps` writes for these numbers. -/
def reprExternals : Externals :=
  { externals with
    floatRepr := fun literal => PyStr.fixed 1 ((literalTenths.lookup literal).getD 0) }

theorem reprExternals_floatText : Json.FloatText reprExternals.floatRepr where
  ascii := fun _ => PyStr.fixed_isAscii 1 _
  reads := fun _ _ => Json.ReadsAtom.fixed _ 0 _

/-- Statistics that are printed as the demo values. -/
def demoStats (mode : Mode) : BenchmarkStats where
  mode := mode
  iterations := 10
  meanTotalMs := (demoHundredths mode : ℚ≥0) / (100 : Nat)
  stddevSquared := 0
  meanKeygenMs := 0
  meanHandshakeMs := (demoHundredths mode : ℚ≥0) / (100 : Nat)
  meanPeakHeap := demoTenths mode * 1024 / 10
  payloadBytes := (demoValues mode).payload.toNat
  meanTotalCycles := (demoValues mode).cpu.toNat

/-- Statistics of a slower run. -/
def slowStats (mode : Mode) : BenchmarkStats where
  mode := mode
  iterations := 10
  meanTotalMs := (25 : Nat)
  stddevSquared := 0
  meanKeygenMs := (8 : Nat)
  meanHandshakeMs := (17 : Nat)
  meanPeakHeap := 20480
  payloadBytes := 1632
  meanTotalCycles := 6000000

theorem demoStats_fits (mode : Mode) : (demoStats mode).Fits := by
  cases mode <;> exact ⟨by decide, by decide +kernel, by decide, by decide, by decide⟩

theorem slowStats_fits (mode : Mode) : (slowStats mode).Fits := by
  cases mode <;> exact ⟨by decide, by decide +kernel, by decide, by decide, by decide⟩

/-- The reply for these statistics is the demo data. -/
theorem fetchData_demoStats :
    fetchData demo
        (dashboardReply reprExternals errorTexts HttpServer.init httpEnv demoStats [] httpEnv) =
      some demo :=
  fetchData_report reprExternals_floatText demoStats_fits demo (by decide +kernel) (by decide +kernel)

theorem fetchData_slowStats :
    fetchData demo
        (dashboardReply reprExternals errorTexts HttpServer.init httpEnv slowStats [] httpEnv) =
      some demo :=
  fetchData_report reprExternals_floatText slowStats_fits demo (by decide +kernel) (by decide +kernel)

end Reference

/-- On these statistics the two agree. -/
theorem dashboard_shows_report_iff_reference :
    (∀ mode, ShowsMode (Reference.demoStats mode) demo mode) ↔
      ∀ mode, MatchesDemo (Reference.demoStats mode) mode :=
  dashboard_shows_report_iff Reference.reprExternals Reference.reprExternals_floatText
    Reference.errorTexts HttpServer.init Reference.httpEnv Reference.demoStats Reference.demoStats_fits []
    (fun _ h => absurd h List.not_mem_nil) Reference.httpEnv demo demo Reference.fetchData_demoStats

/-- After a slower run the dashboard shows other values than the posted ones. -/
theorem dashboard_shows_demo :
    ∃ d, fetchData demo (dashboardReply Reference.reprExternals Reference.errorTexts HttpServer.init
        Reference.httpEnv Reference.slowStats [] Reference.httpEnv) = some d ∧
      ¬ ∀ mode, ShowsMode (Reference.slowStats mode) d mode := by
  refine ⟨demo, Reference.fetchData_slowStats, ?_⟩
  intro h
  have hmatches := (showsMode_demo_iff _ _).mp (h .classical)
  exact absurd hmatches.payload (by decide)

end HybridPqc
