import HybridPqc.Endurance.Proofs.LatencyProofs
import HybridPqc.Endurance.Proofs.PandasProofs

/-!
# Proofs: the CSV file

The run on a log always writes the CSV file, one row for each handshake, but it returns only if there is
a fourth sitting. The run on the CSV file needs pandas; it looks for a column and for names of protocols
that are not in the file, and fails unless there are no rows.
-/

open PyStr (lit)

namespace HybridPqc

open Conversations

/-! ## The run on the log -/

/-- Every handshake has an end time, and so latencies. -/
theorem exists_latency {log : List PyStr} {h : Stream} (hh : h ∈ (parseLog log).handshakes) :
    ∃ l, latency h = some l := by
  rw [(handshakes_perm log).mem_iff, List.mem_filterMap] at hh
  rcases hh with ⟨c, hc, hrep⟩
  have hend := (TrackedStream.reported_fields hc hrep).2.2.2
  have hsome : h.endTime.isSome = true := by
    rw [hend]
    simp
  rcases Option.isSome_iff_exists.mp hsome with ⟨e, he⟩
  exact ⟨_, by rw [latency, he]; rfl⟩

theorem exists_timedHandshakes {hs : List Stream} (h : ∀ h ∈ hs, ∃ l, latency h = some l) :
    ∃ timed, timedHandshakes hs = some timed ∧ timed.map Prod.fst = hs := by
  unfold timedHandshakes
  induction hs with
  | nil => exact ⟨[], rfl, rfl⟩
  | cons st hs ih =>
    rcases h st List.mem_cons_self with ⟨l, hl⟩
    rcases ih fun h' hh' => h h' (List.mem_cons_of_mem st hh') with ⟨timed, htimed, hfst⟩
    refine ⟨(st, l) :: timed, ?_, by rw [List.map_cons, hfst]⟩
    simp [List.mapM_cons, hl, htimed]

/-- No statistic reads beyond the end of its list. -/
theorem exists_calculateStats (latencies : List Int) : ∃ stats, calculateStats latencies = some stats := by
  unfold calculateStats
  by_cases hnil : latencies = []
  · exact ⟨none, if_pos hnil⟩
  rw [if_neg hnil]
  have hpos : 0 < (latencies.insertionSort (· ≤ ·)).length := by
    rw [List.length_insertionSort]
    exact List.length_pos_iff.mpr hnil
  generalize latencies.insertionSort (· ≤ ·) = s at hpos
  have hget : ∀ i, i < s.length → ∃ x, s[i]? = some x := fun i hi =>
    ⟨s[i], List.getElem?_eq_getElem hi⟩
  rcases hget (s.length / 2) (by omega) with ⟨upper, hupper⟩
  rcases hget (s.length / 2 - 1) (by omega) with ⟨lower, hlower⟩
  rcases hget 0 hpos with ⟨first, hfirst⟩
  rcases hget (s.length * 95 / 100) (by omega) with ⟨p95, hp95⟩
  rcases hget (s.length * 99 / 100) (by omega) with ⟨p99, hp99⟩
  rcases hget (s.length - 1) (by omega) with ⟨last, hlast⟩
  simp only [hupper, hlower, hfirst, hp95, hp99, hlast, Option.bind_eq_bind, Option.bind_some]
  split
  · exact ⟨_, rfl⟩
  · exact ⟨_, rfl⟩

theorem exists_latencyStats (timed : List (Stream × Latency)) :
    ∃ stats, latencyStats timed = some stats := by
  unfold latencyStats
  rcases exists_calculateStats (latenciesOf .hybridPqc timed Latency.turnaround) with ⟨a, ha⟩
  rcases exists_calculateStats (latenciesOf .hybridPqc timed Latency.totalDuration) with ⟨b, hb⟩
  rcases exists_calculateStats (latenciesOf .classicalTls timed Latency.turnaround) with ⟨c, hc⟩
  rcases exists_calculateStats (latenciesOf .classicalTls timed Latency.totalDuration) with ⟨d, hd⟩
  refine ⟨⟨a, b, c, d⟩, ?_⟩
  simp only [ha, hb, hc, hd, Option.bind_eq_bind, Option.bind_some]

/-- The run on a log writes the CSV file of its handshakes, and returns if there is a fourth sitting. -/
theorem mainOnParsed_spec (disk : Disk) (log : List PyStr) :
    ∃ timed, timed.map Prod.fst = (parseLog log).handshakes ∧
      (mainOnParsed disk (parseLog log)).disk.csv = some (csvOf timed) ∧
      (mainOnParsed disk (parseLog log)).printed = some (printedOfLog (parseLog log)) ∧
      ((mainOnParsed disk (parseLog log)).error = none ↔ 4 ≤ (parseLog log).sessions.length) := by
  have hlatency : ∀ h ∈ (parseLog log).handshakes, ∃ l, latency h = some l := fun h hh => exists_latency hh
  rcases exists_timedHandshakes hlatency with ⟨timed, htimed, hfst⟩
  rcases exists_latencyStats timed with ⟨stats, hstats⟩
  refine ⟨timed, hfst, ?_⟩
  unfold mainOnParsed
  simp only [htimed, hstats]
  cases hfourth : (parseLog log).sessions[3]? with
  | none =>
    have hlen := List.getElem?_eq_none_iff.mp hfourth
    simp
    omega
  | some fourth =>
    have hlen := (List.getElem?_eq_some_iff.mp hfourth).1
    simp
    omega

/-- A length with too many digits ends the run on the log. -/
theorem mainOnLog_eq (disk : Disk) (log : List PyStr) :
    (∃ line ∈ log, overlong line = true) ∧ (mainOnLog disk log).error = some .valueError ∨
      (∀ line ∈ log, overlong line = false) ∧ mainOnLog disk log = mainOnParsed disk (parseLog log) := by
  unfold mainOnLog
  cases h : log.any overlong with
  | true => exact .inl ⟨List.any_eq_true.mp h, rfl⟩
  | false => exact .inr ⟨by simpa using List.any_eq_false.mp h, rfl⟩

/-! ## The run on the CSV file -/

theorem map_fst_zipIdx (f : Stream → PyStr) (timed : List (Stream × Latency)) (i : Nat)
    (cell : List PyStr → PyStr) (hcell : ∀ idx h l, cell (csvRow idx h l) = f h) :
    ((timed.zipIdx i).map fun t => csvRow t.2 t.1.1 t.1.2).map cell = (timed.map Prod.fst).map f := by
  induction timed generalizing i with
  | nil => rfl
  | cons t timed ih => simp [List.zipIdx_cons, hcell, ih]

/-- The CSV file is regular, and two of its columns hold the sitting and the protocol of every handshake. -/
theorem csvOf_spec (timed : List (Stream × Latency)) :
    (csvOf timed).Regular ∧ (csvOf timed).header = fieldnames ∧
      (csvOf timed).rows.length = timed.length ∧
      (csvOf timed).cells 1 = (timed.map Prod.fst).map (fun h => PyStr.decimal h.sessionId) ∧
      (csvOf timed).cells 2 = (timed.map Prod.fst).map fun h => h.proto.name := by
  have hrow : ∀ row ∈ (csvOf timed).rows, row.length = fieldnames.length := by
    intro row hrow
    rcases List.mem_map.mp hrow with ⟨t, -, rfl⟩
    rfl
  have hheader : fieldnames ≠ [] ∧ fieldnames.Nodup := by decide
  refine ⟨⟨hheader.1, hheader.2, hrow⟩, rfl, by simp [csvOf], ?_, ?_⟩
  · exact map_fst_zipIdx (fun h => PyStr.decimal h.sessionId) timed 1 _ fun idx h l => rfl
  · exact map_fst_zipIdx (fun h => h.proto.name) timed 1 _ fun idx h l => rfl

/-- A protocol is not written under the names by which it is looked for. -/
theorem name_ne (proto : Proto) :
    proto.name ≠ lit "Hybrid-PQC (ML-KEM-768)" ∧ proto.name ≠ lit "Classical TLS 1.3" := by
  cases proto <;> decide

namespace Pandas

variable {P : Pandas}

/-- No row is counted under a name that is not in the column of protocols. -/
theorem len_select_csvOf (hP : P.Laws) {timed : List (Stream × Latency)} {df : P.Frame}
    (hread : P.Reads (csvOf timed) df) {protocols : P.Series}
    (hcolumn : P.column df (lit "protocol") = some protocols) (name : PyStr)
    (hname : ∀ proto : Proto, proto.name ≠ name) :
    P.len (P.select df (P.equals protocols name)) = 0 := by
  have hle := hP.len_select_le _ _ 2 _ _ name hread rfl hcolumn
  have hzero : ((csvOf timed).cells 2).count name = 0 := by
    rw [(csvOf_spec timed).2.2.2.2, List.count_eq_zero]
    intro hmem
    rcases List.mem_map.mp hmem with ⟨h, -, heq⟩
    exact hname h.proto heq
  omega

/-- The line on the first sitting is not printed, if there is one. -/
theorem printSittings_of_not_column {groups : List (PyStr × P.Frame)}
    (h : ∀ g ∈ groups, P.column g.2 (lit "timestamp") = none) :
    P.printSittings groups = ([], if groups = [] then none else some (.keyError (lit "timestamp"))) := by
  cases groups with
  | nil => rfl
  | cons g groups =>
    rcases g with ⟨sid, grp⟩
    have hnone : P.column grp (lit "timestamp") = none := h (sid, grp) List.mem_cons_self
    rw [printSittings, hnone, if_neg (List.cons_ne_nil _ _)]

/-- The sittings of the CSV file are read, but not the column with the times. -/
theorem groupby_csvOf (hP : P.Laws) {timed : List (Stream × Latency)} {df : P.Frame}
    (hread : P.Reads (csvOf timed) df) :
    ∃ groups, P.groupby df (lit "session_id") = some groups ∧ (groups = [] ↔ timed = []) ∧
      ∀ g ∈ groups, P.column g.2 (lit "timestamp") = none := by
  rcases csvOf_spec timed with ⟨-, hheader, -, hids, -⟩
  have hnumbers : ∀ cell ∈ (csvOf timed).cells 1, ∃ n, cell = PyStr.decimal n := by
    rw [hids]
    intro cell hcell
    rcases List.mem_map.mp hcell with ⟨h, -, rfl⟩
    exact ⟨h.sessionId, rfl⟩
  rcases hP.groupby_reads _ _ 1 _ hread rfl hnumbers with ⟨groups, hgroups, hperm, hcolumns⟩
  refine ⟨groups, hgroups, ?_, ?_⟩
  · have hlen := hperm.length_eq
    rw [List.length_map, List.length_map] at hlen
    rw [← List.length_eq_zero_iff, hlen, List.length_eq_zero_iff, List.dedup_eq_nil, hids,
      List.map_eq_nil_iff, List.map_eq_nil_iff]
  · intro g hg
    rw [← Option.not_isSome_iff_eq_none, hcolumns g hg, hheader]
    decide

end Pandas

/-- On the CSV file of the handshakes `hs`, `main` counts them all, but none of either protocol, and stops
at the first sitting. -/
theorem mainOnCsv_spec {P : Pandas} (hP : P.Laws) (disk : Disk) {timed : List (Stream × Latency)}
    {hs : List Stream} (hfst : timed.map Prod.fst = hs) :
    mainOnCsv (some P) disk (csvOf timed) =
      ⟨disk, some ⟨hs.length, some (0, 0), []⟩,
        if hs = [] then none else some (.keyError (lit "timestamp"))⟩ := by
  rcases csvOf_spec timed with ⟨hreg, hheader, hrows, -, -⟩
  rcases hP.exists_reads _ hreg with ⟨df, hread⟩
  have hlen : P.len df = hs.length := by
    rw [hP.len_reads _ _ hread, hrows, ← hfst, List.length_map]
  have hcolumn : (P.column df (lit "protocol")).isSome = true := by
    rw [hP.column_reads _ _ _ hread, hheader]
    decide
  rcases Option.isSome_iff_exists.mp hcolumn with ⟨protocols, hprotocols⟩
  have hzero := Pandas.len_select_csvOf hP hread hprotocols
  rcases Pandas.groupby_csvOf hP hread with ⟨groups, hgroups, hnil, htime⟩
  have hnil' : groups = [] ↔ hs = [] := by
    rw [hnil, ← hfst, List.map_eq_nil_iff]
  unfold mainOnCsv Pandas.printFrame
  simp only [hread.2, hlen, hprotocols, hgroups, hzero _ fun proto => (name_ne proto).1,
    hzero _ fun proto => (name_ne proto).2, Pandas.printSittings_of_not_column htime, hnil']

/-! ## Sittings and gaps -/

/-- The number of times that a line comes more than 120 s after the one before it, from a first line at
`prev`. -/
def gapsFrom (prev : DateTime) : List Packet → Nat
  | [] => 0
  | p :: ps => (if gap prev p.dt then 1 else 0) + gapsFrom p.dt ps

/-- The gaps of more than 120 s between the dated lines of a log. -/
def gaps (log : List PyStr) : Nat :=
  match packets log with
  | [] => 0
  | p :: ps => gapsFrom p.dt ps

theorem currentSessionId_run {s : ParseState} {prev : DateTime} (hprev : s.prevDt = some prev)
    (ps : List Packet) :
    (GuardedRuns.run ParseState.step s ps).currentSessionId = s.currentSessionId + gapsFrom prev ps := by
  induction ps generalizing s prev with
  | nil => rfl
  | cons p ps ih =>
    rcases ParseState.step_spec s p with ⟨-, hprev', hid⟩
    rw [GuardedRuns.run_cons, ih hprev', hid, ParseState.currentSessionId_observe, gapsFrom, hprev]
    unfold newSitting
    by_cases hgap : gap prev p.dt
    · simp [hgap]
      omega
    · simp [hgap]

theorem length_foldl_sweepStep (r : ParsedLog) (sts : List Stream) :
    (sts.foldl sweepStep r).sessions.length = r.sessions.length := by
  have htimes := congrArg List.length (times_foldl_sweepStep r sts)
  simpa using htimes

/-- Every gap opens a sitting, and so does the first line. -/
theorem length_sessions (log : List PyStr) :
    (parseLog log).sessions.length = if packets log = [] then 0 else gaps log + 1 := by
  have hconsistent := ParseState.consistent_run (packets log)
  unfold parseLog ParseState.finish
  rw [length_foldl_sweepStep, ← hconsistent.current]
  unfold gaps
  cases packets log with
  | nil => rfl
  | cons p ps =>
    rcases ParseState.step_spec ParseState.init p with ⟨-, hprev, hid⟩
    rw [GuardedRuns.run_cons, currentSessionId_run hprev, hid, ParseState.currentSessionId_observe]
    simp [ParseState.init, newSitting]
    omega

theorem four_sittings_iff (log : List PyStr) : 4 ≤ (parseLog log).sessions.length ↔ 3 ≤ gaps log := by
  rw [length_sessions]
  split
  · next hnil =>
    unfold gaps
    rw [hnil]
    simp
  · omega

/-- There are no handshakes when no stream is returned. -/
theorem handshakes_eq_nil_iff (log : List PyStr) :
    (parseLog log).handshakes = [] ↔ ∀ c ∈ trackedStreams log, ¬c.Returned := by
  have hperm := handshakes_perm log
  rw [← List.length_eq_zero_iff, hperm.length_eq, List.length_eq_zero_iff, List.filterMap_eq_nil_iff]
  constructor
  · intro h c hc hreturned
    rw [← TrackedStream.isSome_reported hc, h c hc] at hreturned
    cases hreturned
  · intro h c hc
    rw [← Option.not_isSome_iff_eq_none, TrackedStream.isSome_reported hc]
    exact h c hc

/-! ## Both runs -/

/-- The number of handshakes that is printed for a sitting. -/
def sittingCount (p : Printed) (sitting : PyStr) : Nat := (p.sittings.lookup sitting).getD 0

/-- `main` returns and writes the CSV file of the log, and without the log it returns and prints the same
numbers from that file. -/
def RoundTrips (pandas : Option Pandas) (log : List PyStr) : Prop :=
  ∀ disk : Disk, disk.logFile = some log →
    let first := enduranceMain pandas disk
    let second := enduranceMain pandas first.disk.withoutLogs
    first.error = none ∧
      (∃ csv, first.disk.csv = some csv ∧ csv.rows.length = (parseLog log).handshakes.length) ∧
      second.error = none ∧
      ∃ p q, first.printed = some p ∧ second.printed = some q ∧ q.total = p.total ∧
        q.protocols = p.protocols ∧ ∀ sitting, sittingCount q sitting = sittingCount p sitting

variable {pandas : Option Pandas}

theorem enduranceMain_of_log {disk : Disk} {log : List PyStr} (hlog : disk.logFile = some log) :
    enduranceMain pandas disk = mainOnLog disk log := by
  unfold enduranceMain
  rw [hlog]

/-- The two runs: the first one as on the log, the second one on the CSV file of its handshakes. -/
theorem both_runs (pandas : Option Pandas) {disk : Disk} {log : List PyStr} (hlog : disk.logFile = some log)
    (hlengths : ∀ line ∈ log, overlong line = false) :
    ∃ timed, timed.map Prod.fst = (parseLog log).handshakes ∧
      (enduranceMain pandas disk).disk.csv = some (csvOf timed) ∧
      (enduranceMain pandas disk).printed = some (printedOfLog (parseLog log)) ∧
      ((enduranceMain pandas disk).error = none ↔ 4 ≤ (parseLog log).sessions.length) ∧
      enduranceMain pandas (enduranceMain pandas disk).disk.withoutLogs =
        mainOnCsv pandas (enduranceMain pandas disk).disk.withoutLogs (csvOf timed) := by
  have hmain : enduranceMain pandas disk = mainOnParsed disk (parseLog log) := by
    rw [enduranceMain_of_log hlog]
    rcases mainOnLog_eq disk log with ⟨⟨line, hline, hover⟩, -⟩ | ⟨-, heq⟩
    · rw [hlengths line hline] at hover
      cases hover
    · exact heq
  rcases mainOnParsed_spec disk log with ⟨timed, hfst, hcsv, hprinted, herror⟩
  rw [← hmain] at hcsv hprinted herror
  refine ⟨timed, hfst, hcsv, hprinted, herror, ?_⟩
  have hnone : (enduranceMain pandas disk).disk.withoutLogs.logFile = none := rfl
  have hcsv' : (enduranceMain pandas disk).disk.withoutLogs.csv = some (csvOf timed) := hcsv
  generalize (enduranceMain pandas disk).disk.withoutLogs = after at hnone hcsv'
  unfold enduranceMain
  rw [hnone, hcsv']

/-- Without handshakes all counters are zero. -/
theorem printedOfLog_of_nil {log : List PyStr} (hnil : (parseLog log).handshakes = []) :
    (printedOfLog (parseLog log)).total = 0 ∧ (printedOfLog (parseLog log)).protocols = some (0, 0) ∧
      ∀ sitting, sittingCount (printedOfLog (parseLog log)) sitting = 0 := by
  have hzero : ∀ s ∈ (parseLog log).sessions, s.pqcCount = 0 ∧ s.tlsCount = 0 := by
    intro s hs
    rcases List.getElem?_of_mem hs with ⟨i, hi⟩
    have htally := ((parseLog_tallied log).entry i s hi).2
    rw [hnil] at htally
    exact ⟨htally .hybridPqc, htally .classicalTls⟩
  have hpqc : ((parseLog log).sessions.map LogSession.pqcCount).sum = 0 := by
    rw [List.sum_eq_zero_iff]
    intro n hn
    rcases List.mem_map.mp hn with ⟨s, hs, rfl⟩
    exact (hzero s hs).1
  have htls : ((parseLog log).sessions.map LogSession.tlsCount).sum = 0 := by
    rw [List.sum_eq_zero_iff]
    intro n hn
    rcases List.mem_map.mp hn with ⟨s, hs, rfl⟩
    exact (hzero s hs).2
  refine ⟨by simp [printedOfLog, hpqc, htls], by simp [printedOfLog, hpqc, htls], ?_⟩
  intro sitting
  unfold sittingCount printedOfLog
  dsimp only
  generalize (parseLog log).sessions = sessions at hzero
  induction sessions with
  | nil => rfl
  | cons s sessions ih =>
    rcases hzero s List.mem_cons_self with ⟨h1, h2⟩
    rw [List.map_cons, List.lookup_cons]
    cases sitting == PyStr.decimal s.id with
    | true => simp [h1, h2]
    | false => exact ih fun s' hs' => hzero s' (List.mem_cons_of_mem s hs')

/-- A log that round-trips. -/
theorem exists_disk (log : List PyStr) : ∃ disk : Disk, disk.logFile = some log :=
  ⟨⟨some log, none, none, none, none⟩, rfl⟩

/-- A log whose run completes has no length with too many digits. -/
theorem RoundTrips.lengths {log : List PyStr} (hround : RoundTrips pandas log) :
    ∀ line ∈ log, overlong line = false := by
  rcases exists_disk log with ⟨disk, hdisk⟩
  have herror := (hround disk hdisk).1
  rw [enduranceMain_of_log hdisk] at herror
  rcases mainOnLog_eq disk log with ⟨-, hraised⟩ | ⟨hlengths, -⟩
  · rw [hraised] at herror
    cases herror
  · exact hlengths

/-- The second run needs pandas. -/
theorem not_roundTrips_none (log : List PyStr) : ¬RoundTrips none log := by
  intro hround
  rcases exists_disk log with ⟨disk, hdisk⟩
  rcases both_runs none hdisk hround.lengths with ⟨timed, -, -, -, -, hsecond⟩
  have herror := (hround disk hdisk).2.2.1
  rw [hsecond] at herror
  cases herror

/-- With a handshake in it the CSV file cannot be read. -/
theorem not_roundTrips_of_handshake {P : Pandas} (hP : P.Laws) {log : List PyStr}
    (h : (parseLog log).handshakes ≠ []) : ¬RoundTrips (some P) log := by
  intro hround
  rcases exists_disk log with ⟨disk, hdisk⟩
  rcases both_runs (some P) hdisk hround.lengths with ⟨timed, hfst, -, -, -, hsecond⟩
  have herror := (hround disk hdisk).2.2.1
  rw [hsecond, mainOnCsv_spec hP _ hfst, if_neg h] at herror
  cases herror

theorem roundTrips_of_no_handshake {P : Pandas} (hP : P.Laws) {log : List PyStr}
    (hlengths : ∀ line ∈ log, overlong line = false) (hfour : 4 ≤ (parseLog log).sessions.length)
    (hnil : (parseLog log).handshakes = []) : RoundTrips (some P) log := by
  intro disk hdisk
  rcases both_runs (some P) hdisk hlengths with ⟨timed, hfst, hcsv, hprinted, herror, hsecond⟩
  rcases printedOfLog_of_nil hnil with ⟨htotal, hprotocols, hsittings⟩
  rw [mainOnCsv_spec hP _ hfst, if_pos hnil] at hsecond
  refine ⟨herror.mpr hfour, ⟨csvOf timed, hcsv, ?_⟩, ?_, printedOfLog (parseLog log),
    ⟨(parseLog log).handshakes.length, some (0, 0), []⟩, hprinted, ?_, ?_, ?_, ?_⟩
  · rw [(csvOf_spec timed).2.2.1, ← hfst, List.length_map]
  · rw [hsecond]
  · rw [hsecond]
  · rw [htotal, hnil]
    rfl
  · exact hprotocols.symm
  · intro sitting
    rw [hsittings]
    rfl

/-- The run on a log completes, and its CSV file is read with the same numbers, exactly when pandas is
installed, no length in the log has too many digits, the log has at least three gaps and no stream of it is
returned. -/
theorem csv_round_trips_iff (pandas : Option Pandas) (hpandas : ∀ P, pandas = some P → P.Laws)
    (log : List PyStr) :
    RoundTrips pandas log ↔
      pandas.isSome ∧ (∀ line ∈ log, overlong line = false) ∧ 3 ≤ gaps log ∧
        ∀ c ∈ trackedStreams log, ¬c.Returned := by
  rw [← handshakes_eq_nil_iff, ← four_sittings_iff]
  cases pandas with
  | none => simp [not_roundTrips_none]
  | some P =>
    have hP := hpandas P rfl
    constructor
    · intro hround
      refine ⟨rfl, hround.lengths, ?_, ?_⟩
      · rcases exists_disk log with ⟨disk, hdisk⟩
        rcases both_runs (some P) hdisk hround.lengths with ⟨timed, -, -, -, herror, -⟩
        exact herror.mp (hround disk hdisk).1
      · by_contra h
        exact not_roundTrips_of_handshake hP h hround
    · rintro ⟨-, hlengths, hfour, hnil⟩
      exact roundTrips_of_no_handshake hP hlengths hfour hnil

/-- Four sittings without an answer. -/
def silentLog : List PyStr :=
  [captureLine (lit "08:24:23.651742") (lit "192.168.1.3.60420") (lit "192.168.1.9.8443") (lit "S") 0,
   captureLine (lit "09:24:39.266569") (lit "192.168.1.3.60421") (lit "192.168.1.9.8443") (lit "S") 0,
   captureLine (lit "10:24:39.266569") (lit "192.168.1.3.60422") (lit "192.168.1.9.8443") (lit "S") 0,
   captureLine (lit "11:24:39.266569") (lit "192.168.1.3.60423") (lit "192.168.1.9.8443") (lit "S") 0]

theorem csv_round_trips_silent : RoundTrips (some .ofTexts) silentLog := by
  apply (csv_round_trips_iff (some .ofTexts) _ silentLog).mpr
  · refine ⟨rfl, by decide +kernel, by decide +kernel, ?_⟩
    rw [← handshakes_eq_nil_iff, ← List.length_eq_zero_iff]
    decide +kernel
  · intro P hP
    rw [← Option.some.inj hP]
    exact Pandas.laws_ofTexts

/-- Four sittings with a handshake in the first one. -/
def fourSittingsLog : List PyStr :=
  [captureLine (lit "08:24:23.651742") (lit "192.168.1.3.60420") (lit "192.168.1.9.8443") (lit "S") 0,
   captureLine (lit "08:24:23.652100") (lit "192.168.1.3.60420") (lit "192.168.1.9.8443") (lit "P.") 1249,
   captureLine (lit "08:24:23.660250") (lit "192.168.1.9.8443") (lit "192.168.1.3.60420") (lit "P.") 1268,
   captureLine (lit "08:24:23.667114") (lit "192.168.1.9.8443") (lit "192.168.1.3.60420") (lit "F.") 0,
   captureLine (lit "09:24:39.266569") (lit "192.168.1.3.60421") (lit "192.168.1.9.8443") (lit "S") 0,
   captureLine (lit "10:24:39.266569") (lit "192.168.1.3.60422") (lit "192.168.1.9.8443") (lit "S") 0,
   captureLine (lit "11:24:39.266569") (lit "192.168.1.3.60423") (lit "192.168.1.9.8443") (lit "S") 0]

/-- The run on the log returns, the one on its CSV file does not. -/
theorem four_sittings_not_round_trip :
    3 ≤ gaps fourSittingsLog ∧ ¬RoundTrips (some .ofTexts) fourSittingsLog := by
  constructor
  · decide +kernel
  · apply not_roundTrips_of_handshake Pandas.laws_ofTexts
    have hlen : (parseLog fourSittingsLog).handshakes.length = 1 := by decide +kernel
    intro hnil
    rw [hnil] at hlen
    cases hlen

end HybridPqc
