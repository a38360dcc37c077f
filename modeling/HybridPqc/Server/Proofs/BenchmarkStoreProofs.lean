import HybridPqc.Lib.GuardedRuns
import HybridPqc.Server.Proofs.HttpProofs

/-!
# What the benchmark store holds

A run of the server is followed beside the data that it should hold: the object of the most recent
accepted post with its time stamp. The two agree as long as every post that is read brings an object that can be
written, and reading the data neither changes it nor fails.
-/

open GuardedRuns

namespace HybridPqc

/-- The server, and the object of the most recent `POST /api/benchmarks` answered 200 with its
`timestamp`; null before there was one. -/
structure Tracked where
  server : HttpServer
  accepted : Json

/-- The object that a request has posted, when it was accepted. -/
def acceptedObject (X : Externals) (T : ErrorTexts) (s : HttpServer) : Incoming → Option Json
  | .request env r =>
    if r.Is "POST" "/api/benchmarks" ∧ (route X T env s r).1.status = 200 then
      match postedValue X r.body with
      | some (.obj fields) => some (stamped env.now fields)
      | _ => none
    else none
  | _ => none

namespace Tracked

def init : Tracked := ⟨HttpServer.init, .null⟩

def step (X : Externals) (T : ErrorTexts) (t : Tracked) (i : Incoming) : Tracked :=
  ⟨(handleRequest X T t.server i).2, (acceptedObject X T t.server i).getD t.accepted⟩

end Tracked

/-- A step is as it should be: the store holds the accepted object, a refused post leaves it, and reading
it is answered 200 and leaves it. -/
structure StoreConsistent (X : Externals) (T : ErrorTexts) (t : Tracked) (i : Incoming) : Prop where
  stored : (t.step X T i).server.latestBenchmarks = (t.step X T i).accepted
  post : ∀ env r, i = .request env r → r.Is "POST" "/api/benchmarks" →
    (route X T env t.server r).1.status ≠ 200 →
      (route X T env t.server r).2.latestBenchmarks = t.server.latestBenchmarks
  get : ∀ env r, i = .request env r → r.Is "GET" "/api/benchmarks" →
    (route X T env t.server r).1.status = 200 ∧
      (route X T env t.server r).2.latestBenchmarks = t.server.latestBenchmarks

/-- Reading the data leaves it and can be answered: nothing is stored, or an object that already has the
three keys of the reply with their values; and what is sent is not nested too deeply. -/
def KeepsRead (X : Externals) (env : HttpEnv) (s : HttpServer) : Prop :=
  (s.latestBenchmarks = .null ∧
      ∀ v ∈ s.core.telemetryLog.rtake 20, v.depth + 2 ≤ X.dumpsNesting.val) ∨
    ∃ fields, s.latestBenchmarks = .obj fields ∧
      fields.lookup (PyStr.lit "handshake_count") = some (.int s.core.handshakeCount) ∧
      fields.lookup (PyStr.lit "uptime_s") = some (.int env.uptime) ∧
      fields.lookup (PyStr.lit "telemetry") = some (.arr (s.core.telemetryLog.rtake 20)) ∧
      (Json.obj fields).depth ≤ X.dumpsNesting.val

/-- A post that is read brings an object that can be written, or null while nothing is stored; and
reading the data leaves it and can be answered. -/
def KeepsStore (X : Externals) (t : Tracked) : Incoming → Prop
  | .request env r =>
    (r.Is "POST" "/api/benchmarks" → ∀ value, postedValue X r.body = some value →
        (∃ fields, value = .obj fields ∧ X.dumpsIndent.returns (stamped env.now fields) = true) ∨
          value = .null ∧ t.server.latestBenchmarks = .null) ∧
      (r.Is "GET" "/api/benchmarks" → KeepsRead X env t.server)
  | _ => True

variable {X : Externals} {T : ErrorTexts} {env : HttpEnv} {s : HttpServer} {r : HttpRequest} {t : Tracked}

/-! ## One step -/

/-- The store holds what was accepted: nothing, or an object that is not empty and can be written. -/
structure StoreInv (X : Externals) (t : Tracked) : Prop where
  stored : t.server.latestBenchmarks = t.accepted
  shape : t.accepted = .null ∨
    ∃ fields, t.accepted = .obj fields ∧ fields ≠ [] ∧ X.dumpsIndent.returns t.accepted = true

/-- A post answered with an error is not accepted. -/
theorem acceptedObject_of_refused (h : (route X T env s r).1.status ≠ 200) :
    acceptedObject X T s (.request env r) = none := if_neg fun hc => h hc.2

/-- A post that brings an object stores it. It is accepted when it can be written. -/
theorem post_of_obj (X : Externals) (T : ErrorTexts) (s : HttpServer) (env : HttpEnv)
    (hpost : r.Is "POST" "/api/benchmarks") {fields : List (PyStr × Json)}
    (hvalue : postedValue X r.body = some (.obj fields)) :
    (route X T env s r).2.latestBenchmarks = stamped env.now fields ∧
      if X.dumpsIndent.returns (stamped env.now fields) = true then
        (route X T env s r).1.status = 200 ∧
          acceptedObject X T s (.request env r) = some (stamped env.now fields)
      else (route X T env s r).1.status ≠ 200 ∧ acceptedObject X T s (.request env r) = none := by
  have hspec := postBenchmarks_spec X T env s r.body
  rw [hvalue, ← route_post hpost] at hspec
  refine ⟨hspec.2, ?_⟩
  by_cases hreturns : X.dumpsIndent.returns (stamped env.now fields) = true
  · rw [if_pos hreturns]
    have hstatus := hspec.1.mpr hreturns
    have haccepted : acceptedObject X T s (.request env r) = _ := if_pos ⟨hpost, hstatus⟩
    rw [hvalue] at haccepted
    exact ⟨hstatus, haccepted⟩
  · rw [if_neg hreturns]
    have hstatus := hspec.1.not.mpr hreturns
    exact ⟨hstatus, acceptedObject_of_refused hstatus⟩

/-- Any other post is refused. It stores the value all the same, if it is read. -/
theorem post_of_other (X : Externals) (T : ErrorTexts) (s : HttpServer) (env : HttpEnv)
    (hpost : r.Is "POST" "/api/benchmarks") (hother : ∀ fields, postedValue X r.body ≠ some (.obj fields)) :
    (route X T env s r).1.status ≠ 200 ∧ acceptedObject X T s (.request env r) = none ∧
      (route X T env s r).2.latestBenchmarks = (postedValue X r.body).getD s.latestBenchmarks := by
  have hspec := postBenchmarks_spec X T env s r.body
  rw [← route_post hpost] at hspec
  have hrefused : (route X T env s r).1.status ≠ 200 ∧
      (route X T env s r).2.latestBenchmarks = (postedValue X r.body).getD s.latestBenchmarks := by
    cases hvalue : postedValue X r.body with
    | none =>
      rw [hvalue] at hspec
      exact ⟨hspec.1, by rw [hspec.2]; rfl⟩
    | some value =>
      rw [hvalue] at hspec
      cases value with
      | obj fields => exact absurd hvalue (hother fields)
      | null => exact hspec
      | bool _ => exact hspec
      | int _ => exact hspec
      | float _ => exact hspec
      | str _ => exact hspec
      | arr _ => exact hspec
  exact ⟨hrefused.1, acceptedObject_of_refused hrefused.1, hrefused.2⟩

/-- A refused post is as it should be when it leaves the store. -/
theorem consistent_of_refused (hinv : StoreInv X t) (hpost : r.Is "POST" "/api/benchmarks")
    (hstatus : (route X T env t.server r).1.status ≠ 200) :
    StoreConsistent X T t (.request env r) ↔
      (route X T env t.server r).2.latestBenchmarks = t.server.latestBenchmarks := by
  constructor
  · exact fun h => h.post env r rfl hpost hstatus
  · intro hsame
    refine ⟨?_, ?_, ?_⟩
    · show (route X T env t.server r).2.latestBenchmarks = (acceptedObject X T t.server _).getD _
      rw [hsame, acceptedObject_of_refused hstatus]
      exact hinv.stored
    · rintro env' r' ⟨⟩ - -
      exact hsame
    · rintro env' r' ⟨⟩ h
      exact absurd h (not_get_of_post hpost)

/-- An object that is posted is as it should be when it can be written. -/
theorem consistent_of_obj (hinv : StoreInv X t) (hpost : r.Is "POST" "/api/benchmarks")
    {fields : List (PyStr × Json)} (hvalue : postedValue X r.body = some (.obj fields)) :
    StoreConsistent X T t (.request env r) ↔ X.dumpsIndent.returns (stamped env.now fields) = true := by
  rcases post_of_obj X T t.server env hpost hvalue with ⟨hstored, hcase⟩
  by_cases hreturns : X.dumpsIndent.returns (stamped env.now fields) = true
  · rw [if_pos hreturns] at hcase
    rcases hcase with ⟨hstatus, haccepted⟩
    refine iff_of_true ⟨?_, ?_, ?_⟩ hreturns
    · show (route X T env t.server r).2.latestBenchmarks = (acceptedObject X T t.server _).getD _
      rw [hstored, haccepted]
      rfl
    · rintro env' r' ⟨⟩ - hbad
      exact absurd hstatus hbad
    · rintro env' r' ⟨⟩ h
      exact absurd h (not_get_of_post hpost)
  · rw [if_neg hreturns] at hcase
    rw [consistent_of_refused hinv hpost hcase.1, hstored, hinv.stored]
    refine iff_of_false ?_ hreturns
    intro hsame
    rcases hinv.shape with hnull | ⟨fields', -, -, hwritten⟩
    · rw [hnull] at hsame
      cases hsame
    · rw [← hsame] at hwritten
      exact hreturns hwritten

/-- Any other value that is posted is as it should be when it is null and nothing is stored. -/
theorem consistent_of_other (hinv : StoreInv X t) (hpost : r.Is "POST" "/api/benchmarks")
    (hother : ∀ fields, postedValue X r.body ≠ some (.obj fields)) :
    StoreConsistent X T t (.request env r) ↔
      ∀ value, postedValue X r.body = some value → value = .null ∧ t.server.latestBenchmarks = .null := by
  rcases post_of_other X T t.server env hpost hother with ⟨hstatus, -, hstored⟩
  rw [consistent_of_refused hinv hpost hstatus, hstored]
  constructor
  · intro hsame value hvalue
    rw [hvalue, Option.getD_some] at hsame
    subst hsame
    rcases hinv.shape with hnull | ⟨fields, hfields, -⟩
    · exact ⟨hinv.stored.trans hnull, hinv.stored.trans hnull⟩
    · rw [hinv.stored, hfields] at hvalue
      exact absurd hvalue (hother fields)
  · intro hnull
    cases hvalue : postedValue X r.body with
    | none => rfl
    | some value =>
      rcases hnull value hvalue with ⟨hvalue', hnone⟩
      rw [Option.getD_some, hvalue', hnone]

theorem consistent_of_post (hinv : StoreInv X t) (hpost : r.Is "POST" "/api/benchmarks") :
    StoreConsistent X T t (.request env r) ↔ KeepsStore X t (.request env r) := by
  have hkeeps : KeepsStore X t (.request env r) ↔ ∀ value, postedValue X r.body = some value →
      (∃ fields, value = .obj fields ∧ X.dumpsIndent.returns (stamped env.now fields) = true) ∨
        value = .null ∧ t.server.latestBenchmarks = .null :=
    ⟨fun h => h.1 hpost, fun h => ⟨fun _ => h, fun hget => absurd hget (not_get_of_post hpost)⟩⟩
  rw [hkeeps]
  by_cases hobj : ∃ fields, postedValue X r.body = some (.obj fields)
  · rcases hobj with ⟨fields, hvalue⟩
    rw [consistent_of_obj hinv hpost hvalue]
    simp [hvalue]
  · have hother : ∀ fields, postedValue X r.body ≠ some (.obj fields) := fun fields h => hobj ⟨fields, h⟩
    rw [consistent_of_other hinv hpost hother]
    refine forall₂_congr fun value hvalue => ?_
    refine ⟨.inr, ?_⟩
    rintro (⟨fields, rfl, -⟩ | hnull)
    · exact absurd hvalue (hother fields)
    · exact hnull

theorem acceptedObject_of_not_post (h : ¬ r.Is "POST" "/api/benchmarks") :
    acceptedObject X T s (.request env r) = none := if_neg fun hc => h hc.1

/-- A request that is not a post is as it should be when it leaves the store, and when reading the data
is answered 200. -/
theorem consistent_of_not_post (hinv : StoreInv X t) (hpost : ¬ r.Is "POST" "/api/benchmarks") :
    StoreConsistent X T t (.request env r) ↔
      (route X T env t.server r).2.latestBenchmarks = t.server.latestBenchmarks ∧
        (r.Is "GET" "/api/benchmarks" → (route X T env t.server r).1.status = 200) := by
  have hstored : (t.step X T (.request env r)).server.latestBenchmarks =
      (t.step X T (.request env r)).accepted ↔
        (route X T env t.server r).2.latestBenchmarks = t.server.latestBenchmarks := by
    show (route X T env t.server r).2.latestBenchmarks = (acceptedObject X T t.server _).getD _ ↔ _
    rw [acceptedObject_of_not_post hpost, hinv.stored]
    rfl
  constructor
  · intro h
    exact ⟨hstored.mp h.stored, fun hget => (h.get env r rfl hget).1⟩
  · rintro ⟨hsame, hstatus⟩
    refine ⟨hstored.mpr hsame, ?_, ?_⟩
    · rintro env' r' ⟨⟩ h
      exact absurd h hpost
    · rintro env' r' ⟨⟩ h
      exact ⟨hstatus h, hsame⟩

theorem consistent_of_get (hinv : StoreInv X t) (hget : r.Is "GET" "/api/benchmarks") :
    StoreConsistent X T t (.request env r) ↔ KeepsStore X t (.request env r) := by
  have hpost : ¬ r.Is "POST" "/api/benchmarks" := fun h => not_get_of_post h hget
  have hkeeps : KeepsStore X t (.request env r) ↔ KeepsRead X env t.server :=
    ⟨fun h => h.2 hget, fun h => ⟨fun h' => absurd h' hpost, fun _ => h⟩⟩
  rw [consistent_of_not_post hinv hpost, route_get hget, hkeeps]
  rcases hinv.shape with hnull | ⟨fields, hobj, hne, -⟩
  · have hnone : t.server.latestBenchmarks = .null := hinv.stored.trans hnull
    rw [getBenchmarks_of_null X env hnone, jsonReply_status_iff,
      defaultBenchmarks_depth_le X.dumpsNesting.property]
    constructor
    · exact fun h => .inl ⟨hnone, h.2 hget⟩
    · rintro (⟨-, hdepth⟩ | ⟨fields, hobj, -⟩)
      · exact ⟨rfl, fun _ => hdepth⟩
      · rw [hnone] at hobj
        cases hobj
  · have hsome : t.server.latestBenchmarks = .obj fields := hinv.stored.trans hobj
    obtain ⟨hreply, hsame⟩ := getBenchmarks_of_obj X env hsome hne
    rw [hreply, hsame, hsome, jsonReply_status_iff, Json.obj.injEq, KeepsRead, hsome]
    constructor
    · rintro ⟨heq, hdepth⟩
      obtain ⟨hcount, huptime, htelemetry⟩ := serverFields_eq_self_iff.mp heq
      rw [heq] at hdepth
      exact .inr ⟨fields, rfl, hcount, huptime, htelemetry, hdepth hget⟩
    · rintro (⟨hnone, -⟩ | ⟨fields', heq, hcount, huptime, htelemetry, hdepth⟩)
      · cases hnone
      · obtain rfl := Json.obj.inj heq
        have hfixed := serverFields_eq_self_iff.mpr ⟨hcount, huptime, htelemetry⟩
        rw [hfixed]
        exact ⟨rfl, fun _ => hdepth⟩

theorem consistent_iff_keeps (hinv : StoreInv X t) (i : Incoming) :
    StoreConsistent X T t i ↔ KeepsStore X t i := by
  cases i with
  | request env r =>
    by_cases hpost : r.Is "POST" "/api/benchmarks"
    · exact consistent_of_post hinv hpost
    by_cases hget : r.Is "GET" "/api/benchmarks"
    · exact consistent_of_get hinv hget
    rw [consistent_of_not_post hinv hpost]
    exact iff_of_true ⟨route_other hpost hget, fun h => absurd h hget⟩
      ⟨fun h => absurd h hpost, fun h => absurd h hget⟩
  | malformed text =>
    refine iff_of_true ⟨hinv.stored, ?_, ?_⟩ trivial
    · rintro env r ⟨⟩
    · rintro env r ⟨⟩
  | dropped =>
    refine iff_of_true ⟨hinv.stored, ?_, ?_⟩ trivial
    · rintro env r ⟨⟩
    · rintro env r ⟨⟩

/-- What is accepted is an object with a time stamp that can be written. -/
theorem acceptedObject_cases (X : Externals) (T : ErrorTexts) (s : HttpServer) (i : Incoming) :
    acceptedObject X T s i = none ∨ ∃ now fields,
      acceptedObject X T s i = some (stamped now fields) ∧
        X.dumpsIndent.returns (stamped now fields) = true := by
  cases i with
  | malformed text => exact .inl rfl
  | dropped => exact .inl rfl
  | request env r =>
    by_cases hpost : r.Is "POST" "/api/benchmarks"
    · by_cases hobj : ∃ fields, postedValue X r.body = some (.obj fields)
      · obtain ⟨fields, hvalue⟩ := hobj
        have hcase := (post_of_obj X T s env hpost hvalue).2
        by_cases hreturns : X.dumpsIndent.returns (stamped env.now fields) = true
        · rw [if_pos hreturns] at hcase
          exact .inr ⟨env.now, fields, hcase.2, hreturns⟩
        · rw [if_neg hreturns] at hcase
          exact .inl hcase.2
      · exact .inl (post_of_other X T s env hpost fun fields h => hobj ⟨fields, h⟩).2.1
    · exact .inl (acceptedObject_of_not_post hpost)

theorem StoreInv.step (hinv : StoreInv X t) {i : Incoming} (h : StoreConsistent X T t i) :
    StoreInv X (t.step X T i) := by
  refine ⟨h.stored, ?_⟩
  show (acceptedObject X T t.server i).getD t.accepted = .null ∨ ∃ fields,
    (acceptedObject X T t.server i).getD t.accepted = .obj fields ∧ fields ≠ [] ∧
      X.dumpsIndent.returns ((acceptedObject X T t.server i).getD t.accepted) = true
  rcases acceptedObject_cases X T t.server i with hnone | ⟨now, fields, hobj, hreturns⟩
  · rw [hnone]
    exact hinv.shape
  · rw [hobj]
    exact .inr ⟨_, rfl, Assoc.set_ne_nil _ _ _, hreturns⟩

/-- Along a run of the server the store is as it should be, exactly when every post that is read brings an
object that can be written, and the data is read only where that neither changes it nor fails. -/
theorem benchmark_store_iff (X : Externals) (T : ErrorTexts) (inputs : List Incoming) :
    Guarded (Tracked.step X T) (StoreConsistent X T) Tracked.init inputs ↔
      Guarded (Tracked.step X T) (KeepsStore X) Tracked.init inputs :=
  guarded_iff (I := StoreInv X) (fun _ i hinv => consistent_iff_keeps hinv i)
    (fun _ _ hinv h => hinv.step h) ⟨rfl, .inl rfl⟩

/-! ## Two requests -/

namespace Reference

/-- A request for the benchmark data. -/
def benchmarksRequest (method body : String) : Incoming :=
  .request httpEnv
    ⟨PyStr.lit method, PyStr.lit "/api/benchmarks", PyStr.encodeAscii (PyStr.lit body)⟩

end Reference

/-- A post of a list is answered 500 and stored; reading the data after a post of an empty object changes
what is stored. -/
theorem refused_benchmarks_stored :
    (¬ Guarded (Tracked.step Reference.externals Reference.errorTexts)
        (StoreConsistent Reference.externals Reference.errorTexts) Tracked.init
        [Reference.benchmarksRequest "POST" "[1]"]) ∧
      ¬ Guarded (Tracked.step Reference.externals Reference.errorTexts)
        (StoreConsistent Reference.externals Reference.errorTexts) Tracked.init
        [Reference.benchmarksRequest "POST" "\x7b\x7d", Reference.benchmarksRequest "GET" ""] := by
  have hinit : StoreInv Reference.externals Tracked.init := ⟨rfl, .inl rfl⟩
  constructor
  · rintro ⟨h, -⟩
    have hkeeps := (consistent_iff_keeps hinit _).mp h
    rcases hkeeps.1 ⟨rfl, rfl⟩ (.arr [.int 1]) rfl with ⟨fields, hobj, -⟩ | ⟨hnull, -⟩
    · cases hobj
    · cases hnull
  · rintro ⟨hpost, hget, -⟩
    have hkeeps := (consistent_iff_keeps (hinit.step hpost) _).mp hget
    have hstored : (Tracked.init.step Reference.externals Reference.errorTexts
        (Reference.benchmarksRequest "POST" "\x7b\x7d")).server.latestBenchmarks =
          .obj [(PyStr.lit "timestamp", .str Reference.clock.isoformat)] := rfl
    rcases hkeeps.2 ⟨rfl, rfl⟩ with ⟨hnull, -⟩ | ⟨fields, hobj, hcount, -⟩
    · rw [hstored] at hnull
      cases hnull
    · rw [hstored] at hobj
      obtain rfl := Json.obj.inj hobj
      cases hcount

end HybridPqc
