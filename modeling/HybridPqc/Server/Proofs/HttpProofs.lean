import HybridPqc.Lib.GuardedRuns
import HybridPqc.Server.Http
import HybridPqc.Server.Proofs.TelemetryProofs
import HybridPqc.Server.Run

/-!
# The routes of the HTTP server

What each route does with the benchmark data, and the runs of the HTTP server: towards the session table
and the telemetry log it takes the steps of the server core, and no others.
-/

open GuardedRuns

namespace HybridPqc

/-- The fields with the three keys that `GET /api/benchmarks` sets. -/
def serverFields (env : HttpEnv) (s : Server) (fields : List (PyStr × Json)) : List (PyStr × Json) :=
  Assoc.set (PyStr.lit "telemetry") (.arr (s.telemetryLog.rtake 20))
    (Assoc.set (PyStr.lit "uptime_s") (.int env.uptime)
      (Assoc.set (PyStr.lit "handshake_count") (.int s.handshakeCount) fields))

variable {X : Externals} {T : ErrorTexts} {env : HttpEnv} {s : HttpServer} {r : HttpRequest}

/-! ## The benchmark routes -/

theorem HttpRequest.Is.same {method path method' path' : String} (h : r.Is method path)
    (h' : r.Is method' path') : PyStr.lit method = PyStr.lit method' ∧ PyStr.lit path = PyStr.lit path' :=
  ⟨h.1.symm.trans h'.1, h.2.symm.trans h'.2⟩

theorem route_post (h : r.Is "POST" "/api/benchmarks") :
    route X T env s r = postBenchmarks X T env s r.body := by
  have hhandshake : ¬ r.Is "POST" "/handshake" := fun h' => absurd (h.same h') (by decide)
  have htelemetry : ¬ r.Is "POST" "/api/telemetry" := fun h' => absurd (h.same h') (by decide)
  rw [route, if_neg hhandshake, if_neg htelemetry, if_pos h]

theorem not_get_of_post (h : r.Is "POST" "/api/benchmarks") : ¬ r.Is "GET" "/api/benchmarks" :=
  fun h' => absurd (h.same h') (by decide)

theorem route_get (h : r.Is "GET" "/api/benchmarks") : route X T env s r = getBenchmarks X env s := by
  have hhandshake : ¬ r.Is "POST" "/handshake" := fun h' => absurd (h.same h') (by decide)
  have htelemetry : ¬ r.Is "POST" "/api/telemetry" := fun h' => absurd (h.same h') (by decide)
  have hpost : ¬ r.Is "POST" "/api/benchmarks" := fun h' => not_get_of_post h' h
  rw [route, if_neg hhandshake, if_neg htelemetry, if_neg hpost, if_pos h]

/-- No other request concerns the stored data. -/
theorem route_other (hpost : ¬ r.Is "POST" "/api/benchmarks") (hget : ¬ r.Is "GET" "/api/benchmarks") :
    (route X T env s r).2.latestBenchmarks = s.latestBenchmarks := by
  unfold route
  rw [if_neg hpost, if_neg hget]
  split
  · rfl
  · split
    · rfl
    · split
      · rfl
      · split
        · rfl
        · split <;> rfl

/-- The value of a posted body, if it can be read. -/
def postedValue (X : Externals) (body : Bytes) : Option Json :=
  (decodeBody body).bind fun text => (benchmarksLoads X text).toOption

/-- An object with the time stamp of its post. -/
def stamped (now : DateTime) (fields : List (PyStr × Json)) : Json :=
  .obj (Assoc.set (PyStr.lit "timestamp") (.str now.isoformat) fields)

/-- A posted value: an object is stored with its time stamp and answered 200 if it can be written to the
log; anything else is answered with an error, but stored as well if it is read. -/
theorem postBenchmarks_spec (X : Externals) (T : ErrorTexts) (env : HttpEnv) (s : HttpServer)
    (body : Bytes) :
    match postedValue X body with
    | none => (postBenchmarks X T env s body).1.status ≠ 200 ∧ (postBenchmarks X T env s body).2 = s
    | some (.obj fields) =>
        ((postBenchmarks X T env s body).1.status = 200 ↔
            X.dumpsIndent.returns (stamped env.now fields) = true) ∧
          (postBenchmarks X T env s body).2.latestBenchmarks = stamped env.now fields
    | some value => (postBenchmarks X T env s body).1.status ≠ 200 ∧
        (postBenchmarks X T env s body).2.latestBenchmarks = value := by
  unfold postBenchmarks postedValue
  cases decodeBody body with
  | none => exact ⟨by simp [internalError], rfl⟩
  | some text =>
    simp only [Option.bind_some]
    cases benchmarksLoads X text with
    | error e =>
      cases e with
      | decode =>
        refine ⟨?_, rfl⟩
        simp [jsonReply_of_depth (errorDict_depth _)]
      | unicode => exact ⟨by simp [internalError], rfl⟩
      | digits => exact ⟨by simp [internalError], rfl⟩
      | recursion => exact ⟨by simp [internalError], rfl⟩
    | ok value =>
      cases value with
      | obj fields =>
        simp only [Except.toOption, setItem, stamped]
        split
        · next hreturns => exact ⟨iff_of_true rfl hreturns, rfl⟩
        · next hreturns => exact ⟨iff_of_false (by simp [internalError]) hreturns, rfl⟩
      | null => exact ⟨by simp [setItem, internalError], rfl⟩
      | bool _ => exact ⟨by simp [setItem, internalError], rfl⟩
      | int _ => exact ⟨by simp [setItem, internalError], rfl⟩
      | float _ => exact ⟨by simp [setItem, internalError], rfl⟩
      | str _ => exact ⟨by simp [setItem, internalError], rfl⟩
      | arr _ => exact ⟨by simp [setItem, internalError], rfl⟩

theorem postBenchmarks_of_obj (X : Externals) (T : ErrorTexts) (env : HttpEnv) (s : HttpServer)
    {body : Bytes} {fields : List (PyStr × Json)} (h : postedValue X body = some (.obj fields)) :
    (postBenchmarks X T env s body).2.latestBenchmarks = stamped env.now fields := by
  have hspec := postBenchmarks_spec X T env s body
  rw [h] at hspec
  exact hspec.2

/-- The session table and the telemetry log stay as they are. -/
theorem postBenchmarks_core (X : Externals) (T : ErrorTexts) (env : HttpEnv) (s : HttpServer)
    (body : Bytes) : (postBenchmarks X T env s body).2.core = s.core := by
  unfold postBenchmarks
  split
  · rfl
  · split
    · rfl
    · rfl
    · dsimp only
      split
      · rfl
      · split <;> rfl

theorem getBenchmarks_core (X : Externals) (env : HttpEnv) (s : HttpServer) :
    (getBenchmarks X env s).2.core = s.core := by
  unfold getBenchmarks
  dsimp only
  split
  · rfl
  · split <;> rfl

theorem getBenchmarks_of_null (X : Externals) (env : HttpEnv) (h : s.latestBenchmarks = .null) :
    getBenchmarks X env s = (jsonReply X 200 (serverFields env s.core defaultBenchmarks), s) := by
  unfold getBenchmarks
  rw [h]
  rfl

theorem getBenchmarks_of_obj (X : Externals) (env : HttpEnv) {fields : List (PyStr × Json)}
    (h : s.latestBenchmarks = .obj fields) (hne : fields ≠ []) :
    (getBenchmarks X env s).1 = jsonReply X 200 (serverFields env s.core fields) ∧
      (getBenchmarks X env s).2.latestBenchmarks = .obj (serverFields env s.core fields) := by
  have htruthy : truthy X (.obj fields) = true := by
    cases fields with
    | nil => exact absurd rfl hne
    | cons _ _ => rfl
  unfold getBenchmarks
  simp only [h, htruthy, if_true]
  exact ⟨rfl, rfl⟩

/-! ## The keys of a reply -/

theorem lookup_serverFields (env : HttpEnv) (s : Server) (fields : List (PyStr × Json)) :
    (serverFields env s fields).lookup (PyStr.lit "handshake_count") = some (.int s.handshakeCount) ∧
      (serverFields env s fields).lookup (PyStr.lit "uptime_s") = some (.int env.uptime) ∧
      (serverFields env s fields).lookup (PyStr.lit "telemetry") =
        some (.arr (s.telemetryLog.rtake 20)) := by
  have hcount : PyStr.lit "handshake_count" ≠ PyStr.lit "telemetry" ∧
      PyStr.lit "handshake_count" ≠ PyStr.lit "uptime_s" := by decide
  have huptime : PyStr.lit "uptime_s" ≠ PyStr.lit "telemetry" := by decide
  simp only [serverFields, Assoc.lookup_set, if_neg hcount.1, if_neg hcount.2, if_neg huptime, if_true,
    and_self]

/-- The reply is the stored object when it holds the three keys with their values. -/
theorem serverFields_eq_self_iff {env : HttpEnv} {s : Server} {fields : List (PyStr × Json)} :
    serverFields env s fields = fields ↔
      fields.lookup (PyStr.lit "handshake_count") = some (.int s.handshakeCount) ∧
        fields.lookup (PyStr.lit "uptime_s") = some (.int env.uptime) ∧
        fields.lookup (PyStr.lit "telemetry") = some (.arr (s.telemetryLog.rtake 20)) := by
  constructor
  · intro h
    have hlookup := lookup_serverFields env s fields
    rwa [h] at hlookup
  · rintro ⟨hcount, huptime, htelemetry⟩
    rw [serverFields, Assoc.set_eq_self_iff.mpr hcount, Assoc.set_eq_self_iff.mpr huptime,
      Assoc.set_eq_self_iff.mpr htelemetry]

theorem jsonReply_status_iff {X : Externals} {fields : List (PyStr × Json)} :
    (jsonReply X 200 fields).status = 200 ↔ (Json.obj fields).depth ≤ X.dumpsNesting.val := by
  unfold jsonReply dumpsBody
  by_cases h : (Json.obj fields).depth ≤ X.dumpsNesting.val
  · simp [h]
  · simp [h, internalError]

/-- The default data can be written unless a record of the reply is nested too deeply. -/
theorem defaultBenchmarks_depth_le {n : Nat} (hn : 16 ≤ n) (env : HttpEnv) (s : Server) :
    (Json.obj (serverFields env s defaultBenchmarks)).depth ≤ n ↔
      ∀ v ∈ s.telemetryLog.rtake 20, v.depth + 2 ≤ n := by
  have hfields : serverFields env s defaultBenchmarks =
      defaultBenchmarks ++ [(PyStr.lit "handshake_count", .int s.handshakeCount),
        (PyStr.lit "uptime_s", .int env.uptime),
        (PyStr.lit "telemetry", .arr (s.telemetryLog.rtake 20))] := rfl
  have hdefault : (Json.obj defaultBenchmarks).depth ≤ n := le_trans (by decide +kernel) hn
  have hrecords : (Json.arr (s.telemetryLog.rtake 20)).depth < n ↔
      ∀ v ∈ s.telemetryLog.rtake 20, v.depth + 2 ≤ n := by
    have hle : Json.depthItems (s.telemetryLog.rtake 20) + 1 < n ↔
        Json.depthItems (s.telemetryLog.rtake 20) ≤ n - 2 := by omega
    rw [Json.depth, hle, Json.depthItems_le]
    exact forall₂_congr fun v _ => by omega
  rw [Json.depth_obj_le (by omega)] at hdefault
  rw [hfields, Json.depth_obj_le (by omega), List.forall_mem_append, ← hrecords]
  simp only [List.forall_mem_cons, List.not_mem_nil, false_implies, implies_true, and_true, Json.depth]
  constructor
  · exact fun h => h.2.2.2
  · exact fun h => ⟨hdefault, by omega, by omega, h⟩

/-- An ASCII body is decoded as it is. -/
theorem decodeBody_encodeAscii {text : PyStr} (h : text.IsAscii) :
    decodeBody (PyStr.encodeAscii text) = some text := by
  have hany : (text.any fun c => Json.isHighSurrogate c || Json.isLowSurrogate c) = false := by
    rw [List.any_eq_false]
    intro c hc
    have := h c hc
    simp [Json.isHighSurrogate, Json.isLowSurrogate]
    omega
  rw [decodeBody, PyStr.encodeAscii_toNat h, Json.decodeUtf8_ascii h, Option.bind_some, hany]
  rfl

/-! ## Runs -/

theorem next_request (X : Externals) (T : ErrorTexts) (s : HttpServer) (env : HttpEnv) (r : HttpRequest) :
    HttpServer.next X T s (.request env r) = (route X T env s r).2 := rfl

/-- The requests that reach the server core. -/
def Incoming.requests : Incoming → List Request
  | .request env r =>
    if r.Is "POST" "/handshake" then [.handshake env.handshake r.body]
    else if r.Is "POST" "/api/telemetry" then [.telemetry env.telemetry r.body]
    else []
  | _ => []

theorem next_core (X : Externals) (T : ErrorTexts) (s : HttpServer) (i : Incoming) :
    (HttpServer.next X T s i).core = run (Server.step X) s.core i.requests := by
  cases i with
  | malformed text => rfl
  | dropped => rfl
  | request env r =>
    show (route X T env s r).2.core = _
    by_cases hhandshake : r.Is "POST" "/handshake"
    · rw [route, if_pos hhandshake, Incoming.requests, if_pos hhandshake]
      rfl
    by_cases htelemetry : r.Is "POST" "/api/telemetry"
    · rw [route, if_neg hhandshake, if_pos htelemetry, Incoming.requests, if_neg hhandshake,
        if_pos htelemetry]
      rfl
    rw [Incoming.requests, if_neg hhandshake, if_neg htelemetry]
    show _ = s.core
    by_cases hpost : r.Is "POST" "/api/benchmarks"
    · rw [route_post hpost]
      exact postBenchmarks_core X T env s r.body
    by_cases hget : r.Is "GET" "/api/benchmarks"
    · rw [route_get hget]
      exact getBenchmarks_core X env s
    rw [route, if_neg hhandshake, if_neg htelemetry, if_neg hpost, if_neg hget]
    split
    · rfl
    · split
      · rfl
      · split <;> rfl

/-- Towards its core the HTTP server refines the server: every run of the one is a run of the other. -/
theorem run_core (X : Externals) (T : ErrorTexts) (s : HttpServer) (inputs : List Incoming) :
    (run (HttpServer.next X T) s inputs).core =
      run (Server.step X) s.core (inputs.flatMap Incoming.requests) :=
  run_flatMap HttpServer.core Incoming.requests (next_core X T) s inputs

/-! ## Reference values -/

namespace Reference

def errorTexts : ErrorTexts where
  decodeError _ := PyStr.lit "'utf-8' codec can't decode byte 0xff in position 0: invalid start byte"
  jsonError _ := PyStr.lit "Expecting value: line 1 column 1 (char 0)"

def httpEnv : HttpEnv := ⟨serverEnv, telemetryEnv, clock, 15, none⟩

end Reference

end HybridPqc
