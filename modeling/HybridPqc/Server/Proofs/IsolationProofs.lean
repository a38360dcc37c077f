import HybridPqc.Server.Proofs.TableProofs

/-!
# Sessions do not interfere

What a telemetry request does depends on the server only through the key and the counter of the session
it is addressed to, and changes nothing else but the log. Leaving the requests of other sessions out of
a run is therefore invisible to a session, and requests of different sessions commute.
-/

open GuardedRuns

namespace HybridPqc

/-- A telemetry request: what the server draws, and the body. -/
abbrev TelemetryRequest := TelemetryEnv × Bytes

namespace TelemetryRequest

/-- The session that a request is addressed to. -/
def sid (r : TelemetryRequest) : Bytes := r.2.take 16

/-- What the client sees of a request, and the dictionary with the decrypted data. -/
def outcome (X : Externals) (s : Server) (r : TelemetryRequest) :
    HttpReply × List (PyStr × Json) × Option Sealing :=
  let result := telemetryRoute X r.1 s r.2
  (result.reply, result.dict, result.ack)

/-- The state after a request. -/
def step (X : Externals) (s : Server) (r : TelemetryRequest) : Server :=
  (telemetryRoute X r.1 s r.2).server

/-- The records that a request appends to the log. -/
def records (X : Externals) (s : Server) (r : TelemetryRequest) : List Json :=
  appended s (step X s r)

end TelemetryRequest

open TelemetryRequest

/-- Key and counter of a session. -/
def Server.session (s : Server) (sid : Bytes) : Option (ByteArr 32) × Option Int :=
  (s.sessions.get? sid, s.sessionCounters.get? sid)

variable {X : Externals}

/-- The handler's answer, its effect on the addressed session and the record it logs depend only on
that session. -/
theorem handleTelemetry_congr {s s' : Server} {body : Bytes} (receivedAt : DateTime)
    (h : s.session (body.take 16) = s'.session (body.take 16)) :
    (handleTelemetry X receivedAt s body).1 = (handleTelemetry X receivedAt s' body).1 ∧
      (handleTelemetry X receivedAt s body).2.session (body.take 16) =
        (handleTelemetry X receivedAt s' body).2.session (body.take 16) ∧
      appended s (handleTelemetry X receivedAt s body).2 =
        appended s' (handleTelemetry X receivedAt s' body).2 := by
  obtain ⟨hkey, hctr⟩ := Prod.mk.inj h
  have hnone : appended s s = appended s' s' := by simp [appended]
  by_cases hshort : body.length < 16 + 12 + 16
  · simp only [handleTelemetry, if_pos hshort]
    exact ⟨trivial, h, hnone⟩
  simp only [handleTelemetry, if_neg hshort, hkey, hctr]
  cases hk : s'.sessions.get? (body.take 16) with
  | none => exact ⟨rfl, h, hnone⟩
  | some key =>
    simp only
    split
    · exact ⟨rfl, h, hnone⟩
    split
    · exact ⟨rfl, h, hnone⟩
    split
    · exact ⟨rfl, h, hnone⟩
    have hset : ∀ v, (s.sessionCounters.set (body.take 16) v).get? (body.take 16) =
        (s'.sessionCounters.set (body.take 16) v).get? (body.take 16) := by
      intro v
      rw [Dict.get?_set_self, Dict.get?_set_self]
    split
    · exact ⟨rfl, Prod.ext hkey (hset _), hnone⟩
    · split
      · exact ⟨rfl, Prod.ext hkey (hset _), by simp [appended]⟩
      · exact ⟨rfl, Prod.ext hkey (hset _), by simp [appended]⟩

/-- A telemetry request does not touch the other sessions, and only appends to the log. -/
theorem handleTelemetry_frame (receivedAt : DateTime) (s : Server) (body : Bytes) :
    (∀ sid, sid ≠ body.take 16 → (handleTelemetry X receivedAt s body).2.session sid = s.session sid) ∧
      (handleTelemetry X receivedAt s body).2.handshakeCount = s.handshakeCount ∧
      (handleTelemetry X receivedAt s body).2.telemetryLog =
        s.telemetryLog ++ appended s (handleTelemetry X receivedAt s body).2 := by
  rcases handleTelemetry_cases X receivedAt s body with
    ⟨text, he⟩ | ⟨key, plaintext, data, -, -, ⟨text, -, he⟩ | ⟨record, -, he⟩⟩
  · rw [he]
    exact ⟨fun _ _ => rfl, rfl, by simp [appended]⟩
  · rw [he]
    refine ⟨?_, rfl, by simp [appended]⟩
    intro sid hne
    exact Prod.ext rfl (counted_counter_ne hne)
  · rw [he]
    refine ⟨?_, rfl, by simp [appended, logged]⟩
    intro sid hne
    exact Prod.ext rfl (counted_counter_ne hne)

theorem sealAck_congr {s s' : Server} {sid : Bytes} (env : TelemetryEnv)
    (record : List (PyStr × Json)) (h : s.session sid = s'.session sid) :
    sealAck X env s sid record = sealAck X env s' sid record := by
  obtain ⟨hkey, hctr⟩ := Prod.mk.inj h
  unfold sealAck
  rw [hkey, hctr]

/-- What a request is answered, its effect on the session it addresses and the records it logs depend
only on that session. -/
theorem outcome_congr {s s' : Server} {r : TelemetryRequest} (h : s.session r.sid = s'.session r.sid) :
    r.outcome X s = r.outcome X s' ∧ (r.step X s).session r.sid = (r.step X s').session r.sid ∧
      r.records X s = r.records X s' := by
  obtain ⟨hdict, hsession, hlog⟩ := handleTelemetry_congr (X := X) r.1.receivedAt h
  refine ⟨?_, ?_, ?_⟩
  · unfold outcome telemetryRoute
    simp only [hdict]
    rw [sealAck_congr r.1 _ hsession]
    split
    · rfl
    · split <;> rfl
  · unfold step
    rw [telemetryRoute_server, telemetryRoute_server]
    exact hsession
  · unfold records step
    rw [telemetryRoute_server, telemetryRoute_server]
    exact hlog

/-- A request leaves every other session alone and appends its records to the log. -/
theorem step_frame (s : Server) (r : TelemetryRequest) :
    (∀ sid, sid ≠ r.sid → (r.step X s).session sid = s.session sid) ∧
      (r.step X s).handshakeCount = s.handshakeCount ∧
      (r.step X s).telemetryLog = s.telemetryLog ++ r.records X s := by
  obtain ⟨hframe, hcount, hlog⟩ := handleTelemetry_frame (X := X) r.1.receivedAt s r.2
  unfold records step
  rw [telemetryRoute_server]
  exact ⟨hframe, hcount, hlog⟩

/-- A log entry, with the session it came from. -/
def tagged (X : Externals) (s : Server) (r : TelemetryRequest) : List (Bytes × Json) :=
  (r.records X s).map fun record => (r.sid, record)

/-- What a request addressed to `sid` is answered; the other requests put nothing out. -/
def outcomesOf (X : Externals) (sid : Bytes) (s : Server) (r : TelemetryRequest) :
    List (HttpReply × List (PyStr × Json) × Option Sealing) :=
  if r.sid = sid then [r.outcome X s] else []

/-- The records of a request addressed to `sid`; the other requests put nothing out. -/
def recordsOf (X : Externals) (sid : Bytes) (s : Server) (r : TelemetryRequest) : List Json :=
  if r.sid = sid then r.records X s else []

/-- The records tagged with `sid`, among those of a run, are those of the requests addressed to it. -/
theorem filter_trace_tagged (X : Externals) (sid : Bytes) (s : Server) (rs : List TelemetryRequest) :
    ((trace (fun s r => step X s r) (tagged X) s rs).filter fun p => p.1 = sid).map Prod.snd =
      trace (fun s r => step X s r) (recordsOf X sid) s rs := by
  induction rs generalizing s with
  | nil => rfl
  | cons r rs ih =>
    rw [trace, trace, List.filter_append, List.map_append, ih]
    congr 1
    unfold tagged recordsOf
    rw [List.filter_map]
    by_cases hsid : r.sid = sid <;> simp [hsid, Function.comp_def]

theorem map_trace_tagged (X : Externals) (s : Server) (rs : List TelemetryRequest) :
    (trace (fun s r => step X s r) (tagged X) s rs).map Prod.snd =
      trace (fun s r => step X s r) (records X) s rs := by
  induction rs generalizing s with
  | nil => rfl
  | cons r rs ih =>
    rw [trace, trace, List.map_append, ih]
    congr 1
    unfold tagged
    simp [Function.comp_def]

theorem recordsOf_congr {sid : Bytes} (s s' : Server) (r : TelemetryRequest) (hr : r.sid = sid)
    (h : s.session sid = s'.session sid) : recordsOf X sid s r = recordsOf X sid s' r := by
  subst hr
  simp only [recordsOf, if_true, (outcome_congr h).2.2]

/-- Leaving out the requests of the other sessions changes neither the session nor what its own
requests put out, when that depends only on the session. -/
theorem run_own {ω : Type} (sid : Bytes) (out : Server → TelemetryRequest → List ω)
    (hout : ∀ s s' r, r.sid = sid → s.session sid = s'.session sid → out s r = out s' r)
    (hskip : ∀ s r, r.sid ≠ sid → out s r = []) (s : Server) (rs : List TelemetryRequest) :
    (run (fun s r => step X s r) s rs).session sid =
        (run (fun s r => step X s r) s (rs.filter fun r => r.sid = sid)).session sid ∧
      trace (fun s r => step X s r) out s rs =
        trace (fun s r => step X s r) out s (rs.filter fun r => r.sid = sid) := by
  refine run_filter (fun s => s.session sid) out (fun r => r.sid = sid) ?_ ?_ rfl rs
  · intro s r hr
    have hne : r.sid ≠ sid := of_decide_eq_false hr
    exact ⟨(step_frame s r).1 sid hne.symm, hskip s r hne⟩
  · intro s s' r hr hview
    have hsid : r.sid = sid := of_decide_eq_true hr
    subst hsid
    exact ⟨(outcome_congr hview).2.1, hout s s' r rfl hview⟩

/-- A request commutes with one of another session: each is answered and logs as if it came first. -/
theorem step_comm_session (s : Server) {a b : TelemetryRequest} (hne : a.sid ≠ b.sid) (sid : Bytes) :
    (b.step X (a.step X s)).session sid = (a.step X (b.step X s)).session sid := by
  have ha := (step_frame (X := X) s a).1
  have hb := (step_frame (X := X) s b).1
  by_cases hsa : sid = a.sid
  · subst hsa
    rw [(step_frame (X := X) (a.step X s) b).1 a.sid hne]
    exact (outcome_congr (hb a.sid hne)).2.1.symm
  · rw [(step_frame (X := X) (b.step X s) a).1 sid hsa]
    by_cases hsb : sid = b.sid
    · subst hsb
      exact (outcome_congr (ha b.sid hne.symm)).2.1
    · rw [(step_frame (X := X) (a.step X s) b).1 sid hsb, ha sid hsa, hb sid hsb]

/-- For every state, every session and every sequence of telemetry requests: leaving out the requests
of the other sessions changes neither what the remaining ones are answered, nor the session's key and
counter, nor the records it logs, which are its part of the telemetry log; and two requests of
different sessions commute up to the order of their records. -/
theorem session_isolation (X : Externals) (s : Server) (sid : Bytes) (rs : List TelemetryRequest) :
    let own := rs.filter fun r => r.sid = sid
    let step := fun s (r : TelemetryRequest) => r.step X s
    (trace step (outcomesOf X sid) s rs = trace step (fun s r => [r.outcome X s]) s own ∧
      (run step s rs).sessions.get? sid = (run step s own).sessions.get? sid ∧
      (run step s rs).sessionCounters.get? sid = (run step s own).sessionCounters.get? sid ∧
      (run step s rs).telemetryLog = s.telemetryLog ++ (trace step (tagged X) s rs).map Prod.snd ∧
      (run step s own).telemetryLog =
        s.telemetryLog ++
          ((trace step (tagged X) s rs).filter fun p => p.1 = sid).map Prod.snd) ∧
    ∀ a b : TelemetryRequest, a.sid ≠ b.sid →
      a.outcome X (b.step X s) = a.outcome X s ∧ b.outcome X (a.step X s) = b.outcome X s ∧
      (∀ sid', (b.step X (a.step X s)).sessions.get? sid' =
          (a.step X (b.step X s)).sessions.get? sid' ∧
        (b.step X (a.step X s)).sessionCounters.get? sid' =
          (a.step X (b.step X s)).sessionCounters.get? sid') ∧
      (b.step X (a.step X s)).handshakeCount = (a.step X (b.step X s)).handshakeCount ∧
      (b.step X (a.step X s)).telemetryLog = s.telemetryLog ++ a.records X s ++ b.records X s ∧
      (a.step X (b.step X s)).telemetryLog = s.telemetryLog ++ b.records X s ++ a.records X s := by
  intro own step
  have hmem : ∀ r ∈ own, r.sid = sid := fun r hr => by
    simpa using (List.mem_filter.mp hr).2
  refine ⟨⟨?_, ?_, ?_, ?_, ?_⟩, ?_⟩
  · rw [(run_own sid (outcomesOf X sid) ?_ ?_ s rs).2]
    · exact trace_congr (fun r hr s => if_pos (hmem r hr)) s
    · rintro s s' r rfl hview
      simp only [outcomesOf, if_true, (outcome_congr hview).1]
    · exact fun s r hr => if_neg hr
  · exact congrArg Prod.fst (run_own sid (recordsOf X sid) recordsOf_congr (fun _ _ hr => if_neg hr)
      s rs).1
  · exact congrArg Prod.snd (run_own sid (recordsOf X sid) recordsOf_congr (fun _ _ hr => if_neg hr)
      s rs).1
  · rw [log_eq_trace _ _ fun s r => (step_frame (X := X) s r).2.2, map_trace_tagged]
  · rw [filter_trace_tagged, (run_own sid (recordsOf X sid) recordsOf_congr
      (fun _ _ hr => if_neg hr) s rs).2, log_eq_trace _ _ fun s r => (step_frame (X := X) s r).2.2]
    congr 1
    exact trace_congr (fun r hr s => (if_pos (hmem r hr)).symm) s
  · intro a b hne
    have ha := outcome_congr (X := X) ((step_frame (X := X) s b).1 a.sid hne)
    have hb := outcome_congr (X := X) ((step_frame (X := X) s a).1 b.sid hne.symm)
    refine ⟨ha.1, hb.1, fun sid' => Prod.mk.inj (step_comm_session s hne sid'), ?_, ?_, ?_⟩
    · rw [(step_frame _ _).2.1, (step_frame _ _).2.1, (step_frame _ _).2.1, (step_frame _ _).2.1]
    · rw [(step_frame _ _).2.2, (step_frame _ _).2.2, hb.2.2]
    · rw [(step_frame _ _).2.2, (step_frame _ _).2.2, ha.2.2]

end HybridPqc
