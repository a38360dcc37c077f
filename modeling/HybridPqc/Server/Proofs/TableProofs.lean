import HybridPqc.Lib.GuardedRuns
import HybridPqc.Server.Proofs.HandshakeProofs
import HybridPqc.Server.Proofs.TelemetryProofs
import HybridPqc.Server.Run

/-!
# The session table over whole runs

A handshake either creates one session, evicting the earliest-created one from a full table, or
changes nothing; telemetry keeps the keys of the table. Over a run the table therefore holds the ids of
the latest 101 sessions, in the order in which they were created.
-/

open GuardedRuns

namespace HybridPqc

variable {X : Externals} {env : HandshakeEnv}

theorem handshakeReply_length (X : Externals) (env : HandshakeEnv) (m : Mode) (body : Bytes) :
    (handshakeReply X env m body).length = 16 + m.replyLength + 32 := by
  simp [handshakeReply, replyData, replyKeys_length, Nat.add_assoc]

theorem handshakeReply_ne_nil (m : Mode) (body : Bytes) : handshakeReply X env m body ≠ [] := by
  intro h
  have hlen := handshakeReply_length X env m body
  rw [h, List.length_nil] at hlen
  omega

theorem handshakeRoute_server (s : Server) (body : Bytes) :
    (handshakeRoute X env s body).2 = (handleHandshake X env s body).2 := by
  unfold handshakeRoute
  rcases handleHandshake X env s body with ⟨_ | _, s'⟩ <;> rfl

namespace Server

/-- What a request does to the server: nothing to the table's keys unless it creates a session. -/
theorem step_handshake_of_accepts {m : Mode} {body : Bytes} (h : Accepts X env m body) (s : Server) :
    step X s (.handshake env body) = established X env m s body := by
  show (handshakeRoute X env s body).2 = _
  rw [handshakeRoute_server, handleHandshake_of_accepts h]

theorem step_handshake_of_refused {body : Bytes} (h : ∀ m, ¬ Accepts X env m body) (s : Server) :
    step X s (.handshake env body) = s := by
  obtain ⟨r, he, -⟩ := handleHandshake_of_refused h s
  show (handshakeRoute X env s body).2 = _
  rw [handshakeRoute_server, he]

theorem created_of_accepts {m : Mode} {body : Bytes} (h : Accepts X env m body) (s : Server) :
    created X s (.handshake env body) = [env.sessionId.toList] := by
  simp only [created, handleHandshake_of_accepts h]
  cases hr : handshakeReply X env m body with
  | nil => exact absurd hr (handshakeReply_ne_nil m body)
  | cons b l => rfl

theorem created_of_refused {body : Bytes} (h : ∀ m, ¬ Accepts X env m body) (s : Server) :
    created X s (.handshake env body) = [] := by
  obtain ⟨r, he, rfl | ⟨text, rfl⟩⟩ := handleHandshake_of_refused h s <;>
    simp only [created, he]

/-- The table after a completed handshake: the new id last, the oldest gone when there were more than
100. -/
theorem established_keys {m : Mode} {s : Server} {body : Bytes}
    (hid : env.sessionId.toList ∉ s.sessions.keys) :
    (established X env m s body).sessions.keys =
      FifoTable.push 100 s.sessions.keys env.sessionId.toList := by
  unfold established
  refine createSession_keys ?_ _
  exact hid

theorem established_tableInv (X : Externals) (env : HandshakeEnv) (m : Mode) {s : Server}
    (hs : s.TableInv) (body : Bytes) : (established X env m s body).TableInv := by
  unfold established
  refine TableInv.createSession ?_ _ _
  exact ⟨hs.keys, hs.size⟩

theorem step_telemetry_sessions (tenv : TelemetryEnv) (s : Server) (body : Bytes) :
    (step X s (.telemetry tenv body)).sessions = s.sessions := by
  show (telemetryRoute X tenv s body).server.sessions = _
  rw [telemetryRoute_server]
  rcases handleTelemetry_cases X tenv.receivedAt s body with
    ⟨text, he⟩ | ⟨key, plaintext, data, -, -, ⟨text, -, he⟩ | ⟨record, -, he⟩⟩
  all_goals rw [he]
  all_goals rfl

theorem step_tableInv {s : Server} (hs : s.TableInv) (r : Request) : (step X s r).TableInv := by
  cases r with
  | handshake env body =>
    by_cases h : ∃ m, Accepts X env m body
    · obtain ⟨m, h⟩ := h
      rw [step_handshake_of_accepts h]
      exact established_tableInv X env m hs body
    · rw [step_handshake_of_refused fun m hm => h ⟨m, hm⟩]
      exact hs
  | telemetry env body =>
    show (telemetryRoute X env s body).server.TableInv
    rw [telemetryRoute_server]
    exact handleTelemetry_tableInv hs

/-- Every request with a fresh id inserts the ids it creates. -/
theorem step_keys {s : Server} {r : Request} (hid : FreshId s r) :
    (step X s r).sessions.keys = FifoTable.pushAll 100 s.sessions.keys (created X s r) := by
  cases r with
  | handshake env body =>
    by_cases h : ∃ m, Accepts X env m body
    · obtain ⟨m, h⟩ := h
      rw [step_handshake_of_accepts h, created_of_accepts h]
      exact established_keys hid
    · have h' : ∀ m, ¬ Accepts X env m body := fun m hm => h ⟨m, hm⟩
      rw [step_handshake_of_refused h', created_of_refused h']
      rfl
  | telemetry env body =>
    rw [step_telemetry_sessions]
    rfl

/-- Over a run, the table is the first-in first-out table of the ids created. -/
theorem run_keys {s : Server} {es : List Request} (h : Guarded (step X) FreshId s es) :
    (run (step X) s es).sessions.keys =
      FifoTable.pushAll 100 s.sessions.keys (trace (step X) (created X) s es) := by
  induction es generalizing s with
  | nil => rfl
  | cons r es ih => rw [run_cons, ih h.2, step_keys h.1, trace, FifoTable.pushAll_append]

theorem run_tableInv {s : Server} (hs : s.TableInv) (es : List Request) :
    (run (step X) s es).TableInv :=
  run_invariant (I := Server.TableInv) (fun _ r hs => step_tableInv hs r) hs es

/-- A session that is still there after a request with a fresh id has the key it had before, unless the
request created it. -/
theorem step_session {s : Server} {r : Request} (hid : FreshId s r) {sid : Bytes}
    (hnew : sid ∉ created X s r) (hmem : sid ∈ (step X s r).sessions.keys) :
    sid ∈ s.sessions.keys ∧ (step X s r).sessions.get? sid = s.sessions.get? sid := by
  cases r with
  | handshake env body =>
    by_cases h : ∃ m, Accepts X env m body
    · obtain ⟨m, h⟩ := h
      rw [created_of_accepts h, List.mem_singleton] at hnew
      rw [step_handshake_of_accepts h] at hmem ⊢
      refine ⟨?_, createSession_get?_ne hnew hmem⟩
      rw [established_keys hid] at hmem
      exact (FifoTable.mem_of_mem_push hmem).resolve_right hnew
    · rw [step_handshake_of_refused fun m hm => h ⟨m, hm⟩] at hmem ⊢
      exact ⟨hmem, rfl⟩
  | telemetry env body =>
    rw [step_telemetry_sessions] at hmem ⊢
    exact ⟨hmem, rfl⟩

/-- A session that is still there at the end of a run that did not create it has the key it had at the
beginning. -/
theorem run_session {s : Server} {es : List Request} (h : Guarded (step X) FreshId s es) {sid : Bytes}
    (hnew : sid ∉ trace (step X) (created X) s es)
    (hmem : sid ∈ (run (step X) s es).sessions.keys) :
    sid ∈ s.sessions.keys ∧ (run (step X) s es).sessions.get? sid = s.sessions.get? sid := by
  induction es generalizing s with
  | nil => exact ⟨hmem, rfl⟩
  | cons r es ih =>
    rw [trace, List.mem_append, not_or] at hnew
    obtain ⟨hthere, hsame⟩ := ih h.2 hnew.2 hmem
    obtain ⟨hthere', hsame'⟩ := step_session h.1 hnew.1 hthere
    exact ⟨hthere', hsame.trans hsame'⟩

/-- The table holds the latest 101 sessions, in the order of their creation. -/
theorem run_init_keys {es : List Request} (h : Guarded (step X) FreshId init es) :
    (run (step X) init es).sessions.keys =
      (trace (step X) (created X) init es).drop
        ((trace (step X) (created X) init es).length - 101) := by
  rw [run_keys h, FifoTable.pushAll_eq_drop (by simp [init])]
  simp [init]

end Server

/-- A completed handshake adds one session at the end of the table and removes the first entry of a
table of more than 100; nothing else changes. -/
structure Created (s s' : Server) (sid : Bytes) : Prop where
  count : s'.handshakeCount = s.handshakeCount + 1
  log : s'.telemetryLog = s.telemetryLog
  keys : s'.sessions.keys =
    (if 100 < s.sessions.size then s.sessions.keys.tail else s.sessions.keys) ++ [sid]
  counterKeys : s'.sessionCounters.keys = s'.sessions.keys
  session : ∃ key, s'.sessions.get? sid = some key
  counter : s'.sessionCounters.get? sid = some (-1)
  others : ∀ sid' ∈ s'.sessions.keys, sid' ≠ sid →
    s'.sessions.get? sid' = s.sessions.get? sid' ∧
      s'.sessionCounters.get? sid' = s.sessionCounters.get? sid'

theorem established_created {m : Mode} {s : Server} {body : Bytes} (hs : s.TableInv)
    (hid : env.sessionId.toList ∉ s.sessions.keys) :
    Created s (established X env m s body) env.sessionId.toList where
  count := Server.createSession_handshakeCount _ _ _
  log := Server.createSession_telemetryLog _ _ _
  keys := by
    rw [Server.established_keys hid, FifoTable.push, Dict.keys_length]
  counterKeys := (Server.established_tableInv X env m hs body).keys
  session := ⟨_, Server.createSession_get?_self _ _ _⟩
  counter := Server.createSession_counter_self _ _ _
  others := fun _ hmem hne =>
    ⟨Server.createSession_get?_ne hne hmem, Server.createSession_counter_ne hne hmem⟩

/-- In every run whose drawn ids are fresh, the two dictionaries have the same keys, which are the
latest 101 sessions created, oldest first; and a further handshake either creates one session and
answers with its id, the key material of the request's mode and a tag, or leaves the state alone. -/
theorem session_table_invariant (X : Externals) (es : List Request)
    (hfresh : Guarded (Server.step X) Server.FreshId Server.init es) :
    let s := run (Server.step X) Server.init es
    let ids := trace (Server.step X) (Server.created X) Server.init es
    (s.sessionCounters.keys = s.sessions.keys ∧ s.sessions.keys = ids.drop (ids.length - 101) ∧
        s.sessions.size ≤ 101 ∧ s.sessionCounters.size ≤ 101) ∧
      ∀ env body, env.sessionId.toList ∉ s.sessions.keys →
        let result := handleHandshake X env s body
        (∃ response m keys tag, result.1 = .ok response ∧ response ≠ [] ∧
            (body.rdrop 32).head? = some (Mode.toByte m) ∧
            response = env.sessionId.toList ++ keys ++ tag ∧ keys.length = m.replyLength ∧
            tag.length = 32 ∧ Created s result.2 env.sessionId.toList) ∨
          ((result.1 = .ok [] ∨ ∃ text, result.1 = .error text) ∧ result.2 = s) := by
  intro s ids
  have hinv : s.TableInv := Server.run_tableInv Server.TableInv.init es
  refine ⟨⟨hinv.keys, Server.run_init_keys hfresh, hinv.size, ?_⟩, ?_⟩
  · rw [← Dict.keys_length, hinv.keys, Dict.keys_length]
    exact hinv.size
  intro env body hid result
  by_cases h : ∃ m, Accepts X env m body
  · obtain ⟨m, h⟩ := h
    have hresult : result = _ := handleHandshake_of_accepts h s
    refine .inl ⟨handshakeReply X env m body, m, replyKeys X env m (body.rdrop 32), _,
      by rw [hresult], handshakeReply_ne_nil m body, h.mode, rfl, replyKeys_length m _,
      List.Vector.toList_length _, ?_⟩
    rw [hresult]
    exact established_created hinv hid
  · obtain ⟨r, he, hr⟩ := handleHandshake_of_refused (fun m hm => h ⟨m, hm⟩) s
    have hresult : result = (r, s) := he
    exact .inr ⟨by rw [hresult]; exact hr, by rw [hresult]⟩

theorem session_table_invariant_reference :
    let s := run (Server.step Reference.externals) Server.init Reference.requests
    s.sessions.keys = [Reference.sessionId.toList] ∧ s.sessionCounters.keys = s.sessions.keys := by
  have hfresh : Guarded (Server.step Reference.externals) Server.FreshId Server.init
      Reference.requests := ⟨List.not_mem_nil, trivial, trivial⟩
  exact ⟨by decide +kernel, (session_table_invariant Reference.externals _ hfresh).1.1⟩

end HybridPqc
