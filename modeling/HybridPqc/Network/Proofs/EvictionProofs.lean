import HybridPqc.Network.Proofs.HistoryProofs

/-!
# How long a session survives

The server of the network runs through the requests that reach it, so its table is the first-in
first-out table of the handshakes completed. A replayed request completes a handshake like a fresh one:
a session survives exactly 100 further completed handshakes, whoever initiated them.
-/

open GuardedRuns

namespace HybridPqc

namespace World

variable {X : Externals}

/-! ## The server of the network -/

/-- The requests that an event delivers to the server. -/
def Event.requests : Event → List Request
  | .handshake env body => [.handshake env body]
  | .telemetry env body => [.telemetry env body]
  | _ => []

theorem onHandshake_server (env : HandshakeEnv) (body : Bytes) (w : World) :
    (w.onHandshake X env body).server = Server.step X w.server (.handshake env body) := by
  rcases onHandshake_cases X env body w with ⟨hno, he⟩ | ⟨m, hacc, he⟩
  · rw [he, Server.step_handshake_of_refused hno]
  · rw [he, Server.step_handshake_of_accepts hacc]

theorem step_server (w : World) (e : Event) :
    (step X w e).server = run (Server.step X) w.server e.requests := by
  cases e with
  | start mode keys seq hmacRet =>
    show (w.onStart X mode keys seq hmacRet).server = w.server
    rw [onStart_eq]
    split <;> rfl
  | handshake env body => exact onHandshake_server env body w
  | telemetry env body => rfl
  | client i e =>
    show (w.onClient X i e).server = w.server
    unfold onClient
    cases w.clients[i]? <;> rfl

/-- The server's state after a run is that after the requests delivered in it. -/
theorem run_server (w : World) (es : List Event) :
    (run (World.step X) w es).server = run (Server.step X) w.server (es.flatMap Event.requests) :=
  run_flatMap server Event.requests step_server w es

theorem SessionsInv.freshId {w : World} (h : w.SessionsInv X) {env : HandshakeEnv} {body : Bytes}
    (hg : FreshIds w (.handshake env body)) : env.sessionId.toList ∉ w.server.sessions.keys := by
  intro hmem
  obtain ⟨key, hkey⟩ := Dict.exists_get? hmem
  obtain ⟨s, hs, hsid, -⟩ := h.session _ key hkey
  exact hg s (List.mem_of_getElem? hs) hsid.symm

theorem SessionsInv.guarded_requests {w : World} (h : w.SessionsInv X) {es : List Event}
    (hg : Guarded (World.step X) FreshIds w es) :
    Guarded (Server.step X) Server.FreshId w.server (es.flatMap Event.requests) := by
  induction es generalizing w with
  | nil => trivial
  | cons e es ih =>
    rw [List.flatMap_cons, guarded_append, ← step_server]
    refine ⟨?_, ih (h.step e) hg.2⟩
    cases e with
    | handshake env body => exact ⟨h.freshId hg.1, trivial⟩
    | telemetry env body => exact ⟨trivial, trivial⟩
    | start mode keys seq hmacRet => trivial
    | client i e => trivial

/-! ## Completed handshakes -/

/-- The requests on which the server completes a handshake, among the events. -/
def completedRequests (X : Externals) (es : List Event) : List Bytes :=
  es.filterMap fun
    | .handshake env body => if ∃ m, Accepts X env m body then some body else none
    | _ => none

/-- The requests that clients send. -/
def sentRequests (X : Externals) (es : List Event) : List Bytes :=
  es.filterMap fun
    | .start mode keys _ hmacRet => hybridPackPubkeys X hmacRet (keyedCtx mode keys) pubkeyBufSize
    | _ => none

/-- The requests of clients that the server completes for the first time in `es'`, after `es`. -/
def freshHandshakes (X : Externals) (es es' : List Event) : List Bytes :=
  ((completedRequests X es').filter fun body =>
    body ∈ sentRequests X (es ++ es') ∧ body ∉ completedRequests X es).dedup

theorem completedRequests_append (es es' : List Event) :
    completedRequests X (es ++ es') = completedRequests X es ++ completedRequests X es' :=
  List.filterMap_append

theorem completedRequests_eq_nil {es : List Event}
    (h : ∀ e ∈ es, ∀ env body, e ≠ .handshake env body) : completedRequests X es = [] := by
  apply List.filterMap_eq_nil_iff.mpr
  intro e he
  cases e with
  | handshake env body => exact absurd rfl (h _ he env body)
  | start mode keys seq hmacRet => rfl
  | telemetry env body => rfl
  | client i e => rfl

theorem guarded_freshIds {w : World} {es : List Event}
    (h : ∀ e ∈ es, ∀ env body, e ≠ .handshake env body) :
    Guarded (World.step X) FreshIds w es := by
  apply (guarded_of_forall h w).mono
  intro w e he
  cases e with
  | handshake env body => exact absurd rfl (he env body)
  | start mode keys seq hmacRet => trivial
  | telemetry env body => trivial
  | client i e => trivial

theorem created_length (s : Server) (es : List Event) :
    (trace (Server.step X) (Server.created X) s (es.flatMap Event.requests)).length =
      (completedRequests X es).length := by
  induction es generalizing s with
  | nil => rfl
  | cons e es ih =>
    rw [List.flatMap_cons, trace_append, List.length_append, ih]
    cases e with
    | handshake env body =>
      by_cases hacc : ∃ m, Accepts X env m body
      · obtain ⟨m, hm⟩ := hacc
        have hex : ∃ m, Accepts X env m body := ⟨m, hm⟩
        simp [Event.requests, trace, Server.created_of_accepts hm, completedRequests, hex,
          Nat.add_comm]
      · simp [Event.requests, trace, Server.created_of_refused fun m hm => hacc ⟨m, hm⟩,
          completedRequests, hacc]
    | telemetry env body => simp [Event.requests, trace, Server.created, completedRequests]
    | start mode keys seq hmacRet => simp [Event.requests, trace, completedRequests]
    | client i e => simp [Event.requests, trace, completedRequests]

theorem not_recreated {w : World} {es : List Event} (hg : Guarded (World.step X) FreshIds w es)
    {s : Session} (hs : s ∈ w.sessions) :
    s.sid ∉ trace (Server.step X) (Server.created X) w.server (es.flatMap Event.requests) := by
  induction es generalizing w with
  | nil => simp [trace]
  | cons e es ih =>
    rw [List.flatMap_cons, trace_append, List.mem_append, not_or, ← step_server]
    refine ⟨?_, ih hg.2 ((sessions_step w e).subset hs)⟩
    cases e with
    | handshake env body =>
      by_cases hacc : ∃ m, Accepts X env m body
      · obtain ⟨m, hm⟩ := hacc
        have hne := hg.1 s hs
        simpa [Event.requests, trace, Server.created_of_accepts hm] using hne.symm
      · simp [Event.requests, trace, Server.created_of_refused fun m hm => hacc ⟨m, hm⟩]
    | telemetry env body => simp [Event.requests, trace, Server.created]
    | start mode keys seq hmacRet => simp [Event.requests, trace]
    | client i e => simp [Event.requests, trace]

/-! ## Survival -/

/-- A session survives a run of fresh ids exactly when at most 100 handshakes complete in it. -/
theorem session_survives {w : World} (h : w.SessionsInv X) {env : HandshakeEnv} {m : Mode}
    {body : Bytes} (hacc : Accepts X env m body) {es : List Event}
    (hg : Guarded (World.step X) FreshIds w (.handshake env body :: es)) :
    (run (World.step X) (w.onHandshake X env body) es).server.sessions.get? env.sessionId.toList =
        some (replyKey X env m (body.rdrop 32)) ↔
      (completedRequests X es).length ≤ 100 := by
  have hsize : w.server.sessions.keys.length ≤ 100 + 1 := by
    rw [Dict.keys_length]
    exact h.table.size
  have hw : (w.onHandshake X env body).server = established X env m w.server body := by
    rw [onHandshake_of_accepts hacc]
  have hkey : (w.onHandshake X env body).server.sessions.get? env.sessionId.toList =
      some (replyKey X env m (body.rdrop 32)) := by
    rw [hw]
    exact Server.createSession_get?_self _ _ _
  have hfirst : (w.onHandshake X env body).server.sessions.keys =
      FifoTable.push 100 w.server.sessions.keys env.sessionId.toList := by
    rw [hw]
    exact Server.established_keys (h.freshId hg.1)
  have hnew : env.sessionId.toList ∉ trace (Server.step X) (Server.created X)
      (w.onHandshake X env body).server (es.flatMap Event.requests) := by
    refine not_recreated (s := newSession X env m body) hg.2 ?_
    show _ ∈ (w.onHandshake X env body).sessions
    rw [onHandshake_of_accepts hacc]
    exact List.mem_append_right _ (List.mem_singleton_self _)
  have hguard : Guarded (Server.step X) Server.FreshId (w.onHandshake X env body).server
      (es.flatMap Event.requests) := (h.handshake env body).guarded_requests hg.2
  have hthere := FifoTable.mem_pushAll_push hsize hnew
  rw [← hfirst, ← Server.run_keys hguard, created_length] at hthere
  rw [run_server, ← hthere]
  constructor
  · exact Dict.mem_keys_of_get?
  · intro hmem
    rw [(Server.run_session hguard hnew hmem).2, hkey]

/-- In every run whose session ids are not drawn twice, for every session and every continuation: the
session is kept until 101 fresh handshakes have completed after it exactly when these have completed,
or no more than 100 handshakes have completed at all, fresh or replayed. -/
theorem session_kept_iff (X : Externals) (es es' : List Event) (env : HandshakeEnv) (m : Mode)
    (body : Bytes) (hacc : Accepts X env m body)
    (hg : Guarded (World.step X) FreshIds init (es ++ .handshake env body :: es')) :
    let w := run (World.step X) init (es ++ [.handshake env body])
    let w' := run (World.step X) init (es ++ .handshake env body :: es')
    let fresh := (freshHandshakes X (es ++ [.handshake env body]) es').length
    ∃ key, w.server.sessions.get? env.sessionId.toList = some key ∧
      ((fresh ≤ 100 → w'.server.sessions.get? env.sessionId.toList = some key) ↔
        101 ≤ fresh ∨ (completedRequests X es').length ≤ 100) := by
  intro w w' fresh
  obtain ⟨-, hrest⟩ := guarded_append.mp hg
  have h : (run (World.step X) init es).SessionsInv X := (run_inv X es).2
  have hw : w = (run (World.step X) init es).onHandshake X env body := run_append ..
  have hw' : w' = run (World.step X) ((run (World.step X) init es).onHandshake X env body) es' :=
    run_append ..
  refine ⟨replyKey X env m (body.rdrop 32), ?_, ?_⟩
  · have hnone : Guarded (World.step X) FreshIds (run (World.step X) init es)
        [.handshake env body] := ⟨hrest.1, trivial⟩
    rw [hw]
    exact (session_survives h hacc hnone).mpr (Nat.zero_le 100)
  · rw [hw', session_survives h hacc hrest]
    omega

theorem session_kept_iff_reference : ∃ key,
    (Reference.world 2).server.sessions.get? Reference.sessionId.toList = some key ∧
      (Reference.world 6).server.sessions.get? Reference.sessionId.toList = some key := by
  have hacc : Accepts Reference.externals Reference.serverEnv .classical Reference.request := by
    decide +kernel
  have hg : Guarded (World.step Reference.externals) FreshIds init Reference.events :=
    ⟨trivial, by simp [FreshIds, init, step, onStart_eq], trivial, trivial, trivial, trivial, trivial⟩
  have hnone : freshHandshakes Reference.externals (Reference.events.take 2)
      (Reference.events.drop 2) = [] := rfl
  obtain ⟨key, hkey, hiff⟩ := session_kept_iff Reference.externals (Reference.events.take 1)
    (Reference.events.drop 2) Reference.serverEnv .classical Reference.request hacc hg
  refine ⟨key, hkey, hiff.mpr (.inr (Nat.zero_le 100)) ?_⟩
  exact (congrArg List.length hnone).trans_le (Nat.zero_le 100)

/-! ## Replays -/

theorem guarded_replays {w : World} {envs : List HandshakeEnv} {body : Bytes}
    (hnew : ∀ env ∈ envs, ∀ s ∈ w.sessions, env.sessionId.toList ≠ s.sid)
    (hnodup : (envs.map fun env => env.sessionId.toList).Nodup) :
    Guarded (World.step X) FreshIds w (envs.map fun env => .handshake env body) := by
  induction envs generalizing w with
  | nil => trivial
  | cons env envs ih =>
    rw [List.map_cons, List.nodup_cons] at hnodup
    refine ⟨hnew env (by simp), ih (fun env' henv' s hs => ?_) hnodup.2⟩
    have hold := hnew env' (List.mem_cons_of_mem _ henv')
    change s ∈ (w.onHandshake X env body).sessions at hs
    rcases onHandshake_cases X env body w with ⟨-, he⟩ | ⟨m, -, he⟩
    · rw [he] at hs
      exact hold s hs
    · rw [he] at hs
      rcases List.mem_append.mp hs with hs | hs
      · exact hold s hs
      · rw [List.mem_singleton.mp hs]
        exact fun heq => hnodup.1 (List.mem_map.mpr ⟨env', henv', heq⟩)

theorem completedRequests_replays {envs : List HandshakeEnv} {body : Bytes}
    (h : ∀ env ∈ envs, ∃ m, Accepts X env m body) :
    completedRequests X (envs.map fun env => .handshake env body) = envs.map fun _ => body := by
  induction envs with
  | nil => rfl
  | cons env envs ih =>
    have hfirst : completedRequests X [.handshake env body] = [body] := by
      simp [completedRequests, h env (by simp)]
    rw [List.map_cons, List.map_cons, ← List.singleton_append, completedRequests_append, hfirst,
      ih fun env henv => h env (List.mem_cons_of_mem _ henv)]
    rfl

theorem freshHandshakes_eq_nil {es es' : List Event}
    (h : ∀ body ∈ completedRequests X es', body ∈ completedRequests X es) :
    freshHandshakes X es es' = [] := by
  have hnone : ((completedRequests X es').filter fun body =>
      body ∈ sentRequests X (es ++ es') ∧ body ∉ completedRequests X es) = [] := by
    apply List.filter_eq_nil_iff.mpr
    intro body hbody
    simp [h body hbody]
  rw [freshHandshakes, hnone]
  rfl

/-- What the server draws on 101 replays. -/
def replayEnvs : List HandshakeEnv :=
  (List.range 101).map fun k => { Reference.serverEnv with sessionId := Reference.bytes 16 k }

/-- The attacker replays the client's request 101 times: no fresh handshake takes place, and the session
that the client is using is gone. -/
theorem session_evicted_by_replays :
    let replays := replayEnvs.map fun env => Event.handshake env Reference.request
    Guarded (World.step Reference.externals) FreshIds init (Reference.events.take 3 ++ replays) ∧
      (∃ c ∈ (Reference.world 3).clients[0]?, c.task.phase = .loop ∧
        c.task.sessionId = Reference.sessionId.toList ∧
        c.task.ctx.sessionKey = Reference.sessionKey) ∧
      freshHandshakes Reference.externals (Reference.events.take 3) replays = [] ∧
      (Reference.world 3).server.sessions.get? Reference.sessionId.toList =
        some Reference.sessionKey ∧
      (run (World.step Reference.externals) (Reference.world 3) replays).server.sessions.get?
        Reference.sessionId.toList ≠ some Reference.sessionKey := by
  intro replays
  have hacc : Accepts Reference.externals Reference.serverEnv .classical Reference.request := by
    decide +kernel
  have hkey : replyKey Reference.externals Reference.serverEnv .classical
      (Reference.request.rdrop 32) = Reference.sessionKey := by decide +kernel
  have hcompleted : completedRequests Reference.externals replays =
      replayEnvs.map fun _ => Reference.request := by
    refine completedRequests_replays fun env henv => ⟨.classical, ?_⟩
    obtain ⟨k, -, rfl⟩ := List.mem_map.mp henv
    exact ⟨hacc.tag, hacc.mode, hacc.length, hacc.secret⟩
  have hone : completedRequests Reference.externals (Reference.events.take 3) =
      [Reference.request] := by decide +kernel
  have hsid : ∀ s ∈ (Reference.world 3).sessions, s.sid = Reference.sessionId.toList := by
    decide +kernel
  have hnew : ∀ env ∈ replayEnvs, ∀ s ∈ (Reference.world 3).sessions,
      env.sessionId.toList ≠ s.sid := by
    intro env henv s hs heq
    obtain ⟨k, hk, rfl⟩ := List.mem_map.mp henv
    rw [hsid s hs] at heq
    have hlt := List.mem_range.mp hk
    have := Reference.bytes_inj (n := 16) (by omega) (by omega) heq
    omega
  have hnodup : (replayEnvs.map fun env => env.sessionId.toList).Nodup := by
    rw [replayEnvs, List.map_map]
    refine List.Nodup.map_on (fun k hk l hl heq => ?_) List.nodup_range
    have hlt := List.mem_range.mp hk
    have hlt' := List.mem_range.mp hl
    exact Reference.bytes_inj (n := 16) (by omega) (by omega) heq
  have hreplays : Guarded (World.step Reference.externals) FreshIds (Reference.world 3) replays :=
    guarded_replays hnew hnodup
  have hfirst : FreshIds (Reference.world 1) (.handshake Reference.serverEnv Reference.request) := by
    have hnone : (Reference.world 1).sessions.length = 0 := by decide +kernel
    intro s hs
    rw [List.eq_nil_of_length_eq_zero hnone] at hs
    cases hs
  refine ⟨guarded_append.mpr ⟨⟨trivial, hfirst, trivial, trivial⟩, hreplays⟩, by decide +kernel,
    freshHandshakes_eq_nil ?_, by decide +kernel, fun hkept => ?_⟩
  · rw [hcompleted, hone]
    intro body hbody
    obtain ⟨env, -, rfl⟩ := List.mem_map.mp hbody
    exact List.mem_singleton_self _
  · have hinv : (Reference.world 1).SessionsInv Reference.externals := (run_inv _ _).2
    have hg : Guarded (World.step Reference.externals) FreshIds (Reference.world 1)
        (.handshake Reference.serverEnv Reference.request ::
          (.client 0 (.response Reference.clientEnv (some Reference.response)) :: replays)) :=
      ⟨hfirst, trivial, hreplays⟩
    have hworld : World.step Reference.externals
        ((Reference.world 1).onHandshake Reference.externals Reference.serverEnv Reference.request)
        (.client 0 (.response Reference.clientEnv (some Reference.response))) = Reference.world 3 := rfl
    have hiff := session_survives hinv hacc hg
    rw [run_cons, hworld, hkey] at hiff
    have hle := hiff.mp hkept
    have hsplit : completedRequests Reference.externals
        (.client 0 (.response Reference.clientEnv (some Reference.response)) :: replays) =
          completedRequests Reference.externals replays := rfl
    rw [hsplit, hcompleted, List.length_map, replayEnvs, List.length_map, List.length_range] at hle
    omega

end World

end HybridPqc
