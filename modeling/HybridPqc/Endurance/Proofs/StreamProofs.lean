import HybridPqc.Endurance.Streams

/-!
# Proofs: the parser follows streams

The dictionary and the result of `parse_log` are the table and the reports of the conversations that
the log consists of. When a stream is closed and what is returned of it are read off its packets.
-/

open GuardedRuns

namespace HybridPqc

open Conversations

/-! ## The loop is a run of the table -/

namespace ParseState

/-- The open streams and the handshakes so far. -/
def table (s : ParseState) : Table StreamKey Stream := ⟨s.streams, s.completedHandshakes⟩

@[simp] theorem table_observe (s : ParseState) (dt : DateTime) : (s.observe dt).table = s.table := by
  unfold observe table
  split <;> rfl

@[simp] theorem prevDt_observe (s : ParseState) (dt : DateTime) :
    (s.observe dt).prevDt = some dt := by
  unfold observe
  split <;> rfl

theorem currentSessionId_observe (s : ParseState) (dt : DateTime) :
    (s.observe dt).currentSessionId =
      if newSitting s.prevDt dt then s.currentSessionId + 1 else s.currentSessionId := by
  unfold observe
  split <;> rfl

theorem table_close (s : ParseState) (e : Event) (st : Stream) :
    (s.close e st).table = streamRules.close s.table e st := by
  cases h : st.closes e with
  | true =>
    have hrules : streamRules.closes st e = true := h
    unfold close Conversations.close
    rw [if_pos h, if_pos hrules]
    rfl
  | false =>
    have hrules : ¬streamRules.closes st e = true := by
      rw [Bool.not_eq_true]
      exact h
    unfold close Conversations.close
    rw [if_neg (by simp [h]), if_neg hrules]
    rfl

/-- The packet of a stream that is not followed, and that of one that is. -/
theorem track_cases (s : ParseState) (e : Event) :
    (s.openStream e).get? e.key = none ∧ s.track e = { s with streams := s.openStream e } ∨
      ∃ st, (s.openStream e).get? e.key = some st ∧
        s.track e = { s with streams := s.openStream e }.close e (st.feed e) := by
  cases h : (s.openStream e).get? e.key with
  | none => exact .inl ⟨rfl, by simp only [track, h]⟩
  | some st => exact .inr ⟨st, rfl, by simp only [track, h]⟩

theorem table_track (s : ParseState) (e : Event) :
    (s.track e).table = streamRules.step s.table e := by
  have hopen : ({ s with streams := s.openStream e } : ParseState).table =
      if streamRules.opens e then
        { s.table with current := s.table.current.set (streamRules.key e) (streamRules.start e) }
      else s.table := by
    unfold openStream
    cases h : e.isSyn <;> simp [streamRules, h, table]
  unfold Conversations.step
  rw [← hopen]
  rcases track_cases s e with ⟨hget, heq⟩ | ⟨st, hget, heq⟩
  · have hget' : (table { s with streams := s.openStream e }).current.get? (streamRules.key e) = none := hget
    simp only [heq, hget']
  · have hget' : (table { s with streams := s.openStream e }).current.get? (streamRules.key e) = some st :=
      hget
    simp only [heq, hget', table_close]
    rfl

theorem prevDt_close (s : ParseState) (e : Event) (st : Stream) : (s.close e st).prevDt = s.prevDt := by
  unfold close
  split <;> rfl

theorem currentSessionId_close (s : ParseState) (e : Event) (st : Stream) :
    (s.close e st).currentSessionId = s.currentSessionId := by
  unfold close
  split <;> rfl

@[simp] theorem prevDt_track (s : ParseState) (e : Event) : (s.track e).prevDt = s.prevDt := by
  rcases track_cases s e with ⟨_, heq⟩ | ⟨st, _, heq⟩
  · rw [heq]
  · rw [heq, prevDt_close]

@[simp] theorem currentSessionId_track (s : ParseState) (e : Event) :
    (s.track e).currentSessionId = s.currentSessionId := by
  rcases track_cases s e with ⟨_, heq⟩ | ⟨st, _, heq⟩
  · rw [heq]
  · rw [heq, currentSessionId_close]

/-- What a dated line does to the table, to the last time and to the number of the sitting. -/
theorem step_spec (s : ParseState) (p : Packet) :
    (s.step p).table =
        run streamRules.step s.table (p.event? (s.observe p.dt).currentSessionId).toList ∧
      (s.step p).prevDt = some p.dt ∧
      (s.step p).currentSessionId = (s.observe p.dt).currentSessionId := by
  unfold step
  cases h : p.event? (s.observe p.dt).currentSessionId with
  | none => simp [h]
  | some e => simp [h, table_track]

/-- The loop follows the streams of its packets. -/
theorem table_run (s : ParseState) (ps : List Packet) :
    (run step s ps).table =
      run streamRules.step s.table (eventsFrom s.prevDt s.currentSessionId ps) := by
  induction ps generalizing s with
  | nil => rfl
  | cons p ps ih =>
    rcases step_spec s p with ⟨htable, hprev, hid⟩
    rw [run_cons, ih, htable, hprev, hid, eventsFrom, run_append, currentSessionId_observe]

end ParseState

/-- The loop over the streams that are left adds what the sweep makes of them. -/
theorem handshakes_foldl_sweepStep (r : ParsedLog) (sts : List Stream) :
    (sts.foldl sweepStep r).handshakes = r.handshakes ++ sts.filterMap Stream.sweep := by
  induction sts generalizing r with
  | nil => simp
  | cons st sts ih =>
    rw [List.foldl_cons, ih, sweepStep, List.filterMap_cons]
    cases st.sweep with
    | none => rfl
    | some st' => simp

/-- `parse_log` returns the reports of the streams of its log. -/
theorem handshakes_eq (log : List PyStr) :
    (parseLog log).handshakes = streamRules.reports (events log) := by
  have htable := ParseState.table_run ParseState.init (packets log)
  unfold parseLog ParseState.finish
  rw [handshakes_foldl_sweepStep]
  exact congrArg streamRules.finish htable

/-- The handshakes that `parse_log` returns are those of the single streams. -/
theorem handshakes_perm (log : List PyStr) :
    (parseLog log).handshakes.Perm ((trackedStreams log).filterMap streamRules.reported) := by
  rw [handshakes_eq]
  exact reports_perm (events log)

/-! ## Streams and what is followed of them -/

theorem isSyn_event? {p : Packet} {n : Nat} {e : Event} (h : p.event? n = some e) :
    e.isSyn = (p.isSyn && e.isClient) := by
  obtain ⟨cl, -, rfl⟩ := Option.map_eq_some_iff.mp h
  rfl

theorem sessionId_event? {p : Packet} {n : Nat} {e : Event} (h : p.event? n = some e) :
    e.sessionId = n := by
  obtain ⟨cl, -, rfl⟩ := Option.map_eq_some_iff.mp h
  rfl

theorem le_sessionId_eventsFrom (prev : Option DateTime) (n : Nat) (ps : List Packet) :
    ∀ e ∈ eventsFrom prev n ps, n ≤ e.sessionId := by
  induction ps generalizing prev n with
  | nil => simp [eventsFrom]
  | cons p ps ih =>
    have hle : n ≤ if newSitting prev p.dt then n + 1 else n := by
      split <;> omega
    intro e he
    rcases List.mem_append.mp he with he | he
    · rw [sessionId_event? (Option.mem_toList.mp he)]
      exact hle
    · exact hle.trans (ih _ _ e he)

/-- The packets that share a key with one of sitting `n` are those of the rest of this sitting. -/
theorem filter_key_eventsFrom {k : StreamKey} {n : Nat} (hk : k.1 = n) (dt : DateTime) (ps : List Packet) :
    (eventsFrom (some dt) n ps).filter (fun e => decide (e.key = k)) =
      ((sittingRest dt ps).filterMap (Packet.event? n)).filter fun e => decide (e.key = k) := by
  induction ps generalizing dt with
  | nil => rfl
  | cons p ps ih =>
    rw [eventsFrom, sittingRest]
    by_cases hgap : gap dt p.dt
    · -- from the gap on all packets are of later sittings
      have hnew : newSitting (some dt) p.dt = true := decide_eq_true hgap
      rw [if_pos hgap, hnew, if_pos rfl, List.filterMap_nil, List.filter_nil, List.filter_eq_nil_iff]
      intro e he
      have hlater : n + 1 ≤ e.sessionId := by
        rcases List.mem_append.mp he with he | he
        · exact (sessionId_event? (Option.mem_toList.mp he)).ge
        · exact le_sessionId_eventsFrom _ _ ps e he
      have hne : e.key ≠ k := by
        rintro rfl
        have hid : e.sessionId = n := hk
        omega
      simp [hne]
    · have hold : ¬ newSitting (some dt) p.dt = true := by
        simpa [newSitting] using hgap
      rw [if_neg hgap, if_neg hold, List.filter_append, ih, List.filterMap_cons]
      cases p.event? n with
      | none => rfl
      | some e =>
        rw [Option.toList_some, List.filter_cons, List.filter_cons]
        split <;> rfl

/-- What the parser follows from a SYN on, in the sequence of all packets. -/
theorem tracked_eq (n : Nat) {p : Packet} (ps : List Packet) {e : Event} (he : p.event? n = some e) :
    TcpStream.tracked ⟨n, p, ps⟩ =
      if e.isSyn then
        some ⟨e, streamRules.own e.key (eventsFrom (some p.dt) n ps),
          streamRules.reopened e.key (eventsFrom (some p.dt) n ps)⟩
      else none := by
  have hfilter := filter_key_eventsFrom (k := e.key) (sessionId_event? he) p.dt ps
  have hown : streamRules.own e.key (eventsFrom (some p.dt) n ps) =
      streamRules.own e.key ((sittingRest p.dt ps).filterMap (Packet.event? n)) := by
    unfold own
    exact congrArg (List.takeWhile _) hfilter
  have hreopened : streamRules.reopened e.key (eventsFrom (some p.dt) n ps) =
      streamRules.reopened e.key ((sittingRest p.dt ps).filterMap (Packet.event? n)) := by
    rw [reopened_eq_any_filter, reopened_eq_any_filter]
    exact congrArg (List.any · _) hfilter
  rw [hown, hreopened, TcpStream.tracked, he]
  rfl

theorem conversations_eventsFrom (prev : Option DateTime) (n : Nat) (ps : List Packet) :
    streamRules.conversations (eventsFrom prev n ps) =
      (tcpStreamsFrom prev n ps).filterMap TcpStream.tracked := by
  induction ps generalizing prev n with
  | nil => rfl
  | cons p ps ih =>
    rw [eventsFrom, tcpStreamsFrom]
    generalize (if newSitting prev p.dt then n + 1 else n) = m
    rw [List.filterMap_append, ← ih]
    cases he : p.event? m with
    | none =>
      have hnone : ((if p.isSyn then [⟨m, p, ps⟩] else []) : List TcpStream).filterMap
          TcpStream.tracked = [] := by
        have htracked : TcpStream.tracked ⟨m, p, ps⟩ = none := by
          rw [TcpStream.tracked, he]
          rfl
        split <;> simp [htracked]
      rw [hnone]
      rfl
    | some e =>
      have htracked := tracked_eq m ps he
      have hopens : streamRules.opens e = (p.isSyn && e.isClient) := isSyn_event? he
      have hsyn : e.isSyn = (p.isSyn && e.isClient) := isSyn_event? he
      rw [Option.toList_some, List.singleton_append, conversations, hopens]
      rw [hsyn] at htracked
      cases hp : p.isSyn with
      | false => simp
      | true =>
        rw [hp] at htracked
        have hkey : streamRules.key e = e.key := rfl
        cases hc : e.isClient with
        | false => simp [htracked, hc]
        | true => simp [htracked, hc, hkey]

/-- What the parser follows are the streams of the log, as far as it follows them. -/
theorem trackedStreams_eq (log : List PyStr) :
    trackedStreams log = (tcpStreams log).filterMap TcpStream.tracked :=
  conversations_eventsFrom none 0 (packets log)

/-- The handshakes that `parse_log` returns are the entries of the streams of the log. -/
theorem handshakes_perm_entries (log : List PyStr) :
    (parseLog log).handshakes.Perm ((tcpStreams log).filterMap TcpStream.entry) := by
  have hperm := handshakes_perm log
  rw [trackedStreams_eq, List.filterMap_filterMap] at hperm
  exact hperm

theorem mem_trackedStreams {log : List PyStr} {c : TcpStream} (hc : c ∈ tcpStreams log) {t : TrackedStream}
    (ht : c.tracked = some t) : t ∈ trackedStreams log := by
  rw [trackedStreams_eq]
  exact List.mem_filterMap.mpr ⟨c, hc, ht⟩

end HybridPqc
