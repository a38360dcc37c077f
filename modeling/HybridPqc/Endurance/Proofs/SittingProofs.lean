import HybridPqc.Endurance.Proofs.StreamStateProofs

/-!
# Proofs: sittings and totals

The sittings are numbered from 1, every stream belongs to one of them, and the counters of a sitting
agree with the handshakes that are returned. When the times of the log do not decrease, the sittings are
intervals with more than 120 s between them.
-/

open GuardedRuns
open PyStr (lit)

namespace HybridPqc

/-- The counter of a protocol. -/
def LogSession.tally (s : LogSession) : Proto → Nat
  | .hybridPqc => s.pqcCount
  | .classicalTls => s.tlsCount

/-- The handshakes of a sitting over a protocol. -/
def handshakesOf (id : Nat) (proto : Proto) (hs : List Stream) : Nat :=
  hs.countP fun h => decide (h.sessionId = id ∧ h.proto = proto)

/-! ## The counters -/

/-- The sittings are numbered from 1 and their counters agree with the handshakes so far. -/
structure Tallied (sessions : List LogSession) (hs : List Stream) : Prop where
  valid : ∀ h ∈ hs, 1 ≤ h.sessionId ∧ h.sessionId ≤ sessions.length
  entry : ∀ i s, sessions[i]? = some s →
    s.id = i + 1 ∧ ∀ proto, s.tally proto = handshakesOf (i + 1) proto hs

theorem handshakesOf_concat (id : Nat) (proto : Proto) (hs : List Stream) (h : Stream) :
    handshakesOf id proto (hs ++ [h]) =
      handshakesOf id proto hs + if h.sessionId = id ∧ h.proto = proto then 1 else 0 := by
  unfold handshakesOf
  rw [List.countP_append, List.countP_singleton]
  simp

theorem tally_count (s : LogSession) (proto proto' : Proto) :
    (s.count proto).tally proto' = s.tally proto' + if proto = proto' then 1 else 0 := by
  cases proto <;> cases proto' <;> rfl

@[simp] theorem id_count (s : LogSession) (proto : Proto) : (s.count proto).id = s.id := by
  cases proto <;> rfl

@[simp] theorem length_countHandshake (st : Stream) (sessions : List LogSession) :
    (countHandshake st sessions).length = sessions.length := by
  simp [countHandshake]

theorem Tallied.nil : Tallied [] [] where
  valid := by simp
  entry := by simp

/-- A new handshake is counted in its sitting. -/
theorem Tallied.concat {sessions : List LogSession} {hs : List Stream} {st : Stream}
    (h : Tallied sessions hs) (hst : 1 ≤ st.sessionId ∧ st.sessionId ≤ sessions.length) :
    Tallied (countHandshake st sessions) (hs ++ [st]) where
  valid := by
    intro h' hh'
    rw [length_countHandshake]
    rcases List.mem_append.mp hh' with hh' | hh'
    · exact h.valid h' hh'
    · rw [List.mem_singleton.mp hh']
      exact hst
  entry := by
    intro i s hs'
    unfold countHandshake at hs'
    rw [List.getElem?_modify] at hs'
    rcases Option.map_eq_some_iff.mp hs' with ⟨s₀, hs₀, heq⟩
    rcases h.entry i s₀ hs₀ with ⟨hid, htally⟩
    by_cases hi : st.sessionId - 1 = i
    · have hsid : st.sessionId = i + 1 := by omega
      rw [if_pos hi] at heq
      subst heq
      refine ⟨by simpa using hid, fun proto => ?_⟩
      rw [tally_count, htally, handshakesOf_concat]
      simp [hsid]
    · have hsid : st.sessionId ≠ i + 1 := by omega
      rw [if_neg hi] at heq
      subst heq
      refine ⟨hid, fun proto => ?_⟩
      rw [htally, handshakesOf_concat]
      simp [hsid]

/-- A new sitting has no handshakes. -/
theorem Tallied.newSitting {sessions : List LogSession} {hs : List Stream} (h : Tallied sessions hs)
    (dt : DateTime) : Tallied (sessions ++ [⟨sessions.length + 1, dt, dt, 0, 0⟩]) hs where
  valid := by
    intro h' hh'
    rcases h.valid h' hh' with ⟨h1, h2⟩
    rw [List.length_append]
    omega
  entry := by
    intro i s hs'
    rcases Nat.lt_or_ge i sessions.length with hi | hi
    · rw [List.getElem?_append_left hi] at hs'
      exact h.entry i s hs'
    · have hlt := (List.getElem?_eq_some_iff.mp hs').1
      rw [List.length_append, List.length_singleton] at hlt
      obtain rfl : i = sessions.length := by omega
      rw [List.getElem?_concat_length, Option.some.injEq] at hs'
      subst hs'
      refine ⟨rfl, fun proto => ?_⟩
      have hzero : handshakesOf (sessions.length + 1) proto hs = 0 := by
        unfold handshakesOf
        rw [List.countP_eq_zero]
        intro h' hh'
        have hle := (h.valid h' hh').2
        simp only [decide_eq_true_eq, not_and]
        intro heq
        omega
      rw [hzero]
      cases proto <;> rfl

/-- The end of the last sitting does not matter. -/
theorem Tallied.setEnd {sessions : List LogSession} {hs : List Stream} (h : Tallied sessions hs) (n : Nat)
    (dt : DateTime) : Tallied (sessions.modify n fun last => { last with endDt := dt }) hs where
  valid := by
    rw [List.length_modify]
    exact h.valid
  entry := by
    intro i s hs'
    rw [List.getElem?_modify] at hs'
    rcases Option.map_eq_some_iff.mp hs' with ⟨s₀, hs₀, heq⟩
    rcases h.entry i s₀ hs₀ with ⟨hid, htally⟩
    split at heq
    · subst heq
      refine ⟨hid, fun proto => ?_⟩
      rw [← htally]
      cases proto <;> rfl
    · subst heq
      exact ⟨hid, htally⟩

/-! ## The loop keeps the totals -/

/-- The number of the current sitting is that of the last one, all streams belong to sittings, and the
counters agree with the completed handshakes. -/
structure ParseState.Consistent (s : ParseState) : Prop where
  tallied : Tallied s.sessions s.completedHandshakes
  current : s.currentSessionId = s.sessions.length
  started : s.prevDt = none ↔ s.sessions = []
  streams : ∀ p ∈ s.streams.entries, 1 ≤ p.2.sessionId ∧ p.2.sessionId ≤ s.sessions.length

namespace ParseState

theorem consistent_init : init.Consistent where
  tallied := Tallied.nil
  current := rfl
  started := by simp [init]
  streams := by simp [init, Dict.empty]

theorem Consistent.observe {s : ParseState} (h : s.Consistent) (dt : DateTime) :
    (s.observe dt).Consistent ∧ 1 ≤ (s.observe dt).currentSessionId := by
  unfold ParseState.observe
  cases hnew : newSitting s.prevDt dt with
  | true =>
    rw [h.current]
    refine ⟨⟨(h.tallied.newSitting dt).setEnd _ dt, by simp, by simp, ?_⟩, by simp⟩
    intro p hp
    rcases h.streams p hp with ⟨h1, h2⟩
    simp
    omega
  | false =>
    have hsome : s.prevDt ≠ none := by
      intro hnone
      rw [hnone] at hnew
      cases hnew
    have hne : s.sessions ≠ [] := fun hnil => hsome (h.started.mpr hnil)
    have hpos : 1 ≤ s.currentSessionId := by
      rw [h.current]
      exact List.length_pos_iff.mpr hne
    refine ⟨⟨h.tallied.setEnd _ dt, by simpa using h.current, by simp [hne], ?_⟩, hpos⟩
    intro p hp
    simpa using h.streams p hp

/-- A stream of a sitting may be stored. -/
theorem Consistent.set {s : ParseState} (h : s.Consistent) (k : StreamKey) {st : Stream}
    (hst : 1 ≤ st.sessionId ∧ st.sessionId ≤ s.sessions.length) :
    ({ s with streams := s.streams.set k st } : ParseState).Consistent where
  tallied := h.tallied
  current := h.current
  started := h.started
  streams := by
    intro p hp
    rcases Dict.mem_entries_set hp with rfl | hp
    · exact hst
    · exact h.streams p hp

theorem Consistent.close {s : ParseState} (h : s.Consistent) (e : Event) {st : Stream}
    (hst : 1 ≤ st.sessionId ∧ st.sessionId ≤ s.sessions.length) : (s.close e st).Consistent := by
  unfold ParseState.close
  split
  · refine ⟨h.tallied.concat hst, by simpa using h.current, ?_, ?_⟩
    · rw [h.started, ← List.length_eq_zero_iff, ← List.length_eq_zero_iff, length_countHandshake]
    · intro p hp
      rw [length_countHandshake]
      exact h.streams p (Dict.mem_entries_of_erase hp)
  · exact h.set e.key hst

/-- A packet of the current sitting keeps the totals. -/
theorem Consistent.track {s : ParseState} (h : s.Consistent) (hpos : 1 ≤ s.currentSessionId) {e : Event}
    (he : e.sessionId = s.currentSessionId) : (s.track e).Consistent := by
  have hopen : ({ s with streams := s.openStream e } : ParseState).Consistent := by
    unfold openStream
    split
    · apply h.set
      change 1 ≤ e.sessionId ∧ e.sessionId ≤ s.sessions.length
      rw [he, ← h.current]
      exact ⟨hpos, Nat.le_refl _⟩
    · exact h
  rcases track_cases s e with ⟨-, heq⟩ | ⟨st, hget, heq⟩
  · rw [heq]
    exact hopen
  · rw [heq]
    apply hopen.close
    rw [Stream.sessionId_feed]
    exact hopen.streams _ (Dict.mem_entries_of_get? hget)

theorem Consistent.step {s : ParseState} (h : s.Consistent) (p : Packet) : (s.step p).Consistent := by
  rcases h.observe p.dt with ⟨hobs, hpos⟩
  unfold ParseState.step
  cases he : p.event? (s.observe p.dt).currentSessionId with
  | none => simpa [he] using hobs
  | some e =>
    have hid : e.sessionId = (s.observe p.dt).currentSessionId := by
      unfold Packet.event? at he
      rcases Option.map_eq_some_iff.mp he with ⟨c, -, rfl⟩
      rfl
    simpa [he] using hobs.track hpos hid

/-- After every log: the subscript of every stream that is left is that of a sitting. -/
theorem consistent_run (ps : List Packet) : (run ParseState.step init ps).Consistent :=
  run_invariant (fun _ p h => h.step p) consistent_init ps

end ParseState

/-! ## The final loop keeps the totals -/

theorem sessionId_sweep {st st' : Stream} (h : st.sweep = some st') : st'.sessionId = st.sessionId := by
  unfold Stream.sweep at h
  split at h
  · rw [Option.some.injEq] at h
    rw [← h]
  · cases h

theorem Tallied.sweepStep {r : ParsedLog} {st : Stream} (h : Tallied r.sessions r.handshakes)
    (hst : 1 ≤ st.sessionId ∧ st.sessionId ≤ r.sessions.length) :
    Tallied (HybridPqc.sweepStep r st).sessions (HybridPqc.sweepStep r st).handshakes ∧
      (HybridPqc.sweepStep r st).sessions.length = r.sessions.length := by
  unfold HybridPqc.sweepStep
  cases hsweep : st.sweep with
  | none => exact ⟨h, rfl⟩
  | some st' =>
    refine ⟨h.concat ?_, length_countHandshake st' r.sessions⟩
    rw [sessionId_sweep hsweep]
    exact hst

theorem Tallied.foldl_sweepStep {r : ParsedLog} {sts : List Stream} (h : Tallied r.sessions r.handshakes)
    (hsts : ∀ st ∈ sts, 1 ≤ st.sessionId ∧ st.sessionId ≤ r.sessions.length) :
    Tallied (sts.foldl HybridPqc.sweepStep r).sessions (sts.foldl HybridPqc.sweepStep r).handshakes := by
  induction sts generalizing r with
  | nil => exact h
  | cons st sts ih =>
    rcases h.sweepStep (hsts st List.mem_cons_self) with ⟨hstep, hlen⟩
    apply ih hstep
    intro st' hst'
    rw [hlen]
    exact hsts st' (List.mem_cons_of_mem st hst')

/-- The counters of the result agree with the handshakes of the result. -/
theorem parseLog_tallied (log : List PyStr) :
    Tallied (parseLog log).sessions (parseLog log).handshakes := by
  have h := ParseState.consistent_run (packets log)
  apply Tallied.foldl_sweepStep (r := ⟨_, _⟩) h.tallied
  intro st hst
  rcases List.mem_map.mp hst with ⟨p, hp, rfl⟩
  exact h.streams p hp

/-! ## The times of the sittings -/

/-- The times of the dated lines do not decrease. -/
def NonDecreasing (log : List PyStr) : Prop :=
  (packets log).Pairwise fun p q => p.dt.micros ≤ q.dt.micros

/-- Start and end of a sitting. -/
def LogSession.times (s : LogSession) : DateTime × DateTime := (s.startDt, s.endDt)

theorem times_countHandshake (st : Stream) (sessions : List LogSession) :
    (countHandshake st sessions).map LogSession.times = sessions.map LogSession.times := by
  unfold countHandshake
  apply List.ext_getElem?
  intro i
  rw [List.getElem?_map, List.getElem?_map, List.getElem?_modify]
  cases sessions[i]? with
  | none => rfl
  | some s =>
    have hcount : (s.count st.proto).times = s.times := by cases st.proto <;> rfl
    by_cases hi : st.sessionId - 1 = i
    · simp [hi, hcount]
    · simp [hi]

/-- Sittings up to the time `prev`: the last one ends then, and each starts more than 120 s after the
ends of those before it. -/
inductive Spaced : List (DateTime × DateTime) → Option DateTime → Prop where
  | nil : Spaced [] none
  | concat {init : List (DateTime × DateTime)} {start prev : DateTime}
      (forward : ∀ t ∈ init ++ [(start, prev)], t.1.micros ≤ t.2.micros)
      (apart : (init ++ [(start, prev)]).Pairwise fun t u => gap t.2 u.1) :
      Spaced (init ++ [(start, prev)]) (some prev)

theorem modify_last {α : Type} (l : List α) (a : α) (f : α → α) :
    (l ++ [a]).modify ((l ++ [a]).length - 1) f = l ++ [f a] := by
  rw [List.length_append, List.length_singleton, Nat.add_sub_cancel]
  induction l with
  | nil => rfl
  | cons b l ih => simpa using ih

/-- A new sitting starts and ends with the line that opens it. -/
theorem times_observe_new {s : ParseState} {dt : DateTime} (h : newSitting s.prevDt dt = true) :
    (s.observe dt).sessions.map LogSession.times = s.sessions.map LogSession.times ++ [(dt, dt)] := by
  unfold ParseState.observe
  rw [if_pos h]
  dsimp only
  rw [modify_last, List.map_append]
  rfl

/-- Another line of a sitting becomes its end. -/
theorem times_observe_old {s : ParseState} {dt start prev : DateTime} {init : List (DateTime × DateTime)}
    (h : newSitting s.prevDt dt = false) (htimes : s.sessions.map LogSession.times = init ++ [(start, prev)]) :
    (s.observe dt).sessions.map LogSession.times = init ++ [(start, dt)] := by
  rcases List.map_eq_append_iff.mp htimes with ⟨sessions, rest, heq, rfl, hrest⟩
  rcases List.map_eq_singleton_iff.mp hrest with ⟨last, rfl, hlast⟩
  have hstart : last.startDt = start := congrArg Prod.fst hlast
  unfold ParseState.observe
  rw [if_neg (by simp [h])]
  dsimp only
  rw [heq, modify_last, List.map_append]
  simp [LogSession.times, hstart]

/-- A line that is not older than the last one prolongs the last sitting or opens one that is apart from
all of them. -/
theorem Spaced.observe {s : ParseState} {dt : DateTime}
    (h : Spaced (s.sessions.map LogSession.times) s.prevDt)
    (hle : ∀ prev, s.prevDt = some prev → prev.micros ≤ dt.micros) :
    Spaced ((s.observe dt).sessions.map LogSession.times) (s.observe dt).prevDt := by
  rw [ParseState.prevDt_observe]
  cases hnew : newSitting s.prevDt dt with
  | true =>
    rw [times_observe_new hnew]
    generalize s.sessions.map LogSession.times = times at h
    cases hprev : s.prevDt with
    | none =>
      rw [hprev] at h
      cases h
      exact .concat (by simp) (by simp)
    | some prev =>
      rw [hprev] at h hnew
      have hgap : gap prev dt := of_decide_eq_true hnew
      cases h with
      | @concat init start _ forward apart =>
        apply Spaced.concat
        · intro t ht
          rcases List.mem_append.mp ht with ht | ht
          · exact forward t ht
          · rw [List.mem_singleton.mp ht]
        · rw [List.pairwise_append]
          refine ⟨apart, List.pairwise_singleton _ _, ?_⟩
          intro t ht u hu
          rw [List.mem_singleton.mp hu]
          rcases List.mem_append.mp ht with ht | ht
          · -- an earlier sitting ended before the last one started
            have hbefore := (List.pairwise_append.mp apart).2.2 t ht (start, prev) (by simp)
            have hlast := forward (start, prev) (by simp)
            unfold gap at *
            dsimp only at *
            omega
          · rw [List.mem_singleton.mp ht]
            exact hgap
  | false =>
    cases hprev : s.prevDt with
    | none =>
      rw [hprev] at hnew
      cases hnew
    | some prev =>
      have hstep := hle prev hprev
      generalize htimes : s.sessions.map LogSession.times = times at h
      rw [hprev] at h
      cases h with
      | @concat init start _ forward apart =>
        rw [times_observe_old hnew htimes]
        apply Spaced.concat
        · intro t ht
          rcases List.mem_append.mp ht with ht | ht
          · exact forward t (by simp [ht])
          · rw [List.mem_singleton.mp ht]
            exact Nat.le_trans (forward (start, prev) (by simp)) hstep
        · rw [List.pairwise_append] at apart ⊢
          refine ⟨apart.1, List.pairwise_singleton _ _, ?_⟩
          intro t ht u hu
          rw [List.mem_singleton.mp hu]
          exact apart.2.2 t ht (start, prev) (by simp)

theorem times_track (s : ParseState) (e : Event) :
    (s.track e).sessions.map LogSession.times = s.sessions.map LogSession.times := by
  rcases ParseState.track_cases s e with ⟨-, heq⟩ | ⟨st, -, heq⟩
  · rw [heq]
  · rw [heq]
    unfold ParseState.close
    split
    · exact times_countHandshake _ _
    · rfl

theorem times_step (s : ParseState) (p : Packet) :
    (s.step p).sessions.map LogSession.times = (s.observe p.dt).sessions.map LogSession.times := by
  unfold ParseState.step
  cases he : p.event? (s.observe p.dt).currentSessionId with
  | none => simp [he]
  | some e => simpa [he] using times_track (s.observe p.dt) e

/-- A run over lines whose times do not decrease. -/
theorem spaced_run {s : ParseState} {ps : List Packet}
    (h : Spaced (s.sessions.map LogSession.times) s.prevDt)
    (hfirst : ∀ prev, s.prevDt = some prev → ∀ p ∈ ps, prev.micros ≤ p.dt.micros)
    (hps : ps.Pairwise fun p q => p.dt.micros ≤ q.dt.micros) :
    Spaced ((run ParseState.step s ps).sessions.map LogSession.times) (run ParseState.step s ps).prevDt := by
  induction ps generalizing s with
  | nil => exact h
  | cons p ps ih =>
    rw [List.pairwise_cons] at hps
    have hobs := h.observe fun prev hprev => hfirst prev hprev p List.mem_cons_self
    have hprev := (ParseState.step_spec s p).2.1
    rw [run_cons]
    apply ih _ _ hps.2
    · rw [times_step, hprev, ← ParseState.prevDt_observe s p.dt]
      exact hobs
    · intro prev hsome q hq
      rw [hprev, Option.some.injEq] at hsome
      rw [← hsome]
      exact hps.1 q hq

theorem times_foldl_sweepStep (r : ParsedLog) (sts : List Stream) :
    (sts.foldl sweepStep r).sessions.map LogSession.times = r.sessions.map LogSession.times := by
  induction sts generalizing r with
  | nil => rfl
  | cons st sts ih =>
    rw [List.foldl_cons, ih]
    unfold sweepStep
    cases st.sweep with
    | none => rfl
    | some st' => exact times_countHandshake st' r.sessions

theorem parseLog_spaced {log : List PyStr} (h : NonDecreasing log) :
    ∃ last, Spaced ((parseLog log).sessions.map LogSession.times) last := by
  have hrun := spaced_run (s := ParseState.init) Spaced.nil (by simp [ParseState.init]) h
  refine ⟨(run ParseState.step ParseState.init (packets log)).prevDt, ?_⟩
  unfold parseLog ParseState.finish
  rw [times_foldl_sweepStep]
  exact hrun

theorem Spaced.forward {times : List (DateTime × DateTime)} {last : Option DateTime}
    (h : Spaced times last) : ∀ t ∈ times, t.1.micros ≤ t.2.micros := by
  cases h with
  | nil => simp
  | concat forward apart => exact forward

theorem Spaced.apart {times : List (DateTime × DateTime)} {last : Option DateTime}
    (h : Spaced times last) : times.Pairwise fun t u => gap t.2 u.1 := by
  cases h with
  | nil => exact List.Pairwise.nil
  | concat forward apart => exact apart

/-! ## The result -/

/-- Every handshake belongs to one of the sittings, which are numbered from 1 and whose counters agree
with the handshakes; and if the times of the log do not decrease, the sittings are intervals that lie in
this order with more than 120 s between any two. -/
theorem sittings_agree (log : List PyStr) :
    (∀ h ∈ (parseLog log).handshakes,
        1 ≤ h.sessionId ∧ h.sessionId ≤ (parseLog log).sessions.length) ∧
      (∀ i s, (parseLog log).sessions[i]? = some s → s.id = i + 1 ∧
        ∀ proto, s.tally proto = handshakesOf s.id proto (parseLog log).handshakes) ∧
      (NonDecreasing log →
        (∀ s ∈ (parseLog log).sessions, s.startDt.micros ≤ s.endDt.micros) ∧
          (parseLog log).sessions.Pairwise fun s t => gap s.endDt t.startDt) := by
  have htallied := parseLog_tallied log
  refine ⟨htallied.valid, ?_, ?_⟩
  · intro i s hs
    rcases htallied.entry i s hs with ⟨hid, htally⟩
    rw [hid]
    exact ⟨rfl, htally⟩
  · intro hlog
    rcases parseLog_spaced hlog with ⟨last, hspaced⟩
    constructor
    · intro s hs
      exact hspaced.forward s.times (List.mem_map_of_mem hs)
    · have hapart := hspaced.apart
      rw [List.pairwise_map] at hapart
      exact hapart

/-- A handshake, and a SYN three minutes later. -/
def twoSittingsLog : List PyStr :=
  [captureLine (lit "08:24:23.651742") (lit "192.168.1.3.60420") (lit "192.168.1.9.8443") (lit "S") 0,
   captureLine (lit "08:24:23.652100") (lit "192.168.1.3.60420") (lit "192.168.1.9.8443") (lit "P.") 1249,
   captureLine (lit "08:24:23.660250") (lit "192.168.1.9.8443") (lit "192.168.1.3.60420") (lit "P.") 1268,
   captureLine (lit "08:24:23.667114") (lit "192.168.1.9.8443") (lit "192.168.1.3.60420") (lit "F.") 0,
   captureLine (lit "08:27:23.667115") (lit "192.168.1.3.60421") (lit "192.168.1.9.8443") (lit "S") 0]

theorem sittings_agree_two :
    (parseLog twoSittingsLog).sessions.Pairwise fun s t => gap s.endDt t.startDt :=
  ((sittings_agree twoSittingsLog).2.2 (by unfold NonDecreasing; decide +kernel)).2

end HybridPqc
