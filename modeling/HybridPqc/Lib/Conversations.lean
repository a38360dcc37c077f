import HybridPqc.Lib.Dict
import HybridPqc.Lib.GuardedRuns

/-!
# Conversations in a sequence of events

Events that belong to conversations, each under a key. An opening event starts a conversation, in place
of the one that is open under its key; every event is fed to the conversation that is open under its
key, and one that it closes is reported and leaves the table. At the end the table is swept. The
sequence of events determines which conversations there are; a run reports each of them as it does when
it sees the packets of that conversation alone.
-/

open GuardedRuns

/-- How events belong to conversations, and how these start, go on and end. -/
structure Conversations (κ ε σ : Type) where
  key : ε → κ
  /-- The event starts a conversation. -/
  opens : ε → Bool
  start : ε → σ
  feed : σ → ε → σ
  /-- The event that leads to this state closes the conversation. -/
  closes : σ → ε → Bool
  /-- What is reported of a conversation that is never closed. -/
  sweep : σ → Option σ

namespace Conversations

/-- The open conversations, and the reports so far. -/
structure Table (κ σ : Type) where
  current : Dict κ σ
  reports : List σ

/-- An opening event with the later events of its key up to the next opening one; `superseded` when
there is a next one. -/
structure Conversation (ε : Type) where
  opening : ε
  rest : List ε
  superseded : Bool

def Conversation.events {ε : Type} (c : Conversation ε) : List ε := c.opening :: c.rest

variable {κ ε σ : Type} [DecidableEq κ] (R : Conversations κ ε σ)

/-! ## The table -/

/-- The conversation of an event, after the event, is reported or stays open. -/
def close (t : Table κ σ) (e : ε) (s : σ) : Table κ σ :=
  if R.closes s e then ⟨t.current.erase (R.key e), t.reports ++ [s]⟩
  else { t with current := t.current.set (R.key e) s }

/-- An event. -/
def step (t : Table κ σ) (e : ε) : Table κ σ :=
  let t := if R.opens e then { t with current := t.current.set (R.key e) (R.start e) } else t
  match t.current.get? (R.key e) with
  | none => t
  | some s => R.close t e (R.feed s e)

/-- The reports after the end of the events. -/
def finish (t : Table κ σ) : List σ :=
  t.reports ++ (t.current.entries.map Prod.snd).filterMap R.sweep

/-- What is reported for a sequence of events. -/
def reports (es : List ε) : List σ := R.finish (run R.step ⟨Dict.empty, []⟩ es)

/-! ## The conversations -/

/-- The events of the conversation that is open under `k`. -/
def own (k : κ) (es : List ε) : List ε :=
  (es.filter fun e => decide (R.key e = k)).takeWhile fun e => !R.opens e

/-- Another conversation is opened under `k`. -/
def reopened (k : κ) (es : List ε) : Bool := es.any fun e => decide (R.key e = k) && R.opens e

def conversations : List ε → List (Conversation ε)
  | [] => []
  | e :: es =>
    if R.opens e then ⟨e, R.own (R.key e) es, R.reopened (R.key e) es⟩ :: conversations es
    else conversations es

/-- What is reported of a conversation in state `s` with the events to come. -/
def outcome (superseded : Bool) : σ → List ε → Option σ
  | s, [] => if superseded then none else R.sweep s
  | s, e :: es => if R.closes (R.feed s e) e then some (R.feed s e)
      else outcome superseded (R.feed s e) es

/-- What is reported of a conversation. -/
def reported (c : Conversation ε) : Option σ := R.outcome c.superseded (R.start c.opening) c.events

variable {R}

/-! ## A conversation is part of the sequence -/

theorem mem_conversations {c : Conversation ε} {es : List ε} (h : c ∈ R.conversations es) :
    ∃ pre post, es = pre ++ c.opening :: post ∧ R.opens c.opening = true ∧
      c.rest = R.own (R.key c.opening) post ∧ c.superseded = R.reopened (R.key c.opening) post := by
  induction es with
  | nil => simp [conversations] at h
  | cons e es ih =>
    have hlater : c ∈ R.conversations es → ∃ pre post, e :: es = pre ++ c.opening :: post ∧
        R.opens c.opening = true ∧ c.rest = R.own (R.key c.opening) post ∧
        c.superseded = R.reopened (R.key c.opening) post := by
      intro hc
      rcases ih hc with ⟨pre, post, rfl, hrest⟩
      exact ⟨e :: pre, post, rfl, hrest⟩
    rw [conversations] at h
    split at h
    · next hopen =>
      rcases List.mem_cons.mp h with rfl | h
      · exact ⟨[], es, rfl, hopen, rfl, rfl⟩
      · exact hlater h
    · exact hlater h

/-- All events of a conversation have its key. -/
theorem key_of_mem_events {c : Conversation ε} {es : List ε} (h : c ∈ R.conversations es) :
    ∀ e ∈ c.events, R.key e = R.key c.opening := by
  rcases mem_conversations h with ⟨_, post, _, _, hrest, _⟩
  intro e he
  rcases List.mem_cons.mp he with rfl | he
  · rfl
  · rw [hrest] at he
    have hfilter := (List.takeWhile_sublist _).subset he
    simpa using (List.mem_filter.mp hfilter).2

/-- The events of a conversation are events of the sequence, in its order. -/
theorem events_sublist {c : Conversation ε} {es : List ε} (h : c ∈ R.conversations es) :
    c.events.Sublist es := by
  rcases mem_conversations h with ⟨pre, post, rfl, _, hrest, _⟩
  apply List.Sublist.trans _ (List.sublist_append_right pre _)
  apply List.Sublist.cons_cons
  rw [hrest]
  exact (List.takeWhile_sublist _).trans List.filter_sublist

theorem reopened_eq_any_filter (k : κ) (es : List ε) :
    R.reopened k es = (es.filter fun e => decide (R.key e = k)).any R.opens := by
  rw [reopened, List.any_filter]

/-! ## The conversations of the table -/

/-- What becomes of the conversation in state `s` under `k`. -/
def future (R : Conversations κ ε σ) (es : List ε) (p : κ × σ) : Option σ :=
  R.outcome (R.reopened p.1 es) p.2 (R.own p.1 es)

/-- An event with another key is nothing to a conversation. -/
theorem future_cons_of_ne {e : ε} {es : List ε} {p : κ × σ} (h : R.key e ≠ p.1) :
    R.future (e :: es) p = R.future es p := by
  unfold future own reopened
  rw [List.filter_cons_of_neg (by simpa using h), List.any_cons, decide_eq_false h, Bool.false_and,
    Bool.false_or]

/-- A conversation that is superseded before it closes is lost. -/
theorem future_cons_of_opens {e : ε} {es : List ε} {s : σ} (h : R.opens e = true) :
    R.future (e :: es) (R.key e, s) = none := by
  have hown : R.own (R.key e) (e :: es) = [] := by
    unfold own
    rw [List.filter_cons_of_pos (by simp), List.takeWhile_cons_of_neg (by simp [h])]
  have hre : R.reopened (R.key e) (e :: es) = true := by simp [reopened, h]
  unfold future
  rw [hown, hre]
  rfl

theorem future_cons {e : ε} {es : List ε} {s : σ} (h : R.opens e = false) :
    R.future (e :: es) (R.key e, s) =
      if R.closes (R.feed s e) e then some (R.feed s e) else R.future es (R.key e, R.feed s e) := by
  have hown : R.own (R.key e) (e :: es) = e :: R.own (R.key e) es := by
    unfold own
    rw [List.filter_cons_of_pos (by simp), List.takeWhile_cons_of_pos (by simp [h])]
  have hre : R.reopened (R.key e) (e :: es) = R.reopened (R.key e) es := by simp [reopened, h]
  unfold future
  rw [hown, hre]
  rfl

/-- The report of a conversation that an event opens. -/
theorem reported_opening (e : ε) (es : List ε) :
    R.reported ⟨e, R.own (R.key e) es, R.reopened (R.key e) es⟩ =
      if R.closes (R.feed (R.start e) e) e then some (R.feed (R.start e) e)
      else R.future es (R.key e, R.feed (R.start e) e) := rfl

/-- The conversation under `k`, and the others. -/
theorem future_perm (es : List ε) (d : Dict κ σ) (k : κ) :
    (d.entries.filterMap (R.future es)).Perm
      (((d.get? k).bind fun s => R.future es (k, s)).toList ++
        (d.erase k).entries.filterMap (R.future es)) := by
  cases h : d.get? k with
  | none =>
    rw [Dict.erase_of_get?_eq_none h]
    exact List.Perm.refl _
  | some s =>
    have hperm := (Dict.entries_perm h).filterMap (R.future es)
    rw [List.filterMap_cons] at hperm
    rw [Option.bind_some]
    cases hf : R.future es (k, s) with
    | none =>
      rw [hf] at hperm
      exact hperm
    | some r =>
      rw [hf] at hperm
      exact hperm

/-- An event is nothing to the conversations under other keys. -/
theorem future_erase (e : ε) (es : List ε) (d : Dict κ σ) :
    (d.erase (R.key e)).entries.filterMap (R.future (e :: es)) =
      (d.erase (R.key e)).entries.filterMap (R.future es) := by
  apply List.filterMap_congr
  intro p hp
  exact future_cons_of_ne (Dict.ne_of_mem_entries_erase hp).symm

/-- The reports to come, for the conversations in the table and for those to be opened. -/
def pending (R : Conversations κ ε σ) (t : Table κ σ) (es : List ε) : List σ :=
  t.reports ++ (t.current.entries.filterMap (R.future es) ++ (R.conversations es).filterMap R.reported)

/-- What an event makes of the conversation under its key, the others being as before. -/
theorem pending_close (t : Table κ σ) (e : ε) (s : σ) (es : List ε) :
    (R.pending (R.close t e s) es).Perm
      (t.reports ++ (((if R.closes s e then some s else R.future es (R.key e, s)).toList ++
        (t.current.erase (R.key e)).entries.filterMap (R.future es)) ++
          (R.conversations es).filterMap R.reported)) := by
  unfold close
  split
  · simp [pending]
  · have hperm := future_perm (R := R) es (t.current.set (R.key e) s) (R.key e)
    rw [Dict.get?_set_self, Option.bind_some, Dict.erase_set] at hperm
    exact (hperm.append_right _).append_left t.reports

theorem filterMap_cons_toList {α β : Type} (f : α → Option β) (a : α) (l : List α) :
    (a :: l).filterMap f = (f a).toList ++ l.filterMap f := by
  rw [List.filterMap_cons]
  cases f a <;> rfl

/-- An event keeps the reports to come. -/
theorem pending_step (t : Table κ σ) (e : ε) (es : List ε) :
    (R.pending (R.step t e) es).Perm (R.pending t (e :: es)) := by
  have hsplit := future_perm (R := R) (e :: es) t.current (R.key e)
  rw [future_erase] at hsplit
  have hsplit' := (hsplit.append_right ((R.conversations (e :: es)).filterMap R.reported)).append_left
    t.reports
  apply List.Perm.trans _ hsplit'.symm
  cases hopen : R.opens e with
  | true =>
    -- the conversation that is open under the key is lost, and another one opens
    have hlost : ((t.current.get? (R.key e)).bind fun s => R.future (e :: es) (R.key e, s)) = none := by
      cases t.current.get? (R.key e) with
      | none => rfl
      | some s => exact future_cons_of_opens hopen
    rw [hlost, conversations, if_pos hopen, filterMap_cons_toList, reported_opening]
    have hstep : R.step t e = R.close { t with current := t.current.set (R.key e) (R.start e) } e
        (R.feed (R.start e) e) := by
      simp [step, hopen]
    rw [hstep]
    apply (pending_close _ e _ es).trans
    rw [Dict.erase_set, Option.toList_none, List.nil_append, List.append_assoc]
    exact (List.perm_append_comm_assoc _ _ _).append_left t.reports
  | false =>
    rw [conversations, if_neg (by simp [hopen])]
    cases hs : t.current.get? (R.key e) with
    | none =>
      have hstep : R.step t e = t := by simp [step, hopen, hs]
      rw [hstep, Option.bind_none, Option.toList_none, List.nil_append]
      unfold pending
      rw [Dict.erase_of_get?_eq_none hs]
    | some s =>
      have hstep : R.step t e = R.close t e (R.feed s e) := by simp [step, hopen, hs]
      rw [hstep, Option.bind_some, future_cons hopen]
      exact pending_close t e (R.feed s e) es

/-- A run from any table reports what is pending. -/
theorem finish_run_perm (t : Table κ σ) (es : List ε) :
    (R.finish (run R.step t es)).Perm (R.pending t es) := by
  induction es generalizing t with
  | nil =>
    have heq : R.pending t [] = R.finish t := by
      simp only [pending, finish, conversations, List.filterMap_nil, List.append_nil, List.filterMap_map]
      rfl
    rw [heq]
    exact List.Perm.refl _
  | cons e es ih => exact (ih (R.step t e)).trans (pending_step t e es)

/-- The reports are those of the conversations, each seen alone. -/
theorem reports_perm (es : List ε) :
    (R.reports es).Perm ((R.conversations es).filterMap R.reported) := by
  have hperm := finish_run_perm (R := R) ⟨Dict.empty, []⟩ es
  simpa [reports, pending, Dict.empty] using hperm

/-! ## One conversation -/

section Hearing

omit [DecidableEq κ]

/-- The state after events that do not close the conversation. -/
def feedAll (R : Conversations κ ε σ) (s : σ) (es : List ε) : σ := es.foldl R.feed s

/-- The events of a conversation up to the one that closes it. -/
def heard (R : Conversations κ ε σ) : σ → List ε → List ε
  | _, [] => []
  | s, e :: es => e :: if R.closes (R.feed s e) e then [] else heard R (R.feed s e) es

/-- Some event closes the conversation. -/
def closed (R : Conversations κ ε σ) : σ → List ε → Bool
  | _, [] => false
  | s, e :: es => R.closes (R.feed s e) e || closed R (R.feed s e) es

theorem outcome_eq (superseded : Bool) (s : σ) (es : List ε) :
    R.outcome superseded s es =
      if R.closed s es then some (R.feedAll s (R.heard s es))
      else if superseded then none else R.sweep (R.feedAll s (R.heard s es)) := by
  induction es generalizing s with
  | nil => rfl
  | cons e es ih =>
    rw [outcome, closed, heard]
    cases hc : R.closes (R.feed s e) e with
    | true => simp [feedAll]
    | false => simpa [feedAll] using ih (R.feed s e)

theorem heard_isPrefix (s : σ) (es : List ε) : R.heard s es <+: es := by
  induction es generalizing s with
  | nil => exact List.prefix_refl _
  | cons e es ih =>
    rw [heard, List.cons_prefix_cons]
    refine ⟨rfl, ?_⟩
    split
    · exact List.nil_prefix
    · exact ih _

theorem heard_of_not_closed {s : σ} {es : List ε} (h : R.closed s es = false) :
    R.heard s es = es := by
  induction es generalizing s with
  | nil => rfl
  | cons e es ih =>
    rw [closed, Bool.or_eq_false_iff] at h
    rw [heard, h.1, if_neg (by simp), ih h.2]

@[simp] theorem feedAll_nil (s : σ) : R.feedAll s [] = s := rfl

@[simp] theorem feedAll_cons (s : σ) (e : ε) (es : List ε) :
    R.feedAll s (e :: es) = R.feedAll (R.feed s e) es := rfl

theorem feedAll_concat (s : σ) (es : List ε) (e : ε) :
    R.feedAll s (es ++ [e]) = R.feed (R.feedAll s es) e := by
  simp [feedAll]

/-- A conversation is closed when some event would close it, be it the first such event or not. -/
theorem closed_iff {s : σ} {es : List ε} :
    R.closed s es = true ↔
      ∃ pre e post, es = pre ++ e :: post ∧ R.closes (R.feedAll s (pre ++ [e])) e = true := by
  induction es generalizing s with
  | nil => simp [closed]
  | cons e es ih =>
    rw [closed, Bool.or_eq_true, ih]
    constructor
    · rintro (hc | ⟨pre, e', post, rfl, hc⟩)
      · exact ⟨[], e, es, rfl, hc⟩
      · exact ⟨e :: pre, e', post, rfl, hc⟩
    · rintro ⟨pre, e', post, heq, hc⟩
      cases pre with
      | nil =>
        rw [List.nil_append, List.cons.injEq] at heq
        rcases heq with ⟨rfl, rfl⟩
        exact .inl hc
      | cons a pre =>
        rw [List.cons_append, List.cons.injEq] at heq
        rcases heq with ⟨rfl, rfl⟩
        exact .inr ⟨pre, e', post, rfl, hc⟩

/-- The events that a closed conversation hears end with the one that closes it. -/
theorem heard_of_closed {s : σ} {es : List ε} (h : R.closed s es = true) :
    ∃ pre e, R.heard s es = pre ++ [e] ∧ R.closes (R.feedAll s (pre ++ [e])) e = true := by
  induction es generalizing s with
  | nil => simp [closed] at h
  | cons e es ih =>
    rw [heard]
    cases hc : R.closes (R.feed s e) e with
    | true => exact ⟨[], e, by simp, hc⟩
    | false =>
      rw [closed, hc, Bool.false_or] at h
      rcases ih h with ⟨pre, e', hheard, hcloses⟩
      exact ⟨e :: pre, e', by simp [hheard], hcloses⟩

end Hearing

end Conversations
