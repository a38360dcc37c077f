import Mathlib.Logic.Relation
import Mathlib.Tactic.Linarith

/-!
# Guarded runs

A transition system whose step is a function of the state and of an event: every choice of the
environment (inputs, random draws, outcomes of library calls, the order of the steps) is in the
event. A *guard* restricts which event may occur in which state; it carries the assumptions about the
environment. The rules below package the induction over a run once.
-/

namespace GuardedRuns

variable {σ ε : Type} (step : σ → ε → σ)

/-- The state after the events `es`. -/
def run (s : σ) (es : List ε) : σ := es.foldl step s

/-- Every event of the run satisfies the guard `P` in the state in which it occurs. -/
def Guarded (P : σ → ε → Prop) : σ → List ε → Prop
  | _, [] => True
  | s, e :: es => P s e ∧ Guarded P (step s e) es

/-- What the events of the run put out, one after the other. -/
def trace {ω : Type} (out : σ → ε → List ω) : σ → List ε → List ω
  | _, [] => []
  | s, e :: es => out s e ++ trace out (step s e) es

variable {step}

@[simp] theorem run_nil (s : σ) : run step s [] = s := rfl

@[simp] theorem run_cons (s : σ) (e : ε) (es : List ε) :
    run step s (e :: es) = run step (step s e) es := rfl

theorem run_append (s : σ) (es es' : List ε) :
    run step s (es ++ es') = run step (run step s es) es' := by
  simp [run]

theorem guarded_append {P : σ → ε → Prop} {s : σ} {es es' : List ε} :
    Guarded step P s (es ++ es') ↔ Guarded step P s es ∧ Guarded step P (run step s es) es' := by
  induction es generalizing s with
  | nil => simp [Guarded]
  | cons e es ih => simp [Guarded, ih, and_assoc]

theorem trace_append {ω : Type} (out : σ → ε → List ω) (s : σ) (es es' : List ε) :
    trace step out s (es ++ es') = trace step out s es ++ trace step out (run step s es) es' := by
  induction es generalizing s with
  | nil => rfl
  | cons e es ih => simp [trace, ih]

theorem trace_congr {ω : Type} {out out' : σ → ε → List ω} {es : List ε}
    (h : ∀ e ∈ es, ∀ s, out s e = out' s e) (s : σ) :
    trace step out s es = trace step out' s es := by
  induction es generalizing s with
  | nil => rfl
  | cons e es ih =>
    rw [trace, trace, h e (by simp), ih fun e' he' => h e' (by simp [he'])]

/-- A log to which every event appends what it puts out holds the trace of the run. -/
theorem log_eq_trace {ω : Type} (log : σ → List ω) (out : σ → ε → List ω)
    (hstep : ∀ s e, log (step s e) = log s ++ out s e) (s : σ) (es : List ε) :
    log (run step s es) = log s ++ trace step out s es := by
  induction es generalizing s with
  | nil => simp [trace]
  | cons e es ih => rw [run_cons, ih, hstep, trace, List.append_assoc]

/-- Two-run rule: the events that fail `q` neither change what `view` shows of a state nor put
anything out, and what the others do depends only on the view; then leaving the former out of a run
changes neither the view of its final state nor what it puts out. -/
theorem run_filter {ω β : Type} (view : σ → β) (out : σ → ε → List ω) (q : ε → Bool)
    (hskip : ∀ s e, q e = false → view (step s e) = view s ∧ out s e = [])
    (hkeep : ∀ s s' e, q e = true → view s = view s' →
      view (step s e) = view (step s' e) ∧ out s e = out s' e)
    {s s' : σ} (hview : view s = view s') (es : List ε) :
    view (run step s es) = view (run step s' (es.filter q)) ∧
      trace step out s es = trace step out s' (es.filter q) := by
  induction es generalizing s s' with
  | nil => exact ⟨hview, rfl⟩
  | cons e es ih =>
    cases hq : q e with
    | false =>
      obtain ⟨hv, ho⟩ := hskip s e hq
      rw [List.filter_cons_of_neg (by simp [hq]), run_cons, trace, ho, List.nil_append]
      exact ih (hv.trans hview)
    | true =>
      obtain ⟨hv, ho⟩ := hkeep s s' e hq hview
      rw [List.filter_cons_of_pos hq, run_cons, run_cons, trace, trace, ho]
      obtain ⟨h1, h2⟩ := ih hv
      exact ⟨h1, by rw [h2]⟩

theorem Guarded.mono {P Q : σ → ε → Prop} (hPQ : ∀ s e, P s e → Q s e) {s : σ} {es : List ε}
    (h : Guarded step P s es) : Guarded step Q s es := by
  induction es generalizing s with
  | nil => trivial
  | cons e es ih => exact ⟨hPQ s e h.1, ih h.2⟩

/-- What the guard says of an event alone holds of every event of a guarded run. -/
theorem Guarded.forall_mem {P : σ → ε → Prop} {Q : ε → Prop} (hPQ : ∀ s e, P s e → Q e) {s : σ}
    {es : List ε} (h : Guarded step P s es) : ∀ e ∈ es, Q e := by
  induction es generalizing s with
  | nil => simp
  | cons e es ih =>
    intro e' he'
    rcases List.mem_cons.mp he' with rfl | he'
    · exact hPQ s e' h.1
    · exact ih h.2 e' he'

theorem guarded_of_forall {Q : ε → Prop} {es : List ε} (h : ∀ e ∈ es, Q e) (s : σ) :
    Guarded step (fun _ e => Q e) s es := by
  induction es generalizing s with
  | nil => trivial
  | cons e es ih => exact ⟨h e (by simp), ih (fun e' he' => h e' (List.mem_cons_of_mem e he')) _⟩

/-- What every step keeps holds after every run. -/
theorem run_invariant {I : σ → Prop} (hstep : ∀ s e, I s → I (step s e)) {s : σ} (hs : I s)
    (es : List ε) : I (run step s es) := by
  induction es generalizing s with
  | nil => exact hs
  | cons e es ih => exact ih (hstep s e hs)

/-- Refinement: when every step is, for `view`, the run of what `f` makes of its event, every run is. -/
theorem run_flatMap {τ δ : Type} {step' : τ → δ → τ} (view : σ → τ) (f : ε → List δ)
    (hstep : ∀ s e, view (step s e) = run step' (view s) (f e)) (s : σ) (es : List ε) :
    view (run step s es) = run step' (view s) (es.flatMap f) := by
  induction es generalizing s with
  | nil => rfl
  | cons e es ih => rw [run_cons, ih, hstep, List.flatMap_cons, run_append]

/-- The invariant rule: what every guarded step keeps holds after every guarded run. -/
theorem Guarded.invariant {P : σ → ε → Prop} {I : σ → Prop}
    (hstep : ∀ s e, I s → P s e → I (step s e)) {s : σ} {es : List ε} (hs : I s)
    (h : Guarded step P s es) : I (run step s es) := by
  induction es generalizing s with
  | nil => exact hs
  | cons e es ih => exact ih (hstep s e hs h.1) h.2

/-- The invariant rule with a second, already established invariant `J` to lean on. -/
theorem Guarded.invariant_of {P : σ → ε → Prop} {I J : σ → Prop}
    (hJ : ∀ s e, J s → P s e → J (step s e)) (hstep : ∀ s e, J s → I s → P s e → I (step s e))
    {s : σ} {es : List ε} (hsJ : J s) (hs : I s) (h : Guarded step P s es) :
    I (run step s es) := by
  have hboth : J (run step s es) ∧ I (run step s es) :=
    Guarded.invariant (I := fun s => J s ∧ I s)
      (fun s e hI hP => ⟨hJ s e hI.1 hP, hstep s e hI.1 hI.2 hP⟩) ⟨hsJ, hs⟩ h
  exact hboth.2

/-- Two guards that agree wherever an invariant holds allow the same runs. -/
theorem guarded_iff {P Q : σ → ε → Prop} {I : σ → Prop} (hiff : ∀ s e, I s → (P s e ↔ Q s e))
    (hstep : ∀ s e, I s → P s e → I (step s e)) {s : σ} {es : List ε} (hs : I s) :
    Guarded step P s es ↔ Guarded step Q s es := by
  induction es generalizing s with
  | nil => exact Iff.rfl
  | cons e es ih =>
    constructor
    · rintro ⟨hP, hrest⟩
      exact ⟨(hiff s e hs).mp hP, (ih (hstep s e hs hP)).mp hrest⟩
    · rintro ⟨hQ, hrest⟩
      have hP := (hiff s e hs).mpr hQ
      exact ⟨hP, (ih (hstep s e hs hP)).mpr hrest⟩

end GuardedRuns
