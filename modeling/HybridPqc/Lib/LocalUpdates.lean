import Mathlib.Data.List.Range

/-!
# Loops of disjoint in-place updates

A loop over the cells of a store whose iterations each read and write cells of their own. Such a loop sets every
cell to what its own iteration computes from the store before the loop, whatever the other iterations do.
-/

namespace LocalUpdates

variable {S J X V : Type*} (get : S → X → V) (step : S → J → S) (owner : X → J)

/-- An iteration of `js` reads and writes only the cells it owns. -/
structure Local (js : List J) : Prop where
  /-- Other cells are unchanged. -/
  frame : ∀ j ∈ js, ∀ s x, owner x ≠ j → get (step s j) x = get s x
  /-- The cells written depend on the iteration's own cells only. -/
  depends : ∀ j ∈ js, ∀ s t, (∀ x, owner x = j → get s x = get t x) →
    ∀ x, owner x = j → get (step s j) x = get (step t j) x

variable {get step owner}

theorem Local.of_cons {j : J} {js : List J} (h : Local get step owner (j :: js)) :
    Local get step owner js :=
  ⟨fun i hi => h.frame i (List.mem_cons_of_mem j hi), fun i hi => h.depends i (List.mem_cons_of_mem j hi)⟩

theorem get_foldl_of_notMem {js : List J} (h : Local get step owner js) (s : S) {x : X}
    (hx : owner x ∉ js) : get (js.foldl step s) x = get s x := by
  induction js generalizing s with
  | nil => rfl
  | cons j js ih =>
    rw [List.foldl_cons, ih h.of_cons _ (fun hmem => hx (List.mem_cons_of_mem j hmem))]
    exact h.frame j (List.mem_cons_self ..) s x fun heq => hx (heq ▸ List.mem_cons_self ..)

/-- A cell ends with the value that its own iteration gives it from the store before the loop. -/
theorem get_foldl_of_mem {js : List J} (h : Local get step owner js) (hnodup : js.Nodup) (s : S) {x : X}
    (hx : owner x ∈ js) : get (js.foldl step s) x = get (step s (owner x)) x := by
  induction js generalizing s with
  | nil => exact absurd hx (List.not_mem_nil)
  | cons j js ih =>
    rcases List.nodup_cons.mp hnodup with ⟨hj, hjs⟩
    rw [List.foldl_cons]
    by_cases heq : owner x = j
    · rw [get_foldl_of_notMem h.of_cons _ (heq ▸ hj), heq]
    · have hmem : owner x ∈ js := (List.mem_cons.mp hx).resolve_left heq
      rw [ih h.of_cons hjs _ hmem]
      -- The first iteration does not touch the cells of this one.
      refine h.depends _ (List.mem_cons_of_mem j hmem) _ _ (fun y hy => ?_) x rfl
      exact h.frame j (List.mem_cons_self ..) s y (by rw [hy]; exact heq)

/-- A loop that counts its iterations upwards. -/
theorem foldl_counter_up {f : ℕ → S → ℕ → S} (k : ℕ) (s : S) (n : ℕ) :
    (List.range n).foldl (fun (p : ℕ × S) b => (p.1 + 1, f p.1 p.2 b)) (k, s) =
      (k + n, (List.range n).foldl (fun s b => f (k + b) s b) s) := by
  induction n with
  | zero => rfl
  | succ n ih => simp [List.range_succ, ih, Nat.add_assoc]

/-- A loop that counts its iterations downwards. -/
theorem foldl_counter_down {f : ℕ → S → ℕ → S} (k : ℕ) (s : S) (n : ℕ) :
    (List.range n).foldl (fun (p : ℕ × S) b => (p.1 - 1, f p.1 p.2 b)) (k, s) =
      (k - n, (List.range n).foldl (fun s b => f (k - b) s b) s) := by
  induction n with
  | zero => rfl
  | succ n ih => simp [List.range_succ, ih, Nat.sub_sub]

end LocalUpdates
