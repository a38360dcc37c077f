import Mathlib.Data.Nat.Init

/-!
# Loops

A `while` loop, given by its iteration: `next s` is the state after one more iteration, `none` if the loop
ends in the state `s`. The rules below package the induction over the iterations once.
-/

namespace Loops

variable {σ : Type} {next : σ → Option σ}

/-- The state in which the loop ends, `none` if it has not ended after `fuel` tests. -/
def loop (next : σ → Option σ) : Nat → σ → Option σ
  | 0, _ => none
  | fuel + 1, s =>
    match next s with
    | none => some s
    | some s' => loop next fuel s'

/-- What every iteration preserves holds at the end, where the loop goes no further. -/
theorem loop_invariant {Inv : σ → Prop} (hstep : ∀ s s', Inv s → next s = some s' → Inv s')
    {fuel : Nat} {s t : σ} (hs : Inv s) (h : loop next fuel s = some t) : Inv t ∧ next t = none := by
  induction fuel generalizing s with
  | zero => cases h
  | succ fuel ih =>
    rw [loop] at h
    cases hnext : next s with
    | none =>
      rw [hnext, Option.some.injEq] at h
      rw [← h]
      exact ⟨hs, hnext⟩
    | some s' =>
      rw [hnext] at h
      exact ih (hstep s s' hs hnext) h

/-- A loop ends if every iteration lowers a measure. -/
theorem exists_loop {Inv : σ → Prop} (measure : σ → Nat)
    (hstep : ∀ s s', Inv s → next s = some s' → Inv s' ∧ measure s' < measure s)
    {fuel : Nat} {s : σ} (hs : Inv s) (hfuel : measure s < fuel) : ∃ t, loop next fuel s = some t := by
  induction fuel generalizing s with
  | zero => omega
  | succ fuel ih =>
    rw [loop]
    cases hnext : next s with
    | none => exact ⟨s, rfl⟩
    | some s' =>
      rcases hstep s s' hs hnext with ⟨hs', hlower⟩
      exact ih hs' (by omega)

/-- More fuel changes nothing. -/
theorem loop_mono {fuel fuel' : Nat} (hle : fuel ≤ fuel') {s t : σ} (h : loop next fuel s = some t) :
    loop next fuel' s = some t := by
  induction fuel generalizing s fuel' with
  | zero => cases h
  | succ fuel ih =>
    cases fuel' with
    | zero => omega
    | succ fuel' =>
      rw [loop] at h ⊢
      cases hnext : next s with
      | none =>
        rw [hnext] at h
        exact h
      | some s' =>
        rw [hnext] at h
        exact ih (by omega) h

end Loops
