import Mathlib.Algebra.Order.BigOperators.Group.List
import Mathlib.Data.NNRat.BigOperators
import Mathlib.Tactic.FieldSimp
import Mathlib.Tactic.Linarith
import Mathlib.Tactic.Ring

/-!
# Mean and variance of a sample

Lists of rational numbers, their mean and population variance, and what becomes of the two when the
sum is divided by another number or the values are rounded.
-/

namespace Samples

/-- The arithmetic mean, zero for the empty list. -/
def mean (xs : List ℚ) : ℚ := xs.sum / xs.length

/-- The population variance. -/
def variance (xs : List ℚ) : ℚ := (xs.map fun x => (x - mean xs) ^ 2).sum / xs.length

/-- A sum over `n` values is divided as by their number exactly when it is zero or `n` is that number. -/
theorem div_eq_mean_iff {xs : List ℚ} {n : Nat} (h : xs.length ≤ n) :
    xs.sum / n = mean xs ↔ xs.sum = 0 ∨ xs.length = n := by
  unfold mean
  by_cases hsum : xs.sum = 0
  · simp [hsum]
  have hpos : 0 < xs.length := by
    rcases List.eq_nil_or_concat xs with rfl | ⟨l, x, rfl⟩
    · simp at hsum
    · simp
  have hlen : (xs.length : ℚ) ≠ 0 := by
    have := Nat.pos_iff_ne_zero.mp hpos
    exact_mod_cast this
  have hn : (n : ℚ) ≠ 0 := by
    have : n ≠ 0 := by omega
    exact_mod_cast this
  rw [div_eq_div_iff hn hlen, mul_right_inj' hsum]
  constructor
  · intro heq
    right
    exact_mod_cast heq
  · rintro (h0 | heq)
    · exact absurd h0 hsum
    · exact_mod_cast heq

/-- What is taken off each value changes the squared deviations by a term of its own. -/
theorem sum_sq_sub (lost : ℚ → ℚ) (m : ℚ) (xs : List ℚ) :
    (xs.map fun x => (x - lost x - m) ^ 2).sum =
      (xs.map fun x => (x - m) ^ 2).sum - 2 * (xs.map fun x => lost x * (x - m)).sum +
        (xs.map fun x => lost x ^ 2).sum := by
  induction xs with
  | nil => simp
  | cons x xs ih =>
    simp only [List.map_cons, List.sum_cons, ih]
    ring

/-- Values with parts taken off have the squared deviations of the values exactly when the squares of the
parts balance their products with the deviations. -/
theorem sum_sq_sub_eq_iff (lost : ℚ → ℚ) (m : ℚ) (xs : List ℚ) :
    (xs.map fun x => (x - lost x - m) ^ 2).sum = (xs.map fun x => (x - m) ^ 2).sum ↔
      (xs.map fun x => lost x ^ 2).sum = 2 * (xs.map fun x => lost x * (x - m)).sum := by
  rw [sum_sq_sub]
  constructor
  · intro h
    linarith
  · intro h
    linarith

end Samples
