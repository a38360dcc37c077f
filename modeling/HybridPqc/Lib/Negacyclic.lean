import HybridPqc.Lib.SplitTransform

/-!
# Negacyclic convolution

The product of `R[X]/(X^N + 1)` on vectors of coefficients.
-/

namespace SplitTransform

open Polynomial

variable {R : Type*} [CommRing R] (N : ℕ) (f g : ℕ → R)

/-- The vector `g` times `X^i`: what leaves at the top comes back at the bottom with the opposite sign. -/
def shiftUp (i k : ℕ) : R := if i ≤ k then g (k - i) else -g (N + k - i)

/-- The coefficients of the product. -/
def convolution (k : ℕ) : R := ∑ i ∈ Finset.range N, f i * shiftUp N g i k

variable {N}

/-- The class of the variable. -/
noncomputable abbrev var (N : ℕ) : Negacyclic R N := AdjoinRoot.root (X ^ N + 1 : R[X])

theorem var_pow : var N ^ N = (-1 : Negacyclic R N) := by
  have h : AdjoinRoot.mk (X ^ N + 1 : R[X]) (X ^ N + 1) = 0 := AdjoinRoot.mk_self
  rw [map_add, map_pow, map_one, AdjoinRoot.mk_X] at h
  exact eq_neg_of_add_eq_zero_left h

theorem ofCoeffs_eq_sum : ofCoeffs N f = ∑ i ∈ Finset.range N, AdjoinRoot.of _ (f i) * var N ^ i := by
  rw [ofCoeffs, blockPoly, map_sum]
  refine Finset.sum_congr rfl fun i _ => ?_
  rw [zero_add, map_mul, AdjoinRoot.mk_C, map_pow, AdjoinRoot.mk_X]

/-- A power of the variable acts as the shift. -/
theorem var_pow_mul_ofCoeffs {i : ℕ} (hi : i ≤ N) : var N ^ i * ofCoeffs N g = ofCoeffs N (shiftUp N g i) := by
  rcases Nat.exists_eq_add_of_le hi with ⟨d, hd⟩
  have hsplit : ofCoeffs N g = ∑ j ∈ Finset.range d, AdjoinRoot.of _ (g j) * var N ^ j +
      ∑ j ∈ Finset.range i, AdjoinRoot.of _ (g (d + j)) * var N ^ (d + j) := by
    rw [ofCoeffs_eq_sum, ← Finset.sum_range_add]
    congr 2
    omega
  have hshift : ofCoeffs N (shiftUp N g i) =
      ∑ j ∈ Finset.range i, AdjoinRoot.of _ (shiftUp N g i j) * var N ^ j +
      ∑ j ∈ Finset.range d, AdjoinRoot.of _ (shiftUp N g i (i + j)) * var N ^ (i + j) := by
    rw [ofCoeffs_eq_sum, ← Finset.sum_range_add]
    congr 2
  rw [hsplit, hshift, mul_add, add_comm]
  congr 1
  · rw [Finset.mul_sum]
    refine Finset.sum_congr rfl fun j hj => ?_
    have hlt : ¬ i ≤ j := by
      have := Finset.mem_range.mp hj
      omega
    have hwrap : var N ^ i * var N ^ (d + j) = -(var N ^ j : Negacyclic R N) := by
      rw [← pow_add, ← add_assoc, ← hd, pow_add, var_pow, neg_one_mul]
    rw [shiftUp, if_neg hlt, show N + j - i = d + j by omega, map_neg, mul_left_comm, hwrap]
    ring
  · rw [Finset.mul_sum]
    refine Finset.sum_congr rfl fun j _ => ?_
    rw [shiftUp, if_pos (Nat.le_add_right i j), Nat.add_sub_cancel_left, pow_add]
    ring

theorem ofCoeffs_add (h : ℕ → R) (heq : ∀ x < N, h x = f x + g x) :
    ofCoeffs N h = ofCoeffs N f + ofCoeffs N g := by
  rw [ofCoeffs_linear 1 1 (f := f) (g := g) fun x hx => by rw [heq x hx, one_mul, one_mul], map_one, one_mul,
    one_mul]

theorem ofCoeffs_sub (h : ℕ → R) (heq : ∀ x < N, h x = f x - g x) :
    ofCoeffs N h = ofCoeffs N f - ofCoeffs N g := by
  rw [eq_sub_iff_add_eq]
  exact (ofCoeffs_add h g f fun x hx => by rw [heq x hx, sub_add_cancel]).symm

theorem ofCoeffs_sum {ι : Type*} (s : Finset ι) (F : ι → ℕ → R) :
    ofCoeffs N (fun x => ∑ i ∈ s, F i x) = ∑ i ∈ s, ofCoeffs N (F i) := by
  simp only [ofCoeffs_eq_sum, map_sum, Finset.sum_mul]
  exact Finset.sum_comm

/-- Convolution of the coefficients is multiplication of the elements. -/
theorem ofCoeffs_convolution : ofCoeffs N (convolution N f g) = ofCoeffs N f * ofCoeffs N g := by
  have hterm : ∀ i ∈ Finset.range N,
      ofCoeffs N (fun k => f i * shiftUp N g i k) = AdjoinRoot.of _ (f i) * var N ^ i * ofCoeffs N g := by
    intro i hi
    rw [ofCoeffs_linear (f i) 0 (f := shiftUp N g i) (g := g) fun x _ => by rw [zero_mul, add_zero], map_zero,
      zero_mul, add_zero, ← var_pow_mul_ofCoeffs g (Finset.mem_range.mp hi).le, mul_assoc]
  have hsum : ofCoeffs N (convolution N f g) =
      ∑ i ∈ Finset.range N, ofCoeffs N (fun k => f i * shiftUp N g i k) := ofCoeffs_sum _ _
  rw [hsum, Finset.sum_congr rfl hterm, ← Finset.sum_mul, ← ofCoeffs_eq_sum]

end SplitTransform
