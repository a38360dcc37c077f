import Mathlib.RingTheory.AdjoinRoot
import Mathlib.Tactic.LinearCombination
import Mathlib.Tactic.Ring

/-!
# Transforms that split a negacyclic ring

The incomplete number-theoretic transform, over any commutative ring. A vector of `2^m * n` coefficients is
a polynomial modulo `X^N + 1`. One layer splits each block, which stands for a residue modulo `X^(2*len) - z^2`,
into the residues modulo `X^len - z` and `X^len + z`; after `m` layers every block has `n` coefficients.

The roots of the blocks form a binary tree: `zeta k` is a square root of the root of node `k`, whose children
`2 * k` and `2 * k + 1` have the roots `zeta k` and `-zeta k`.
-/

namespace SplitTransform

open Polynomial

variable {R : Type*} [CommRing R]

/-! ## Blocks of coefficients -/

/-- The polynomial whose coefficients are the `len` entries from `start` on. -/
noncomputable def blockPoly (f : ℕ → R) (start len : ℕ) : R[X] :=
  ∑ i ∈ Finset.range len, C (f (start + i)) * X ^ i

theorem blockPoly_congr {f g : ℕ → R} {start len : ℕ} (h : ∀ i < len, f (start + i) = g (start + i)) :
    blockPoly f start len = blockPoly g start len :=
  Finset.sum_congr rfl fun i hi => by rw [h i (Finset.mem_range.mp hi)]

theorem blockPoly_add_len (f : ℕ → R) (start len len' : ℕ) :
    blockPoly f start (len + len') = blockPoly f start len + X ^ len * blockPoly f (start + len) len' := by
  rw [blockPoly, Finset.sum_range_add, blockPoly, blockPoly, Finset.mul_sum]
  congr 1
  refine Finset.sum_congr rfl fun i _ => ?_
  rw [pow_add, add_assoc]
  ring

theorem blockPoly_linear (f g : ℕ → R) (c d : R) (start start' start'' len : ℕ) (h : ℕ → R)
    (heq : ∀ i < len, h (start'' + i) = c * f (start + i) + d * g (start' + i)) :
    blockPoly h start'' len = C c * blockPoly f start len + C d * blockPoly g start' len := by
  simp only [blockPoly, Finset.mul_sum]
  rw [← Finset.sum_add_distrib]
  refine Finset.sum_congr rfl fun i hi => ?_
  rw [heq i (Finset.mem_range.mp hi)]
  simp only [map_add, map_mul]
  ring

theorem natDegree_blockPoly_lt (f : ℕ → R) (start : ℕ) {len : ℕ} (hlen : 0 < len) :
    (blockPoly f start len).natDegree < len := by
  refine lt_of_le_of_lt (natDegree_sum_le_of_forall_le (n := len - 1) _ _ fun i hi => ?_) (by omega)
  exact le_trans (natDegree_C_mul_X_pow_le _ _) (by have := Finset.mem_range.mp hi; omega)

theorem coeff_blockPoly (f : ℕ → R) (start : ℕ) {len i : ℕ} (hi : i < len) :
    (blockPoly f start len).coeff i = f (start + i) := by
  simp only [blockPoly, finsetSum_coeff, coeff_C_mul, coeff_X_pow]
  rw [Finset.sum_eq_single i]
  · simp
  · intro j _ hj
    simp [Ne.symm hj]
  · intro h
    exact absurd (Finset.mem_range.mpr hi) h

/-! ## The tree of roots -/

/-- The root of a node. -/
def root (zeta : ℕ → R) (k : ℕ) : R :=
  if k ≤ 1 then -1 else if k % 2 = 0 then zeta (k / 2) else -zeta (k / 2)

/-- The zetas of a transform with `m` layers. -/
structure IsTree (zeta : ℕ → R) (m : ℕ) : Prop where
  /-- Every node's zeta is a square root of its root. -/
  sq : ∀ k, 0 < k → k < 2 ^ m → zeta k ^ 2 = root zeta k
  /-- Within a layer, the zeta read from the right is the negated inverse. -/
  mirror : ∀ l < m, ∀ b < 2 ^ l, zeta (2 * 2 ^ l - 1 - b) * zeta (2 ^ l + b) = -1

theorem root_double (zeta : ℕ → R) {k : ℕ} (hk : 0 < k) : root zeta (2 * k) = zeta k := by
  rw [root, if_neg (by omega), if_pos (by omega), Nat.mul_div_cancel_left k (by norm_num)]

theorem root_double_add_one (zeta : ℕ → R) {k : ℕ} (hk : 0 < k) : root zeta (2 * k + 1) = -zeta k := by
  rw [root, if_neg (by omega), if_neg (by omega), show (2 * k + 1) / 2 = k by omega]

/-! ## Representation of a polynomial by the residues of its blocks -/

/-- Block `b` of `f` is the residue of `A` modulo `X^len - root (blocks + b)`. -/
def Represents (zeta : ℕ → R) (blocks len : ℕ) (f : ℕ → R) (A : R[X]) : Prop :=
  ∀ b < blocks, X ^ len - C (root zeta (blocks + b)) ∣ A - blockPoly f (len * b) len

section Represents

variable {zeta : ℕ → R} {blocks len : ℕ} {f g : ℕ → R} {A B : R[X]}

theorem block_index_lt {b i : ℕ} (hb : b < blocks) (hi : i < len) : len * b + i < blocks * len := by
  have h : len * (b + 1) ≤ len * blocks := Nat.mul_le_mul_left len hb
  rw [mul_add, mul_one, mul_comm len blocks] at h
  omega

theorem Represents.congr (h : Represents zeta blocks len f A) (heq : ∀ x < blocks * len, f x = g x) :
    Represents zeta blocks len g A := by
  intro b hb
  have hsame : blockPoly f (len * b) len = blockPoly g (len * b) len :=
    blockPoly_congr fun i hi => heq _ (block_index_lt hb hi)
  rw [← hsame]
  exact h b hb

theorem Represents.add (hf : Represents zeta blocks len f A) (hg : Represents zeta blocks len g B) :
    Represents zeta blocks len (fun x => f x + g x) (A + B) := by
  intro b hb
  have hsum := blockPoly_linear f g 1 1 (len * b) (len * b) (len * b) len (fun x => f x + g x)
    fun i _ => by ring
  rw [hsum]
  have heq : A + B - (C 1 * blockPoly f (len * b) len + C 1 * blockPoly g (len * b) len) =
      (A - blockPoly f (len * b) len) + (B - blockPoly g (len * b) len) := by
    rw [C_1]; ring
  rw [heq]
  exact dvd_add (hf b hb) (hg b hb)

theorem Represents.smul (c : R) (hf : Represents zeta blocks len f A) :
    Represents zeta blocks len (fun x => c * f x) (C c * A) := by
  intro b hb
  have hmul := blockPoly_linear f f c 0 (len * b) (len * b) (len * b) len (fun x => c * f x)
    fun i _ => by ring
  rw [hmul]
  have heq : C c * A - (C c * blockPoly f (len * b) len + C 0 * blockPoly f (len * b) len) =
      C c * (A - blockPoly f (len * b) len) := by
    rw [C_0]; ring
  rw [heq]
  exact dvd_mul_of_dvd_right (hf b hb) _

theorem blockPoly_two (f : ℕ → R) (start : ℕ) :
    blockPoly f start 2 = C (f start) + C (f (start + 1)) * X := by
  simp [blockPoly, Finset.sum_range_succ]

/-- The blockwise product of vectors with blocks of two coefficients. -/
def pairMul (zeta : ℕ → R) (blocks : ℕ) (f g : ℕ → R) (x : ℕ) : R :=
  let b := x / 2
  if x % 2 = 0 then f (2 * b) * g (2 * b) + root zeta (blocks + b) * (f (2 * b + 1) * g (2 * b + 1))
  else f (2 * b) * g (2 * b + 1) + f (2 * b + 1) * g (2 * b)

theorem Represents.pairMul (hf : Represents zeta blocks 2 f A) (hg : Represents zeta blocks 2 g B) :
    Represents zeta blocks 2 (pairMul zeta blocks f g) (A * B) := by
  intro b hb
  have h0 : SplitTransform.pairMul zeta blocks f g (2 * b) =
      f (2 * b) * g (2 * b) + root zeta (blocks + b) * (f (2 * b + 1) * g (2 * b + 1)) := by
    simp [SplitTransform.pairMul]
  have h1 : SplitTransform.pairMul zeta blocks f g (2 * b + 1) =
      f (2 * b) * g (2 * b + 1) + f (2 * b + 1) * g (2 * b) := by
    simp [SplitTransform.pairMul, show (2 * b + 1) / 2 = b by omega]
  rcases hf b hb with ⟨P, hP⟩
  rcases hg b hb with ⟨Q, hQ⟩
  rw [blockPoly_two] at hP hQ ⊢
  rw [h0, h1]
  refine ⟨P * B + (C (f (2 * b)) + C (f (2 * b + 1)) * X) * Q + C (f (2 * b + 1)) * C (g (2 * b + 1)), ?_⟩
  simp only [map_add, map_mul]
  linear_combination B * hP + (C (f (2 * b)) + C (f (2 * b + 1)) * X) * hQ

end Represents

/-! ## One layer -/

/-- The layer that splits each of `blocks` blocks of `2 * len` entries. -/
def split (zeta : ℕ → R) (blocks len : ℕ) (f : ℕ → R) (x : ℕ) : R :=
  let b := x / (2 * len)
  if x % (2 * len) < len then f x + zeta (blocks + b) * f (x + len)
  else f (x - len) - zeta (blocks + b) * f x

/-- The layer that merges the halves of each of `blocks` blocks, with twice their residue as the result. -/
def merge (zeta : ℕ → R) (blocks len : ℕ) (f : ℕ → R) (x : ℕ) : R :=
  let b := x / (2 * len)
  if x % (2 * len) < len then f x + f (x + len)
  else zeta (2 * blocks - 1 - b) * (f x - f (x - len))

section Layer

variable {zeta : ℕ → R} {blocks len : ℕ} {f g : ℕ → R} {A : R[X]}

/-- An index is in the lower half of its block, or `len` above one that is. -/
theorem half_cases (hlen : 0 < len) (x : ℕ) :
    (∃ b i, i < len ∧ x = 2 * len * b + i) ∨ ∃ b i, i < len ∧ x = 2 * len * b + i + len := by
  have hdiv := Nat.div_add_mod x (2 * len)
  have hmod := Nat.mod_lt x (show 0 < 2 * len by omega)
  by_cases h : x % (2 * len) < len
  · exact Or.inl ⟨x / (2 * len), x % (2 * len), h, by omega⟩
  · exact Or.inr ⟨x / (2 * len), x % (2 * len) - len, by omega, by omega⟩

theorem div_lower {b i : ℕ} (hi : i < 2 * len) : (2 * len * b + i) / (2 * len) = b := by
  rw [Nat.mul_add_div (by omega), Nat.div_eq_of_lt hi, add_zero]

theorem mod_lower {b i : ℕ} (hi : i < 2 * len) : (2 * len * b + i) % (2 * len) = i := by
  rw [Nat.mul_add_mod, Nat.mod_eq_of_lt hi]

theorem split_lower {b i : ℕ} (hi : i < len) : split zeta blocks len f (2 * len * b + i) =
    f (2 * len * b + i) + zeta (blocks + b) * f (2 * len * b + i + len) := by
  rw [split, div_lower (by omega), mod_lower (by omega), if_pos hi]

theorem split_upper {b i : ℕ} (hi : i < len) : split zeta blocks len f (2 * len * b + i + len) =
    f (2 * len * b + i) - zeta (blocks + b) * f (2 * len * b + i + len) := by
  rw [split, show 2 * len * b + i + len = 2 * len * b + (i + len) by ring, div_lower (by omega),
    mod_lower (by omega), if_neg (by omega), show 2 * len * b + (i + len) - len = 2 * len * b + i by omega]

theorem merge_lower {b i : ℕ} (hi : i < len) : merge zeta blocks len f (2 * len * b + i) =
    f (2 * len * b + i) + f (2 * len * b + i + len) := by
  rw [merge, div_lower (by omega), mod_lower (by omega), if_pos hi]

theorem merge_upper {b i : ℕ} (hi : i < len) : merge zeta blocks len f (2 * len * b + i + len) =
    zeta (2 * blocks - 1 - b) * (f (2 * len * b + i + len) - f (2 * len * b + i)) := by
  rw [merge, show 2 * len * b + i + len = 2 * len * b + (i + len) by ring, div_lower (by omega),
    mod_lower (by omega), if_neg (by omega), show 2 * len * b + (i + len) - len = 2 * len * b + i by omega]

theorem block_lt_of_lower {b i : ℕ} (h : 2 * len * b + i < blocks * (2 * len)) : b < blocks := by
  by_contra hb
  have hle : 2 * len * blocks ≤ 2 * len * b := Nat.mul_le_mul_left _ (by omega)
  rw [mul_comm blocks] at h
  omega

theorem split_congr (hlen : 0 < len) (h : ∀ x < blocks * (2 * len), f x = g x) :
    ∀ x < blocks * (2 * len), split zeta blocks len f x = split zeta blocks len g x := by
  intro x hx
  rcases half_cases hlen x with ⟨b, i, hi, rfl⟩ | ⟨b, i, hi, rfl⟩
  · have hb := block_lt_of_lower hx
    have hupper : 2 * len * b + (i + len) < blocks * (2 * len) := block_index_lt hb (by omega)
    rw [split_lower hi, split_lower hi, h _ hx, add_assoc, h _ hupper]
  · rw [split_upper hi, split_upper hi, h _ hx, h _ (by omega)]

theorem merge_congr (hlen : 0 < len) (h : ∀ x < blocks * (2 * len), f x = g x) :
    ∀ x < blocks * (2 * len), merge zeta blocks len f x = merge zeta blocks len g x := by
  intro x hx
  rcases half_cases hlen x with ⟨b, i, hi, rfl⟩ | ⟨b, i, hi, rfl⟩
  · have hupper : 2 * len * b + (i + len) < blocks * (2 * len) :=
      block_index_lt (block_lt_of_lower hx) (by omega)
    rw [merge_lower hi, merge_lower hi, h _ hx, add_assoc, h _ hupper]
  · rw [merge_upper hi, merge_upper hi, h _ hx, h _ (by omega)]

theorem split_smul (c : R) (x : ℕ) :
    split zeta blocks len (fun y => c * f y) x = c * split zeta blocks len f x := by
  simp only [split]
  split_ifs <;> ring

/-- Merging and splitting again doubles every coefficient. -/
theorem split_merge (hlen : 0 < len)
    (hmirror : ∀ b < blocks, zeta (2 * blocks - 1 - b) * zeta (blocks + b) = -1) {x : ℕ}
    (hx : x < blocks * (2 * len)) :
    split zeta blocks len (merge zeta blocks len f) x = 2 * f x := by
  rcases half_cases hlen x with ⟨b, i, hi, rfl⟩ | ⟨b, i, hi, rfl⟩
  · rw [split_lower hi, merge_lower hi, merge_upper hi]
    linear_combination (f (2 * len * b + i + len) - f (2 * len * b + i)) * hmirror b (block_lt_of_lower hx)
  · rw [split_upper hi, merge_lower hi, merge_upper hi]
    have hb : b < blocks := block_lt_of_lower (i := i + len) (by rw [← add_assoc]; exact hx)
    linear_combination -(f (2 * len * b + i + len) - f (2 * len * b + i)) * hmirror b hb

/-- A layer turns the residues modulo `X^(2*len) - z^2` into those modulo `X^len - z` and `X^len + z`. -/
theorem Represents.split (hblocks : 0 < blocks)
    (hsq : ∀ b < blocks, zeta (blocks + b) ^ 2 = root zeta (blocks + b))
    (h : Represents zeta blocks (2 * len) f A) :
    Represents zeta (2 * blocks) len (split zeta blocks len f) A := by
  have hparent : ∀ b < blocks, ∃ P, A - (blockPoly f (2 * len * b) len +
      X ^ len * blockPoly f (2 * len * b + len) len) = (X ^ (2 * len) - C (zeta (blocks + b) ^ 2)) * P := by
    intro b hb
    rcases h b hb with ⟨P, hP⟩
    rw [show 2 * len = len + len by ring, blockPoly_add_len, ← hsq b hb] at hP
    exact ⟨P, by rw [show 2 * len = len + len by ring]; exact hP⟩
  intro b' hb'
  rcases Nat.even_or_odd' b' with ⟨b, rfl | rfl⟩
  · rcases hparent b (by omega) with ⟨P, hP⟩
    have hblock := blockPoly_linear f f 1 (zeta (blocks + b)) (2 * len * b) (2 * len * b + len)
      (len * (2 * b)) len (SplitTransform.split zeta blocks len f) fun i hi => by
        rw [show len * (2 * b) + i = 2 * len * b + i by ring, split_lower hi]
        rw [show 2 * len * b + len + i = 2 * len * b + i + len by ring]
        ring
    rw [hblock, show 2 * blocks + 2 * b = 2 * (blocks + b) by ring, root_double zeta (by omega)]
    refine ⟨(X ^ len + C (zeta (blocks + b))) * P + blockPoly f (2 * len * b + len) len, ?_⟩
    rw [map_pow] at hP
    rw [C_1]
    linear_combination hP
  · rcases hparent b (by omega) with ⟨P, hP⟩
    have hblock := blockPoly_linear f f 1 (-zeta (blocks + b)) (2 * len * b) (2 * len * b + len)
      (len * (2 * b + 1)) len (SplitTransform.split zeta blocks len f) fun i hi => by
        rw [show len * (2 * b + 1) + i = 2 * len * b + i + len by ring, split_upper hi]
        rw [show 2 * len * b + len + i = 2 * len * b + i + len by ring]
        ring
    rw [hblock, show 2 * blocks + (2 * b + 1) = 2 * (blocks + b) + 1 by ring,
      root_double_add_one zeta (by omega)]
    refine ⟨(X ^ len - C (zeta (blocks + b))) * P + blockPoly f (2 * len * b + len) len, ?_⟩
    rw [map_pow] at hP
    rw [C_1, map_neg]
    linear_combination hP

/-- The merged block stands for twice the polynomial. -/
theorem Represents.merge (hblocks : 0 < blocks)
    (hsq : ∀ b < blocks, zeta (blocks + b) ^ 2 = root zeta (blocks + b))
    (hmirror : ∀ b < blocks, zeta (2 * blocks - 1 - b) * zeta (blocks + b) = -1)
    (h : Represents zeta (2 * blocks) len f A) :
    Represents zeta blocks (2 * len) (merge zeta blocks len f) (C 2 * A) := by
  intro b hb
  rcases h (2 * b) (by omega) with ⟨P, hP⟩
  rcases h (2 * b + 1) (by omega) with ⟨Q, hQ⟩
  rw [show 2 * blocks + 2 * b = 2 * (blocks + b) by ring, root_double zeta (by omega),
    show len * (2 * b) = 2 * len * b by ring] at hP
  rw [show 2 * blocks + (2 * b + 1) = 2 * (blocks + b) + 1 by ring, root_double_add_one zeta (by omega),
    show len * (2 * b + 1) = 2 * len * b + len by ring, map_neg] at hQ
  have hlow := blockPoly_linear f f 1 1 (2 * len * b) (2 * len * b + len) (2 * len * b) len
    (SplitTransform.merge zeta blocks len f) fun i hi => by
      rw [merge_lower hi, show 2 * len * b + len + i = 2 * len * b + i + len by ring]
      ring
  have hhigh := blockPoly_linear f f (zeta (2 * blocks - 1 - b)) (-zeta (2 * blocks - 1 - b))
    (2 * len * b + len) (2 * len * b) (2 * len * b + len) len
    (SplitTransform.merge zeta blocks len f) fun i hi => by
      rw [show 2 * len * b + len + i = 2 * len * b + i + len by ring, merge_upper hi]
      ring
  have hsplit := blockPoly_add_len (SplitTransform.merge zeta blocks len f) (2 * len * b) len len
  rw [show len + len = 2 * len by ring] at hsplit
  rw [hsplit, hlow, hhigh, ← hsq b hb, map_neg, map_pow]
  have hw : C (zeta (2 * blocks - 1 - b)) * C (zeta (blocks + b)) = (-1 : R[X]) := by
    rw [← C_mul, hmirror b hb, map_neg, C_1]
  refine ⟨C (zeta (2 * blocks - 1 - b)) * (Q - P), ?_⟩
  rw [C_1, C_ofNat]
  linear_combination (1 - X ^ len * C (zeta (2 * blocks - 1 - b))) * hP +
    (1 + X ^ len * C (zeta (2 * blocks - 1 - b))) * hQ +
    ((X ^ len - C (zeta (blocks + b))) * P + (X ^ len + C (zeta (blocks + b))) * Q) * hw

end Layer

/-! ## All layers -/

section Layers

variable (zeta : ℕ → R) (m n : ℕ)

/-- The number of coefficients of a block after `l` layers. -/
def blockLen (l : ℕ) : ℕ := 2 ^ (m - l) * n

/-- The first `l` layers. -/
def forward : ℕ → (ℕ → R) → ℕ → R
  | 0, f => f
  | l + 1, f => split zeta (2 ^ l) (blockLen m n (l + 1)) (forward l f)

/-- The inverses of the first `l` layers, without the division by `2^l`. -/
def backward : ℕ → (ℕ → R) → ℕ → R
  | 0, f => f
  | l + 1, f => backward l (merge zeta (2 ^ l) (blockLen m n (l + 1)) f)

variable {zeta m n} {f g : ℕ → R} {A B : R[X]}

theorem blockLen_pos (hn : 0 < n) (l : ℕ) : 0 < blockLen m n l := by
  rw [blockLen]
  positivity

theorem blockLen_eq_two_mul {l : ℕ} (hl : l < m) : blockLen m n l = 2 * blockLen m n (l + 1) := by
  rw [blockLen, blockLen, show m - l = (m - (l + 1)) + 1 by omega, pow_succ]
  ring

theorem blocks_mul_blockLen {l : ℕ} (hl : l ≤ m) : 2 ^ l * blockLen m n l = blockLen m n 0 := by
  rw [blockLen, blockLen, ← mul_assoc, ← pow_add]
  congr 2
  omega

theorem blocks_mul_two_mul_blockLen {l : ℕ} (hl : l < m) :
    2 ^ l * (2 * blockLen m n (l + 1)) = blockLen m n 0 := by
  rw [← blockLen_eq_two_mul hl, blocks_mul_blockLen (le_of_lt hl)]

variable (htree : IsTree zeta m)

include htree

theorem represents_forward {l : ℕ} (hl : l ≤ m) (h : Represents zeta 1 (blockLen m n 0) f A) :
    Represents zeta (2 ^ l) (blockLen m n l) (forward zeta m n l f) A := by
  induction l with
  | zero => exact h
  | succ l ih =>
    have hparent := ih (by omega)
    rw [blockLen_eq_two_mul (by omega)] at hparent
    rw [pow_succ, mul_comm]
    refine hparent.split (by positivity) fun b hb => htree.sq _ (by positivity) ?_
    calc 2 ^ l + b < 2 ^ l * 2 := by omega
      _ ≤ 2 ^ m := by rw [← pow_succ]; exact Nat.pow_le_pow_right (by norm_num) hl

theorem represents_backward {l : ℕ} (hl : l ≤ m)
    (h : Represents zeta (2 ^ l) (blockLen m n l) f A) :
    Represents zeta 1 (blockLen m n 0) (backward zeta m n l f) (C (2 ^ l) * A) := by
  induction l generalizing f A with
  | zero => rw [pow_zero, C_1, one_mul]; exact h
  | succ l ih =>
    rw [pow_succ, mul_comm] at h
    have hmerged := h.merge (by positivity) (fun b hb => htree.sq _ (by positivity) (by
      calc 2 ^ l + b < 2 ^ l * 2 := by omega
        _ ≤ 2 ^ m := by rw [← pow_succ]; exact Nat.pow_le_pow_right (by norm_num) hl))
      (fun b hb => htree.mirror l (by omega) b hb)
    rw [← blockLen_eq_two_mul (by omega)] at hmerged
    have hroot := ih (by omega) hmerged
    rw [show (C (2 ^ (l + 1)) : R[X]) * A = C (2 ^ l) * (C 2 * A) by rw [pow_succ, C_mul]; ring]
    exact hroot

omit htree in
theorem forward_congr (hn : 0 < n) {l : ℕ} (hl : l ≤ m) (h : ∀ x < blockLen m n 0, f x = g x) :
    ∀ x < blockLen m n 0, forward zeta m n l f x = forward zeta m n l g x := by
  induction l with
  | zero => exact h
  | succ l ih =>
    have hsame := ih (by omega)
    rw [← blocks_mul_two_mul_blockLen (show l < m by omega)] at hsame ⊢
    exact split_congr (blockLen_pos hn _) hsame

omit htree in
theorem backward_congr (hn : 0 < n) {l : ℕ} (hl : l ≤ m) (h : ∀ x < blockLen m n 0, f x = g x) :
    ∀ x < blockLen m n 0, backward zeta m n l f x = backward zeta m n l g x := by
  induction l generalizing f g with
  | zero => exact h
  | succ l ih =>
    refine ih (by omega) ?_
    rw [← blocks_mul_two_mul_blockLen (show l < m by omega)] at h ⊢
    exact merge_congr (blockLen_pos hn _) h

theorem forward_backward (hn : 0 < n) {l : ℕ} (hl : l ≤ m) :
    ∀ x < blockLen m n 0, forward zeta m n l (backward zeta m n l f) x = 2 ^ l * f x := by
  induction l generalizing f with
  | zero => intro x _; simp [forward, backward]
  | succ l ih =>
    intro x hx
    have hsame := ih (f := merge zeta (2 ^ l) (blockLen m n (l + 1)) f) (by omega)
    rw [← blocks_mul_two_mul_blockLen (show l < m by omega)] at hsame hx
    calc forward zeta m n (l + 1) (backward zeta m n (l + 1) f) x
        = split zeta (2 ^ l) (blockLen m n (l + 1))
            (fun y => 2 ^ l * merge zeta (2 ^ l) (blockLen m n (l + 1)) f y) x :=
          split_congr (blockLen_pos hn _) hsame x hx
      _ = 2 ^ l * (2 * f x) := by
          rw [split_smul, split_merge (blockLen_pos hn _) (htree.mirror l (by omega)) hx]
      _ = 2 ^ (l + 1) * f x := by rw [pow_succ]; ring

end Layers

/-! ## The ring element of a transformed vector -/

section Element

variable (zeta : ℕ → R) (m n N : ℕ) (inv : R)

/-- The negacyclic ring of the vectors. -/
abbrev Negacyclic (R : Type*) [CommRing R] (N : ℕ) : Type _ := AdjoinRoot (X ^ N + 1 : R[X])

/-- The element with the coefficients `f`. -/
noncomputable def ofCoeffs (f : ℕ → R) : Negacyclic R N := AdjoinRoot.mk _ (blockPoly f 0 N)

/-- The element that a transformed vector stands for; `inv` is the inverse of `2^m`. -/
noncomputable def element (f : ℕ → R) : Negacyclic R N :=
  AdjoinRoot.of _ inv * ofCoeffs N (backward zeta m n m f)

variable {zeta m n N inv} {f g : ℕ → R} {A B : R[X]}

theorem represents_one_iff : Represents zeta 1 N f A ↔ AdjoinRoot.mk (X ^ N + 1) A = ofCoeffs N f := by
  have hroot : (X ^ N - C (root zeta (1 + 0)) : R[X]) = X ^ N + 1 := by
    rw [root, if_pos (by omega), map_neg, C_1, sub_neg_eq_add]
  rw [ofCoeffs, AdjoinRoot.mk_eq_mk, ← hroot]
  constructor
  · intro h
    have h0 := h 0 (by norm_num)
    rw [mul_zero] at h0
    exact h0
  · intro h b hb
    rw [show b = 0 by omega, mul_zero]
    exact h

theorem ofCoeffs_congr (h : ∀ x < N, f x = g x) : ofCoeffs N f = ofCoeffs N g := by
  have hsame : blockPoly f 0 N = blockPoly g 0 N := blockPoly_congr fun i hi => by
    rw [zero_add]
    exact h i hi
  rw [ofCoeffs, hsame, ofCoeffs]

theorem ofCoeffs_linear (c d : R) {h : ℕ → R} (heq : ∀ x < N, h x = c * f x + d * g x) :
    ofCoeffs N h = AdjoinRoot.of _ c * ofCoeffs N f + AdjoinRoot.of _ d * ofCoeffs N g := by
  have hlin := blockPoly_linear f g c d 0 0 0 N h fun i hi => by
    rw [zero_add]
    exact heq i hi
  rw [ofCoeffs, hlin, map_add, map_mul, map_mul, AdjoinRoot.mk_C, AdjoinRoot.mk_C]
  rfl

/-- Distinct vectors of coefficients are distinct elements. -/
theorem ofCoeffs_injective [Nontrivial R] (hN : 0 < N) (h : ofCoeffs N f = ofCoeffs N g) :
    ∀ x < N, f x = g x := by
  have hdeg : (X ^ N + 1 : R[X]).natDegree = N := by
    rw [← C_1, natDegree_X_pow_add_C]
  have hmonic : (X ^ N + 1 : R[X]).Monic := by
    rw [← C_1]
    exact monic_X_pow_add_C 1 (by omega)
  have hdvd : X ^ N + 1 ∣ blockPoly f 0 N - blockPoly g 0 N := AdjoinRoot.mk_eq_mk.mp h
  have hzero : blockPoly f 0 N - blockPoly g 0 N = 0 := by
    by_contra hne
    have hlt : (blockPoly f 0 N - blockPoly g 0 N).natDegree < N :=
      lt_of_le_of_lt (natDegree_sub_le _ _)
        (max_lt (natDegree_blockPoly_lt f 0 hN) (natDegree_blockPoly_lt g 0 hN))
    exact hmonic.not_dvd_of_natDegree_lt hne (by rw [hdeg]; exact hlt) hdvd
  intro x hx
  have hcoeff := congrArg (fun P : R[X] => P.coeff x) (sub_eq_zero.mp hzero)
  simp only [coeff_blockPoly _ 0 hx, zero_add] at hcoeff
  exact hcoeff

variable (htree : IsTree zeta m) (hinv : 2 ^ m * inv = 1) (hN : blockLen m n 0 = N)

omit htree hN in
include hinv in
theorem of_inv_mul : AdjoinRoot.of (X ^ N + 1 : R[X]) inv * AdjoinRoot.of _ (2 ^ m) = 1 := by
  rw [← map_mul, mul_comm, hinv, map_one]

include htree hinv hN

/-- A transformed vector stands for the polynomial that it represents. -/
theorem element_eq (h : Represents zeta (2 ^ m) n f A) :
    element zeta m n N inv f = AdjoinRoot.mk (X ^ N + 1) A := by
  subst hN
  have hlen : blockLen m n m = n := by rw [blockLen, Nat.sub_self, pow_zero, one_mul]
  rw [← hlen] at h
  have hroot := represents_one_iff.mp (represents_backward htree (le_refl m) h)
  rw [element, ← hroot, map_mul, AdjoinRoot.mk_C, ← mul_assoc, of_inv_mul hinv, one_mul]

omit hN in
theorem exists_represents (hn : 0 < n) (f : ℕ → R) : ∃ A : R[X], Represents zeta (2 ^ m) n f A := by
  have hlen : blockLen m n m = n := by rw [blockLen, Nat.sub_self, pow_zero, one_mul]
  have hbase : Represents zeta 1 (blockLen m n 0) (backward zeta m n m f)
      (blockPoly (backward zeta m n m f) 0 (blockLen m n 0)) := represents_one_iff.mpr rfl
  have hfwd := (represents_forward htree (le_refl m) hbase).smul inv
  rw [hlen] at hfwd
  refine ⟨_, hfwd.congr fun x hx => ?_⟩
  rw [forward_backward htree hn (le_refl m) x (by rw [blockLen, Nat.sub_zero]; exact hx), ← mul_assoc,
    mul_comm inv, hinv, one_mul]

/-- The transform of a vector of coefficients stands for its element. -/
theorem element_forward (f : ℕ → R) :
    element zeta m n N inv (forward zeta m n m f) = ofCoeffs N f := by
  have hlen : blockLen m n m = n := by rw [blockLen, Nat.sub_self, pow_zero, one_mul]
  have hbase : Represents zeta 1 (blockLen m n 0) f (blockPoly f 0 (blockLen m n 0)) :=
    represents_one_iff.mpr rfl
  have hfwd := represents_forward htree (le_refl m) hbase
  rw [hlen] at hfwd
  rw [element_eq htree hinv hN hfwd, hN, ofCoeffs]

omit htree hN in
theorem ofCoeffs_backward (f : ℕ → R) :
    ofCoeffs N (backward zeta m n m f) = AdjoinRoot.of _ (2 ^ m) * element zeta m n N inv f := by
  rw [element, ← mul_assoc, mul_comm (AdjoinRoot.of _ (2 ^ m)), of_inv_mul hinv, one_mul]

theorem element_congr (hn : 0 < n) (h : ∀ x < N, f x = g x) :
    element zeta m n N inv f = element zeta m n N inv g := by
  rcases exists_represents htree hinv hn f with ⟨A, hA⟩
  have hB : Represents zeta (2 ^ m) n g A := hA.congr fun x hx => h x (by
    rw [← hN, blockLen, Nat.sub_zero]
    exact hx)
  rw [element_eq htree hinv hN hA, element_eq htree hinv hN hB]

/-- Distinct transformed vectors stand for distinct elements. -/
theorem element_injective [Nontrivial R] (hn : 0 < n)
    (h : element zeta m n N inv f = element zeta m n N inv g) : ∀ x < N, f x = g x := by
  have hNpos : 0 < N := hN ▸ blockLen_pos hn 0
  have hback : ∀ x < N, backward zeta m n m f x = backward zeta m n m g x := by
    refine ofCoeffs_injective hNpos ?_
    rw [ofCoeffs_backward hinv, ofCoeffs_backward hinv, h]
  intro x hx
  have hx' : x < blockLen m n 0 := hN ▸ hx
  have hfwd : forward zeta m n m (backward zeta m n m f) x =
      forward zeta m n m (backward zeta m n m g) x :=
    forward_congr hn (le_refl m) (fun y hy => hback y (hN ▸ hy)) x hx'
  rw [forward_backward htree hn (le_refl m) x hx', forward_backward htree hn (le_refl m) x hx'] at hfwd
  calc f x = inv * (2 ^ m * f x) := by rw [← mul_assoc, mul_comm inv, hinv, one_mul]
    _ = inv * (2 ^ m * g x) := by rw [hfwd]
    _ = g x := by rw [← mul_assoc, mul_comm inv, hinv, one_mul]

theorem element_add (hn : 0 < n) (f g : ℕ → R) : element zeta m n N inv (fun x => f x + g x) =
    element zeta m n N inv f + element zeta m n N inv g := by
  rcases exists_represents htree hinv hn f with ⟨A, hA⟩
  rcases exists_represents htree hinv hn g with ⟨B, hB⟩
  rw [element_eq htree hinv hN (hA.add hB), element_eq htree hinv hN hA, element_eq htree hinv hN hB, map_add]

theorem element_smul (hn : 0 < n) (c : R) (f : ℕ → R) : element zeta m n N inv (fun x => c * f x) =
    AdjoinRoot.of _ c * element zeta m n N inv f := by
  rcases exists_represents htree hinv hn f with ⟨A, hA⟩
  rw [element_eq htree hinv hN (hA.smul c), element_eq htree hinv hN hA, map_mul, AdjoinRoot.mk_C]

omit hN in
/-- Multiplying transformed vectors block by block multiplies the elements. -/
theorem element_pairMul (hN : blockLen m 2 0 = N) (f g : ℕ → R) :
    element zeta m 2 N inv (pairMul zeta (2 ^ m) f g) =
      element zeta m 2 N inv f * element zeta m 2 N inv g := by
  rcases exists_represents htree hinv (show 0 < 2 by norm_num) f with ⟨A, hA⟩
  rcases exists_represents htree hinv (show 0 < 2 by norm_num) g with ⟨B, hB⟩
  rw [element_eq htree hinv hN (hA.pairMul hB), element_eq htree hinv hN hA, element_eq htree hinv hN hB, map_mul]

end Element

end SplitTransform
