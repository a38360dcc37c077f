import HybridPqc.Lib.SplitTransform
import HybridPqc.Mlkem.Ntt

/-!
# The ring of the coefficients

What a `poly` stands for: an element of `Z_q[X]/(X^256 + 1)`, either by its coefficients or, after `ntt`, by its
residues in the order of the tree of the zetas.
-/

namespace HybridPqc.Mlkem

open SplitTransform

/-- `Z_q[X]/(X^256 + 1)`. -/
abbrev Rq : Type := Negacyclic Zq 256

/-- The residues of the coefficients. -/
def residues (r : Poly) (i : Nat) : Zq := residue (r.coeff i)

/-- The zetas outside the Montgomery domain. -/
def zetaRes (k : Nat) : Zq := residue (zetaAt k) * montInv

/-- The inverse of `128`. -/
def inv128 : Zq := 3303

/-- The polynomial with the coefficients `r`. -/
noncomputable def polyElem (r : Poly) : Rq := ofCoeffs 256 (residues r)

/-- The polynomial whose transform is `r`. -/
noncomputable def nttElem (r : Poly) : Rq := element zetaRes 7 2 256 inv128 (residues r)

/-- A residue as an element of the ring. -/
noncomputable def scalar (c : Zq) : Rq := AdjoinRoot.of _ c

/-- All coefficients are at most `B` in absolute value. -/
def Bounded (B : Int) (r : Poly) : Prop := ∀ i, |(r.coeff i).toInt| ≤ B

theorem Bounded.mono {B B' : Int} {r : Poly} (h : Bounded B r) (hle : B ≤ B') : Bounded B' r :=
  fun i => le_trans (h i) hle

/-- Within the array the bound is enough. -/
theorem bounded_of_lt {B : Int} {r : Poly} (hB : 0 ≤ B) (h : ∀ i < 256, |(r.coeff i).toInt| ≤ B) :
    Bounded B r := by
  intro i
  by_cases hi : i < 256
  · exact h i hi
  · rw [Poly.coeff_eq_zero r (by omega)]
    simpa using hB

theorem blockLen_rq : blockLen 7 2 0 = 256 := rfl

theorem inv128_mul : (2 : Zq) ^ 7 * inv128 = 1 := by decide

theorem scalar_mul (c d : Zq) : scalar (c * d) = scalar c * scalar d := map_mul _ c d

theorem scalar_one : scalar 1 = 1 := map_one _

/-- The zetas are the tree of square roots of `-1`. -/
theorem isTree_zetaRes : IsTree zetaRes 7 where
  sq k hk hlt := by
    have h : ∀ k < 128, 0 < k → zetaRes k ^ 2 = root zetaRes k := by decide +kernel
    exact h k hlt hk
  mirror l hl b hb := by
    have h : ∀ l < 7, ∀ b < 2 ^ l, zetaRes (2 * 2 ^ l - 1 - b) * zetaRes (2 ^ l + b) = -1 := by
      decide +kernel
    exact h l hl b hb

theorem abs_zetaAt_le (k : Nat) : |(zetaAt k).toInt| ≤ 3329 := by
  by_cases hk : k < 128
  · have h : ∀ k < 128, |(zetaAt k).toInt| ≤ 3329 := by decide +kernel
    exact h k hk
  · have hz : zetaAt k = 0 := by simp [zetaAt, Vector.getD, hk]
    rw [hz]
    decide

end HybridPqc.Mlkem
