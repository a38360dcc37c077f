import HybridPqc.Mlkem.Reduce
import Mathlib.Tactic.Linarith
import Mathlib.Tactic.Ring

/-!
# The reductions keep the residue
-/

namespace HybridPqc.Mlkem

/-! ## Machine words -/

theorem exists_bmod (a : Int) (n : Nat) (hn : 0 < n) :
    ∃ k, a.bmod n = a + n * k ∧ -(n : Int) ≤ 2 * a.bmod n ∧ 2 * a.bmod n < n := by
  refine ⟨-(a.bdiv n), ?_, ?_, ?_⟩
  · have h := Int.bdiv_add_bmod a n
    linarith [mul_neg (n : Int) (a.bdiv n)]
  · have h := Int.le_bmod (x := a) hn
    omega
  · have h := Int.bmod_lt (x := a) hn
    omega

theorem toInt_shiftRight_of_smod {a b : Int32} {k : Nat} (hk : (b.toBitVec.smod 32).toNat = k) :
    (a >>> b).toInt = a.toInt / 2 ^ k := by
  show (a >>> b).toBitVec.toInt = _
  rw [Int32.toBitVec_shiftRight, BitVec.sshiftRight', hk, BitVec.toInt_sshiftRight,
    Int.shiftRight_eq_div_pow]
  rfl

theorem toInt_shiftRight_16 (a : Int32) : (a >>> 16).toInt = a.toInt / 65536 :=
  toInt_shiftRight_of_smod (b := 16) (k := 16) (by decide)

theorem toInt_shiftRight_26 (a : Int32) : (a >>> 26).toInt = a.toInt / 67108864 :=
  toInt_shiftRight_of_smod (b := 26) (k := 26) (by decide)

theorem toInt_toInt16_of_le {a : Int32} (h : -32768 ≤ a.toInt) (h' : a.toInt < 32768) :
    a.toInt16.toInt = a.toInt := by
  rw [Int32.toInt_toInt16]
  exact Int.bmod_eq_of_le h h'

/-! ## Montgomery reduction -/

/-- The arguments that the comment of `montgomery_reduce` allows. -/
def MontgomeryInput (a : Int) : Prop := -109084672 ≤ a ∧ a < 109084672

/-- Both operands within the signed 13-bit range, as all factors of a product are. -/
theorem montgomeryInput_mul {a b : Int} (ha : |a| ≤ 3329) (hb : |b| ≤ 32767) :
    MontgomeryInput (a * b) := by
  have h : |a * b| ≤ 3329 * 32767 := by
    rw [abs_mul]
    exact mul_le_mul ha hb (abs_nonneg b) (by norm_num)
  rcases abs_le.mp h with ⟨hlow, hhigh⟩
  constructor <;> omega

/-- The reduced value is `169 * a`, the factor `2^-16`, less a multiple of `q`. -/
theorem toInt_montgomeryReduce {a : Int32} (ha : MontgomeryInput a.toInt) :
    ∃ k, (montgomeryReduce a).toInt = 169 * a.toInt - 3329 * k ∧
      -3329 < (montgomeryReduce a).toInt ∧ (montgomeryReduce a).toInt < 3329 := by
  rcases ha with ⟨hlow, hhigh⟩
  have hm : (a.toInt16 * qinv).toInt = (a.toInt * -3327).bmod 65536 := by
    rw [Int16.toInt_mul, Int32.toInt_toInt16, show qinv.toInt = -3327 from by decide]
    exact Int.bmod_mul_bmod
  rcases exists_bmod (a.toInt * -3327) 65536 (by norm_num) with ⟨k, hk, hmlow, hmhigh⟩
  rw [← hm] at hk hmlow hmhigh
  set m := (a.toInt16 * qinv).toInt with hmdef
  have hprod : ((a.toInt16 * qinv).toInt32 * kyberQ).toInt = m * 3329 := by
    rw [Int32.toInt_mul, Int16.toInt_toInt32, show kyberQ.toInt = 3329 from by decide, ← hmdef]
    exact Int.bmod_eq_of_le (by push_cast at *; omega) (by push_cast at *; omega)
  have hdiff : (a - (a.toInt16 * qinv).toInt32 * kyberQ).toInt = 65536 * (169 * a.toInt - 3329 * k) := by
    rw [Int32.toInt_sub, hprod]
    have heq : a.toInt - m * 3329 = 65536 * (169 * a.toInt - 3329 * k) := by
      rw [hk]; push_cast; ring
    rw [heq]
    exact Int.bmod_eq_of_le (by push_cast at *; omega) (by push_cast at *; omega)
  have hquot : ((a - (a.toInt16 * qinv).toInt32 * kyberQ) >>> 16).toInt = 169 * a.toInt - 3329 * k := by
    rw [toInt_shiftRight_16, hdiff]
    omega
  have hres : (montgomeryReduce a).toInt = 169 * a.toInt - 3329 * k := by
    show ((a - (a.toInt16 * qinv).toInt32 * kyberQ) >>> 16).toInt16.toInt = _
    rw [toInt_toInt16_of_le (by rw [hquot]; push_cast at *; omega) (by rw [hquot]; push_cast at *; omega), hquot]
  refine ⟨k, hres, ?_, ?_⟩ <;> rw [hres] <;> push_cast at * <;> omega

theorem residue_montgomeryReduce {a : Int32} (ha : MontgomeryInput a.toInt) :
    residue (montgomeryReduce a) = (a.toInt : Zq) * montInv := by
  rcases toInt_montgomeryReduce ha with ⟨k, hk, -⟩
  have hq : (3329 : Zq) = 0 := by decide
  rw [residue, hk]
  push_cast
  rw [hq, montInv]
  ring

theorem abs_montgomeryReduce_lt {a : Int32} (ha : MontgomeryInput a.toInt) :
    |(montgomeryReduce a).toInt| ≤ 3328 := by
  rcases toInt_montgomeryReduce ha with ⟨k, -, hlow, hhigh⟩
  exact abs_le.mpr ⟨by omega, by omega⟩

/-! ## Barrett reduction -/

/-- The Barrett quotient is the nearest integer to `a / q`. -/
theorem toInt_barrettReduce (a : Int16) :
    ∃ k, (barrettReduce a).toInt = a.toInt - 3329 * k ∧
      -1664 ≤ (barrettReduce a).toInt ∧ (barrettReduce a).toInt ≤ 1664 := by
  have hlow := a.le_toInt
  have hhigh := a.toInt_lt
  have hprod : (20159 * a.toInt32 : Int32).toInt = 20159 * a.toInt := by
    rw [Int32.toInt_mul, Int16.toInt_toInt32, show (20159 : Int32).toInt = 20159 from by decide]
    exact Int.bmod_eq_of_le (by push_cast at *; omega) (by push_cast at *; omega)
  have hsum : (20159 * a.toInt32 + 33554432 : Int32).toInt = 20159 * a.toInt + 33554432 := by
    rw [Int32.toInt_add, hprod, show (33554432 : Int32).toInt = 33554432 from by decide]
    exact Int.bmod_eq_of_le (by push_cast at *; omega) (by push_cast at *; omega)
  have hquot : ((20159 * a.toInt32 + 33554432) >>> 26 : Int32).toInt =
      (20159 * a.toInt + 33554432) / 67108864 := by
    rw [toInt_shiftRight_26, hsum]
  set k := (20159 * a.toInt + 33554432) / 67108864 with hk
  have ht : ((20159 * a.toInt32 + 33554432) >>> 26 : Int32).toInt16.toInt = k := by
    rw [toInt_toInt16_of_le (by rw [hquot]; omega) (by rw [hquot]; omega), hquot]
  have hres : (barrettReduce a).toInt = a.toInt - 3329 * k := by
    show (a - ((20159 * a.toInt32 + 33554432) >>> 26 : Int32).toInt16 * kyberQ.toInt16).toInt = _
    rw [Int16.toInt_sub, Int16.toInt_mul, ht, show kyberQ.toInt16.toInt = 3329 from by decide]
    -- The product may leave the `int16_t` range, the difference does not.
    rw [Int.sub_bmod_bmod, mul_comm k]
    exact Int.bmod_eq_of_le (by omega) (by omega)
  refine ⟨k, hres, ?_, ?_⟩ <;> rw [hres] <;> omega

theorem residue_barrettReduce (a : Int16) : residue (barrettReduce a) = residue a := by
  rcases toInt_barrettReduce a with ⟨k, hk, -⟩
  have hq : (3329 : Zq) = 0 := by decide
  rw [residue, hk]
  push_cast
  rw [hq, residue]
  ring

theorem abs_barrettReduce_le (a : Int16) : |(barrettReduce a).toInt| ≤ 1664 := by
  rcases toInt_barrettReduce a with ⟨k, -, hlow, hhigh⟩
  exact abs_le.mpr ⟨hlow, hhigh⟩

/-! ## Sums that stay in range -/

theorem toInt_add_of_abs_le {a b : Int16} {m n : Int} (ha : |a.toInt| ≤ m) (hb : |b.toInt| ≤ n)
    (h : m + n ≤ 32767) : (a + b).toInt = a.toInt + b.toInt := by
  rcases abs_le.mp ha with ⟨ha1, ha2⟩
  rcases abs_le.mp hb with ⟨hb1, hb2⟩
  rw [Int16.toInt_add]
  exact Int.bmod_eq_of_le (by omega) (by omega)

theorem toInt_sub_of_abs_le {a b : Int16} {m n : Int} (ha : |a.toInt| ≤ m) (hb : |b.toInt| ≤ n)
    (h : m + n ≤ 32767) : (a - b).toInt = a.toInt - b.toInt := by
  rcases abs_le.mp ha with ⟨ha1, ha2⟩
  rcases abs_le.mp hb with ⟨hb1, hb2⟩
  rw [Int16.toInt_sub]
  exact Int.bmod_eq_of_le (by omega) (by omega)

theorem residue_add_of_abs_le {a b : Int16} {m n : Int} (ha : |a.toInt| ≤ m) (hb : |b.toInt| ≤ n)
    (h : m + n ≤ 32767) : residue (a + b) = residue a + residue b := by
  rw [residue, toInt_add_of_abs_le ha hb h, Int.cast_add, residue, residue]

theorem residue_sub_of_abs_le {a b : Int16} {m n : Int} (ha : |a.toInt| ≤ m) (hb : |b.toInt| ≤ n)
    (h : m + n ≤ 32767) : residue (a - b) = residue a - residue b := by
  rw [residue, toInt_sub_of_abs_le ha hb h, Int.cast_sub, residue, residue]

end HybridPqc.Mlkem
