import Mathlib.Data.NNRat.Floor
import Mathlib.Data.Rat.Floor
import Mathlib.Tactic.FieldSimp
import Mathlib.Tactic.Linarith
import Mathlib.Tactic.Ring
import HybridPqc.Lib.Proofs.PyJsonProofs

/-!
# Decimal literals

The number that a JSON literal denotes, and the literals that `printf` writes with a fixed number of
decimals. Numbers are exact: what a literal denotes is not rounded to a double.
-/

/-- The nearest natural number, the even one of two. -/
def roundHalfEven (q : ℚ≥0) : Nat :=
  let whole := ⌊q⌋₊
  let twice := 2 * (q - whole)
  if 1 < twice ∨ twice = 1 ∧ whole % 2 = 1 then whole + 1 else whole

theorem roundHalfEven_le {q : ℚ≥0} {n : Nat} (h : q ≤ n) : roundHalfEven q ≤ n := by
  have hfloor : ⌊q⌋₊ ≤ n := by
    have hmono := Nat.floor_mono h
    rwa [Nat.floor_natCast] at hmono
  unfold roundHalfEven
  dsimp only
  split
  · next hup =>
    rcases Nat.lt_or_eq_of_le hfloor with hlt | heq
    · exact hlt
    · have hsub : q - (n : ℚ≥0) = 0 := tsub_eq_zero_of_le h
      rw [heq, hsub] at hup
      rcases hup with hgt | ⟨hone, -⟩
      · simp at hgt
      · simp at hone
  · exact hfloor

namespace PyStr

theorem ofDecimal_append (s t : PyStr) :
    ofDecimal (s ++ t) = t.foldl (fun acc c => 10 * acc + (c - 48)) (ofDecimal s) := by
  rw [ofDecimal, ofDecimal, List.foldl_append]

theorem ofDecimal_decimalPad (k n : Nat) : ofDecimal (decimalPad k n) = n % 10 ^ k := by
  induction k generalizing n with
  | zero => simp [decimalPad, ofDecimal, Nat.mod_one]
  | succ k ih =>
    rw [decimalPad, ofDecimal_append, ih, List.foldl_cons, List.foldl_nil, pow_succ', Nat.mod_mul]
    omega

end PyStr

namespace Json

/-- The exponent that `parseExponent` has cut off. -/
def exponentValue : PyStr → Int
  | [] => 0
  | _ :: 45 :: digits => -PyStr.ofDecimal digits
  | _ :: 43 :: digits => PyStr.ofDecimal digits
  | _ :: digits => PyStr.ofDecimal digits

/-- The number that a literal without sign denotes. -/
def unsignedValue (literal : PyStr) : ℚ :=
  let whole := literal.takeWhile PyStr.isDigit
  let (fraction, rest) := parseFraction (literal.dropWhile PyStr.isDigit)
  let (exponent, _) := parseExponent rest
  (PyStr.ofDecimal whole + PyStr.ofDecimal fraction.tail / 10 ^ fraction.tail.length) *
    10 ^ exponentValue exponent

/-- The number that a value is, if it is one. -/
def number : Json → Option ℚ
  | int i => some i
  | float (45 :: literal) => some (-unsignedValue literal)
  | float literal => some (unsignedValue literal)
  | _ => none

theorem number_of_digit {d : Nat} {l : PyStr} (hd : PyStr.isDigit d = true) :
    number (float (d :: l)) = some (unsignedValue (d :: l)) := by
  have hminus : d ≠ 45 := by
    rintro rfl
    cases hd
  rw [number.eq_def]
  split
  · next heq => cases heq
  · next heq => exact absurd (List.cons.inj (float.inj heq)).1 hminus
  · next heq => rw [float.inj heq]
  · next hno => exact absurd rfl (hno _)

/-- What `printf` writes with `k + 1` decimals denotes the number. -/
theorem number_fixed (k n : Nat) :
    number (float (PyStr.fixed (k + 1) n)) = some ((n : ℚ) / 10 ^ (k + 1)) := by
  obtain ⟨d, l, hdec, hd⟩ := decimal_cons (n / 10 ^ (k + 1))
  have hhead : PyStr.fixed (k + 1) n = d :: (l ++ PyStr.lit "." ++ PyStr.decimalPad (k + 1) n) := by
    rw [PyStr.fixed, hdec]
    rfl
  have htext : PyStr.fixed (k + 1) n =
      PyStr.decimal (n / 10 ^ (k + 1)) ++ 46 :: PyStr.decimalPad (k + 1) n := by
    simp [PyStr.fixed, PyStr.lit]
  have hdot : NoDigit (46 :: PyStr.decimalPad (k + 1) n) := by
    rintro c l ⟨⟩
    rfl
  have hdigits := PyStr.decimal_isDigit (n / 10 ^ (k + 1))
  have hfrac := parseFraction_decimalPad k n delimited_nil
  rw [List.append_nil] at hfrac
  rw [hhead, number_of_digit hd, ← hhead, htext]
  simp only [unsignedValue, takeWhile_isDigit hdigits hdot, dropWhile_isDigit hdigits hdot, hfrac,
    parseExponent_of_delimited delimited_nil, List.tail_cons, PyStr.ofDecimal_decimal,
    PyStr.ofDecimal_decimalPad, PyStr.decimalPad_length, exponentValue, zpow_zero, mul_one]
  have hpow : (10 : ℚ) ^ (k + 1) ≠ 0 := by positivity
  have hdiv : (n : ℚ) = 10 ^ (k + 1) * (n / 10 ^ (k + 1) : Nat) + (n % 10 ^ (k + 1) : Nat) := by
    exact_mod_cast (Nat.div_add_mod n (10 ^ (k + 1))).symm
  rw [Option.some_inj, eq_div_iff hpow, add_mul, div_mul_cancel₀ _ hpow, mul_comm, ← hdiv]

end Json
