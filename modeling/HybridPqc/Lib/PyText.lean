import Mathlib.Data.Nat.Digits.Lemmas
import HybridPqc.Lib.ByteStrings

/-!
# Text

Text as Python's `str` holds it: a list of code points, lone surrogates included. The decoders are
those that Python selects for the bytes of a JSON document; the encoder covers ASCII text, which is
all that the printers of this library produce.
-/

/-- A Python `str`: its code points. -/
abbrev PyStr := List Nat

namespace PyStr

/-- The code points of a literal. -/
def lit (s : String) : PyStr := s.toList.map Char.toNat

/-- Every code point is ASCII. -/
def IsAscii (s : PyStr) : Prop := ∀ c ∈ s, c < 128

instance (s : PyStr) : Decidable (IsAscii s) := inferInstanceAs (Decidable (∀ c ∈ s, c < 128))

theorem IsAscii.append {s t : PyStr} (hs : IsAscii s) (ht : IsAscii t) : IsAscii (s ++ t) := by
  intro c hc
  rcases List.mem_append.mp hc with h | h
  · exact hs c h
  · exact ht c h

/-- `s.encode()` for ASCII text. -/
def encodeAscii (s : PyStr) : Bytes := s.map UInt8.ofNat

@[simp] theorem encodeAscii_length (s : PyStr) : (encodeAscii s).length = s.length := by
  simp [encodeAscii]

theorem encodeAscii_toNat {s : PyStr} (h : IsAscii s) : (encodeAscii s).map UInt8.toNat = s := by
  unfold encodeAscii
  rw [List.map_map]
  calc s.map (UInt8.toNat ∘ UInt8.ofNat) = s.map id := by
        apply List.map_congr_left
        intro c hc
        have hlt := h c hc
        simp
        omega
    _ = s := List.map_id s

/-! ## Decimal numbers -/

/-- `str(n)` of a natural number. -/
def decimal (n : Nat) : PyStr :=
  if n = 0 then [48] else ((Nat.digits 10 n).reverse).map (48 + ·)

/-- `str(i)` of an integer. -/
def decimalInt (i : Int) : PyStr :=
  if i < 0 then 45 :: decimal i.natAbs else decimal i.natAbs

/-- The last `k` decimal digits of `n`, padded with zeros. -/
def decimalPad : Nat → Nat → PyStr
  | 0, _ => []
  | k + 1, n => decimalPad k (n / 10) ++ [48 + n % 10]

/-- `c` is an ASCII decimal digit. -/
def isDigit (c : Nat) : Bool := 48 ≤ c && c ≤ 57

/-- The number that a list of decimal digits spells. -/
def ofDecimal (s : PyStr) : Nat := s.foldl (fun acc c => 10 * acc + (c - 48)) 0

theorem isDigit_iff {c : Nat} : isDigit c = true ↔ 48 ≤ c ∧ c ≤ 57 := by
  simp [isDigit]

theorem decimal_isDigit (n : Nat) : ∀ c ∈ decimal n, isDigit c = true := by
  intro c hc
  unfold decimal at hc
  rw [isDigit_iff]
  split at hc
  · simp only [List.mem_singleton] at hc
    omega
  · obtain ⟨d, hd, rfl⟩ := List.mem_map.mp hc
    have hlt := Nat.digits_lt_base (by omega : 1 < 10) (List.mem_reverse.mp hd)
    omega

theorem decimalPad_isDigit (k n : Nat) : ∀ c ∈ decimalPad k n, isDigit c = true := by
  induction k generalizing n with
  | zero => simp [decimalPad]
  | succ k ih =>
    intro c hc
    rcases List.mem_append.mp hc with h | h
    · exact ih _ c h
    · simp only [List.mem_singleton] at h
      rw [isDigit_iff]
      omega

@[simp] theorem decimalPad_length (k n : Nat) : (decimalPad k n).length = k := by
  induction k generalizing n with
  | zero => rfl
  | succ k ih => simp [decimalPad, ih]

theorem isAscii_of_isDigit {s : PyStr} (h : ∀ c ∈ s, isDigit c = true) : IsAscii s := by
  intro c hc
  have hd := isDigit_iff.mp (h c hc)
  omega

theorem decimal_isAscii (n : Nat) : IsAscii (decimal n) := isAscii_of_isDigit (decimal_isDigit n)

theorem decimal_ne_nil (n : Nat) : decimal n ≠ [] := by
  unfold decimal
  split
  · simp
  · next h => simpa using Nat.digits_ne_nil_iff_ne_zero.mpr h

theorem ofDecimal_map (l : List Nat) :
    ofDecimal (l.map (48 + ·)) = l.foldl (fun acc d => 10 * acc + d) 0 := by
  simp [ofDecimal, List.foldl_map]

/-- A decimal number spells the number it was printed from. -/
theorem ofDecimal_decimal (n : Nat) : ofDecimal (decimal n) = n := by
  unfold decimal
  split
  · next h => subst h; rfl
  · rw [ofDecimal_map, List.foldl_reverse]
    have hof : Nat.ofDigits 10 (Nat.digits 10 n) = n := Nat.ofDigits_digits 10 n
    rw [Nat.ofDigits_eq_foldr] at hof
    calc (Nat.digits 10 n).foldr (fun d acc => 10 * acc + d) 0
        = (Nat.digits 10 n).foldr (fun d acc => (d : Nat) + 10 * acc) 0 := by
          congr 1; funext d acc; omega
      _ = n := by simpa using hof

theorem decimal_head {n : Nat} (h : n ≠ 0) : ∃ d ds, decimal n = d :: ds ∧ d ≠ 48 := by
  have hne : Nat.digits 10 n ≠ [] := Nat.digits_ne_nil_iff_ne_zero.mpr h
  have hlast := Nat.getLast_digit_ne_zero 10 h
  refine ⟨48 + (Nat.digits 10 n).getLast hne, ((Nat.digits 10 n).dropLast.reverse).map (48 + ·),
    ?_, by omega⟩
  unfold decimal
  rw [if_neg h]
  conv_lhs => rw [← List.dropLast_append_getLast hne]
  simp

theorem decimal_length_le {n k : Nat} (hk : 0 < k) (h : n < 10 ^ k) : (decimal n).length ≤ k := by
  unfold decimal
  split
  · exact hk
  · simp only [List.length_map, List.length_reverse]
    exact (Nat.digits_length_le_iff (by omega) n).mpr h

/-! ## Fixed-point numbers -/

/-- `%.kf` of the number `n / 10 ^ k`. -/
def fixed (k n : Nat) : PyStr := decimal (n / 10 ^ k) ++ lit "." ++ decimalPad k n

theorem fixed_isAscii (k n : Nat) : IsAscii (fixed k n) := by
  have hdot : (lit ".").IsAscii := by decide
  exact ((isAscii_of_isDigit (decimal_isDigit _)).append hdot).append
    (isAscii_of_isDigit (decimalPad_isDigit _ _))

theorem fixed_length_le {k n d : Nat} (hd : 0 < d) (h : n < 10 ^ (d + k)) :
    (fixed k n).length ≤ d + 1 + k := by
  have hlt : n / 10 ^ k < 10 ^ d := by
    rw [Nat.div_lt_iff_lt_mul (Nat.pow_pos (by omega)), ← pow_add]
    exact h
  have hdec := decimal_length_le hd hlt
  have hdot : (lit ".").length = 1 := rfl
  simp only [fixed, List.length_append, decimalPad_length, hdot]
  omega

end PyStr
