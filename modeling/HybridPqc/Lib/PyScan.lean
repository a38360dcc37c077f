import Mathlib.Data.List.DropRight
import HybridPqc.Lib.PyText

/-!
# Scanning text

White space, words and decimal digits of a Python `str`, and the leftmost match of a pattern in it. The
character classes are those of Unicode, as in `str.split` and in the classes `\s` and `\d` of `re`.
-/

namespace PyStr

/-- `c.isspace()`. -/
def isSpace (c : Nat) : Bool :=
  (9 ≤ c && c ≤ 13) || (28 ≤ c && c ≤ 32) || c == 0x85 || c == 0xa0 || c == 0x1680 ||
    (0x2000 ≤ c && c ≤ 0x200a) || c == 0x2028 || c == 0x2029 || c == 0x202f || c == 0x205f ||
    c == 0x3000

/-- The code points of the digits zero; each is followed by the other nine digits of its script. -/
def digitZeros : List Nat :=
  [0x30, 0x660, 0x6f0, 0x7c0, 0x966, 0x9e6, 0xa66, 0xae6, 0xb66, 0xbe6, 0xc66, 0xce6, 0xd66, 0xde6,
   0xe50, 0xed0, 0xf20, 0x1040, 0x1090, 0x17e0, 0x1810, 0x1946, 0x19d0, 0x1a80, 0x1a90, 0x1b50, 0x1bb0,
   0x1c40, 0x1c50, 0xa620, 0xa8d0, 0xa900, 0xa9d0, 0xa9f0, 0xaa50, 0xabf0, 0xff10, 0x104a0, 0x10d30,
   0x11066, 0x110f0, 0x11136, 0x111d0, 0x112f0, 0x11450, 0x114d0, 0x11650, 0x116c0, 0x11730, 0x118e0,
   0x11950, 0x11c50, 0x11d50, 0x11da0, 0x16a60, 0x16ac0, 0x16b50, 0x1d7ce, 0x1d7d8, 0x1d7e2, 0x1d7ec,
   0x1d7f6, 0x1e140, 0x1e2f0, 0x1e950, 0x1fbf0]

/-- The value of a decimal digit of any script (`\d`). -/
def digitValue? (c : Nat) : Option Nat :=
  (digitZeros.find? fun z => z ≤ c && c ≤ z + 9).map (c - ·)

def isDecimal (c : Nat) : Bool := (digitValue? c).isSome

/-- `int(s)` of a text of decimal digits. -/
def intValue (s : PyStr) : Nat := s.foldl (fun acc c => 10 * acc + (digitValue? c).getD 0) 0

/-! ## Words -/

/-- What `s` starts with up to the first white space, and the words after it. -/
def splitAux : PyStr → PyStr × List PyStr
  | [] => ([], [])
  | c :: s =>
    let (word, words) := splitAux s
    if isSpace c then ([], if word = [] then words else word :: words) else (c :: word, words)

/-- `s.split()`. -/
def split (s : PyStr) : List PyStr :=
  let (word, words) := splitAux s
  if word = [] then words else word :: words

/-- `s.rstrip(chr(c))`. -/
def rstrip (c : Nat) (s : PyStr) : PyStr := s.rdropWhile (· == c)

/-- `sub in s`. -/
def Contains (sub s : PyStr) : Prop := sub <:+: s

instance (sub s : PyStr) : Decidable (Contains sub s) := inferInstanceAs (Decidable (sub <:+: s))

/-- The parts of `s` before and after the first `c`. -/
def cut (c : Nat) : PyStr → Option (PyStr × PyStr)
  | [] => none
  | a :: s => if a = c then some ([], s) else (cut c s).map fun (before, after) => (a :: before, after)

/-! ## Patterns -/

/-- `re.search`: what `pattern` matches at the leftmost position where it matches. -/
def search {α : Type} (pattern : PyStr → Option α) : PyStr → Option α
  | [] => pattern []
  | c :: s => (pattern (c :: s)).orElse fun _ => search pattern s

/-- What follows `literal` at the start of `s`. -/
def after? (literal s : PyStr) : Option PyStr :=
  if literal.isPrefixOf s then some (s.drop literal.length) else none

/-! ## Labels -/

/-- `s` up to the first separator, and the labels that the other separators start. -/
def labelsAux (sep : Nat → Bool) : PyStr → PyStr × List PyStr
  | [] => ([], [])
  | c :: s =>
    let (label, labels) := labelsAux sep s
    if sep c then ([], label :: labels) else (c :: label, labels)

/-- The parts of a text that follow one of its separators, each up to the next one. -/
def labels (sep : Nat → Bool) (s : PyStr) : List PyStr := (labelsAux sep s).2

/-! ### What the labels of a text start with -/

section Labels

variable {sep : Nat → Bool}

theorem labelsAux_cons_sep {c : Nat} (h : sep c = true) (s : PyStr) :
    labelsAux sep (c :: s) = ([], (labelsAux sep s).1 :: (labelsAux sep s).2) := by
  simp [labelsAux, h]

theorem labelsAux_cons {c : Nat} (h : sep c = false) (s : PyStr) :
    labelsAux sep (c :: s) = (c :: (labelsAux sep s).1, (labelsAux sep s).2) := by
  simp [labelsAux, h]

/-- A text without separators is a single label. -/
theorem labelsAux_of_no_sep {s : PyStr} (h : ∀ c ∈ s, sep c = false) : labelsAux sep s = (s, []) := by
  induction s with
  | nil => rfl
  | cons c s ih =>
    rw [labelsAux_cons (h c (by simp)), ih fun c' hc' => h c' (by simp [hc'])]

theorem first_append {c : Nat} (hc : sep c = true) (s t : PyStr) :
    (labelsAux sep (s ++ c :: t)).1 = (labelsAux sep s).1 := by
  induction s with
  | nil => simp [labelsAux_cons_sep hc, labelsAux]
  | cons b s ih =>
    rw [List.cons_append]
    cases hb : sep b with
    | true => rw [labelsAux_cons_sep hb, labelsAux_cons_sep hb]
    | false => rw [labelsAux_cons hb, labelsAux_cons hb, ih]

/-- A separator and a text without separators add a label. -/
theorem labels_append {c : Nat} (hc : sep c = true) {s t : PyStr} (ht : ∀ c ∈ t, sep c = false) :
    labels sep (s ++ c :: t) = labels sep s ++ [t] := by
  unfold labels
  induction s with
  | nil => simp [labelsAux_cons_sep hc, labelsAux_of_no_sep ht, labelsAux]
  | cons a s ih =>
    rw [List.cons_append]
    cases ha : sep a with
    | true =>
      rw [labelsAux_cons_sep ha, labelsAux_cons_sep ha]
      simp only [first_append hc, ih, List.cons_append]
    | false => rw [labelsAux_cons ha, labelsAux_cons ha, ih]

/-- A text without separators starts a text exactly when it starts its first label. -/
theorem prefix_iff_prefix_first {p : PyStr} (hp : ∀ c ∈ p, sep c = false) (s : PyStr) :
    p <+: s ↔ p <+: (labelsAux sep s).1 := by
  induction s generalizing p with
  | nil => rfl
  | cons c s ih =>
    cases p with
    | nil => simp
    | cons a p =>
      have hrest : ∀ c ∈ p, sep c = false := fun c hc => hp c (by simp [hc])
      cases hc : sep c with
      | true =>
        have hne : a ≠ c := by
          rintro rfl
          rw [hp a (by simp)] at hc
          cases hc
        rw [labelsAux_cons_sep hc, List.cons_prefix_cons]
        simp [hne]
      | false => rw [labelsAux_cons hc, List.cons_prefix_cons, List.cons_prefix_cons, ih hrest]

/-- A separator and a text without separators occur in a text exactly when one of its labels starts with
the latter. -/
theorem contains_sep_iff {p : PyStr} (hp : ∀ c ∈ p, sep c = false) (s : PyStr) :
    (∃ c, sep c = true ∧ Contains (c :: p) s) ↔ ∃ l ∈ labels sep s, p <+: l := by
  unfold Contains labels
  induction s with
  | nil => simp [labelsAux]
  | cons a s ih =>
    simp only [List.infix_cons_iff, List.cons_prefix_cons]
    have hsplit : (∃ c, sep c = true ∧ ((c = a ∧ p <+: s) ∨ c :: p <:+: s)) ↔
        (sep a = true ∧ p <+: s) ∨ ∃ l ∈ (labelsAux sep s).2, p <+: l := by
      rw [← ih]
      constructor
      · rintro ⟨c, hc, ⟨rfl, hpre⟩ | hin⟩
        · exact .inl ⟨hc, hpre⟩
        · exact .inr ⟨c, hc, hin⟩
      · rintro (⟨ha, hpre⟩ | ⟨c, hc, hin⟩)
        · exact ⟨a, ha, .inl ⟨rfl, hpre⟩⟩
        · exact ⟨c, hc, .inr hin⟩
    rw [hsplit, prefix_iff_prefix_first hp s]
    cases ha : sep a with
    | true => simp [labelsAux_cons_sep ha]
    | false => simp [labelsAux_cons ha]

end Labels

/-! ## Decimal numbers -/

theorem decimal_of_lt {n : Nat} (h : n < 10) : decimal n = [48 + n] := by
  unfold decimal
  split
  · next h0 => subst h0; rfl
  · next h0 =>
    rw [Nat.digits_of_lt 10 n h0 h]
    rfl

theorem decimal_of_le {n : Nat} (h : 10 ≤ n) : decimal n = decimal (n / 10) ++ [48 + n % 10] := by
  have hdiv : n / 10 ≠ 0 := by omega
  unfold decimal
  rw [if_neg (by omega), if_neg hdiv, Nat.digits_of_two_le_of_pos (by omega) (by omega)]
  simp

theorem decimal_injective {m n : Nat} (h : decimal m = decimal n) : m = n := by
  rw [← ofDecimal_decimal m, ← ofDecimal_decimal n, h]

/-- The decimal digits of `m` start those of `n` when `n` has `m` before its last `k` digits. -/
theorem decimal_prefix_iff {m n : Nat} (hm : 0 < m) : decimal m <+: decimal n ↔ ∃ k, n / 10 ^ k = m := by
  induction n using Nat.strong_induction_on with
  | _ n ih =>
    by_cases hn : n < 10
    · constructor
      · intro h
        rw [decimal_of_lt hn] at h
        rcases List.prefix_cons_iff.mp h with hnil | ⟨t, ht, hnil⟩
        · exact absurd hnil (decimal_ne_nil m)
        · rw [List.prefix_nil.mp hnil, ← decimal_of_lt hn] at ht
          exact ⟨0, by simp [decimal_injective ht]⟩
      · rintro ⟨k, hk⟩
        cases k with
        | zero =>
          rw [pow_zero, Nat.div_one] at hk
          rw [hk]
        | succ k =>
          have hzero : n / 10 ^ (k + 1) = 0 := by
            apply Nat.div_eq_of_lt
            calc n < 10 := hn
              _ ≤ 10 ^ (k + 1) := Nat.le_self_pow (by omega) 10
          omega
    · have hlt : n / 10 < n := by omega
      have hsplit : decimal n = decimal (n / 10) ++ [48 + n % 10] := decimal_of_le (by omega)
      rw [hsplit, List.prefix_concat_iff, ih _ hlt, ← hsplit]
      constructor
      · rintro (h | ⟨k, hk⟩)
        · exact ⟨0, by simp [decimal_injective h]⟩
        · exact ⟨k + 1, by rw [pow_succ', ← Nat.div_div_eq_div_mul, hk]⟩
      · rintro ⟨k, hk⟩
        cases k with
        | zero =>
          rw [pow_zero, Nat.div_one] at hk
          exact .inl (by rw [hk])
        | succ k =>
          rw [pow_succ', ← Nat.div_div_eq_div_mul] at hk
          exact .inr ⟨k, hk⟩

end PyStr
