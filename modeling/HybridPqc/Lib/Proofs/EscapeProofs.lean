import HybridPqc.Lib.Proofs.PyJsonProofs

/-!
# Reading a string that `dumps` wrote

Every code point is written as itself, with a letter or as the four digits of its UTF-16 units. The
parser reads the units back and joins the surrogate pairs among them.
-/

namespace Json

/-- The UTF-16 code units that `dumps` escapes a code point with. -/
def units (c : Nat) : List Nat :=
  if c < 0x10000 then [c]
  else [0xD800 + (c - 0x10000) / 0x400 % 0x400, 0xDC00 + c % 0x400]

/-- What the text of a string reads back as: its surrogate pairs are joined. -/
def readBackStr (s : PyStr) : PyStr := joinUnits (s.flatMap units)

theorem units_lt (s : PyStr) : ∀ u ∈ s.flatMap units, u < 0x10000 := by
  intro u hu
  obtain ⟨c, -, hc⟩ := List.mem_flatMap.mp hu
  unfold units at hc
  split at hc
  · rw [List.mem_singleton.mp hc]
    assumption
  · simp only [List.mem_cons, List.not_mem_nil, or_false] at hc
    omega

/-- The units that are written as `\uXXXX`. -/
def NeedsUnit (u : Nat) : Prop :=
  u < 0x10000 ∧ ¬ (0x20 ≤ u ∧ u ≤ 0x7E) ∧ u ≠ 0x0A ∧ u ≠ 0x0D ∧ u ≠ 0x09 ∧ u ≠ 0x0C ∧ u ≠ 0x08

theorem escapeChar_of_needsUnit {u : Nat} (h : NeedsUnit u) : escapeChar u = escapeUnit u := by
  obtain ⟨hlt, hplain, h1, h2, h3, h4, h5⟩ := h
  have hquote : ¬ u = '"'.toNat := by
    show ¬ u = 34
    omega
  have hback : ¬ u = '\\'.toNat := by
    show ¬ u = 92
    omega
  rw [escapeChar, if_neg hquote, if_neg hback, if_neg hplain, if_neg h1, if_neg h2, if_neg h3,
    if_neg h4, if_neg h5, if_pos hlt]

theorem flatMap_escapeChar (s : PyStr) :
    s.flatMap escapeChar = (s.flatMap units).flatMap escapeChar := by
  rw [List.flatMap_assoc]
  congr 1
  funext c
  unfold units
  split
  · simp
  · next hc =>
    have hhi : NeedsUnit (0xD800 + (c - 0x10000) / 0x400 % 0x400) := by
      unfold NeedsUnit
      omega
    have hlo : NeedsUnit (0xDC00 + c % 0x400) := by
      unfold NeedsUnit
      omega
    have hquote : ¬ c = '"'.toNat := by
      show ¬ c = 34
      omega
    have hback : ¬ c = '\\'.toNat := by
      show ¬ c = 92
      omega
    rw [List.flatMap_cons, List.flatMap_cons, List.flatMap_nil, List.append_nil,
      escapeChar_of_needsUnit hhi, escapeChar_of_needsUnit hlo]
    rw [escapeChar, if_neg hquote, if_neg hback, if_neg (by omega), if_neg (by omega),
      if_neg (by omega), if_neg (by omega), if_neg (by omega), if_neg (by omega), if_neg hc]

theorem hexVal_hexDigit {n : Nat} (h : n < 16) : hexVal (hexDigit n) = some n := by
  have hall : ∀ n < 16, hexVal (hexDigit n) = some n := by decide
  exact hall n h

/-- The four digits of an escape spell its unit. -/
theorem escapeUnit_digits {u : Nat} (h : u < 0x10000) :
    ∃ a b c d, escapeUnit u = [0x5C, 0x75, a, b, c, d] ∧ hex4 a b c d = some u := by
  refine ⟨_, _, _, _, rfl, ?_⟩
  unfold hex4
  rw [hexVal_hexDigit (by omega), hexVal_hexDigit (by omega), hexVal_hexDigit (by omega),
    hexVal_hexDigit (by omega)]
  simp only [Option.some.injEq]
  omega

/-- The ways in which a unit is written: as itself, with a letter, or with its digits. -/
theorem escapeChar_cases {u : Nat} (h : u < 0x10000) :
    (escapeChar u = [u] ∧ u ≠ 34 ∧ u ≠ 92 ∧ 0x20 ≤ u ∧ u ≤ 0x7E) ∨
      (∃ e, escapeChar u = [0x5C, e] ∧ e ≠ 0x75 ∧ escapeVal e = some u ∧ e < 0x80) ∨
      NeedsUnit u := by
  by_cases hunit : NeedsUnit u
  · exact .inr (.inr hunit)
  by_cases hplain : u ≠ 34 ∧ u ≠ 92 ∧ 0x20 ≤ u ∧ u ≤ 0x7E
  · obtain ⟨hquote, hback, hlow, hhigh⟩ := hplain
    refine .inl ⟨?_, hquote, hback, hlow, hhigh⟩
    rw [escapeChar, if_neg (show ¬ u = '"'.toNat from hquote), if_neg (show ¬ u = '\\'.toNat from hback),
      if_pos ⟨hlow, hhigh⟩]
  · right
    left
    have hlist : u = 34 ∨ u = 92 ∨ u = 0x0A ∨ u = 0x0D ∨ u = 0x09 ∨ u = 0x0C ∨ u = 0x08 := by
      unfold NeedsUnit at hunit
      omega
    rcases hlist with rfl | rfl | rfl | rfl | rfl | rfl | rfl
    · exact ⟨34, rfl, by decide, rfl, by decide⟩
    · exact ⟨92, rfl, by decide, rfl, by decide⟩
    · exact ⟨110, rfl, by decide, rfl, by decide⟩
    · exact ⟨114, rfl, by decide, rfl, by decide⟩
    · exact ⟨116, rfl, by decide, rfl, by decide⟩
    · exact ⟨102, rfl, by decide, rfl, by decide⟩
    · exact ⟨98, rfl, by decide, rfl, by decide⟩

theorem joinUnits_cons_of_not_high {u : Nat} (h : isHighSurrogate u = false) (us : List Nat) :
    joinUnits (u :: us) = u :: joinUnits us := by
  cases us with
  | nil => simp [joinUnits]
  | cons v us => simp [joinUnits, h]

theorem parseStr_plain {c : Nat} (h1 : c ≠ 34) (h2 : c ≠ 92) (h3 : 0x20 ≤ c) (l : PyStr) :
    parseStr (c :: l) = consStr c (parseStr l) := by
  have hq : ¬ c = '"'.toNat := h1
  have hb : ¬ c = '\\'.toNat := h2
  rw [parseStr.eq_def]
  simp only [if_neg hq, if_neg hb, if_neg (show ¬ c < 0x20 by omega)]

theorem parseStr_letter {e v : Nat} (he : e ≠ 0x75) (hv : escapeVal e = some v) (l : PyStr) :
    parseStr (0x5C :: e :: l) = consStr v (parseStr l) := by
  have hq : ¬ (0x5C : Nat) = '"'.toNat := by decide
  have hb : (0x5C : Nat) = '\\'.toNat := rfl
  have hu : ¬ e = 'u'.toNat := he
  rw [parseStr.eq_def]
  simp only [if_neg hq, if_pos hb, if_neg hu, hv]

/-- No escape of a unit stands at the start of the text. -/
def NoUnit (l : PyStr) : Prop := ∀ a b c d l', l ≠ 0x5C :: 0x75 :: a :: b :: c :: d :: l'

theorem parseStr_unit {a b c d u : Nat} (hu : hex4 a b c d = some u) {l : PyStr} (hl : NoUnit l) :
    parseStr (0x5C :: 0x75 :: a :: b :: c :: d :: l) = consStr u (parseStr l) := by
  have hq : ¬ (0x5C : Nat) = '"'.toNat := by decide
  have hb : (0x5C : Nat) = '\\'.toNat := rfl
  have hletter : (0x75 : Nat) = 'u'.toNat := rfl
  rw [parseStr.eq_def]
  simp only [if_neg hq, if_pos hb, if_pos hletter, hu]
  split
  · next g₁ g₂ g₃ g₄ l' => exact absurd rfl (hl g₁ g₂ g₃ g₄ l')
  · rfl

theorem parseStr_unit_unit {a b c d u : Nat} (hu : hex4 a b c d = some u) {a' b' c' d' v : Nat}
    (hv : hex4 a' b' c' d' = some v) (l : PyStr) :
    parseStr (0x5C :: 0x75 :: a :: b :: c :: d :: 0x5C :: 0x75 :: a' :: b' :: c' :: d' :: l) =
      if isHighSurrogate u && isLowSurrogate v then consStr (joinSurrogates u v) (parseStr l)
      else consStr u (parseStr (0x5C :: 0x75 :: a' :: b' :: c' :: d' :: l)) := by
  have hq : ¬ (0x5C : Nat) = '"'.toNat := by decide
  have hb : (0x5C : Nat) = '\\'.toNat := rfl
  have hletter : (0x75 : Nat) = 'u'.toNat := rfl
  rw [parseStr.eq_def]
  simp only [if_neg hq, if_pos hb, if_pos hletter, hu, hv]

theorem consStr_some {c : Nat} {s rest : PyStr} : consStr c (some (s, rest)) = some (c :: s, rest) := rfl

/-- The text does not start with an escape that joins with the unit `u`. -/
def Separate (u : Nat) (l : PyStr) : Prop :=
  NoUnit l ∨ ∃ a b c d v l', l = 0x5C :: 0x75 :: a :: b :: c :: d :: l' ∧ hex4 a b c d = some v ∧
    (isHighSurrogate u && isLowSurrogate v) = false

theorem parseStr_escapeChar {u : Nat} (hu : u < 0x10000) {l : PyStr} (hl : Separate u l) :
    parseStr (escapeChar u ++ l) = consStr u (parseStr l) := by
  rcases escapeChar_cases hu with ⟨he, h34, h92, hlow, -⟩ | ⟨e, he, h75, hval, -⟩ | hunit
  · rw [he]
    exact parseStr_plain h34 h92 hlow l
  · rw [he]
    exact parseStr_letter h75 hval l
  · obtain ⟨a, b, c, d, he, hhex⟩ := escapeUnit_digits hu
    rw [escapeChar_of_needsUnit hunit, he]
    rcases hl with hno | ⟨a', b', c', d', v, l', rfl, hhex', hpair⟩
    · exact parseStr_unit hhex hno
    · refine (parseStr_unit_unit hhex hhex' l').trans ?_
      rw [hpair]
      rfl

theorem separate_escapeChar {u v : Nat} (hv : v < 0x10000)
    (hpair : ¬ (isHighSurrogate u && isLowSurrogate v) = true) (l : PyStr) :
    Separate u (escapeChar v ++ l) := by
  rcases escapeChar_cases hv with ⟨he, -, h92, -⟩ | ⟨e, he, h75, -⟩ | hunit
  · left
    rw [he]
    rintro a b c d l' h
    exact h92 (List.cons.inj h).1
  · left
    rw [he]
    rintro a b c d l' h
    exact h75 (List.cons.inj (List.cons.inj h).2).1
  · right
    obtain ⟨a, b, c, d, he, hhex⟩ := escapeUnit_digits hv
    refine ⟨a, b, c, d, v, l, ?_, hhex, by simpa using hpair⟩
    rw [escapeChar_of_needsUnit hunit, he]
    rfl

theorem needsUnit_of_surrogate {u : Nat} (hlow : 0xD800 ≤ u) (hhigh : u ≤ 0xDFFF) : NeedsUnit u := by
  unfold NeedsUnit
  omega

/-- The escaped units are read back and joined. -/
theorem parseStr_units {us : List Nat} (h : ∀ u ∈ us, u < 0x10000) (rest : PyStr) :
    parseStr (us.flatMap escapeChar ++ 34 :: rest) = some (joinUnits us, rest) := by
  have hend : parseStr (34 :: rest) = some ([], rest) := by
    rw [parseStr.eq_def]
    simp
  induction us using joinUnits.induct with
  | case1 => exact hend
  | case2 u =>
    have hno : NoUnit (34 :: rest) := by
      rintro a b c d l' ⟨⟩
    have hjoin : joinUnits [u] = [u] := by simp [joinUnits]
    rw [List.flatMap_cons, List.flatMap_nil, List.append_nil,
      parseStr_escapeChar (h u (by simp)) (.inl hno), hend, consStr_some, hjoin]
  | case3 u v us hpair ih =>
    rw [Bool.and_eq_true] at hpair
    have hhigh : 0xD800 ≤ u ∧ u ≤ 0xDBFF := by simpa [isHighSurrogate] using hpair.1
    have hlow : 0xDC00 ≤ v ∧ v ≤ 0xDFFF := by simpa [isLowSurrogate] using hpair.2
    obtain ⟨a, b, c, d, he, hhex⟩ := escapeUnit_digits (u := u) (by omega)
    obtain ⟨a', b', c', d', he', hhex'⟩ := escapeUnit_digits (u := v) (by omega)
    have hunit := needsUnit_of_surrogate hhigh.1 (by omega)
    have hunit' := needsUnit_of_surrogate (u := v) (by omega) hlow.2
    have hjoin : joinUnits (u :: v :: us) = joinSurrogates u v :: joinUnits us := by
      simp [joinUnits, hpair]
    rw [List.flatMap_cons, List.flatMap_cons, escapeChar_of_needsUnit hunit,
      escapeChar_of_needsUnit hunit', he, he', List.append_assoc, List.append_assoc]
    refine (parseStr_unit_unit hhex hhex' (us.flatMap escapeChar ++ 34 :: rest)).trans ?_
    rw [hpair.1, hpair.2, ih fun w hw => h w (by simp [hw]), hjoin]
    rfl
  | case4 u v us hpair ih =>
    have hsep : Separate u (escapeChar v ++ (us.flatMap escapeChar ++ 34 :: rest)) :=
      separate_escapeChar (h v (by simp)) hpair _
    have hrest := ih fun w hw => h w (List.mem_cons_of_mem _ hw)
    have hjoin : joinUnits (u :: v :: us) = u :: joinUnits (v :: us) := by
      rw [joinUnits]
      simp [hpair]
    rw [List.flatMap_cons, List.append_assoc] at hrest
    rw [List.flatMap_cons, List.flatMap_cons, List.append_assoc, List.append_assoc,
      parseStr_escapeChar (h u (by simp)) hsep, hrest, consStr_some, hjoin]

/-- The text of a string reads back as the string with its surrogate pairs joined. -/
theorem parseStr_dumpStr (s rest : PyStr) :
    ∃ l, dumpStr s ++ rest = 34 :: l ∧ parseStr l = some (readBackStr s, rest) := by
  refine ⟨s.flatMap escapeChar ++ 34 :: rest, by simp [dumpStr], ?_⟩
  rw [flatMap_escapeChar]
  exact parseStr_units (units_lt s) rest

theorem readBackStr_of_isPlain {s : PyStr} (h : IsPlain s) : readBackStr s = s := by
  have hunits : s.flatMap units = s := by
    induction s with
    | nil => rfl
    | cons c s ih =>
      have hc : units c = [c] := by
        have := h c (by simp)
        unfold units
        rw [if_pos (by omega)]
      rw [List.flatMap_cons, hc, ih fun d hd => h d (by simp [hd])]
      rfl
  rw [readBackStr, hunits]
  clear hunits
  induction s with
  | nil => rfl
  | cons c s ih =>
    have hc := h c (by simp)
    have hhigh : isHighSurrogate c = false := by
      simp [isHighSurrogate]
      omega
    rw [joinUnits_cons_of_not_high hhigh, ih fun d hd => h d (by simp [hd])]

end Json
