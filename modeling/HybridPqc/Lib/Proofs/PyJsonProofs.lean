import HybridPqc.Lib.PyJson

/-!
# Reading what a printer wrote

A printer that writes an object without white space, its values being strings of plain characters,
naturals and fixed-point numbers, writes a text that `loads` reads back as these members.
-/

namespace Json

variable {limits : Limits}

/-- The text `t` reads as the value `v` when a comma or a closing brace follows. -/
structure Reads (limits : Limits) (v : Json) (t : PyStr) : Prop where
  head : ∃ c l, t = c :: l ∧ isSpace c = false
  value : ∀ fuel c rest, (c = 44 ∨ c = 125) →
    parseValue limits (fuel + 1) (t ++ c :: rest) = .ok (v, c :: rest)

/-- What may follow a value inside a text: nothing, a comma or a closing bracket or brace. -/
def Delimited (rest : PyStr) : Prop := ∀ c l, rest = c :: l → c = 44 ∨ c = 93 ∨ c = 125

theorem delimited_nil : Delimited [] := by
  rintro c l ⟨⟩

theorem delimited_cons {c : Nat} (h : c = 44 ∨ c = 93 ∨ c = 125) (l : PyStr) : Delimited (c :: l) := by
  rintro c' l' ⟨⟩
  exact h

/-- The text `t` reads as the value `v`, whatever delimiter follows. -/
structure ReadsAtom (limits : Limits) (v : Json) (t : PyStr) : Prop where
  head : ∃ c l, t = c :: l ∧ isSpace c = false ∧ c ≠ 93
  value : ∀ fuel rest, Delimited rest → parseValue limits (fuel + 1) (t ++ rest) = .ok (v, rest)

/-- The text `t` reads as the value `v` with fuel for its length, whatever delimiter follows. -/
structure ReadsAs (limits : Limits) (v : Json) (t : PyStr) : Prop where
  head : ∃ c l, t = c :: l ∧ isSpace c = false ∧ c ≠ 93
  value : ∀ fuel rest, 2 * t.length ≤ fuel → Delimited rest →
    parseValue limits fuel (t ++ rest) = .ok (v, rest)

theorem ReadsAtom.reads {v : Json} {t : PyStr} (h : ReadsAtom limits v t) : Reads limits v t where
  head := by
    obtain ⟨c, l, ht, hspace, -⟩ := h.head
    exact ⟨c, l, ht, hspace⟩
  value := by
    intro fuel c rest hc
    exact h.value fuel (c :: rest) (delimited_cons (by omega) rest)

theorem ReadsAtom.readsAs {v : Json} {t : PyStr} (h : ReadsAtom limits v t) : ReadsAs limits v t where
  head := h.head
  value := by
    intro fuel rest hfuel hrest
    obtain ⟨c, l, ht, -⟩ := h.head
    obtain ⟨fuel', rfl⟩ : ∃ fuel', fuel = fuel' + 1 := by
      rw [ht, List.length_cons] at hfuel
      exact ⟨fuel - 1, by omega⟩
    exact h.value fuel' rest hrest

/-! ## Strings -/

theorem parseStr_of_isPlain {s : PyStr} (h : IsPlain s) (rest : PyStr) :
    parseStr (s ++ 34 :: rest) = some (s, rest) := by
  induction s with
  | nil =>
    rw [List.nil_append, parseStr.eq_def]
    simp
  | cons c s ih =>
    obtain ⟨h1, h2, h3, h4⟩ := h c (by simp)
    have hq : ¬ c = '"'.toNat := h3
    have hb : ¬ c = '\\'.toNat := h4
    rw [List.cons_append, parseStr.eq_def]
    simp only [if_neg hq, if_neg hb, if_neg (show ¬ c < 0x20 by omega)]
    rw [ih fun d hd => h d (by simp [hd])]
    rfl

theorem ReadsAtom.str {s : PyStr} (h : IsPlain s) : ReadsAtom limits (str s) (34 :: s ++ [34]) where
  head := ⟨34, s ++ [34], rfl, rfl, by decide⟩
  value := by
    intro fuel rest _
    have happ : 34 :: s ++ [34] ++ rest = 34 :: (s ++ 34 :: rest) := by simp
    rw [happ, parseValue]
    simp only [show (34 : Nat) = '"'.toNat from rfl, if_true]
    rw [show ('"'.toNat : Nat) = 34 from rfl, parseStr_of_isPlain h]

theorem Reads.str {s : PyStr} (h : IsPlain s) : Reads limits (str s) (34 :: s ++ [34]) :=
  (ReadsAtom.str h).reads

/-! ## Numbers -/

/-- No digit follows. -/
def NoDigit (rest : PyStr) : Prop := ∀ c l, rest = c :: l → PyStr.isDigit c = false

theorem Delimited.noDigit {rest : PyStr} (h : Delimited rest) : NoDigit rest := by
  intro c l hrest
  rcases h c l hrest with rfl | rfl | rfl
  · rfl
  · rfl
  · rfl

theorem takeWhile_isDigit {ds : PyStr} (h : ∀ d ∈ ds, PyStr.isDigit d = true) {rest : PyStr}
    (hrest : NoDigit rest) : (ds ++ rest).takeWhile PyStr.isDigit = ds := by
  rw [List.takeWhile_append_of_pos h]
  cases rest with
  | nil => exact List.append_nil ds
  | cons c l => rw [List.takeWhile_cons_of_neg (by simp [hrest c l rfl]), List.append_nil]

theorem dropWhile_isDigit {ds : PyStr} (h : ∀ d ∈ ds, PyStr.isDigit d = true) {rest : PyStr}
    (hrest : NoDigit rest) : (ds ++ rest).dropWhile PyStr.isDigit = rest := by
  rw [List.dropWhile_append_of_pos h]
  cases rest with
  | nil => rfl
  | cons c l => rw [List.dropWhile_cons_of_neg (by simp [hrest c l rfl])]

theorem stripWord_of_digit {word : String} {d : Nat} {l : PyStr} (hd : PyStr.isDigit d = true)
    (hw : ∃ c w, PyStr.lit word = c :: w ∧ PyStr.isDigit c = false) :
    stripWord word (d :: l) = none := by
  obtain ⟨c, w, hw, hc⟩ := hw
  have hne : c ≠ d := by
    rintro rfl
    rw [hc] at hd
    cases hd
  have hprefix : (PyStr.lit word).isPrefixOf (d :: l) = false := by
    rw [hw, List.isPrefixOf_cons_cons]
    simp [hne]
  rw [stripWord, hprefix]
  rfl

theorem parseAtom_of_digit {d : Nat} {l : PyStr} (hd : PyStr.isDigit d = true) :
    parseAtom limits (d :: l) = parseUnsigned limits false (d :: l) := by
  have hword : ∀ word ∈ ["null", "true", "false", "NaN", "Infinity", "-Infinity"],
      stripWord word (d :: l) = none := by
    intro word hmem
    apply stripWord_of_digit hd
    simp only [List.mem_cons, List.not_mem_nil, or_false] at hmem
    rcases hmem with rfl | rfl | rfl | rfl | rfl | rfl
    all_goals exact ⟨_, _, rfl, by decide⟩
  have hminus : d ≠ 45 := by
    rintro rfl
    cases hd
  simp only [parseAtom, hword "null" (by simp), hword "true" (by simp), hword "false" (by simp),
    hword "NaN" (by simp), hword "Infinity" (by simp), hword "-Infinity" (by simp)]
  split
  · next heq => exact absurd (List.cons.inj heq).1 hminus
  · rfl

/-- A value that does not start with a quote, a brace or a bracket is an atom. -/
theorem parseValue_of_atom {c : Nat} {l : PyStr} (fuel : Nat) (h1 : c ≠ 34) (h2 : c ≠ 123)
    (h3 : c ≠ 91) : parseValue limits (fuel + 1) (c :: l) = parseAtom limits (c :: l) := by
  have hq : ¬ c = '"'.toNat := h1
  have hb : ¬ c = '{'.toNat := h2
  have hs : ¬ c = '['.toNat := h3
  rw [parseValue]
  simp only [if_neg hq, if_neg hb, if_neg hs]

theorem parseValue_of_digit {d : Nat} {l : PyStr} (fuel : Nat) (hd : PyStr.isDigit d = true) :
    parseValue limits (fuel + 1) (d :: l) = parseUnsigned limits false (d :: l) := by
  have hr := PyStr.isDigit_iff.mp hd
  rw [parseValue_of_atom fuel (by omega) (by omega) (by omega)]
  exact parseAtom_of_digit hd

/-- The integer part of a number: its first digit, and how the reader cuts it off. -/
theorem decimal_cut (n : Nat) {rest : PyStr} (hrest : NoDigit rest) :
    ∃ d ds, PyStr.decimal n ++ rest = d :: ds ∧ PyStr.isDigit d = true ∧
      (if d = 48 then [d] else (d :: ds).takeWhile PyStr.isDigit) = PyStr.decimal n ∧
      (if d = 48 then ds else (d :: ds).dropWhile PyStr.isDigit) = rest := by
  by_cases hn : n = 0
  · subst hn
    exact ⟨48, rest, rfl, rfl, rfl, rfl⟩
  · obtain ⟨d, ds, hdec, hd⟩ := PyStr.decimal_head hn
    have hdig := PyStr.decimal_isDigit n
    refine ⟨d, ds ++ rest, by rw [hdec]; rfl, hdig d (by rw [hdec]; simp), ?_, ?_⟩
    · rw [if_neg hd, ← List.cons_append, ← hdec, takeWhile_isDigit hdig hrest]
    · rw [if_neg hd, ← List.cons_append, ← hdec, dropWhile_isDigit hdig hrest]

theorem parseFraction_of_delimited {rest : PyStr} (h : Delimited rest) :
    parseFraction rest = ([], rest) := by
  cases rest with
  | nil => rfl
  | cons c l => rcases h c l rfl with rfl | rfl | rfl <;> cases l <;> simp [parseFraction]

theorem parseExponent_of_delimited {rest : PyStr} (h : Delimited rest) :
    parseExponent rest = ([], rest) := by
  cases rest with
  | nil => rfl
  | cons c l => rcases h c l rfl with rfl | rfl | rfl <;> cases l <;> simp [parseExponent]

/-- A decimal number is read back. -/
theorem parseUnsigned_decimal (neg : Bool) {n : Nat} (hn : limits.Converts (PyStr.decimal n).length)
    {rest : PyStr} (hrest : Delimited rest) :
    parseUnsigned limits neg (PyStr.decimal n ++ rest) =
      .ok (int (if neg then -n else n), rest) := by
  obtain ⟨d, ds, he, hd, htake, hdrop⟩ := decimal_cut n hrest.noDigit
  rw [he]
  simp only [parseUnsigned, hd, if_true, htake, hdrop, parseFraction_of_delimited hrest,
    parseExponent_of_delimited hrest, and_self, PyStr.ofDecimal_decimal, if_pos hn]

theorem decimal_cons (n : Nat) : ∃ d l, PyStr.decimal n = d :: l ∧ PyStr.isDigit d = true := by
  obtain ⟨d, l, hdec⟩ := List.exists_cons_of_ne_nil (PyStr.decimal_ne_nil n)
  exact ⟨d, l, hdec, PyStr.decimal_isDigit n d (by rw [hdec]; simp)⟩

/-- A digit is no white space and no closing bracket. -/
theorem decimal_head (n : Nat) :
    ∃ c l, PyStr.decimal n = c :: l ∧ isSpace c = false ∧ c ≠ 93 := by
  obtain ⟨d, l, hdec, hd⟩ := decimal_cons n
  have hr := PyStr.isDigit_iff.mp hd
  refine ⟨d, l, hdec, ?_, by omega⟩
  simp [isSpace]
  omega

theorem ReadsAtom.nat {n : Nat} (hn : limits.Converts (PyStr.decimal n).length) :
    ReadsAtom limits (int n) (PyStr.decimal n) where
  head := decimal_head n
  value := by
    intro fuel rest hrest
    obtain ⟨d, l, hdec, hd⟩ := decimal_cons n
    have hread := parseUnsigned_decimal false hn hrest
    rw [hdec, List.cons_append] at hread ⊢
    rw [parseValue_of_digit fuel hd, hread]
    rfl

theorem Reads.nat {n : Nat} (hn : limits.Converts (PyStr.decimal n).length) :
    Reads limits (int n) (PyStr.decimal n) := (ReadsAtom.nat hn).reads

theorem parseFraction_decimalPad (k m : Nat) {rest : PyStr} (hrest : Delimited rest) :
    parseFraction (46 :: (PyStr.decimalPad (k + 1) m ++ rest)) =
      (46 :: PyStr.decimalPad (k + 1) m, rest) := by
  have hpad := PyStr.decimalPad_isDigit (k + 1) m
  obtain ⟨p, ps, hps⟩ : ∃ p ps, PyStr.decimalPad (k + 1) m = p :: ps := by
    cases h : PyStr.decimalPad (k + 1) m with
    | nil =>
      have hlen := PyStr.decimalPad_length (k + 1) m
      rw [h] at hlen
      simp at hlen
    | cons p ps => exact ⟨p, ps, rfl⟩
  have hp : PyStr.isDigit p = true := hpad p (by rw [hps]; simp)
  have ht := takeWhile_isDigit hpad hrest.noDigit
  have hdr := dropWhile_isDigit hpad hrest.noDigit
  rw [hps, List.cons_append] at ht hdr
  rw [hps, List.cons_append]
  simp only [parseFraction, ht, hdr]
  simp [hp]

theorem ReadsAtom.fixed (n k m : Nat) :
    ReadsAtom limits (float (PyStr.decimal n ++ PyStr.lit "." ++ PyStr.decimalPad (k + 1) m))
      (PyStr.decimal n ++ PyStr.lit "." ++ PyStr.decimalPad (k + 1) m) where
  head := by
    obtain ⟨c, l, he, hc⟩ := decimal_head n
    exact ⟨c, l ++ PyStr.lit "." ++ PyStr.decimalPad (k + 1) m, by rw [he]; rfl, hc⟩
  value := by
    intro fuel rest hrest
    have happ : PyStr.decimal n ++ PyStr.lit "." ++ PyStr.decimalPad (k + 1) m ++ rest =
        PyStr.decimal n ++ 46 :: (PyStr.decimalPad (k + 1) m ++ rest) := by
      simp [PyStr.lit]
    have hdot : NoDigit (46 :: (PyStr.decimalPad (k + 1) m ++ rest)) := by
      rintro c l ⟨⟩
      rfl
    obtain ⟨d, ds, he, hd, htake, hdrop⟩ := decimal_cut n hdot
    rw [happ, he, parseValue_of_digit fuel hd]
    simp only [parseUnsigned, hd, if_true, htake, hdrop, parseFraction_decimalPad k m hrest,
      parseExponent_of_delimited hrest]
    simp [PyStr.lit]

theorem Reads.fixed (n k m : Nat) :
    Reads limits (float (PyStr.decimal n ++ PyStr.lit "." ++ PyStr.decimalPad (k + 1) m))
      (PyStr.decimal n ++ PyStr.lit "." ++ PyStr.decimalPad (k + 1) m) := (ReadsAtom.fixed n k m).reads

/-! ## Objects -/

/-- The members of an object without white space, up to the closing brace. -/
def compactMembers : List (PyStr × PyStr) → PyStr
  | [] => [125]
  | [(k, t)] => 34 :: k ++ [34, 58] ++ t ++ [125]
  | (k, t) :: m :: ms => 34 :: k ++ [34, 58] ++ t ++ 44 :: compactMembers (m :: ms)

theorem compactMembers_head (k t : PyStr) (ms : List (PyStr × PyStr)) :
    ∃ l, compactMembers ((k, t) :: ms) = 34 :: l := by
  cases ms <;> exact ⟨_, rfl⟩

/-- One member is read: its key, its value, and what follows. -/
theorem parseMembers_step {l l₁ rest : PyStr} {key : PyStr} {v : Json} {e fuel : Nat}
    (hkey : parseStr l = some (key, 58 :: l₁))
    (hval : parseValue limits fuel (skipSpace l₁) = .ok (v, e :: rest)) (he : e = 44 ∨ e = 125) :
    parseMembers limits (fuel + 1) (34 :: l) =
      if e = 125 then .ok ([(key, v)], rest)
      else (parseMembers limits fuel (skipSpace rest)).map fun p => ((key, v) :: p.1, p.2) := by
  have hcolon : skipSpace (58 :: l₁) = 58 :: l₁ := rfl
  have hnext : skipSpace (e :: rest) = e :: rest := by rcases he with rfl | rfl <;> rfl
  rw [parseMembers, if_pos (show (34 : Nat) = '"'.toNat from rfl), hkey]
  dsimp only
  rw [hcolon]
  dsimp only
  rw [if_pos (show (58 : Nat) = ':'.toNat from rfl), hval]
  dsimp only
  rw [hnext]
  rcases he with rfl | rfl
  · rfl
  · rfl

/-- The text `t` reads as the value `v` of a member with fuel for its length. -/
structure ReadsMember (limits : Limits) (v : Json) (t : PyStr) : Prop where
  head : ∃ c l, t = c :: l ∧ isSpace c = false
  value : ∀ fuel c rest, 2 * t.length ≤ fuel → (c = 44 ∨ c = 125) →
    parseValue limits fuel (t ++ c :: rest) = .ok (v, c :: rest)

theorem Reads.member {v : Json} {t : PyStr} (h : Reads limits v t) : ReadsMember limits v t where
  head := h.head
  value := by
    intro fuel c rest hfuel hc
    obtain ⟨c₀, l, ht, -⟩ := h.head
    obtain ⟨fuel', rfl⟩ : ∃ fuel', fuel = fuel' + 1 := by
      rw [ht, List.length_cons] at hfuel
      exact ⟨fuel - 1, by omega⟩
    exact h.value fuel' c rest hc

theorem skipSpace_of_head {t : PyStr} (h : ∃ c l, t = c :: l ∧ isSpace c = false) (rest : PyStr) :
    skipSpace (t ++ rest) = t ++ rest := by
  obtain ⟨c, l, ht, hspace⟩ := h
  rw [ht, skipSpace, List.cons_append, List.dropWhile_cons_of_neg (by simp [hspace])]

theorem parseMembers_member {k t : PyStr} {v : Json} (hk : IsPlain k) (hv : ReadsMember limits v t)
    {fuel : Nat} (hfuel : 2 * t.length ≤ fuel) {e : Nat} (he : e = 44 ∨ e = 125) (rest : PyStr) :
    parseMembers limits (fuel + 1) (34 :: (k ++ 34 :: 58 :: (t ++ e :: rest))) =
      if e = 125 then .ok ([(k, v)], rest)
      else (parseMembers limits fuel (skipSpace rest)).map fun p => ((k, v) :: p.1, p.2) := by
  refine parseMembers_step (parseStr_of_isPlain hk _) ?_ he
  rw [skipSpace_of_head hv.head]
  exact hv.value fuel e rest hfuel he

/-- The members are read one after the other. -/
theorem parseMembers_compact {ms : List (PyStr × PyStr × Json)}
    (h : ∀ m ∈ ms, IsPlain m.1 ∧ ReadsMember limits m.2.2 m.2.1) (hne : ms ≠ []) (fuel : Nat)
    (hfuel : 2 * (compactMembers (ms.map fun m => (m.1, m.2.1))).length ≤ fuel) (rest : PyStr) :
    parseMembers limits fuel (compactMembers (ms.map fun m => (m.1, m.2.1)) ++ rest) =
      .ok (ms.map fun m => (m.1, m.2.2), rest) := by
  induction ms generalizing fuel with
  | nil => exact absurd rfl hne
  | cons m ms ih =>
    obtain ⟨k, t, v⟩ := m
    obtain ⟨hk, hv⟩ := h (k, t, v) (by simp)
    cases ms with
    | nil =>
      have htext : compactMembers ([(k, t, v)].map fun m => (m.1, m.2.1)) =
          34 :: (k ++ 34 :: 58 :: (t ++ [125])) := by simp [compactMembers]
      rw [htext] at hfuel ⊢
      simp only [List.length_cons, List.length_append] at hfuel
      obtain ⟨fuel', rfl⟩ : ∃ fuel', fuel = fuel' + 1 := ⟨fuel - 1, by omega⟩
      have hstep := parseMembers_member hk hv (by omega : 2 * t.length ≤ fuel') (Or.inr rfl) rest
      simpa using hstep
    | cons m' ms =>
      obtain ⟨l₁, hl₁⟩ := compactMembers_head m'.1 m'.2.1 (ms.map fun m => (m.1, m.2.1))
      have htext : compactMembers (((k, t, v) :: m' :: ms).map fun m => (m.1, m.2.1)) =
          34 :: (k ++ 34 :: 58 :: (t ++ 44 ::
            compactMembers ((m' :: ms).map fun m => (m.1, m.2.1)))) := by
        simp [compactMembers]
      rw [htext] at hfuel ⊢
      simp only [List.length_cons, List.length_append] at hfuel
      obtain ⟨fuel', rfl⟩ : ∃ fuel', fuel = fuel' + 1 := ⟨fuel - 1, by omega⟩
      have ih' := ih (fun m hm => h m (by simp [hm])) (by simp) fuel' (by omega)
      -- The next member starts with a quote, so there is no white space to skip.
      have hquote : skipSpace (compactMembers ((m' :: ms).map fun m => (m.1, m.2.1)) ++ rest) =
          compactMembers ((m' :: ms).map fun m => (m.1, m.2.1)) ++ rest := by
        rw [List.map_cons, hl₁]
        rfl
      have hstep := parseMembers_member hk hv (by omega : 2 * t.length ≤ fuel') (Or.inl rfl)
        (compactMembers ((m' :: ms).map fun m => (m.1, m.2.1)) ++ rest)
      rw [if_neg (by omega), hquote, ih'] at hstep
      simpa [Except.map] using hstep

/-- The members of an object are read after its brace. -/
theorem parseValue_obj (hopens : limits.Opens) {fuel : Nat} {l rest : PyStr}
    {pairs : List (PyStr × Json)} (h : parseMembers limits.inner fuel (34 :: l) = .ok (pairs, rest)) :
    parseValue limits (fuel + 1) (123 :: 34 :: l) = .ok (obj (ofPairs pairs), rest) := by
  have hquote : skipSpace (34 :: l) = 34 :: l := rfl
  rw [parseValue, if_neg (show ¬ (123 : Nat) = '"'.toNat by decide),
    if_pos (show (123 : Nat) = '{'.toNat from rfl), if_neg (not_not.mpr hopens), hquote]
  dsimp only
  rw [if_neg (show ¬ (34 : Nat) = '}'.toNat by decide), h]
  rfl

/-- The elements of an array are read after its bracket. -/
theorem parseValue_arr (hopens : limits.Opens) {fuel c : Nat} {l rest : PyStr} {items : List Json}
    (hspace : isSpace c = false) (hne : c ≠ 93)
    (h : parseElements limits.inner fuel (c :: l) = .ok (items, rest)) :
    parseValue limits (fuel + 1) (91 :: c :: l) = .ok (arr items, rest) := by
  have hskip : skipSpace (c :: l) = c :: l := by
    rw [skipSpace, List.dropWhile_cons_of_neg (by simp [hspace])]
  rw [parseValue, if_neg (show ¬ (91 : Nat) = '"'.toNat by decide),
    if_neg (show ¬ (91 : Nat) = '{'.toNat by decide), if_pos (show (91 : Nat) = '['.toNat from rfl),
    if_neg (not_not.mpr hopens), hskip]
  dsimp only
  rw [if_neg (show ¬ c = ']'.toNat from hne), h]
  rfl

/-- An object without white space is read back. -/
theorem ReadsAs.obj (hopens : limits.Opens) {ms : List (PyStr × PyStr × Json)}
    (h : ∀ m ∈ ms, IsPlain m.1 ∧ ReadsMember limits.inner m.2.2 m.2.1) (hne : ms ≠ []) :
    ReadsAs limits (obj (ofPairs (ms.map fun m => (m.1, m.2.2))))
      (123 :: compactMembers (ms.map fun m => (m.1, m.2.1))) where
  head := ⟨123, _, rfl, rfl, by decide⟩
  value := by
    intro fuel rest hfuel _
    rw [List.length_cons] at hfuel
    obtain ⟨fuel', rfl⟩ : ∃ fuel', fuel = fuel' + 1 := ⟨fuel - 1, by omega⟩
    have hmembers := parseMembers_compact h hne fuel' (by omega) rest
    obtain ⟨m, ms', rfl⟩ := List.exists_cons_of_ne_nil hne
    obtain ⟨l, hl⟩ := compactMembers_head m.1 m.2.1 (ms'.map fun m => (m.1, m.2.1))
    rw [List.map_cons, hl, List.cons_append] at hmembers
    rw [List.map_cons, hl]
    exact parseValue_obj hopens hmembers

theorem ReadsAs.member {v : Json} {t : PyStr} (h : ReadsAs limits v t) : ReadsMember limits v t where
  head := by
    obtain ⟨c, l, ht, hspace, -⟩ := h.head
    exact ⟨c, l, ht, hspace⟩
  value := by
    intro fuel c rest hfuel hc
    exact h.value fuel (c :: rest) hfuel (delimited_cons (by omega) rest)

/-- A text that reads as a value is the text of a document with this value. -/
theorem ReadsAs.parse {v : Json} {t : PyStr} (h : ReadsAs limits v t) : parse limits t = .ok v := by
  obtain ⟨c, l, ht, hspace, -⟩ := h.head
  have hskip := skipSpace_of_head ⟨c, l, ht, hspace⟩ []
  have hvalue := h.value (2 * t.length + 2) [] (by omega) delimited_nil
  rw [List.append_nil] at hskip hvalue
  rw [Json.parse, hskip, hvalue]
  rfl

theorem compactMembers_isAscii {ms : List (PyStr × PyStr)} (h : ∀ m ∈ ms, IsPlain m.1 ∧ m.2.IsAscii) :
    (compactMembers ms).IsAscii := by
  induction ms with
  | nil => decide
  | cons m ms ih =>
    obtain ⟨k, t⟩ := m
    obtain ⟨hk, ht⟩ := h (k, t) (by simp)
    have hmember : PyStr.IsAscii (34 :: k ++ [34, 58] ++ t) := by
      have hquote : PyStr.IsAscii [34] := by decide
      have hcolon : PyStr.IsAscii [34, 58] := by decide
      exact ((hquote.append hk.isAscii).append hcolon).append ht
    cases ms with
    | nil =>
      have hbrace : PyStr.IsAscii [125] := by decide
      exact hmember.append hbrace
    | cons m' ms =>
      have hcomma : PyStr.IsAscii [44] := by decide
      have hrest := ih fun m hm => h m (List.mem_cons_of_mem _ hm)
      exact hmember.append (hcomma.append hrest)

/-- The text of an object without white space is ASCII when the texts of its members are. -/
theorem compactText_isAscii {ms : List (PyStr × PyStr × Json)}
    (h : ∀ m ∈ ms, IsPlain m.1 ∧ m.2.1.IsAscii) :
    PyStr.IsAscii (123 :: compactMembers (ms.map fun m => (m.1, m.2.1))) := by
  have hbrace : PyStr.IsAscii [123] := by decide
  apply hbrace.append
  apply compactMembers_isAscii
  intro p hp
  obtain ⟨m, hm, rfl⟩ := List.mem_map.mp hp
  exact h m hm

theorem decode_brace_quote {l : PyStr} (h : PyStr.IsAscii (123 :: 34 :: l)) :
    decode (123 :: 34 :: l) = some (123 :: 34 :: l) := by
  have hutf8 := decodeUtf8_ascii h
  match l, hutf8 with
  | [], hutf8 => exact hutf8
  | [c], hutf8 => exact hutf8
  | c :: d :: l, hutf8 => exact hutf8

/-- An object without white space is read back from its encoding. -/
theorem loads_compact (hopens : limits.Opens) {ms : List (PyStr × PyStr × Json)}
    (h : ∀ m ∈ ms, IsPlain m.1 ∧ Reads limits.inner m.2.2 m.2.1) (hne : ms ≠ [])
    (hascii : PyStr.IsAscii (123 :: compactMembers (ms.map fun m => (m.1, m.2.1)))) :
    loads limits (PyStr.encodeAscii (123 :: compactMembers (ms.map fun m => (m.1, m.2.1)))) =
      .ok (obj (ofPairs (ms.map fun m => (m.1, m.2.2)))) := by
  have hread := (ReadsAs.obj hopens (fun m hm => ⟨(h m hm).1, (h m hm).2.member⟩) hne).parse
  obtain ⟨m, ms', rfl⟩ := List.exists_cons_of_ne_nil hne
  obtain ⟨l, hl⟩ := compactMembers_head m.1 m.2.1 (ms'.map fun m => (m.1, m.2.1))
  rw [loads, PyStr.encodeAscii_toNat hascii]
  rw [List.map_cons, hl] at hascii hread ⊢
  rw [decode_brace_quote hascii]
  exact hread

end Json
