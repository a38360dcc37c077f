import HybridPqc.Lib.Proofs.EscapeProofs

/-!
# Reading what `dumps` wrote

The parser reads the text of a value back as the value, except that a pair of surrogates in a string
becomes one code point and a float has the literal that was written for it.
-/

namespace Json

/-- What is written for a float is ASCII text that reads as a float with this literal. -/
structure FloatText (floatRepr : PyStr → PyStr) : Prop where
  ascii : ∀ literal, (floatRepr literal).IsAscii
  reads : ∀ limits literal, ReadsAtom limits (float (floatRepr literal)) (floatRepr literal)

mutual

/-- What the text of a value reads back as. -/
def readBack (floatRepr : PyStr → PyStr) : Json → Json
  | null => null
  | bool b => bool b
  | int i => int i
  | float literal => float (floatRepr literal)
  | str s => str (readBackStr s)
  | arr items => arr (readBackItems floatRepr items)
  | obj fields => obj (ofPairs (readBackFields floatRepr fields))

def readBackItems (floatRepr : PyStr → PyStr) : List Json → List Json
  | [] => []
  | v :: l => readBack floatRepr v :: readBackItems floatRepr l

def readBackFields (floatRepr : PyStr → PyStr) : List (PyStr × Json) → List (PyStr × Json)
  | [] => []
  | (k, v) :: l => (readBackStr k, readBack floatRepr v) :: readBackFields floatRepr l

end

variable {floatRepr : PyStr → PyStr} {limits : Limits}

/-! ## Atoms -/

theorem ReadsAtom.null : ReadsAtom limits null (PyStr.lit "null") where
  head := ⟨_, _, rfl, rfl, by decide⟩
  value := fun fuel rest _ => by
    rw [PyStr.lit]
    exact parseValue_of_atom fuel (by decide) (by decide) (by decide)

theorem ReadsAtom.bool (b : Bool) :
    ReadsAtom limits (bool b) (PyStr.lit (if b then "true" else "false")) where
  head := by cases b <;> exact ⟨_, _, rfl, rfl, by decide⟩
  value := by
    intro fuel rest _
    cases b with
    | true => exact parseValue_of_atom fuel (by decide) (by decide) (by decide)
    | false => exact parseValue_of_atom fuel (by decide) (by decide) (by decide)

theorem ReadsAtom.dumpStr (s : PyStr) : ReadsAtom limits (.str (readBackStr s)) (dumpStr s) where
  head := ⟨34, s.flatMap escapeChar ++ [34], rfl, rfl, by decide⟩
  value := by
    intro fuel rest _
    obtain ⟨l, htext, hparse⟩ := parseStr_dumpStr s rest
    rw [htext, parseValue, if_pos (show (34 : Nat) = '"'.toNat from rfl), hparse]

/-- A negative number is read after its sign. -/
theorem parseAtom_minus {d : Nat} {l : PyStr} (hd : PyStr.isDigit d = true) :
    parseAtom limits (45 :: d :: l) = parseUnsigned limits true (d :: l) := by
  have hword : ∀ word ∈ ["null", "true", "false", "NaN", "Infinity"],
      stripWord word (45 :: d :: l) = none := by
    intro word hmem
    simp only [List.mem_cons, List.not_mem_nil, or_false] at hmem
    rcases hmem with rfl | rfl | rfl | rfl | rfl
    all_goals rfl
  have hinf : stripWord "-Infinity" (45 :: d :: l) = none := by
    have hne : ¬ 73 = d := by
      rintro rfl
      cases hd
    have hprefix : (PyStr.lit "-Infinity").isPrefixOf (45 :: d :: l) = false := by
      rw [show PyStr.lit "-Infinity" = 45 :: 73 :: PyStr.lit "nfinity" from rfl,
        List.isPrefixOf_cons_cons, List.isPrefixOf_cons_cons]
      simp [hne]
    rw [stripWord, hprefix]
    rfl
  simp only [parseAtom, hword "null" (by simp), hword "true" (by simp), hword "false" (by simp),
    hword "NaN" (by simp), hword "Infinity" (by simp), hinf]

theorem ReadsAtom.decimalInt {i : Int} (hi : limits.Converts (PyStr.decimal i.natAbs).length) :
    ReadsAtom limits (int i) (PyStr.decimalInt i) := by
  unfold PyStr.decimalInt
  split
  · next hneg =>
    obtain ⟨d, l, hdec, hd⟩ := decimal_cons i.natAbs
    refine ⟨⟨45, _, rfl, rfl, by decide⟩, ?_⟩
    intro fuel rest hrest
    have hread := parseUnsigned_decimal true hi hrest
    rw [hdec, List.cons_append] at hread
    rw [hdec, List.cons_append, List.cons_append,
      parseValue_of_atom fuel (by decide) (by decide) (by decide), parseAtom_minus hd, hread, if_pos rfl]
    congr 3
    omega
  · next hpos =>
    have hnat := ReadsAtom.nat hi
    rwa [Int.natAbs_of_nonneg (by omega)] at hnat

/-! ## Lists and objects -/

/-- A property of values holds when lists and objects inherit it from what they hold. -/
@[elab_as_elim]
theorem induction {P : Json → Prop} (null : P null) (bool : ∀ b, P (bool b)) (int : ∀ i, P (int i))
    (float : ∀ literal, P (float literal)) (str : ∀ s, P (str s))
    (arr : ∀ items, (∀ v ∈ items, P v) → P (arr items))
    (obj : ∀ fields, (∀ m ∈ fields, P m.2) → P (obj fields)) (v : Json) : P v := by
  refine @Json.rec P (fun items => ∀ v ∈ items, P v) (fun fields => ∀ m ∈ fields, P m.2)
    (fun m => P m.2) null bool int float str arr obj ?_ ?_ ?_ ?_ ?_ v
  · intro w hw
    exact absurd hw List.not_mem_nil
  · intro w items hw hitems
    exact List.forall_mem_cons.mpr ⟨hw, hitems⟩
  · intro m hm
    exact absurd hm List.not_mem_nil
  · intro m fields hm hfields
    exact List.forall_mem_cons.mpr ⟨hm, hfields⟩
  · intro k w hw
    exact hw

theorem dumpFields_cons (floatRepr : PyStr → PyStr) (k : PyStr) (v : Json) (l : List (PyStr × Json)) :
    ∃ rest, dumpFields floatRepr ((k, v) :: l) = 34 :: rest := by
  cases l <;> exact ⟨_, rfl⟩

/-- The value is read back from its text by a reader without bounds. -/
def RoundTrips (floatRepr : PyStr → PyStr) (v : Json) : Prop :=
  ReadsAs .unlimited (readBack floatRepr v) (dumps floatRepr v)

theorem parseElements_dumpItems {v : Json} {l : List Json} (h : ∀ w ∈ v :: l, RoundTrips floatRepr w)
    (fuel : Nat) (rest : PyStr) (hfuel : 2 * (dumpItems floatRepr (v :: l)).length + 1 ≤ fuel) :
    parseElements .unlimited fuel (dumpItems floatRepr (v :: l) ++ 93 :: rest) =
        .ok (readBackItems floatRepr (v :: l), rest) ∧
      ∃ c l', dumpItems floatRepr (v :: l) = c :: l' ∧ isSpace c = false ∧ c ≠ 93 := by
  induction l generalizing v fuel with
  | nil =>
    have hv := h v (by simp)
    obtain ⟨fuel', rfl⟩ : ∃ fuel', fuel = fuel' + 1 := ⟨fuel - 1, by omega⟩
    refine ⟨?_, hv.head⟩
    rw [dumpItems] at hfuel ⊢
    rw [parseElements, hv.value fuel' (93 :: rest) (by omega) (delimited_cons (by omega) rest)]
    rfl
  | cons w l ih =>
    have hv := h v (by simp)
    obtain ⟨c, l', hhead, hspace, hne⟩ := hv.head
    obtain ⟨fuel', rfl⟩ : ∃ fuel', fuel = fuel' + 1 := ⟨fuel - 1, by omega⟩
    have htext : dumpItems floatRepr (v :: w :: l) ++ 93 :: rest =
        dumps floatRepr v ++ 44 :: 32 :: (dumpItems floatRepr (w :: l) ++ 93 :: rest) := by
      simp [dumpItems, PyStr.lit]
    have hlen : (dumpItems floatRepr (v :: w :: l)).length =
        (dumps floatRepr v).length + 2 + (dumpItems floatRepr (w :: l)).length := by
      simp [dumpItems, PyStr.lit]
      omega
    rw [hlen] at hfuel
    obtain ⟨hparse, c', l'', hhead', hspace', -⟩ :=
      ih (fun w' hw' => h w' (List.mem_cons_of_mem v hw')) fuel' (by omega)
    refine ⟨?_, c, l' ++ PyStr.lit ", " ++ dumpItems floatRepr (w :: l), ?_, hspace, hne⟩
    · have hcomma : skipSpace (44 :: 32 :: (dumpItems floatRepr (w :: l) ++ 93 :: rest)) =
          44 :: 32 :: (dumpItems floatRepr (w :: l) ++ 93 :: rest) := rfl
      have hskip : skipSpace (32 :: (dumpItems floatRepr (w :: l) ++ 93 :: rest)) =
          dumpItems floatRepr (w :: l) ++ 93 :: rest :=
        skipSpace_of_head ⟨c', l'', hhead', hspace'⟩ (93 :: rest)
      rw [htext, parseElements, hv.value fuel' _ (by omega) (delimited_cons (by omega) _)]
      dsimp only
      rw [hcomma]
      dsimp only
      rw [if_neg (show ¬ (44 : Nat) = ']'.toNat by decide), if_pos (show (44 : Nat) = ','.toNat from rfl),
        hskip, hparse]
      rfl
    · rw [dumpItems, hhead]
      rfl

/-- One member is read: its key, its value, and what follows. -/
theorem parseMembers_dumped (k : PyStr) {v : Json} (hv : RoundTrips floatRepr v) {fuel : Nat}
    (hfuel : 2 * (dumps floatRepr v).length ≤ fuel) {e : Nat} (he : e = 44 ∨ e = 125) (rest : PyStr) :
    parseMembers .unlimited (fuel + 1) (dumpStr k ++ 58 :: 32 :: (dumps floatRepr v ++ e :: rest)) =
      if e = 125 then .ok ([(readBackStr k, readBack floatRepr v)], rest)
      else (parseMembers .unlimited fuel (skipSpace rest)).map fun p =>
        ((readBackStr k, readBack floatRepr v) :: p.1, p.2) := by
  obtain ⟨l, hquote, hkey⟩ := parseStr_dumpStr k (58 :: 32 :: (dumps floatRepr v ++ e :: rest))
  have hskip : skipSpace (32 :: (dumps floatRepr v ++ e :: rest)) = dumps floatRepr v ++ e :: rest :=
    skipSpace_of_head hv.member.head (e :: rest)
  have hval := hv.member.value fuel e rest hfuel he
  rw [← hskip] at hval
  rw [hquote]
  exact parseMembers_step hkey hval he

theorem parseMembers_dumpFields {k : PyStr} {v : Json} {l : List (PyStr × Json)}
    (h : ∀ m ∈ (k, v) :: l, RoundTrips floatRepr m.2) (fuel : Nat) (rest : PyStr)
    (hfuel : 2 * (dumpFields floatRepr ((k, v) :: l)).length ≤ fuel) :
    parseMembers .unlimited fuel (dumpFields floatRepr ((k, v) :: l) ++ 125 :: rest) =
      .ok (readBackFields floatRepr ((k, v) :: l), rest) := by
  induction l generalizing k v fuel with
  | nil =>
    have hv : RoundTrips floatRepr v := h (k, v) (by simp)
    have htext : dumpFields floatRepr [(k, v)] ++ 125 :: rest =
        dumpStr k ++ 58 :: 32 :: (dumps floatRepr v ++ 125 :: rest) := by
      simp [dumpFields, PyStr.lit]
    have hlen : (dumpFields floatRepr [(k, v)]).length =
        (dumpStr k).length + 2 + (dumps floatRepr v).length := by
      simp [dumpFields, PyStr.lit]
      omega
    rw [hlen] at hfuel
    obtain ⟨fuel', rfl⟩ : ∃ fuel', fuel = fuel' + 1 := ⟨fuel - 1, by omega⟩
    rw [htext, parseMembers_dumped k hv (by omega) (.inr rfl), if_pos rfl]
    rfl
  | cons m l ih =>
    obtain ⟨k', v'⟩ := m
    have hv : RoundTrips floatRepr v := h (k, v) (by simp)
    have htext : dumpFields floatRepr ((k, v) :: (k', v') :: l) ++ 125 :: rest =
        dumpStr k ++ 58 :: 32 :: (dumps floatRepr v ++ 44 :: 32 ::
          (dumpFields floatRepr ((k', v') :: l) ++ 125 :: rest)) := by
      simp [dumpFields, PyStr.lit]
    have hlen : (dumpFields floatRepr ((k, v) :: (k', v') :: l)).length =
        (dumpStr k).length + 2 + (dumps floatRepr v).length + 2 +
          (dumpFields floatRepr ((k', v') :: l)).length := by
      simp [dumpFields, PyStr.lit]
      omega
    rw [hlen] at hfuel
    obtain ⟨fuel', rfl⟩ : ∃ fuel', fuel = fuel' + 1 := ⟨fuel - 1, by omega⟩
    have hparse := ih (fun m hm => h m (List.mem_cons_of_mem _ hm)) fuel' (by omega)
    have hnext : skipSpace (32 :: (dumpFields floatRepr ((k', v') :: l) ++ 125 :: rest)) =
        dumpFields floatRepr ((k', v') :: l) ++ 125 :: rest := by
      obtain ⟨l', hhead⟩ := dumpFields_cons floatRepr k' v' l
      rw [hhead]
      rfl
    rw [htext, parseMembers_dumped k hv (by omega) (.inl rfl), if_neg (by decide), hnext, hparse]
    rfl

theorem unlimited_opens : Limits.unlimited.Opens := by decide

theorem unlimited_converts (n : Nat) : Limits.unlimited.Converts n := by
  rintro m ⟨⟩

theorem roundTrips_arr {items : List Json} (h : ∀ v ∈ items, RoundTrips floatRepr v) :
    RoundTrips floatRepr (arr items) := by
  refine ⟨⟨91, _, rfl, rfl, by decide⟩, ?_⟩
  intro fuel rest hfuel _
  have htext : dumps floatRepr (arr items) ++ rest =
      91 :: (dumpItems floatRepr items ++ 93 :: rest) := by
    simp [dumps, PyStr.lit]
  have hlen : (dumps floatRepr (arr items)).length = (dumpItems floatRepr items).length + 2 := by
    simp [dumps, PyStr.lit]
  rw [hlen] at hfuel
  obtain ⟨fuel', rfl⟩ : ∃ fuel', fuel = fuel' + 1 := ⟨fuel - 1, by omega⟩
  rw [htext]
  cases items with
  | nil => rfl
  | cons v l =>
    obtain ⟨hparse, c, l', hhead, hspace, hne⟩ := parseElements_dumpItems h fuel' rest (by omega)
    rw [hhead, List.cons_append] at hparse ⊢
    exact parseValue_arr unlimited_opens hspace hne hparse

theorem roundTrips_obj {fields : List (PyStr × Json)} (h : ∀ m ∈ fields, RoundTrips floatRepr m.2) :
    RoundTrips floatRepr (obj fields) := by
  refine ⟨⟨123, _, rfl, rfl, by decide⟩, ?_⟩
  intro fuel rest hfuel _
  have htext : dumps floatRepr (obj fields) ++ rest =
      123 :: (dumpFields floatRepr fields ++ 125 :: rest) := by
    simp [dumps, PyStr.lit]
  have hlen : (dumps floatRepr (obj fields)).length = (dumpFields floatRepr fields).length + 2 := by
    simp [dumps, PyStr.lit]
  rw [hlen] at hfuel
  obtain ⟨fuel', rfl⟩ : ∃ fuel', fuel = fuel' + 1 := ⟨fuel - 1, by omega⟩
  rw [htext]
  cases fields with
  | nil => rfl
  | cons m l =>
    obtain ⟨k, v⟩ := m
    have hparse := parseMembers_dumpFields h fuel' rest (by omega)
    obtain ⟨l', hhead⟩ := dumpFields_cons floatRepr k v l
    rw [hhead, List.cons_append] at hparse ⊢
    exact parseValue_obj unlimited_opens hparse

/-- Every value is read back from its text. -/
theorem roundTrips (hfloat : FloatText floatRepr) (v : Json) : RoundTrips floatRepr v := by
  induction v using induction with
  | null => exact ReadsAtom.null.readsAs
  | bool b => exact (ReadsAtom.bool b).readsAs
  | int i => exact (ReadsAtom.decimalInt (unlimited_converts _)).readsAs
  | float literal => exact (hfloat.reads _ literal).readsAs
  | str s => exact (ReadsAtom.dumpStr s).readsAs
  | arr items ih => exact roundTrips_arr ih
  | obj fields ih => exact roundTrips_obj ih

theorem parse_dumps (hfloat : FloatText floatRepr) (v : Json) :
    parse .unlimited (dumps floatRepr v) = .ok (readBack floatRepr v) := (roundTrips hfloat v).parse

/-! ## Keys -/

theorem map_fst_readBackFields (fields : List (PyStr × Json)) :
    (readBackFields floatRepr fields).map Prod.fst = (fields.map Prod.fst).map readBackStr := by
  induction fields with
  | nil => rfl
  | cons m l ih => rw [readBackFields, List.map_cons, ih, List.map_cons, List.map_cons]

theorem mem_map_fst_ofPairs {pairs : List (PyStr × Json)} {k : PyStr}
    (h : k ∈ (ofPairs pairs).map Prod.fst) : k ∈ pairs.map Prod.fst := by
  have hfold : ∀ d : List (PyStr × Json),
      k ∈ (pairs.foldl (fun d p => Assoc.set p.1 p.2 d) d).map Prod.fst →
        k ∈ d.map Prod.fst ∨ k ∈ pairs.map Prod.fst := by
    clear h
    induction pairs with
    | nil => exact fun d hd => .inl hd
    | cons p pairs ih =>
      intro d hd
      rcases ih _ hd with hset | hrest
      · rcases Assoc.mem_map_fst_set.mp hset with rfl | hd
        · exact .inr (by simp)
        · exact .inl hd
      · exact .inr (List.mem_cons_of_mem _ hrest)
  rcases hfold [] h with hnil | hpairs
  · exact absurd hnil List.not_mem_nil
  · exact hpairs

/-- The keys of an object whose keys are plain are read back as they are. -/
theorem mem_keys_of_readBack {fields : List (PyStr × Json)} {keys : List PyStr}
    (hplain : ∀ k ∈ keys, IsPlain k) (h : ∀ k ∈ fields.map Prod.fst, k ∈ keys) :
    ∀ k ∈ (ofPairs (readBackFields floatRepr fields)).map Prod.fst, k ∈ keys := by
  intro k hk
  have hmem := mem_map_fst_ofPairs hk
  rw [map_fst_readBackFields] at hmem
  obtain ⟨k', hk', rfl⟩ := List.mem_map.mp hmem
  rw [readBackStr_of_isPlain (hplain k' (h k' hk'))]
  exact h k' hk'

/-! ## The text is ASCII -/

theorem escapeUnit_isAscii (u : Nat) : (escapeUnit u).IsAscii := by
  have hdigit : ∀ n, hexDigit (n % 16) < 128 := by
    intro n
    unfold hexDigit
    split <;> omega
  refine PyStr.IsAscii.append (by decide) ?_
  intro c hc
  simp only [List.mem_cons, List.not_mem_nil, or_false] at hc
  rcases hc with rfl | rfl | rfl | rfl
  · exact hdigit _
  · exact hdigit _
  · exact hdigit _
  · exact hdigit _

theorem dumpStr_isAscii (s : PyStr) : (dumpStr s).IsAscii := by
  have hunits : ∀ u ∈ s.flatMap units, (escapeChar u).IsAscii := by
    intro u hu
    rcases escapeChar_cases (units_lt s u hu) with ⟨he, -, -, -, hlt⟩ | ⟨e, he, -, -, hlt⟩ | hunit
    · rw [he]
      intro c hc
      rw [List.mem_singleton.mp hc]
      omega
    · rw [he]
      intro c hc
      simp only [List.mem_cons, List.not_mem_nil, or_false] at hc
      omega
    · rw [escapeChar_of_needsUnit hunit]
      exact escapeUnit_isAscii u
  rw [dumpStr, flatMap_escapeChar]
  refine PyStr.IsAscii.append ?_ (by decide)
  intro c hc
  rcases List.mem_cons.mp hc with rfl | hc
  · decide
  · obtain ⟨u, hu, hmem⟩ := List.mem_flatMap.mp hc
    exact hunits u hu c hmem

theorem dumpItems_isAscii {items : List Json} (h : ∀ v ∈ items, (dumps floatRepr v).IsAscii) :
    (dumpItems floatRepr items).IsAscii := by
  induction items with
  | nil => exact fun c hc => absurd hc List.not_mem_nil
  | cons v l ih =>
    have hv := h v (by simp)
    have hl := ih fun w hw => h w (List.mem_cons_of_mem v hw)
    cases l with
    | nil => exact hv
    | cons w l => exact (hv.append (by decide)).append hl

theorem dumpFields_isAscii {fields : List (PyStr × Json)}
    (h : ∀ m ∈ fields, (dumps floatRepr m.2).IsAscii) : (dumpFields floatRepr fields).IsAscii := by
  induction fields with
  | nil => exact fun c hc => absurd hc List.not_mem_nil
  | cons m l ih =>
    obtain ⟨k, v⟩ := m
    have hv : (dumps floatRepr v).IsAscii := h (k, v) (by simp)
    have hl := ih fun m' hm' => h m' (List.mem_cons_of_mem _ hm')
    have hmember := ((dumpStr_isAscii k).append (t := PyStr.lit ": ") (by decide)).append hv
    cases l with
    | nil => exact hmember
    | cons m' l => exact (hmember.append (by decide)).append hl

theorem dumps_isAscii (hfloat : FloatText floatRepr) (v : Json) : (dumps floatRepr v).IsAscii := by
  induction v using induction with
  | null => exact (by decide : (PyStr.lit "null").IsAscii)
  | bool b =>
    cases b with
    | true => exact (by decide : (PyStr.lit "true").IsAscii)
    | false => exact (by decide : (PyStr.lit "false").IsAscii)
  | int i =>
    have hdigits := PyStr.decimal_isAscii i.natAbs
    rw [dumps, PyStr.decimalInt]
    split
    · intro c hc
      rcases List.mem_cons.mp hc with rfl | hc
      · decide
      · exact hdigits c hc
    · exact hdigits
  | float literal => exact hfloat.ascii literal
  | str s => exact dumpStr_isAscii s
  | arr items ih =>
    exact (PyStr.IsAscii.append (by decide) (dumpItems_isAscii ih)).append (by decide)
  | obj fields ih =>
    exact (PyStr.IsAscii.append (by decide) (dumpFields_isAscii ih)).append (by decide)

end Json
