import HybridPqc.Lib.PyText
import HybridPqc.Lib.Dict

/-!
# JSON as Python's `json` module reads and writes it

`loads` decodes the bytes (the encoding is detected from the first four, surrogates pass), skips
white space around one value and accepts the literals `NaN`, `Infinity` and `-Infinity`; a repeated
key keeps its first position and its last value. It gives up on an integer with too many digits and
on lists and objects nested too deeply. `dumps` writes ASCII text with the default separators. A
number with a fraction or an exponent keeps its literal: what double it denotes is not modelled.
-/

/-- A JSON value, as `json.loads` builds it. -/
inductive Json where
  | null
  | bool (b : Bool)
  | int (i : Int)
  /-- A `float`, by its literal. -/
  | float (literal : PyStr)
  | str (s : PyStr)
  | arr (items : List Json)
  /-- A `dict`, its entries in insertion order. -/
  | obj (fields : List (PyStr × Json))

namespace Json

mutual

/-- How deep lists and objects are nested in a value. -/
def depth : Json → Nat
  | null | bool _ | int _ | float _ | str _ => 0
  | arr items => depthItems items + 1
  | obj fields => depthFields fields + 1

def depthItems : List Json → Nat
  | [] => 0
  | v :: l => max (depth v) (depthItems l)

def depthFields : List (PyStr × Json) → Nat
  | [] => 0
  | (_, v) :: l => max (depth v) (depthFields l)

end

theorem depthItems_le {items : List Json} {n : Nat} :
    depthItems items ≤ n ↔ ∀ v ∈ items, v.depth ≤ n := by
  induction items with
  | nil => simp [depthItems]
  | cons v l ih => rw [depthItems, max_le_iff, ih, List.forall_mem_cons]

theorem depthFields_le {fields : List (PyStr × Json)} {n : Nat} :
    depthFields fields ≤ n ↔ ∀ m ∈ fields, m.2.depth ≤ n := by
  induction fields with
  | nil => simp [depthFields]
  | cons m l ih => rw [depthFields, max_le_iff, ih, List.forall_mem_cons]

theorem depth_obj_le {fields : List (PyStr × Json)} {n : Nat} (hn : 0 < n) :
    (obj fields).depth ≤ n ↔ ∀ m ∈ fields, m.2.depth < n := by
  have hle : depthFields fields + 1 ≤ n ↔ depthFields fields ≤ n - 1 := by omega
  rw [depth, hle, depthFields_le]
  exact forall₂_congr fun m _ => by omega

/-- The nesting beyond which the reader or the writer of the `json` module raises `RecursionError`. It
depends on the interpreter and on the frames in use; no interpreter stops within sixteen levels. -/
abbrev Nesting := {n : Nat // 16 ≤ n}

/-- Another function of the library that walks through a value recursively, and may count the scalars in
it as well. -/
structure Walk where
  /-- Whether it gets through the value. -/
  returns : Json → Bool
  /-- `str(e)` of the `RecursionError` otherwise. -/
  errorText : Json → PyStr
  returns_of_depth : ∀ v, v.depth ≤ 16 → returns v = true

/-- A walk that gets to a given depth. -/
def Walk.upTo (nesting : Nesting) (text : PyStr) : Walk where
  returns v := v.depth ≤ nesting.val
  errorText _ := text
  returns_of_depth _ hv := decide_eq_true (hv.trans nesting.property)

/-! ## Decoding bytes -/

def isCont (b : Nat) : Bool := 0x80 ≤ b && b ≤ 0xBF

/-- `bytes.decode('utf-8', 'surrogatepass')`. -/
def decodeUtf8 : List Nat → Option PyStr
  | [] => some []
  | a :: l =>
    if a < 0x80 then (decodeUtf8 l).map (a :: ·)
    else match l with
      | [] => none
      | b :: l =>
        if 0xC2 ≤ a && a ≤ 0xDF && isCont b then
          (decodeUtf8 l).map (((a - 0xC0) * 0x40 + (b - 0x80)) :: ·)
        else match l with
          | [] => none
          | c :: l =>
            if 0xE0 ≤ a && a ≤ 0xEF && isCont b && isCont c && (a != 0xE0 || 0xA0 ≤ b) then
              (decodeUtf8 l).map
                (((a - 0xE0) * 0x1000 + (b - 0x80) * 0x40 + (c - 0x80)) :: ·)
            else match l with
              | [] => none
              | d :: l =>
                if 0xF0 ≤ a && a ≤ 0xF4 && isCont b && isCont c && isCont d
                    && (a != 0xF0 || 0x90 ≤ b) && (a != 0xF4 || b ≤ 0x8F) then
                  (decodeUtf8 l).map (((a - 0xF0) * 0x40000 + (b - 0x80) * 0x1000
                    + (c - 0x80) * 0x40 + (d - 0x80)) :: ·)
                else none

def isHighSurrogate (u : Nat) : Bool := 0xD800 ≤ u && u ≤ 0xDBFF

def isLowSurrogate (u : Nat) : Bool := 0xDC00 ≤ u && u ≤ 0xDFFF

/-- The code point of a surrogate pair. -/
def joinSurrogates (hi lo : Nat) : Nat := 0x10000 + (hi - 0xD800) * 0x400 + (lo - 0xDC00)

/-- UTF-16 code units as code points, lone surrogates passed through. -/
def joinUnits : List Nat → PyStr
  | [] => []
  | u :: l => match l with
    | [] => [u]
    | v :: l' =>
      if isHighSurrogate u && isLowSurrogate v then joinSurrogates u v :: joinUnits l'
      else u :: joinUnits (v :: l')

/-- The 16-bit units of a byte string. -/
def units16 (bigEndian : Bool) : List Nat → Option (List Nat)
  | [] => some []
  | [_] => none
  | a :: b :: l =>
    (units16 bigEndian l).map ((if bigEndian then a * 0x100 + b else b * 0x100 + a) :: ·)

/-- `bytes.decode('utf-32-…', 'surrogatepass')`. -/
def decodeUtf32 (bigEndian : Bool) : List Nat → Option PyStr
  | [] => some []
  | a :: b :: c :: d :: l =>
    let u := if bigEndian then ((a * 0x100 + b) * 0x100 + c) * 0x100 + d
      else ((d * 0x100 + c) * 0x100 + b) * 0x100 + a
    if u < 0x110000 then (decodeUtf32 bigEndian l).map (u :: ·) else none
  | _ => none

/-- `bytes.decode('utf-16-…', 'surrogatepass')`. -/
def decodeUtf16 (bigEndian : Bool) (l : List Nat) : Option PyStr :=
  (units16 bigEndian l).map joinUnits

/-- `s.decode(json.detect_encoding(s), 'surrogatepass')`. -/
def decode : List Nat → Option PyStr
  | 0x00 :: 0x00 :: 0xFE :: 0xFF :: l => decodeUtf32 true l
  | 0xFF :: 0xFE :: 0x00 :: 0x00 :: l => decodeUtf32 false l
  | 0xFE :: 0xFF :: l => decodeUtf16 true l
  | 0xFF :: 0xFE :: l => decodeUtf16 false l
  | 0xEF :: 0xBB :: 0xBF :: l => decodeUtf8 l
  | a :: b :: c :: d :: l =>
    let s := a :: b :: c :: d :: l
    if a = 0 then (if b = 0 then decodeUtf32 true s else decodeUtf16 true s)
    else if b = 0 then (if c = 0 && d = 0 then decodeUtf32 false s else decodeUtf16 false s)
    else decodeUtf8 s
  | [a, b] =>
    if a = 0 then decodeUtf16 true [a, b]
    else if b = 0 then decodeUtf16 false [a, b]
    else decodeUtf8 [a, b]
  | s => decodeUtf8 s

theorem decodeUtf8_ascii {s : PyStr} (h : s.IsAscii) : decodeUtf8 s = some s := by
  induction s with
  | nil => rfl
  | cons c s ih =>
    have hc : c < 0x80 := h c (by simp)
    rw [decodeUtf8.eq_def]
    simp only [hc, if_true]
    rw [ih fun d hd => h d (by simp [hd])]
    rfl

/-! ## Reading text -/

def isSpace (c : Nat) : Bool := c == 0x20 || c == 0x09 || c == 0x0A || c == 0x0D

def skipSpace (s : PyStr) : PyStr := s.dropWhile isSpace

def hexVal (c : Nat) : Option Nat :=
  if 48 ≤ c && c ≤ 57 then some (c - 48)
  else if 97 ≤ c && c ≤ 102 then some (c - 87)
  else if 65 ≤ c && c ≤ 70 then some (c - 55)
  else none

def hex4 (a b c d : Nat) : Option Nat :=
  match hexVal a, hexVal b, hexVal c, hexVal d with
  | some a, some b, some c, some d => some (((a * 16 + b) * 16 + c) * 16 + d)
  | _, _, _, _ => none

/-- What a one-letter escape stands for. -/
def escapeVal (c : Nat) : Option Nat :=
  if c = '"'.toNat then some 0x22
  else if c = '\\'.toNat then some 0x5C
  else if c = '/'.toNat then some 0x2F
  else if c = 'b'.toNat then some 0x08
  else if c = 'f'.toNat then some 0x0C
  else if c = 'n'.toNat then some 0x0A
  else if c = 'r'.toNat then some 0x0D
  else if c = 't'.toNat then some 0x09
  else none

/-- Put a code point in front of the rest of a string that was read. -/
def consStr (c : Nat) (r : Option (PyStr × PyStr)) : Option (PyStr × PyStr) :=
  r.map fun p => (c :: p.1, p.2)

/-- The rest of a string after its opening quote, and the text after its closing quote. -/
def parseStr : PyStr → Option (PyStr × PyStr)
  | [] => none
  | c :: l =>
    if c = '"'.toNat then some ([], l)
    else if c = '\\'.toNat then
      match l with
      | [] => none
      | e :: l =>
        if e = 'u'.toNat then
          match l with
          | h₁ :: h₂ :: h₃ :: h₄ :: l =>
            match hex4 h₁ h₂ h₃ h₄ with
            | none => none
            | some u =>
              match l with
              | 0x5C :: 0x75 :: g₁ :: g₂ :: g₃ :: g₄ :: l' =>
                match hex4 g₁ g₂ g₃ g₄ with
                | none => none
                | some v =>
                  -- Two escapes that spell a surrogate pair are one code point.
                  if isHighSurrogate u && isLowSurrogate v then
                    consStr (joinSurrogates u v) (parseStr l')
                  else consStr u (parseStr (0x5C :: 0x75 :: g₁ :: g₂ :: g₃ :: g₄ :: l'))
              | l => consStr u (parseStr l)
          | _ => none
        else match escapeVal e with
          | some v => consStr v (parseStr l)
          | none => none
    else if c < 0x20 then none
    else consStr c (parseStr l)

/-- The fraction of a number literal, when one follows. -/
def parseFraction (s : PyStr) : PyStr × PyStr :=
  match s with
  | dot :: d :: l =>
    if dot = '.'.toNat && PyStr.isDigit d then
      (dot :: (d :: l).takeWhile PyStr.isDigit, (d :: l).dropWhile PyStr.isDigit)
    else ([], s)
  | _ => ([], s)

/-- The exponent of a number literal, when one follows. -/
def parseExponent (s : PyStr) : PyStr × PyStr :=
  match s with
  | e :: d :: l =>
    if e = 'e'.toNat || e = 'E'.toNat then
      if PyStr.isDigit d then
        (e :: (d :: l).takeWhile PyStr.isDigit, (d :: l).dropWhile PyStr.isDigit)
      else match l with
        | d' :: l' =>
          if (d = '+'.toNat || d = '-'.toNat) && PyStr.isDigit d' then
            (e :: d :: (d' :: l').takeWhile PyStr.isDigit, (d' :: l').dropWhile PyStr.isDigit)
          else ([], s)
        | [] => ([], s)
    else ([], s)
  | _ => ([], s)

/-- The exceptions of `json.loads`. -/
inductive LoadsError where
  /-- `UnicodeDecodeError`. -/
  | unicode
  /-- `JSONDecodeError`. -/
  | decode
  /-- The `ValueError` of `int()` on too many digits. -/
  | digits
  /-- `RecursionError`. -/
  | recursion

/-- What bounds a reader: the digits of an integer and the nesting of lists and objects. -/
structure Limits where
  digits : Option Nat
  depth : Option Nat

namespace Limits

/-- A reader without bounds. -/
def unlimited : Limits := ⟨none, none⟩

/-- `int()` converts so many digits. -/
def Converts (limits : Limits) (n : Nat) : Prop := ∀ m ∈ limits.digits, n ≤ m

instance (limits : Limits) (n : Nat) : Decidable (limits.Converts n) :=
  inferInstanceAs (Decidable (∀ m ∈ limits.digits, n ≤ m))

/-- A list or an object may be entered. -/
def Opens (limits : Limits) : Prop := limits.depth ≠ some 0

instance (limits : Limits) : Decidable limits.Opens :=
  inferInstanceAs (Decidable (limits.depth ≠ some 0))

/-- The bounds inside a list or an object. -/
def inner (limits : Limits) : Limits := { limits with depth := limits.depth.map (· - 1) }

end Limits

/-- The digits that `int()` converts (`sys.int_info.default_max_str_digits`). -/
def maxStrDigits : Nat := 4300

/-- The bounds of `json.loads`. -/
def loadsLimits (nesting : Nesting) : Limits := ⟨some maxStrDigits, some nesting⟩

theorem loadsLimits_converts (nesting : Nesting) {n : Nat} (hn : n ≤ maxStrDigits) :
    (loadsLimits nesting).Converts n := by
  rintro m ⟨⟩
  exact hn

theorem loadsLimits_opens (nesting : Nesting) : (loadsLimits nesting).Opens := by
  intro h
  have hsome : nesting.val = 0 := Option.some.inj h
  have := nesting.property
  omega

theorem loadsLimits_inner_opens (nesting : Nesting) : (loadsLimits nesting).inner.Opens := by
  intro h
  have hsome : nesting.val - 1 = 0 := Option.some.inj h
  have := nesting.property
  omega

/-- A number literal without its sign: an integer part without leading zeros, then an optional
fraction and exponent. -/
def parseUnsigned (limits : Limits) (neg : Bool) (s : PyStr) : Except LoadsError (Json × PyStr) :=
  match s with
  | [] => .error .decode
  | c :: l =>
    if PyStr.isDigit c then
      let whole := if c = 48 then [c] else (c :: l).takeWhile PyStr.isDigit
      let rest := if c = 48 then l else (c :: l).dropWhile PyStr.isDigit
      let (frac, rest) := parseFraction rest
      let (exp, rest) := parseExponent rest
      if frac = [] ∧ exp = [] then
        if limits.Converts whole.length then
          let n : Int := PyStr.ofDecimal whole
          .ok (int (if neg then -n else n), rest)
        else .error .digits
      else .ok (float ((if neg then [45] else []) ++ whole ++ frac ++ exp), rest)
    else .error .decode

/-- The text after the literal `word`, when `s` starts with it. -/
def stripWord (word : String) (s : PyStr) : Option PyStr :=
  if (PyStr.lit word).isPrefixOf s then some (s.drop (PyStr.lit word).length) else none

/-- A literal name or a number. -/
def parseAtom (limits : Limits) (s : PyStr) : Except LoadsError (Json × PyStr) :=
  match stripWord "null" s with
  | some l => .ok (null, l)
  | none => match stripWord "true" s with
    | some l => .ok (bool true, l)
    | none => match stripWord "false" s with
      | some l => .ok (bool false, l)
      | none => match stripWord "NaN" s with
        | some l => .ok (float (PyStr.lit "NaN"), l)
        | none => match stripWord "Infinity" s with
          | some l => .ok (float (PyStr.lit "Infinity"), l)
          | none => match stripWord "-Infinity" s with
            | some l => .ok (float (PyStr.lit "-Infinity"), l)
            | none => match s with
              | 45 :: l => parseUnsigned limits true l
              | s => parseUnsigned limits false s

/-- The dictionary of a list of pairs: the last value of a key wins, at the key's first position. -/
def ofPairs (pairs : List (PyStr × Json)) : List (PyStr × Json) :=
  pairs.foldl (fun d p => Assoc.set p.1 p.2 d) []

mutual

/-- One value at the start of the text. The nesting is checked at the opening brace or bracket. -/
def parseValue : Limits → Nat → PyStr → Except LoadsError (Json × PyStr)
  | _, 0, _ => .error .decode
  | limits, fuel + 1, s => match s with
    | [] => .error .decode
    | c :: l =>
      if c = '"'.toNat then
        match parseStr l with
        | none => .error .decode
        | some (s, l) => .ok (str s, l)
      else if c = '{'.toNat then
        if ¬limits.Opens then .error .recursion
        else match skipSpace l with
          | [] => .error .decode
          | d :: l' =>
            if d = '}'.toNat then .ok (obj [], l')
            else (parseMembers limits.inner fuel (d :: l')).map fun p => (obj (ofPairs p.1), p.2)
      else if c = '['.toNat then
        if ¬limits.Opens then .error .recursion
        else match skipSpace l with
          | [] => .error .decode
          | d :: l' =>
            if d = ']'.toNat then .ok (arr [], l')
            else (parseElements limits.inner fuel (d :: l')).map fun p => (arr p.1, p.2)
      else parseAtom limits (c :: l)

/-- The members of an object up to its closing brace, starting at a key. -/
def parseMembers : Limits → Nat → PyStr → Except LoadsError (List (PyStr × Json) × PyStr)
  | _, 0, _ => .error .decode
  | limits, fuel + 1, s => match s with
    | [] => .error .decode
    | c :: l =>
      if c = '"'.toNat then
        match parseStr l with
        | none => .error .decode
        | some (key, l) => match skipSpace l with
          | [] => .error .decode
          | d :: l =>
            if d = ':'.toNat then
              match parseValue limits fuel (skipSpace l) with
              | .error e => .error e
              | .ok (v, l) => match skipSpace l with
                | [] => .error .decode
                | e :: l =>
                  if e = '}'.toNat then .ok ([(key, v)], l)
                  else if e = ','.toNat then
                    (parseMembers limits fuel (skipSpace l)).map fun p => ((key, v) :: p.1, p.2)
                  else .error .decode
            else .error .decode
      else .error .decode

/-- The elements of an array up to its closing bracket, starting at a value. -/
def parseElements : Limits → Nat → PyStr → Except LoadsError (List Json × PyStr)
  | _, 0, _ => .error .decode
  | limits, fuel + 1, s => match parseValue limits fuel s with
    | .error e => .error e
    | .ok (v, l) => match skipSpace l with
      | [] => .error .decode
      | e :: l =>
        if e = ']'.toNat then .ok ([v], l)
        else if e = ','.toNat then
          (parseElements limits fuel (skipSpace l)).map fun p => (v :: p.1, p.2)
        else .error .decode

end

/-- One value with white space around it and nothing after it. Every call below the top one consumes
a character or is the first of an array's elements, so twice the length is fuel enough. -/
def parse (limits : Limits) (s : PyStr) : Except LoadsError Json :=
  match parseValue limits (2 * s.length + 2) (skipSpace s) with
  | .error e => .error e
  | .ok (v, l) => if skipSpace l = [] then .ok v else .error .decode

/-- `json.loads(data)` on bytes. -/
def loads (limits : Limits) (data : Bytes) : Except LoadsError Json :=
  match decode (data.map UInt8.toNat) with
  | none => .error .unicode
  | some text => parse limits text

/-! ## Writing text -/

def hexDigit (n : Nat) : Nat := if n < 10 then 48 + n else 87 + n

/-- `\uXXXX`. -/
def escapeUnit (u : Nat) : PyStr :=
  PyStr.lit "\\u" ++ [hexDigit (u / 0x1000 % 16), hexDigit (u / 0x100 % 16),
    hexDigit (u / 0x10 % 16), hexDigit (u % 16)]

/-- One code point inside a string literal; only printable ASCII stands for itself. -/
def escapeChar (c : Nat) : PyStr :=
  if c = '"'.toNat then PyStr.lit "\\\""
  else if c = '\\'.toNat then PyStr.lit "\\\\"
  else if 0x20 ≤ c ∧ c ≤ 0x7E then [c]
  else if c = 0x0A then PyStr.lit "\\n"
  else if c = 0x0D then PyStr.lit "\\r"
  else if c = 0x09 then PyStr.lit "\\t"
  else if c = 0x0C then PyStr.lit "\\f"
  else if c = 0x08 then PyStr.lit "\\b"
  else if c < 0x10000 then escapeUnit c
  else escapeUnit (0xD800 + (c - 0x10000) / 0x400 % 0x400) ++ escapeUnit (0xDC00 + c % 0x400)

def dumpStr (s : PyStr) : PyStr := 34 :: s.flatMap escapeChar ++ [34]

mutual

/-- `json.dumps(value)`; `floatRepr` is what it writes for the float of a literal. -/
def dumps (floatRepr : PyStr → PyStr) : Json → PyStr
  | null => PyStr.lit "null"
  | bool b => PyStr.lit (if b then "true" else "false")
  | int i => PyStr.decimalInt i
  | float literal => floatRepr literal
  | str s => dumpStr s
  | arr items => PyStr.lit "[" ++ dumpItems floatRepr items ++ PyStr.lit "]"
  | obj fields => PyStr.lit "\x7b" ++ dumpFields floatRepr fields ++ PyStr.lit "\x7d"

/-- The items of an array, separated by `", "`. -/
def dumpItems (floatRepr : PyStr → PyStr) : List Json → PyStr
  | [] => []
  | [v] => dumps floatRepr v
  | v :: w :: l => dumps floatRepr v ++ PyStr.lit ", " ++ dumpItems floatRepr (w :: l)

/-- The members of an object, separated by `", "`, key and value by `": "`. -/
def dumpFields (floatRepr : PyStr → PyStr) : List (PyStr × Json) → PyStr
  | [] => []
  | [(k, v)] => dumpStr k ++ PyStr.lit ": " ++ dumps floatRepr v
  | (k, v) :: m :: l =>
    dumpStr k ++ PyStr.lit ": " ++ dumps floatRepr v ++ PyStr.lit ", " ++
      dumpFields floatRepr (m :: l)

end

/-- Printable ASCII other than the quote and the backslash, which a string literal holds as it is. -/
def IsPlain (s : PyStr) : Prop := ∀ c ∈ s, 0x20 ≤ c ∧ c ≤ 0x7E ∧ c ≠ 34 ∧ c ≠ 92

instance (s : PyStr) : Decidable (IsPlain s) :=
  inferInstanceAs (Decidable (∀ c ∈ s, 0x20 ≤ c ∧ c ≤ 0x7E ∧ c ≠ 34 ∧ c ≠ 92))

theorem IsPlain.isAscii {s : PyStr} (h : IsPlain s) : s.IsAscii := fun c hc => by
  have := h c hc
  omega

theorem IsPlain.append {s t : PyStr} (hs : IsPlain s) (ht : IsPlain t) : IsPlain (s ++ t) := by
  intro c hc
  rcases List.mem_append.mp hc with h | h
  · exact hs c h
  · exact ht c h

theorem isPlain_of_isDigit {s : PyStr} (h : ∀ c ∈ s, PyStr.isDigit c = true) : IsPlain s := by
  intro c hc
  have hd := PyStr.isDigit_iff.mp (h c hc)
  omega

theorem dumpStr_of_isPlain {s : PyStr} (h : IsPlain s) : dumpStr s = 34 :: s ++ [34] := by
  have hflat : s.flatMap escapeChar = s := by
    induction s with
    | nil => rfl
    | cons c s ih =>
      obtain ⟨h1, h2, h3, h4⟩ := h c (by simp)
      have hc : escapeChar c = [c] := by simp [escapeChar, h1, h2, h3, h4]
      rw [List.flatMap_cons, hc, ih fun d hd => h d (by simp [hd])]
      rfl
  rw [dumpStr, hflat]

end Json
