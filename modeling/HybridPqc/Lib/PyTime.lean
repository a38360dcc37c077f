import HybridPqc.Lib.PyJson
import HybridPqc.Lib.PyScan

/-!
# Time stamps

`datetime.datetime` values without a time zone, their ISO 8601 text, their place on the time line and
the times that `strptime` reads.
-/

structure DateTime where
  year : Nat
  month : Nat
  day : Nat
  hour : Nat
  minute : Nat
  second : Nat
  microsecond : Nat
  year_lt : year < 10000
  month_le : month ≤ 12
  day_le : day ≤ 31
  hour_lt : hour < 24
  minute_lt : minute < 60
  second_lt : second < 60
  microsecond_lt : microsecond < 1000000

namespace DateTime

/-- There is `datetime.min`. -/
instance : Nonempty DateTime :=
  ⟨⟨1, 1, 1, 0, 0, 0, 0, by omega, by omega, by omega, by omega, by omega, by omega, by omega⟩⟩

/-- `d.isoformat()`: the microseconds appear only when they are not zero. -/
def isoformat (d : DateTime) : PyStr :=
  PyStr.decimalPad 4 d.year ++ PyStr.lit "-" ++ PyStr.decimalPad 2 d.month ++ PyStr.lit "-" ++
    PyStr.decimalPad 2 d.day ++ PyStr.lit "T" ++ PyStr.decimalPad 2 d.hour ++ PyStr.lit ":" ++
    PyStr.decimalPad 2 d.minute ++ PyStr.lit ":" ++ PyStr.decimalPad 2 d.second ++
    (if d.microsecond = 0 then [] else PyStr.lit "." ++ PyStr.decimalPad 6 d.microsecond)

theorem isoformat_isPlain (d : DateTime) : Json.IsPlain d.isoformat := by
  have hpad : ∀ k n, Json.IsPlain (PyStr.decimalPad k n) := fun k n =>
    Json.isPlain_of_isDigit (PyStr.decimalPad_isDigit k n)
  have hsep : Json.IsPlain (PyStr.lit "-") ∧ Json.IsPlain (PyStr.lit "T") ∧
      Json.IsPlain (PyStr.lit ":") ∧ Json.IsPlain (PyStr.lit ".") := by decide
  obtain ⟨h1, h2, h3, h4⟩ := hsep
  have hmicro : Json.IsPlain (if d.microsecond = 0 then []
      else PyStr.lit "." ++ PyStr.decimalPad 6 d.microsecond) := by
    split
    · intro c hc
      simp at hc
    · exact h4.append (hpad 6 _)
  unfold isoformat
  exact ((((((((((((hpad 4 _).append h1).append (hpad 2 _)).append h1).append (hpad 2 _)).append
    h2).append (hpad 2 _)).append h3).append (hpad 2 _)).append h3).append (hpad 2 _)).append hmicro)

theorem isoformat_length_le (d : DateTime) : d.isoformat.length ≤ 26 := by
  have hlit : (PyStr.lit "-").length = 1 ∧ (PyStr.lit "T").length = 1 ∧
      (PyStr.lit ":").length = 1 ∧ (PyStr.lit ".").length = 1 := by decide
  obtain ⟨h1, h2, h3, h4⟩ := hlit
  unfold isoformat
  split <;> simp [h1, h2, h3, h4]

/-! ## The time line -/

def isLeap (year : Nat) : Bool := year % 4 == 0 && (year % 100 != 0 || year % 400 == 0)

def daysInMonth (year month : Nat) : Nat :=
  if month = 2 then if isLeap year then 29 else 28
  else if month = 4 ∨ month = 6 ∨ month = 9 ∨ month = 11 then 30
  else 31

/-- The days from the first of January of year 1 to the given day, both included. -/
def ordinal (year month day : Nat) : Nat :=
  (year - 1) * 365 + (year - 1) / 4 - (year - 1) / 100 + (year - 1) / 400 +
    ((List.range month).map fun m => if m = 0 then 0 else daysInMonth year m).sum + day

/-- The microseconds of `d` on the time line: `d₂ - d₁` is the difference of the two. -/
def micros (d : DateTime) : Nat :=
  (((ordinal d.year d.month d.day * 24 + d.hour) * 60 + d.minute) * 60 + d.second) * 1000000 +
    d.microsecond

/-! ## Reading -/

/-- `datetime(year, month, day, hour, minute, second, microsecond)`; `none` for a `ValueError`. -/
def ofFields? (year month day hour minute second microsecond : Nat) : Option DateTime :=
  if h : (1 ≤ year ∧ year < 10000) ∧ (1 ≤ month ∧ month ≤ 12) ∧ (1 ≤ day ∧ day ≤ daysInMonth year month) ∧
      hour < 24 ∧ minute < 60 ∧ second < 60 ∧ microsecond < 1000000 then
    some
      { year, month, day, hour, minute, second, microsecond
        year_lt := h.1.2
        month_le := h.2.1.2
        day_le := by
          have hday : daysInMonth year month ≤ 31 := by
            unfold daysInMonth
            split_ifs <;> omega
          omega
        hour_lt := h.2.2.2.1
        minute_lt := h.2.2.2.2.1
        second_lt := h.2.2.2.2.2.1
        microsecond_lt := h.2.2.2.2.2.2 }
  else none

/-- `c` is an ASCII digit from `lo` to `hi`. -/
def asciiDigit (lo hi c : Nat) : Bool := 48 + lo ≤ c && c ≤ 48 + hi

/-- A field of one character or of two. -/
def twoDigits (single : Nat → Bool) (pair : Nat → Nat → Bool) : PyStr → Option Nat
  | [a] => if single a then some (PyStr.intValue [a]) else none
  | [a, b] => if pair a b then some (PyStr.intValue [a, b]) else none
  | _ => none

/-- `%Y`. -/
def yearField (s : PyStr) : Option Nat :=
  if s.length = 4 ∧ s.all PyStr.isDecimal then some (PyStr.intValue s) else none

/-- `%m`: `1[0-2]|0[1-9]|[1-9]`. -/
def monthField : PyStr → Option Nat :=
  twoDigits (asciiDigit 1 9) fun a b =>
    asciiDigit 1 1 a && asciiDigit 0 2 b || asciiDigit 0 0 a && asciiDigit 1 9 b

/-- `%d`: `3[0-1]|[1-2]\d|0[1-9]|[1-9]`. -/
def dayField : PyStr → Option Nat :=
  twoDigits (asciiDigit 1 9) fun a b =>
    asciiDigit 3 3 a && asciiDigit 0 1 b || asciiDigit 1 2 a && PyStr.isDecimal b ||
      asciiDigit 0 0 a && asciiDigit 1 9 b

/-- `%H`: `2[0-3]|[0-1]\d|\d`. -/
def hourField : PyStr → Option Nat :=
  twoDigits PyStr.isDecimal fun a b =>
    asciiDigit 2 2 a && asciiDigit 0 3 b || asciiDigit 0 1 a && PyStr.isDecimal b

/-- `%M`: `[0-5]\d|\d`. -/
def minuteField : PyStr → Option Nat :=
  twoDigits PyStr.isDecimal fun a b => asciiDigit 0 5 a && PyStr.isDecimal b

/-- `%S`: `6[0-1]|[0-5]\d|\d`. -/
def secondField : PyStr → Option Nat :=
  twoDigits PyStr.isDecimal fun a b =>
    asciiDigit 6 6 a && asciiDigit 0 1 b || asciiDigit 0 5 a && PyStr.isDecimal b

/-- `%f`: `[0-9]{1,6}`, a fraction of a second in microseconds. -/
def microsecondField (s : PyStr) : Option Nat :=
  if 1 ≤ s.length ∧ s.length ≤ 6 ∧ s.all (asciiDigit 0 9) then
    some (PyStr.intValue s * 10 ^ (6 - s.length))
  else none

/-- `datetime.strptime(date + ' ' + time, '%Y-%m-%d %H:%M:%S.%f')` of two words; `none` for a
`ValueError`. A field holds digits only, so each separator of the format matches the next one of the
text. -/
def strptime (date time : PyStr) : Option DateTime := do
  let (year, date) ← PyStr.cut 45 date
  let (month, day) ← PyStr.cut 45 date
  let (hour, time) ← PyStr.cut 58 time
  let (minute, time) ← PyStr.cut 58 time
  let (second, microsecond) ← PyStr.cut 46 time
  ofFields? (← yearField year) (← monthField month) (← dayField day) (← hourField hour)
    (← minuteField minute) (← secondField second) (← microsecondField microsecond)

end DateTime
