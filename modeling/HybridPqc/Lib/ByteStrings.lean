import Mathlib.Data.Vector.Basic
import Mathlib.Data.List.DropRight
import Mathlib.Tactic.Linarith

/-!
# Byte strings

Byte strings of any length, byte arrays of a fixed length, and the operations that a wire format is
made of: slices, writes into a buffer, and big-endian numbers.
-/

/-- A byte string of any length. -/
abbrev Bytes := List UInt8

/-- A byte array of the fixed length `n`. -/
abbrev ByteArr (n : Nat) := List.Vector UInt8 n

namespace ByteArr

variable {n : Nat}

def zero (n : Nat) : ByteArr n := List.Vector.replicate n 0

/-- The first `n` bytes of `l`, padded with zeros when `l` is shorter. -/
def ofBytes (n : Nat) (l : Bytes) : ByteArr n := ⟨l.takeD n 0, List.takeD_length n l 0⟩

/-- All bytes of the array are zero: the accumulator of a constant-time loop that ors them. -/
def isZero (a : ByteArr n) : Bool := a.toList.foldl (· ||| ·) 0 == 0

@[simp] theorem zero_toList : (zero n).toList = List.replicate n 0 := rfl

theorem toList_inj {a b : ByteArr n} : a.toList = b.toList ↔ a = b :=
  ⟨fun h => List.Vector.eq a b h, fun h => h ▸ rfl⟩

@[simp] theorem ofBytes_toList (a : ByteArr n) : ofBytes n a.toList = a := by
  apply List.Vector.eq
  show a.toList.takeD n 0 = a.toList
  rw [List.takeD_eq_take _ (by simp)]
  exact List.take_of_length_le (by simp)

/-- Reading `n` bytes off the front of a string that starts with the array gives the array. -/
theorem ofBytes_append (a : ByteArr n) (l : Bytes) : ofBytes n (a.toList ++ l) = a := by
  apply List.Vector.eq
  show (a.toList ++ l).takeD n 0 = a.toList
  rw [List.takeD_eq_take _ (by simp), List.take_append_of_le_length (by simp)]
  exact List.take_of_length_le (by simp)

theorem toList_ofBytes {l : Bytes} (h : l.length = n) : (ofBytes n l).toList = l := by
  show l.takeD n 0 = l
  rw [List.takeD_eq_take _ (by omega)]
  exact List.take_of_length_le (by omega)

/-- An array that is not empty is not the only one of its length. -/
theorem exists_ne (a : ByteArr (n + 1)) : ∃ b, b ≠ a := by
  by_cases h : a = zero (n + 1)
  · refine ⟨List.Vector.replicate (n + 1) 1, ?_⟩
    rw [h, Ne, ← toList_inj]
    show ¬ List.replicate (n + 1) (1 : UInt8) = List.replicate (n + 1) 0
    simp
  · exact ⟨zero (n + 1), fun heq => h heq.symm⟩

end ByteArr

namespace Bytes

/-! ## Buffers -/

/-- `memcpy(buf + off, data, data.length)` on a buffer that is large enough. -/
def overwrite (buf : Bytes) (off : Nat) (data : Bytes) : Bytes :=
  buf.take off ++ data ++ buf.drop (off + data.length)

theorem overwrite_length {buf data : Bytes} {off : Nat} (h : off + data.length ≤ buf.length) :
    (overwrite buf off data).length = buf.length := by
  simp [overwrite]
  omega

/-- The bytes before the end of the written range: what was there, then the data. -/
theorem take_overwrite {buf data : Bytes} {off : Nat} (h : off ≤ buf.length) :
    (overwrite buf off data).take (off + data.length) = buf.take off ++ data := by
  unfold overwrite
  rw [List.take_append_of_le_length (by simp [min_eq_left h]), List.take_of_length_le]
  simp [min_eq_left h]

theorem overwrite_all {buf data : Bytes} (h : data.length = buf.length) :
    overwrite buf 0 data = data := by
  simp [overwrite, h]

/-- The accumulator of a constant-time comparison: the or of the bytewise differences. -/
def diff (a b : Bytes) : UInt8 := (List.zipWith (· ^^^ ·) a b).foldl (· ||| ·) 0

theorem foldl_or_eq_zero (l : Bytes) (a : UInt8) :
    l.foldl (· ||| ·) a = 0 ↔ a = 0 ∧ ∀ b ∈ l, b = 0 := by
  induction l generalizing a with
  | nil => simp
  | cons b l ih =>
    simp only [List.foldl_cons, ih, List.forall_mem_cons]
    rw [← and_assoc]
    exact and_congr_left' UInt8.or_eq_zero_iff

/-- The comparison loop accumulates zero exactly on equal strings. -/
theorem diff_eq_zero {a b : Bytes} (h : a.length = b.length) : diff a b = 0 ↔ a = b := by
  unfold diff
  rw [foldl_or_eq_zero]
  simp only [true_and]
  induction a generalizing b with
  | nil =>
    have hb : b = [] := List.length_eq_zero_iff.mp h.symm
    simp [hb]
  | cons x a ih =>
    cases b with
    | nil => simp at h
    | cons y b =>
      simp only [List.length_cons, Nat.add_right_cancel_iff] at h
      simp only [List.zipWith_cons_cons, List.forall_mem_cons, ih h, List.cons.injEq]
      rw [UInt8.xor_eq_zero_iff]

/-! ## Big-endian numbers -/

/-- The number a byte string spells, most significant byte first. -/
def ofBigEndian (l : Bytes) : Nat := l.foldl (fun acc b => 256 * acc + b.toNat) 0

/-- The `k` bytes of `v`, most significant byte first. -/
def toBigEndian : Nat → Nat → Bytes
  | 0, _ => []
  | k + 1, v => toBigEndian k (v / 256) ++ [UInt8.ofNat (v % 256)]

@[simp] theorem toBigEndian_length (k v : Nat) : (toBigEndian k v).length = k := by
  induction k generalizing v with
  | zero => rfl
  | succ k ih => simp [toBigEndian, ih]

theorem ofBigEndian_append_one (l : Bytes) (b : UInt8) :
    ofBigEndian (l ++ [b]) = 256 * ofBigEndian l + b.toNat := by
  simp [ofBigEndian]

theorem ofBigEndian_toBigEndian (k v : Nat) (h : v < 256 ^ k) :
    ofBigEndian (toBigEndian k v) = v := by
  induction k generalizing v with
  | zero => simp at h; simp [toBigEndian, ofBigEndian, h]
  | succ k ih =>
    rw [toBigEndian, ofBigEndian_append_one, ih (v / 256) (by rw [pow_succ] at h; omega)]
    simp
    omega

theorem ofBigEndian_lt (l : Bytes) : ofBigEndian l < 256 ^ l.length := by
  induction l using List.reverseRecOn with
  | nil => simp [ofBigEndian]
  | append_singleton l b ih =>
    have hb : b.toNat < 256 := b.toNat_lt
    rw [ofBigEndian_append_one, List.length_append, List.length_singleton, pow_succ]
    omega

/-- The four bytes of a 32-bit counter, as shifts and masks write them. -/
def ofUInt32 (v : UInt32) : Bytes :=
  [((v >>> 24) &&& 0xFF).toUInt8, ((v >>> 16) &&& 0xFF).toUInt8, ((v >>> 8) &&& 0xFF).toUInt8,
    (v &&& 0xFF).toUInt8]

/-- The 32-bit counter that four bytes spell, as shifts and ors read it. -/
def toUInt32 (b0 b1 b2 b3 : UInt8) : UInt32 :=
  (b0.toUInt32 <<< 24) ||| (b1.toUInt32 <<< 16) ||| (b2.toUInt32 <<< 8) ||| b3.toUInt32

@[simp] theorem ofUInt32_length (v : UInt32) : (ofUInt32 v).length = 4 := rfl

theorem ofBigEndian_ofUInt32 (v : UInt32) : ofBigEndian (ofUInt32 v) = v.toNat := by
  have hv : v.toNat < 4294967296 := v.toNat_lt
  have hm : ∀ n : Nat, n &&& 255 = n % 256 := fun n => Nat.and_two_pow_sub_one_eq_mod n 8
  simp [ofBigEndian, ofUInt32, Nat.shiftRight_eq_div_pow, hm]
  omega

theorem shiftLeft_or {a b k : Nat} (h : b < 2 ^ k) : a <<< k ||| b = a * 2 ^ k + b := by
  rw [← Nat.shiftLeft_add_eq_or_of_lt h, Nat.shiftLeft_eq]

theorem toNat_toUInt32 (b0 b1 b2 b3 : UInt8) :
    (toUInt32 b0 b1 b2 b3).toNat = ofBigEndian [b0, b1, b2, b3] := by
  have h0 : b0.toNat < 256 := b0.toNat_lt
  have h1 : b1.toNat < 256 := b1.toNat_lt
  have h2 : b2.toNat < 256 := b2.toNat_lt
  have h3 : b3.toNat < 256 := b3.toNat_lt
  have s0 : b0.toNat <<< 24 % 4294967296 = b0.toNat <<< 24 := by
    rw [Nat.shiftLeft_eq]; omega
  have s1 : b1.toNat <<< 16 % 4294967296 = b1.toNat * 2 ^ 16 := by
    rw [Nat.shiftLeft_eq]; omega
  have s2 : b2.toNat <<< 8 % 4294967296 = b2.toNat * 2 ^ 8 := by
    rw [Nat.shiftLeft_eq]; omega
  -- The ors join disjoint bit ranges, so each is an addition.
  have e1 : b0.toNat <<< 24 ||| b1.toNat * 2 ^ 16 = (256 * b0.toNat + b1.toNat) <<< 16 := by
    rw [shiftLeft_or (by omega), Nat.shiftLeft_eq]; omega
  have e2 : (256 * b0.toNat + b1.toNat) <<< 16 ||| b2.toNat * 2 ^ 8 =
      (256 * (256 * b0.toNat + b1.toNat) + b2.toNat) <<< 8 := by
    rw [shiftLeft_or (by omega), Nat.shiftLeft_eq]; omega
  simp only [toUInt32, ofBigEndian, UInt32.toNat_or, UInt32.toNat_shiftLeft, UInt8.toNat_toUInt32,
    List.foldl_cons, List.foldl_nil, Nat.mul_zero, Nat.zero_add]
  show ((b0.toNat <<< 24 % 4294967296 ||| b1.toNat <<< 16 % 4294967296) |||
    b2.toNat <<< 8 % 4294967296) ||| b3.toNat = _
  rw [s0, s1, s2, e1, e2, shiftLeft_or (by omega)]
  omega

end Bytes
