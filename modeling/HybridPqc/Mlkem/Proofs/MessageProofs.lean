import HybridPqc.Mlkem.Proofs.SerializeProofs

/-!
# Messages and noise

Bit by bit: what `poly_frommsg`, `poly_tomsg` and `cbd2` make of the bits of their byte strings.
-/

namespace HybridPqc.Mlkem

/-! ## Bits -/

/-- Bit `i` of a byte string, least significant bit first. -/
def bitAt (l : Bytes) (i : Nat) : Nat := (byteAt l (i / 8)).toNat / 2 ^ (i % 8) % 2

theorem bitAt_lt (l : Bytes) (i : Nat) : bitAt l i < 2 := Nat.mod_lt _ (by norm_num)

/-- The number with the bits `b`, of which there are `n`. -/
def ofBitsLe (b : Nat → Nat) : Nat → Nat
  | 0 => 0
  | n + 1 => ofBitsLe b n + b n * 2 ^ n

theorem ofBitsLe_lt {b : Nat → Nat} (hb : ∀ j, b j < 2) (n : Nat) : ofBitsLe b n < 2 ^ n := by
  induction n with
  | zero => norm_num [ofBitsLe]
  | succ n ih =>
    have hn := hb n
    rw [ofBitsLe, pow_succ]
    nlinarith

theorem ofBitsLe_div_mod {b : Nat → Nat} (hb : ∀ j, b j < 2) {n j : Nat} (hj : j < n) :
    ofBitsLe b n / 2 ^ j % 2 = b j := by
  induction n with
  | zero => omega
  | succ n ih =>
    rw [ofBitsLe]
    by_cases heq : j = n
    · rw [heq, Nat.add_mul_div_right _ _ (by positivity), Nat.div_eq_of_lt (ofBitsLe_lt hb n), zero_add]
      exact Nat.mod_eq_of_lt (hb n)
    · have hpow : b n * 2 ^ n = 2 ^ j * (2 * (b n * 2 ^ (n - j - 1))) := by
        have hexp : 2 ^ n = 2 ^ j * (2 * 2 ^ (n - j - 1)) := by
          rw [← pow_succ', ← pow_add]
          congr 1
          omega
        rw [hexp]
        ring
      rw [hpow, Nat.add_mul_div_left _ _ (by positivity), Nat.add_mul_mod_self_left]
      exact ih (by omega)

/-! ## Messages -/

/-- `poly_frommsg`: `(q + 1) / 2` where the bit is set. -/
theorem toInt_polyFrommsg (m : Bytes) {i : Nat} (hi : i < 256) :
    ((polyFrommsg m).coeff i).toInt = 1665 * bitAt m i := by
  have hbit : (((byteAt m (i / 8)).toUInt16 >>> (i % 8).toUInt16) &&& 1).toNat = bitAt m i := by
    rw [UInt16.toNat_and, UInt16.toNat_shiftRight, UInt8.toNat_toUInt16, bitAt]
    have hmod : (i % 8).toUInt16.toNat % 16 = i % 8 := by
      show i % 8 % 65536 % 16 = i % 8
      omega
    rw [hmod, Nat.shiftRight_eq_div_pow]
    exact Nat.and_two_pow_sub_one_eq_mod _ 1
  have hlt := bitAt_lt m i
  rw [polyFrommsg, Poly.coeff_ofFn _ hi]
  rcases show bitAt m i = 0 ∨ bitAt m i = 1 by omega with h | h
  · have hword : ((byteAt m (i / 8)).toUInt16 >>> (i % 8).toUInt16) &&& 1 = 0 :=
      UInt16.toNat_inj.mp (by rw [hbit, h]; rfl)
    rw [hword, h]
    decide
  · have hword : ((byteAt m (i / 8)).toUInt16 >>> (i % 8).toUInt16) &&& 1 = 1 :=
      UInt16.toNat_inj.mp (by rw [hbit, h]; rfl)
    rw [hword, h]
    decide

theorem bounded_polyFrommsg (m : Bytes) : Bounded 1665 (polyFrommsg m) :=
  bounded_of_lt (by norm_num) fun i hi => by
    have hlt := bitAt_lt m i
    rw [toInt_polyFrommsg m hi]
    exact abs_le.mpr ⟨by omega, by omega⟩

/-- `poly_tomsg` reads a zero from the centred coefficients up to a quarter of `q`. -/
theorem toNat_messageBit {c : Int16} (hc : |c.toInt| ≤ 1664) :
    (messageBit c).toNat = if -832 ≤ c.toInt ∧ c.toInt ≤ 832 then 0 else 1 := by
  rcases abs_le.mp hc with ⟨hlow, hhigh⟩
  have hwrap := toNat_toUInt32 c.toInt32
  rw [Int16.toInt_toInt32] at hwrap
  set t := c.toInt32.toUInt32.toNat with ht
  have hval : (messageBit c).toNat =
      ((t * 2 % 4294967296 + 1665) % 4294967296 * 80635 % 4294967296) / 268435456 % 2 := by
    simp only [messageBit, UInt32.toNat_and, UInt32.toNat_shiftRight, UInt32.toNat_mul, UInt32.toNat_add,
      UInt32.toNat_shiftLeft]
    rw [← ht]
    show (((t <<< 1 % 4294967296 + 1665) % 4294967296 * 80635 % 4294967296) >>> 28) &&& 1 = _
    rw [Nat.shiftLeft_eq, Nat.shiftRight_eq_div_pow]
    exact Nat.and_two_pow_sub_one_eq_mod _ 1
  rw [hval]
  by_cases hneg : 2 * c.toInt + 1665 < 0
  · -- The sum wraps around, and the product is just below `2^32`.
    have hsum : (t * 2 % 4294967296 + 1665) % 4294967296 = (2 * c.toInt + 1665 + 4294967296).toNat := by omega
    have hprod : (2 * c.toInt + 1665 + 4294967296).toNat * 80635 % 4294967296 =
        (4294967296 + (2 * c.toInt + 1665) * 80635).toNat := by omega
    have hquot : (4294967296 + (2 * c.toInt + 1665) * 80635).toNat / 268435456 = 15 :=
      Nat.div_eq_of_lt_le (by omega) (by omega)
    rw [hsum, hprod, hquot, if_neg (by omega)]
  · have hsum : (t * 2 % 4294967296 + 1665) % 4294967296 = (2 * c.toInt + 1665).toNat := by omega
    have hprod : (2 * c.toInt + 1665).toNat * 80635 % 4294967296 = ((2 * c.toInt + 1665) * 80635).toNat := by
      omega
    rw [hsum, hprod]
    split_ifs with h
    · have hquot : ((2 * c.toInt + 1665) * 80635).toNat / 268435456 = 0 := Nat.div_eq_of_lt (by omega)
      rw [hquot]
    · have hquot : ((2 * c.toInt + 1665) * 80635).toNat / 268435456 = 1 :=
        Nat.div_eq_of_lt_le (by omega) (by omega)
      rw [hquot]

theorem messageBit_lt (c : Int16) : (messageBit c).toNat < 2 := by
  have h : (messageBit c).toNat = _ &&& 1 := UInt32.toNat_and ..
  rw [h, Nat.and_one_is_mod]
  exact Nat.mod_lt _ (by norm_num)

/-- The inner loop of `poly_tomsg` collects the bits of a byte. -/
theorem toNat_messageByte (b : Nat → UInt32) (hb : ∀ j, (b j).toNat < 2) {n : Nat} (hn : n ≤ 8) :
    ((List.range n).foldl (fun (m : UInt8) j => m ||| (b j <<< j.toUInt32).toUInt8) 0).toNat =
      ofBitsLe (fun j => (b j).toNat) n := by
  induction n with
  | zero => rfl
  | succ n ih =>
    have hlt := ofBitsLe_lt (b := fun j => (b j).toNat) hb n
    have hword : (b n <<< n.toUInt32).toUInt8.toNat = (b n).toNat <<< n := by
      rw [UInt32.toNat_toUInt8, UInt32.toNat_shiftLeft]
      have hmod : n.toUInt32.toNat % 32 = n := by
        show n % 4294967296 % 32 = n
        omega
      have hpow : 2 ^ n ≤ 2 ^ 7 := Nat.pow_le_pow_right (by norm_num) (by omega)
      have hbit := hb n
      have hsmall : (b n).toNat * 2 ^ n < 256 := by nlinarith
      rw [hmod, Nat.shiftLeft_eq, Nat.mod_eq_of_lt (a := (b n).toNat * 2 ^ n) (by omega)]
      exact Nat.mod_eq_of_lt hsmall
    rw [List.range_succ, List.foldl_append, List.foldl_cons, List.foldl_nil, UInt8.toNat_or, hword,
      ih (by omega), or_shiftLeft _ hlt, ofBitsLe]

theorem polyTomsg_length (a : Poly) : (polyTomsg a).length = 32 := by
  rw [polyTomsg, List.length_map, List.length_range]

/-- Bit by bit, `poly_tomsg` is the decoding of the coefficients. -/
theorem bitAt_polyTomsg (a : Poly) {i : Nat} (hi : i < 256) :
    bitAt (polyTomsg a) i = (messageBit (a.coeff i)).toNat := by
  have hbyte : byteAt (polyTomsg a) (i / 8) = (List.range 8).foldl
      (fun (m : UInt8) j => m ||| (messageBit (a.coeff (8 * (i / 8) + j)) <<< j.toUInt32).toUInt8) 0 := by
    rw [byteAt, List.getD_eq_getElem _ _ (by rw [polyTomsg_length]; omega)]
    simp only [polyTomsg, List.getElem_map, List.getElem_range]
  rw [bitAt, hbyte, toNat_messageByte _ (fun j => messageBit_lt _) (le_refl 8),
    ofBitsLe_div_mod (fun j => messageBit_lt _) (Nat.mod_lt i (by norm_num)), Nat.div_add_mod]

/-- Byte strings of one length with the same bits are equal. -/
theorem eq_of_bitAt {l l' : Bytes} {n : Nat} (hl : l.length = n) (hl' : l'.length = n)
    (h : ∀ i < 8 * n, bitAt l i = bitAt l' i) : l = l' := by
  refine List.ext_getElem (by omega) fun k hk hk' => ?_
  rw [← List.getD_eq_getElem _ 0 hk, ← List.getD_eq_getElem _ 0 hk']
  show byteAt l k = byteAt l' k
  have hbits : (fun j => (byteAt l k).toNat / 2 ^ (j % 8) % 2) =
      fun j => (byteAt l' k).toNat / 2 ^ (j % 8) % 2 := by
    funext j
    have hj : j % 8 < 8 := Nat.mod_lt _ (by norm_num)
    have hbit := h (8 * k + j % 8) (by omega)
    rw [bitAt, bitAt, show (8 * k + j % 8) / 8 = k by omega, show (8 * k + j % 8) % 8 = j % 8 by omega] at hbit
    exact hbit
  have hself : ∀ b : UInt8, ofBitsLe (fun j => b.toNat / 2 ^ (j % 8) % 2) 8 = b.toNat := by
    intro b
    have hb : b.toNat < 256 := b.toNat_lt
    simp only [ofBitsLe]
    norm_num
    omega
  refine UInt8.toNat_inj.mp ?_
  calc (byteAt l k).toNat = ofBitsLe (fun j => (byteAt l k).toNat / 2 ^ (j % 8) % 2) 8 := (hself _).symm
    _ = ofBitsLe (fun j => (byteAt l' k).toNat / 2 ^ (j % 8) % 2) 8 := by rw [hbits]
    _ = (byteAt l' k).toNat := hself _

/-! ## Centered binomial noise -/

/-- The mask with the low bit of each of `n` two-bit fields set. -/
def evenMask : Nat → Nat
  | 0 => 0
  | n + 1 => 1 + 4 * evenMask n

theorem and_evenMask (t n : Nat) : t &&& evenMask (n + 1) = t % 2 + 4 * (t / 4 &&& evenMask n) := by
  have hdiv : (t &&& evenMask (n + 1)) / 4 = t / 4 &&& evenMask n := by
    rw [show (4 : Nat) = 2 ^ 2 from rfl, Nat.and_div_two_pow, evenMask]
    congr 1
    omega
  have hmod : (t &&& evenMask (n + 1)) % 4 = t % 2 := by
    rw [show (4 : Nat) = 2 ^ 2 from rfl, Nat.and_mod_two_pow, evenMask,
      show (1 + 4 * evenMask n) % 2 ^ 2 = 1 by omega, Nat.and_one_is_mod]
    omega
  omega

/-- Adding the even and the odd bits adds the two bits of every field, without a carry. -/
theorem field_sum {t n k : Nat} (hk : k < n) :
    ((t &&& evenMask n) + (t / 2 &&& evenMask n)) / 4 ^ k % 4 = t / 4 ^ k % 2 + t / 4 ^ k / 2 % 2 := by
  induction n generalizing t k with
  | zero => omega
  | succ n ih =>
    have hhalf : t / 2 / 4 = t / 4 / 2 := by omega
    rw [and_evenMask, and_evenMask, hhalf]
    cases k with
    | zero => rw [pow_zero, Nat.div_one, Nat.div_one]; omega
    | succ k =>
      have hshift : t % 2 + 4 * (t / 4 &&& evenMask n) + (t / 2 % 2 + 4 * (t / 4 / 2 &&& evenMask n)) =
          t % 2 + t / 2 % 2 + 4 * ((t / 4 &&& evenMask n) + (t / 4 / 2 &&& evenMask n)) := by ring
      have hsmall : (t % 2 + t / 2 % 2 + 4 * ((t / 4 &&& evenMask n) + (t / 4 / 2 &&& evenMask n))) / 4 =
          (t / 4 &&& evenMask n) + (t / 4 / 2 &&& evenMask n) := by omega
      rw [hshift, pow_succ', ← Nat.div_div_eq_div_mul, ← Nat.div_div_eq_div_mul, hsmall]
      exact ih (by omega)

theorem toNat_load32 (x : Bytes) (off : Nat) : (load32Littleendian x off).toNat =
    (byteAt x off).toNat + 256 * (byteAt x (off + 1)).toNat + 65536 * (byteAt x (off + 2)).toNat +
      16777216 * (byteAt x (off + 3)).toNat := by
  have h0 : (byteAt x off).toNat < 256 := UInt8.toNat_lt _
  have h1 : (byteAt x (off + 1)).toNat < 256 := UInt8.toNat_lt _
  have h2 : (byteAt x (off + 2)).toNat < 256 := UInt8.toNat_lt _
  have h3 : (byteAt x (off + 3)).toNat < 256 := UInt8.toNat_lt _
  simp only [load32Littleendian, UInt32.toNat_or, UInt32.toNat_shiftLeft, UInt8.toNat_toUInt32]
  set b0 := (byteAt x off).toNat
  set b1 := (byteAt x (off + 1)).toNat
  set b2 := (byteAt x (off + 2)).toNat
  set b3 := (byteAt x (off + 3)).toNat
  show ((b0 ||| b1 <<< 8 % 2 ^ 32) ||| b2 <<< 16 % 2 ^ 32) ||| b3 <<< 24 % 2 ^ 32 = _
  have s1 : b1 <<< 8 % 2 ^ 32 = b1 <<< 8 := by rw [Nat.shiftLeft_eq]; omega
  have s2 : b2 <<< 16 % 2 ^ 32 = b2 <<< 16 := by rw [Nat.shiftLeft_eq]; omega
  have s3 : b3 <<< 24 % 2 ^ 32 = b3 <<< 24 := by rw [Nat.shiftLeft_eq]; omega
  have e1 : b0 ||| b1 <<< 8 = b0 + b1 * 2 ^ 8 := or_shiftLeft _ (by omega)
  have e2 : (b0 + b1 * 2 ^ 8) ||| b2 <<< 16 = b0 + b1 * 2 ^ 8 + b2 * 2 ^ 16 := or_shiftLeft _ (by omega)
  have e3 : (b0 + b1 * 2 ^ 8 + b2 * 2 ^ 16) ||| b3 <<< 24 = b0 + b1 * 2 ^ 8 + b2 * 2 ^ 16 + b3 * 2 ^ 24 :=
    or_shiftLeft _ (by omega)
  rw [s1, s2, s3, e1, e2, e3]
  ring

/-- Bit `n` of the word at byte `off` is bit `8 * off + n` of the string. -/
theorem load32_bit (x : Bytes) (off : Nat) {n : Nat} (hn : n < 32) :
    (load32Littleendian x off).toNat / 2 ^ n % 2 = bitAt x (8 * off + n) := by
  have h0 : (byteAt x off).toNat < 256 := UInt8.toNat_lt _
  have h1 : (byteAt x (off + 1)).toNat < 256 := UInt8.toNat_lt _
  have h2 : (byteAt x (off + 2)).toNat < 256 := UInt8.toNat_lt _
  have h3 : (byteAt x (off + 3)).toNat < 256 := UInt8.toNat_lt _
  have hbyte : (load32Littleendian x off).toNat / 256 ^ (n / 8) % 256 = (byteAt x (off + n / 8)).toNat := by
    rw [toNat_load32]
    rcases show n / 8 = 0 ∨ n / 8 = 1 ∨ n / 8 = 2 ∨ n / 8 = 3 by omega with h | h | h | h
    · rw [h, pow_zero, Nat.div_one, add_zero]; omega
    · rw [h, pow_one]; omega
    · rw [h, show 256 ^ 2 = 65536 from rfl]; omega
    · rw [h, show 256 ^ 3 = 16777216 from rfl]; omega
  have hpow : 2 ^ n = 256 ^ (n / 8) * 2 ^ (n % 8) := by
    rw [show (256 : Nat) = 2 ^ 8 from rfl, ← pow_mul, ← pow_add, Nat.div_add_mod]
  have hmod : 2 ^ (n % 8) * 2 ∣ 256 := by
    rw [show (256 : Nat) = 2 ^ 8 from rfl, ← pow_succ]
    exact pow_dvd_pow 2 (by omega)
  rw [bitAt, show (8 * off + n) / 8 = off + n / 8 by omega, show (8 * off + n) % 8 = n % 8 by omega,
    ← hbyte, hpow, ← Nat.div_div_eq_div_mul]
  generalize (load32Littleendian x off).toNat / 256 ^ (n / 8) = q
  rcases hmod with ⟨c, hc⟩
  rw [hc, mul_assoc, Nat.mod_mul_right_div_self, Nat.mod_mul_right_mod]

/-- A two-bit field of the sum in `cbd2`. -/
theorem toNat_cbd2_field (buf : Bytes) (i : Nat) {k : Nat} (hk : k < 16) (s : UInt32) (hs : s.toNat = 2 * k) :
    ((((load32Littleendian buf (4 * i) &&& (0x55555555 : UInt32)) +
      ((load32Littleendian buf (4 * i) >>> 1) &&& (0x55555555 : UInt32))) >>> s) &&&
        (0x3 : UInt32)).toUInt16.toInt16.toInt =
      (bitAt buf (32 * i + 2 * k) + bitAt buf (32 * i + 2 * k + 1) : Nat) := by
  set t := load32Littleendian buf (4 * i) with ht
  have hmask : ∀ n : Nat, n &&& 1431655765 = n &&& evenMask 16 := fun n => rfl
  have hle : ∀ n : Nat, n &&& evenMask 16 ≤ 1431655765 := fun n => Nat.and_le_right
  have hm : ∀ n : Nat, n &&& 3 = n % 4 := fun n => Nat.and_two_pow_sub_one_eq_mod n 2
  have hle0 := hle t.toNat
  have hle1 := hle (t.toNat / 2)
  have hval : ((((t &&& (0x55555555 : UInt32)) + ((t >>> 1) &&& (0x55555555 : UInt32))) >>> s) &&&
      (0x3 : UInt32)).toNat =
      bitAt buf (32 * i + 2 * k) + bitAt buf (32 * i + 2 * k + 1) := by
    simp only [UInt32.toNat_and, UInt32.toNat_shiftRight, UInt32.toNat_add]
    show (((t.toNat &&& 1431655765) + (t.toNat >>> 1 &&& 1431655765)) % 4294967296) >>> (s.toNat % 32) &&& 3 = _
    rw [hm, hmask, hmask, hs, Nat.mod_eq_of_lt (show 2 * k < 32 by omega), Nat.shiftRight_eq_div_pow,
      Nat.shiftRight_eq_div_pow, pow_one, Nat.mod_eq_of_lt (by omega : _ < 4294967296), pow_mul,
      show 2 ^ 2 = 4 from rfl, field_sum hk, show (4 : Nat) = 2 ^ 2 from rfl, ← pow_mul,
      Nat.div_div_eq_div_mul, ← pow_succ, ht, load32_bit buf (4 * i) (by omega), load32_bit buf (4 * i) (by omega)]
    congr 2 <;> ring
  have hb0 := bitAt_lt buf (32 * i + 2 * k)
  have hb1 := bitAt_lt buf (32 * i + 2 * k + 1)
  have hword : ((((t &&& (0x55555555 : UInt32)) + ((t >>> 1) &&& (0x55555555 : UInt32))) >>> s) &&&
      (0x3 : UInt32)).toUInt16.toNat =
      bitAt buf (32 * i + 2 * k) + bitAt buf (32 * i + 2 * k + 1) := by
    rw [UInt32.toNat_toUInt16, hval]
    exact Nat.mod_eq_of_lt (by omega)
  rw [toInt_toInt16 (by rw [hword]; omega), hword]

/-- Each coefficient is the difference of two sums of two bits. -/
theorem toInt_cbd2 (buf : Bytes) {x : Nat} (hx : x < 256) : ((cbd2 buf).coeff x).toInt =
    (bitAt buf (4 * x) + bitAt buf (4 * x + 1) : Nat) - (bitAt buf (4 * x + 2) + bitAt buf (4 * x + 3) : Nat) := by
  have hshift : ∀ n < 32, n.toUInt32.toNat = n := fun n hn => Nat.mod_eq_of_lt (by omega)
  have ha := toNat_cbd2_field buf (x / 8) (show 2 * (x % 8) < 16 by omega) (4 * (x % 8) + 0).toUInt32
    (by rw [hshift _ (by omega)]; ring)
  have hb := toNat_cbd2_field buf (x / 8) (show 2 * (x % 8) + 1 < 16 by omega) (4 * (x % 8) + 2).toUInt32
    (by rw [hshift _ (by omega)]; ring)
  rw [show 32 * (x / 8) + 2 * (2 * (x % 8)) = 4 * x by omega] at ha
  rw [show 32 * (x / 8) + 2 * (2 * (x % 8) + 1) = 4 * x + 2 by omega,
    show 4 * x + 2 + 1 = 4 * x + 3 from rfl] at hb
  have h0 := bitAt_lt buf (4 * x)
  have h1 := bitAt_lt buf (4 * x + 1)
  have h2 := bitAt_lt buf (4 * x + 2)
  have h3 := bitAt_lt buf (4 * x + 3)
  rw [cbd2, Poly.coeff_ofFn _ hx]
  simp only
  rw [toInt_sub_of_abs_le (m := 2) (n := 2) (by rw [ha]; exact abs_le.mpr ⟨by omega, by omega⟩)
    (by rw [hb]; exact abs_le.mpr ⟨by omega, by omega⟩) (by norm_num), ha, hb]

theorem bounded_cbd2 (buf : Bytes) : Bounded 2 (cbd2 buf) :=
  bounded_of_lt (by norm_num) fun x hx => by
    have h0 := bitAt_lt buf (4 * x)
    have h1 := bitAt_lt buf (4 * x + 1)
    have h2 := bitAt_lt buf (4 * x + 2)
    have h3 := bitAt_lt buf (4 * x + 3)
    rw [toInt_cbd2 buf hx]
    exact abs_le.mpr ⟨by omega, by omega⟩

end HybridPqc.Mlkem
