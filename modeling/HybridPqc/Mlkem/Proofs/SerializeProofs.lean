import HybridPqc.Lib.Blocks
import HybridPqc.Mlkem.Polyvec
import HybridPqc.Mlkem.Proofs.PolyProofs

/-!
# Serialization

The packing loops as base conversions: three bytes are two 12-bit numbers, five bytes are four 10-bit numbers, and a
byte is two 4-bit numbers.
-/

namespace HybridPqc.Mlkem

/-! ## Reads -/

theorem byteAt_take (l : Bytes) {n i : Nat} (hi : i < n) : byteAt (l.take n) i = byteAt l i := by
  rw [byteAt, byteAt, List.getD_eq_getElem?_getD, List.getD_eq_getElem?_getD, List.getElem?_take_of_lt hi]

theorem byteAt_drop (l : Bytes) (n i : Nat) : byteAt (l.drop n) i = byteAt l (n + i) := by
  rw [byteAt, byteAt, List.getD_eq_getElem?_getD, List.getD_eq_getElem?_getD, List.getElem?_drop]

theorem byteAt_append_left {a : Bytes} (b : Bytes) {i : Nat} (hi : i < a.length) :
    byteAt (a ++ b) i = byteAt a i := List.getD_append _ _ _ _ hi

theorem byteAt_append_right {a : Bytes} (b : Bytes) {n : Nat} (hn : a.length = n) (i : Nat) :
    byteAt (a ++ b) (n + i) = byteAt b i := by
  rw [byteAt, List.getD_append_right _ _ _ _ (by omega), byteAt, hn, Nat.add_sub_cancel_left]

/-! ## Twelve bits -/

theorem or_shiftLeft {a k : Nat} (b : Nat) (h : a < 2 ^ k) : a ||| b <<< k = a + b * 2 ^ k := by
  rw [Nat.or_comm, Bytes.shiftLeft_or h, Nat.add_comm]

/-- Two shifted words that do not overlap. -/
theorem toNat_shifted_or {x y a b : UInt16} {m n : Nat} (ha : a.toNat % 16 = m) (hb : b.toNat % 16 = n)
    (hx : x.toNat / 2 ^ m < 2 ^ n) (hy : y.toNat * 2 ^ n < 65536) :
    ((x >>> a) ||| (y <<< b)).toNat = x.toNat / 2 ^ m + y.toNat * 2 ^ n := by
  rw [UInt16.toNat_or, UInt16.toNat_shiftRight, UInt16.toNat_shiftLeft, ha, hb, Nat.shiftRight_eq_div_pow]
  have hs : y.toNat <<< n % 2 ^ 16 = y.toNat <<< n := by
    rw [Nat.shiftLeft_eq]
    exact Nat.mod_eq_of_lt hy
  rw [hs, or_shiftLeft _ hx]

theorem toNat_twelveBits_fst (b0 b1 b2 : UInt8) :
    (twelveBits b0 b1 b2).1.toNat = (b0.toNat + 256 * b1.toNat) % 4096 := by
  have h0 : b0.toNat < 256 := b0.toNat_lt
  have h1 : b1.toNat < 256 := b1.toNat_lt
  have hm : ∀ n : Nat, n &&& 4095 = n % 4096 := fun n => Nat.and_two_pow_sub_one_eq_mod n 12
  have hs : b1.toNat <<< 8 % 65536 = b1.toNat <<< 8 := by rw [Nat.shiftLeft_eq]; omega
  simp only [twelveBits, UInt16.toNat_and, UInt16.toNat_or, UInt16.toNat_shiftLeft, UInt8.toNat_toUInt16]
  show (b0.toNat ||| b1.toNat <<< 8 % 65536) &&& 4095 = _
  rw [hm, hs, or_shiftLeft _ (by omega)]
  omega

theorem toNat_twelveBits_snd (b0 b1 b2 : UInt8) :
    (twelveBits b0 b1 b2).2.toNat = b1.toNat / 16 + 16 * b2.toNat := by
  have h1 : b1.toNat < 256 := b1.toNat_lt
  have h2 : b2.toNat < 256 := b2.toNat_lt
  have hm : ∀ n : Nat, n &&& 4095 = n % 4096 := fun n => Nat.and_two_pow_sub_one_eq_mod n 12
  have hs : b2.toNat <<< 4 % 65536 = b2.toNat <<< 4 := by rw [Nat.shiftLeft_eq]; omega
  simp only [twelveBits, UInt16.toNat_and, UInt16.toNat_or, UInt16.toNat_shiftLeft, UInt8.toNat_toUInt16,
    UInt8.toNat_shiftRight]
  show (b1.toNat >>> 4 ||| b2.toNat <<< 4 % 65536) &&& 4095 = _
  rw [hm, hs, Nat.shiftRight_eq_div_pow, or_shiftLeft _ (by omega)]
  omega

theorem toNat_packedMiddle {t0 t1 : UInt16} (h0 : t0.toNat < 4096) (h1 : t1.toNat < 4096) :
    ((t0 >>> 8) ||| (t1 <<< 4)).toUInt8.toNat = (t0.toNat / 256 + 16 * t1.toNat) % 256 := by
  rw [UInt16.toNat_toUInt8, toNat_shifted_or (m := 8) (n := 4) rfl rfl (by omega) (by omega)]
  omega

theorem twelveBits_pack {t0 t1 : UInt16} (h0 : t0.toNat < 4096) (h1 : t1.toNat < 4096) :
    twelveBits t0.toUInt8 ((t0 >>> 8) ||| (t1 <<< 4)).toUInt8 (t1 >>> 4).toUInt8 = (t0, t1) := by
  have hlast : (t1 >>> 4).toUInt8.toNat = t1.toNat / 16 := by
    rw [UInt16.toNat_toUInt8, UInt16.toNat_shiftRight]
    show t1.toNat >>> 4 % 256 = _
    rw [Nat.shiftRight_eq_div_pow]
    omega
  refine Prod.ext (UInt16.toNat_inj.mp ?_) (UInt16.toNat_inj.mp ?_)
  · rw [toNat_twelveBits_fst, toNat_packedMiddle h0 h1, UInt16.toNat_toUInt8]
    show _ = t0.toNat
    omega
  · rw [toNat_twelveBits_snd, toNat_packedMiddle h0 h1, hlast]
    show _ = t1.toNat
    omega

/-- Every three bytes are the packing of their two numbers. -/
theorem pack_twelveBits (b0 b1 b2 : UInt8) :
    [(twelveBits b0 b1 b2).1.toUInt8,
      (((twelveBits b0 b1 b2).1 >>> 8) ||| ((twelveBits b0 b1 b2).2 <<< 4)).toUInt8,
      ((twelveBits b0 b1 b2).2 >>> 4).toUInt8] = [b0, b1, b2] := by
  have h0 : b0.toNat < 256 := b0.toNat_lt
  have h1 : b1.toNat < 256 := b1.toNat_lt
  have h2 : b2.toNat < 256 := b2.toNat_lt
  have hfst := toNat_twelveBits_fst b0 b1 b2
  have hsnd := toNat_twelveBits_snd b0 b1 b2
  have hlow : (twelveBits b0 b1 b2).1.toUInt8 = b0 := by
    rw [← UInt8.toNat_inj, UInt16.toNat_toUInt8, hfst]
    omega
  have hmiddle : (((twelveBits b0 b1 b2).1 >>> 8) ||| ((twelveBits b0 b1 b2).2 <<< 4)).toUInt8 = b1 := by
    rw [← UInt8.toNat_inj, toNat_packedMiddle (by omega) (by omega), hfst, hsnd]
    omega
  have hhigh : ((twelveBits b0 b1 b2).2 >>> 4).toUInt8 = b2 := by
    rw [← UInt8.toNat_inj, UInt16.toNat_toUInt8, UInt16.toNat_shiftRight]
    show (twelveBits b0 b1 b2).2.toNat >>> 4 % 256 = _
    rw [Nat.shiftRight_eq_div_pow, hsnd]
    omega
  rw [hlow, hmiddle, hhigh]

/-! ## Standard representatives -/

theorem toInt_positive (c : Int16) : (positive c).toInt = if c.toInt < 0 then c.toInt + 3329 else c.toInt := by
  have hlow := c.le_toInt
  have hhigh := c.toInt_lt
  have hshift : (c >>> 15).toInt = c.toInt / 32768 := by
    show (c >>> 15).toBitVec.toInt = _
    rw [Int16.toBitVec_shiftRight, BitVec.sshiftRight',
      show ((15 : Int16).toBitVec.smod 16).toNat = 15 from by decide, BitVec.toInt_sshiftRight,
      Int.shiftRight_eq_div_pow]
    rfl
  rw [positive, Int16.toInt_add]
  split_ifs with h
  · have hs : c >>> 15 = -1 := by
      rw [← Int16.toInt_inj, hshift, show (-1 : Int16).toInt = -1 from by decide]
      omega
    rw [hs, show ((-1 : Int16) &&& 3329).toInt = 3329 from by decide]
    exact Int.bmod_eq_of_le (by omega) (by omega)
  · have hs : c >>> 15 = 0 := by
      rw [← Int16.toInt_inj, hshift, show (0 : Int16).toInt = 0 from by decide]
      omega
    rw [hs, show ((0 : Int16) &&& 3329).toInt = 0 from by decide, add_zero]
    exact Int.bmod_eq_of_le (by omega) (by omega)

theorem residue_positive (c : Int16) : residue (positive c) = residue c := by
  have hq : (3329 : Zq) = 0 := by decide
  rw [residue, toInt_positive, residue]
  split_ifs
  · push_cast
    rw [hq, add_zero]
  · rfl

/-- The positive representative of a coefficient below `q` in absolute value. -/
theorem positive_range {c : Int16} (hc : |c.toInt| ≤ 3328) :
    0 ≤ (positive c).toInt ∧ (positive c).toInt ≤ 3328 := by
  rcases abs_le.mp hc with ⟨hlow, hhigh⟩
  rw [toInt_positive]
  split_ifs <;> omega

theorem positive_of_nonneg {c : Int16} (hc : 0 ≤ c.toInt) : positive c = c := by
  rw [← Int16.toInt_inj, toInt_positive, if_neg (by omega)]

theorem toNat_toUInt16 {c : Int16} (hc : 0 ≤ c.toInt) : (c.toUInt16.toNat : Int) = c.toInt := by
  rw [← Int16.toInt_toBitVec] at hc ⊢
  have hmsb : c.toBitVec.toInt = c.toBitVec.toNat := BitVec.toInt_eq_toNat_of_lt (by
    rw [BitVec.toInt_eq_toNat_cond] at hc
    split_ifs at hc with h
    · exact h
    · have := c.toBitVec.isLt
      omega)
  rw [hmsb]
  rfl

/-- An `int` as an unsigned word wraps around. -/
theorem toNat_toUInt32 (x : Int32) : (x.toUInt32.toNat : Int) = x.toInt % 4294967296 := by
  have hbmod : x.toInt = (x.toUInt32.toNat : Int).bmod 4294967296 := BitVec.toInt_eq_toNat_bmod _
  have hlt : x.toUInt32.toNat < 4294967296 := UInt32.toNat_lt _
  have hmod := Int.bmod_emod (x := (x.toUInt32.toNat : Int)) (m := 4294967296)
  rw [hbmod]
  omega

theorem toInt_toInt16 {t : UInt16} (ht : t.toNat < 32768) : t.toInt16.toInt = t.toNat := by
  show t.toBitVec.toInt = _
  rw [BitVec.toInt_eq_toNat_of_lt (by show 2 * t.toNat < 65536; omega)]
  rfl

/-! ## `poly_tobytes` and `poly_frombytes` -/

/-- The three bytes of a pair of coefficients. -/
def tobytesBlock (a : Poly) (i : Nat) : Bytes :=
  let t0 := (positive (a.coeff (2 * i))).toUInt16
  let t1 := (positive (a.coeff (2 * i + 1))).toUInt16
  [t0.toUInt8, ((t0 >>> 8) ||| (t1 <<< 4)).toUInt8, (t1 >>> 4).toUInt8]

theorem polyTobytes_eq (a : Poly) : polyTobytes a = (List.range 128).flatMap (tobytesBlock a) := rfl

theorem polyTobytes_length (a : Poly) : (polyTobytes a).length = 384 := by
  rw [polyTobytes_eq, Blocks.length_flatMap (k := 3) fun _ _ => rfl, List.length_range]

theorem byteAt_polyTobytes (a : Poly) {i j : Nat} (hi : i < 128) (hj : j < 3) (l : Bytes) :
    byteAt (polyTobytes a ++ l) (3 * i + j) = (tobytesBlock a i).getD j 0 := by
  have hlen := polyTobytes_length a
  rw [byteAt, List.getD_append _ _ _ _ (by omega), polyTobytes_eq,
    Blocks.getD_flatMap (k := 3) (fun _ _ => rfl) (by rw [List.length_range]; exact hi) hj,
    List.getElem_range]

theorem toNat_positive_lt {c : Int16} (hlow : -3329 ≤ c.toInt) (hhigh : c.toInt < 4096) :
    (positive c).toUInt16.toNat < 4096 := by
  have hpos : 0 ≤ (positive c).toInt ∧ (positive c).toInt < 4096 := by
    rw [toInt_positive]
    split_ifs <;> omega
  have hnat := toNat_toUInt16 hpos.1
  omega

/-- Reading back what `poly_tobytes` wrote gives the standard representatives. -/
theorem polyFrombytes_polyTobytes {a : Poly} (ha : ∀ i < 256, -3329 ≤ (a.coeff i).toInt ∧ (a.coeff i).toInt < 4096)
    (l : Bytes) : polyFrombytes (polyTobytes a ++ l) = Poly.ofFn fun i => positive (a.coeff i) := by
  refine Poly.ext_coeff fun x hx => ?_
  have hk : x / 2 < 128 := by omega
  rw [polyFrombytes, Poly.coeff_ofFn _ hx, Poly.coeff_ofFn _ hx]
  simp only
  rw [byteAt_polyTobytes a hk (by norm_num : 1 < 3), byteAt_polyTobytes a hk (by norm_num : 2 < 3),
    ← Nat.add_zero (3 * (x / 2)), byteAt_polyTobytes a hk (by norm_num : 0 < 3)]
  rcases ha (2 * (x / 2)) (by omega) with ⟨hlow0, hhigh0⟩
  rcases ha (2 * (x / 2) + 1) (by omega) with ⟨hlow1, hhigh1⟩
  simp only [tobytesBlock, List.getD_cons_zero, List.getD_cons_succ]
  rw [twelveBits_pack (toNat_positive_lt hlow0 hhigh0) (toNat_positive_lt hlow1 hhigh1)]
  split_ifs with h
  · rw [Int16.toInt16_toUInt16, show 2 * (x / 2) = x by omega]
  · rw [Int16.toInt16_toUInt16, show 2 * (x / 2) + 1 = x by omega]

/-- The 12-bit numbers that `poly_frombytes` reads are below `4096`; it does not check them against `q`. -/
theorem coeff_polyFrombytes (l : Bytes) {x : Nat} (hx : x < 256) :
    0 ≤ ((polyFrombytes l).coeff x).toInt ∧ ((polyFrombytes l).coeff x).toInt < 4096 := by
  rw [polyFrombytes, Poly.coeff_ofFn _ hx]
  simp only
  have hfst := toNat_twelveBits_fst (byteAt l (3 * (x / 2))) (byteAt l (3 * (x / 2) + 1))
    (byteAt l (3 * (x / 2) + 2))
  have hsnd := toNat_twelveBits_snd (byteAt l (3 * (x / 2))) (byteAt l (3 * (x / 2) + 1))
    (byteAt l (3 * (x / 2) + 2))
  have h1 : (byteAt l (3 * (x / 2) + 1)).toNat < 256 := UInt8.toNat_lt _
  have h2 : (byteAt l (3 * (x / 2) + 2)).toNat < 256 := UInt8.toNat_lt _
  split_ifs
  · rw [toInt_toInt16 (by omega)]
    omega
  · rw [toInt_toInt16 (by omega)]
    omega

/-- Every string of 384 bytes is the serialization of what `poly_frombytes` reads from it. -/
theorem polyTobytes_polyFrombytes {l : Bytes} (hl : 384 ≤ l.length) :
    polyTobytes (polyFrombytes l) = l.take 384 := by
  rw [polyTobytes_eq]
  have hlen : (l.take 384).length = 3 * (List.range 128).length := by
    rw [List.length_take, List.length_range]
    omega
  refine (Blocks.eq_flatMap (k := 3) (fun _ _ => rfl) hlen 0 fun i hi j hj => ?_).symm
  rw [List.length_range] at hi
  have hread : (l.take 384).getD (3 * i + j) 0 = byteAt l (3 * i + j) := byteAt_take l (by omega)
  rw [List.getElem_range, hread]
  have hpos : ∀ x < 256, positive ((polyFrombytes l).coeff x) = (polyFrombytes l).coeff x := fun x hx =>
    positive_of_nonneg (coeff_polyFrombytes l hx).1
  have heven : (polyFrombytes l).coeff (2 * i) =
      (twelveBits (byteAt l (3 * i)) (byteAt l (3 * i + 1)) (byteAt l (3 * i + 2))).1.toInt16 := by
    rw [polyFrombytes, Poly.coeff_ofFn _ (by omega), show 2 * i / 2 = i by omega]
    simp
  have hodd : (polyFrombytes l).coeff (2 * i + 1) =
      (twelveBits (byteAt l (3 * i)) (byteAt l (3 * i + 1)) (byteAt l (3 * i + 2))).2.toInt16 := by
    rw [polyFrombytes, Poly.coeff_ofFn _ (by omega), show (2 * i + 1) / 2 = i by omega]
    simp
  rw [tobytesBlock, hpos _ (by omega), hpos _ (by omega), heven, hodd, UInt16.toUInt16_toInt16,
    UInt16.toUInt16_toInt16, pack_twelveBits]
  rcases show j = 0 ∨ j = 1 ∨ j = 2 by omega with rfl | rfl | rfl <;> rfl

/-! ## Vectors -/

theorem flatMap_finRange (f : Fin 3 → Bytes) : (List.finRange 3).flatMap f = f 0 ++ (f 1 ++ f 2) := by
  rw [show List.finRange 3 = [0, 1, 2] from rfl]
  simp

theorem drop_blocks {a b c : Bytes} {n : Nat} (ha : a.length = n) (hb : b.length = n) (l : Bytes) :
    (a ++ (b ++ c) ++ l).drop n = b ++ (c ++ l) ∧ (a ++ (b ++ c) ++ l).drop (2 * n) = c ++ l := by
  constructor
  · rw [List.append_assoc, ← ha, List.drop_left, List.append_assoc]
  · rw [← List.append_assoc, List.append_assoc,
      show 2 * n = (a ++ b).length by rw [List.length_append]; omega, List.drop_left]

theorem polyvecTobytes_length (a : Polyvec) : (polyvecTobytes a).length = 1152 := by
  rw [polyvecTobytes, flatMap_finRange]
  simp only [List.length_append, polyTobytes_length]

/-- Reading back a serialized vector gives the standard representatives. -/
theorem polyvecFrombytes_polyvecTobytes {a : Polyvec} (ha : VecBounded 3328 a) (l : Bytes) :
    polyvecFrombytes (polyvecTobytes a ++ l) =
      Polyvec.ofFn fun i => Poly.ofFn fun x => positive ((a.vec i).coeff x) := by
  have hrange : ∀ i, ∀ x < 256, -3329 ≤ ((a.vec i).coeff x).toInt ∧ ((a.vec i).coeff x).toInt < 4096 := by
    intro i x _
    rcases abs_le.mp (ha i x) with ⟨hlow, hhigh⟩
    exact ⟨by omega, by omega⟩
  rcases drop_blocks (c := polyTobytes (a.vec 2)) (polyTobytes_length (a.vec 0))
    (polyTobytes_length (a.vec 1)) l with ⟨hdrop1, hdrop2⟩
  refine Polyvec.ext_vec fun i => ?_
  rw [polyvecFrombytes, Polyvec.vec_ofFn, Polyvec.vec_ofFn, polyvecTobytes, flatMap_finRange]
  match i with
  | 0 =>
    rw [← polyFrombytes_polyTobytes (hrange 0), List.append_assoc]
    rfl
  | 1 =>
    rw [← polyFrombytes_polyTobytes (hrange 1), ← hdrop1]
    rfl
  | 2 =>
    rw [← polyFrombytes_polyTobytes (hrange 2), ← hdrop2]
    rfl

/-- Every string of at least 1152 bytes starts with the serialization of the vector read from it. -/
theorem polyvecTobytes_polyvecFrombytes {l : Bytes} (hl : 1152 ≤ l.length) :
    polyvecTobytes (polyvecFrombytes l) = l.take 1152 := by
  have hrow : ∀ i : Fin 3, polyTobytes ((polyvecFrombytes l).vec i) = (l.drop (384 * i)).take 384 := by
    intro i
    rw [polyvecFrombytes, Polyvec.vec_ofFn, polyTobytes_polyFrombytes]
    rw [List.length_drop]
    omega
  rw [polyvecTobytes, flatMap_finRange, hrow, hrow, hrow]
  show (l.drop 0).take 384 ++ ((l.drop 384).take 384 ++ (l.drop 768).take 384) = _
  rw [List.drop_zero, show 1152 = 384 + (384 + 384) from rfl, List.take_add, List.take_add,
    List.drop_drop]

/-! ## Compression to ten bits -/

/-- The number that `polyvec_compress` keeps: the nearest to `1024/q` of the representative, modulo `1024`. -/
theorem toNat_compress10 (c : Int16) : (compress10 c).toNat =
    ((positive c).toUInt16.toNat * 1024 + 1665) * 1290167 / 4294967296 % 1024 := by
  have hlt : (positive c).toUInt16.toNat < 65536 := UInt16.toNat_lt _
  set t := (positive c).toUInt16.toNat with ht
  have hm : ∀ n : Nat, n &&& 1023 = n % 1024 := fun n => Nat.and_two_pow_sub_one_eq_mod n 10
  simp only [compress10, UInt64.toNat_toUInt16, UInt64.toNat_and, UInt64.toNat_shiftRight, UInt64.toNat_mul,
    UInt64.toNat_add, UInt64.toNat_shiftLeft, UInt16.toNat_toUInt64]
  rw [← ht]
  show ((((t <<< 10 % 2 ^ 64 + 1665) % 2 ^ 64 * 1290167 % 2 ^ 64) >>> 32) &&& 1023) % 65536 = _
  -- None of the products leaves 64 bits.
  have h1 : t * 2 ^ 10 % 2 ^ 64 = t * 1024 := Nat.mod_eq_of_lt (by omega)
  have h2 : (t * 1024 + 1665) % 2 ^ 64 = t * 1024 + 1665 := Nat.mod_eq_of_lt (by omega)
  have h3 : (t * 1024 + 1665) * 1290167 % 2 ^ 64 = (t * 1024 + 1665) * 1290167 := Nat.mod_eq_of_lt (by omega)
  rw [hm, Nat.shiftRight_eq_div_pow, Nat.shiftLeft_eq, h1, h2, h3]
  exact Nat.mod_eq_of_lt (lt_of_lt_of_le (Nat.mod_lt _ (by norm_num)) (by norm_num))

theorem compress10_lt (c : Int16) : (compress10 c).toNat < 1024 := by
  rw [toNat_compress10]
  exact Nat.mod_lt _ (by norm_num)

theorem toInt_decompress10 (t : UInt16) :
    (decompress10 t).toInt = ((t.toNat % 1024 * 3329 + 512) / 1024 : Nat) := by
  have hm : ∀ n : Nat, n &&& 1023 = n % 1024 := fun n => Nat.and_two_pow_sub_one_eq_mod n 10
  have hval : (((t &&& 0x3FF).toUInt32 * 3329 + 512) >>> 10).toUInt16.toNat =
      (t.toNat % 1024 * 3329 + 512) / 1024 := by
    simp only [UInt32.toNat_toUInt16, UInt32.toNat_shiftRight, UInt32.toNat_add, UInt32.toNat_mul,
      UInt16.toNat_toUInt32, UInt16.toNat_and]
    show (((t.toNat &&& 1023) * 3329 % 2 ^ 32 + 512) % 2 ^ 32) >>> 10 % 65536 = _
    have hlt : t.toNat % 1024 < 1024 := Nat.mod_lt _ (by norm_num)
    have h1 : t.toNat % 1024 * 3329 % 2 ^ 32 = t.toNat % 1024 * 3329 := Nat.mod_eq_of_lt (by omega)
    have h2 : (t.toNat % 1024 * 3329 + 512) % 2 ^ 32 = t.toNat % 1024 * 3329 + 512 :=
      Nat.mod_eq_of_lt (by omega)
    rw [hm, Nat.shiftRight_eq_div_pow, h1, h2]
    exact Nat.mod_eq_of_lt (by omega)
  rw [decompress10, toInt_toInt16 (by omega), hval]

theorem bounded_decompress10 (t : UInt16) : 0 ≤ (decompress10 t).toInt ∧ (decompress10 t).toInt ≤ 3328 := by
  rw [toInt_decompress10]
  omega

/-- Compression undoes decompression. -/
theorem compress10_decompress10 (t : UInt16) : (compress10 (decompress10 t)).toNat = t.toNat % 1024 := by
  have hval := toInt_decompress10 t
  have hnat := toNat_toUInt16 (bounded_decompress10 t).1
  rw [toNat_compress10, positive_of_nonneg (bounded_decompress10 t).1]
  set u := (decompress10 t).toUInt16.toNat with hu
  set d := t.toNat % 1024 with hd
  have hlt : d < 1024 := Nat.mod_lt _ (by norm_num)
  have hround : u = (d * 3329 + 512) / 1024 := by omega
  have hquot : (u * 1024 + 1665) * 1290167 / 4294967296 = d :=
    Nat.div_eq_of_lt_le (by omega) (by omega)
  rw [hquot, Nat.mod_eq_of_lt hlt]

/-- Decompression is within `2` of the coefficient, modulo `q`. -/
theorem decompress10_compress10 {c : Int16} (hc : |c.toInt| ≤ 3328) :
    ∃ e k : Int, (decompress10 (compress10 c)).toInt = c.toInt + e + 3329 * k ∧ |e| ≤ 2 := by
  rcases positive_range hc with ⟨hlow, hhigh⟩
  have hval := toInt_decompress10 (compress10 c)
  have hnat := toNat_toUInt16 hlow
  rw [toNat_compress10] at hval
  set u := (positive c).toUInt16.toNat with hu
  set d := (u * 1024 + 1665) * 1290167 / 4294967296 with hd
  have hdlow : d * 4294967296 ≤ (u * 1024 + 1665) * 1290167 := Nat.div_mul_le_self _ _
  have hdhigh : (u * 1024 + 1665) * 1290167 < (d + 1) * 4294967296 := by
    rw [mul_comm (d + 1)]
    exact Nat.lt_mul_div_succ _ (by norm_num)
  have hdle : d ≤ 1024 := by omega
  -- The topmost coefficient rounds up to `1024`, which is kept as `0`.
  have herr : ∃ e k : Int, ((d % 1024 % 1024 * 3329 + 512) / 1024 : Nat) = (u : Int) + e + 3329 * k ∧ |e| ≤ 2 := by
    by_cases hwrap : d = 1024
    · refine ⟨1, -1, ?_, by norm_num⟩
      have hu3328 : u = 3328 := by omega
      rw [hwrap, hu3328]
      norm_num
    · have hmod : d % 1024 % 1024 = d := by omega
      rw [hmod]
      exact ⟨((d * 3329 + 512) / 1024 : Nat) - u, 0, by ring, abs_le.mpr ⟨by omega, by omega⟩⟩
  rcases herr with ⟨e, k, hek, he⟩
  have hpos := toInt_positive c
  split_ifs at hpos
  · exact ⟨e, k + 1, by omega, he⟩
  · exact ⟨e, k, by omega, he⟩

/-- The five bytes of four 10-bit numbers. -/
def pack10 (t : Nat → UInt16) : Bytes :=
  [(t 0).toUInt8, ((t 0 >>> 8) ||| (t 1 <<< 2)).toUInt8, ((t 1 >>> 6) ||| (t 2 <<< 4)).toUInt8,
    ((t 2 >>> 4) ||| (t 3 <<< 6)).toUInt8, (t 3 >>> 2).toUInt8]

/-- The number with the index `k` in five bytes, before it is masked. -/
def unpack10 (b : Nat → UInt16) (k : Nat) : UInt16 :=
  if k = 0 then b 0 ||| (b 1 <<< 8)
  else if k = 1 then (b 1 >>> 2) ||| (b 2 <<< 6)
  else if k = 2 then (b 2 >>> 4) ||| (b 3 <<< 4)
  else (b 3 >>> 6) ||| (b 4 <<< 2)

theorem toNat_pack10 {t : Nat → UInt16} (ht : ∀ k, (t k).toNat < 1024) :
    (pack10 t).map UInt8.toNat = [(t 0).toNat % 256, ((t 0).toNat / 256 + 4 * (t 1).toNat) % 256,
      ((t 1).toNat / 64 + 16 * (t 2).toNat) % 256, ((t 2).toNat / 16 + 64 * (t 3).toNat) % 256,
      (t 3).toNat / 4] := by
  have h0 := ht 0
  have h1 := ht 1
  have h2 := ht 2
  have h3 := ht 3
  have hlast : (t 3 >>> 2).toUInt8.toNat = (t 3).toNat / 4 := by
    rw [UInt16.toNat_toUInt8, UInt16.toNat_shiftRight]
    show (t 3).toNat >>> 2 % 256 = _
    rw [Nat.shiftRight_eq_div_pow]
    omega
  simp only [pack10, List.map_cons, List.map_nil, hlast, UInt16.toNat_toUInt8]
  rw [toNat_shifted_or (m := 8) (n := 2) rfl rfl (by omega) (by omega),
    toNat_shifted_or (m := 6) (n := 4) rfl rfl (by omega) (by omega),
    toNat_shifted_or (m := 4) (n := 6) rfl rfl (by omega) (by omega)]
  norm_num
  omega

theorem toNat_unpack10 {b : Nat → UInt16} (hb : ∀ k, (b k).toNat < 256) {k : Nat} (hk : k < 4) :
    (unpack10 b k).toNat % 1024 =
      [((b 0).toNat + 256 * (b 1).toNat) % 1024, ((b 1).toNat / 4 + 64 * (b 2).toNat) % 1024,
        ((b 2).toNat / 16 + 16 * (b 3).toNat) % 1024, (b 3).toNat / 64 + 4 * (b 4).toNat].getD k 0 := by
  have h0 := hb 0
  have h1 := hb 1
  have h2 := hb 2
  have h3 := hb 3
  have h4 := hb 4
  rcases show k = 0 ∨ k = 1 ∨ k = 2 ∨ k = 3 by omega with rfl | rfl | rfl | rfl
  · have hzero : b 0 = b 0 >>> 0 := by rw [UInt16.shiftRight_zero]
    show (b 0 ||| (b 1 <<< 8)).toNat % 1024 = ((b 0).toNat + 256 * (b 1).toNat) % 1024
    rw [hzero, toNat_shifted_or (m := 0) (n := 8) rfl rfl (by omega) (by omega)]
    rw [← hzero]
    omega
  · show ((b 1 >>> 2) ||| (b 2 <<< 6)).toNat % 1024 = ((b 1).toNat / 4 + 64 * (b 2).toNat) % 1024
    rw [toNat_shifted_or (m := 2) (n := 6) rfl rfl (by omega) (by omega)]
    omega
  · show ((b 2 >>> 4) ||| (b 3 <<< 4)).toNat % 1024 = ((b 2).toNat / 16 + 16 * (b 3).toNat) % 1024
    rw [toNat_shifted_or (m := 4) (n := 4) rfl rfl (by omega) (by omega)]
    omega
  · show ((b 3 >>> 6) ||| (b 4 <<< 2)).toNat % 1024 = (b 3).toNat / 64 + 4 * (b 4).toNat
    rw [toNat_shifted_or (m := 6) (n := 2) rfl rfl (by omega) (by omega)]
    omega

theorem unpack10_pack10 {t : Nat → UInt16} (ht : ∀ k, (t k).toNat < 1024) {k : Nat} (hk : k < 4) :
    (unpack10 (fun i => ((pack10 t).getD i 0).toUInt16) k).toNat % 1024 = (t k).toNat := by
  have h0 := ht 0
  have h1 := ht 1
  have h2 := ht 2
  have h3 := ht 3
  have hbyte : ∀ i, (((pack10 t).getD i 0).toUInt16).toNat < 256 := fun i => by
    rw [UInt8.toNat_toUInt16]
    exact UInt8.toNat_lt _
  have hbytes := toNat_pack10 ht
  simp only [pack10, List.map_cons, List.cons.injEq] at hbytes
  rcases hbytes with ⟨hb0, hb1, hb2, hb3, hb4, -⟩
  rw [toNat_unpack10 hbyte hk]
  simp only [pack10, List.getD_cons_zero, List.getD_cons_succ, UInt8.toNat_toUInt16, hb0, hb1, hb2, hb3, hb4]
  rcases show k = 0 ∨ k = 1 ∨ k = 2 ∨ k = 3 by omega with rfl | rfl | rfl | rfl
  · simp only [List.getD_cons_zero]
    omega
  · simp only [List.getD_cons_zero, List.getD_cons_succ]
    omega
  · simp only [List.getD_cons_zero, List.getD_cons_succ]
    omega
  · simp only [List.getD_cons_zero, List.getD_cons_succ]
    omega

theorem pack10_unpack10 {b : Nat → UInt8} {t : Nat → UInt16}
    (ht : ∀ k < 4, (t k).toNat = (unpack10 (fun i => (b i).toUInt16) k).toNat % 1024)
    (hlt : ∀ k, (t k).toNat < 1024) : pack10 t = [b 0, b 1, b 2, b 3, b 4] := by
  have hbyte : ∀ i, ((b i).toUInt16).toNat < 256 := fun i => by
    rw [UInt8.toNat_toUInt16]
    exact UInt8.toNat_lt _
  have hbyte0 := hbyte 0
  have hbyte1 := hbyte 1
  have hbyte2 := hbyte 2
  have hbyte3 := hbyte 3
  have hbyte4 := hbyte 4
  have hinj : Function.Injective (List.map UInt8.toNat) :=
    List.map_injective_iff.mpr fun _ _ h => UInt8.toNat_inj.mp h
  refine hinj ?_
  have ht0 := ht 0 (by norm_num)
  have ht1 := ht 1 (by norm_num)
  have ht2 := ht 2 (by norm_num)
  have ht3 := ht 3 (by norm_num)
  rw [toNat_unpack10 hbyte (by norm_num)] at ht0 ht1 ht2 ht3
  simp only [List.getD_cons_zero, List.getD_cons_succ, UInt8.toNat_toUInt16] at ht0 ht1 ht2 ht3
  simp only [UInt8.toNat_toUInt16] at hbyte0 hbyte1 hbyte2 hbyte3 hbyte4
  rw [toNat_pack10 hlt, ht0, ht1, ht2, ht3]
  simp only [List.map_cons, List.map_nil, List.cons.injEq, and_true]
  refine ⟨?_, ?_, ?_, ?_, ?_⟩ <;> omega

/-! ## `polyvec_compress` and `polyvec_decompress` -/

theorem compressRow_eq (a : Poly) : compressRow a =
    (List.range 64).flatMap fun j => pack10 fun k => compress10 (a.coeff (4 * j + k)) := rfl

theorem compressRow_length (a : Poly) : (compressRow a).length = 320 := by
  rw [compressRow_eq, Blocks.length_flatMap (k := 5) fun _ _ => rfl, List.length_range]

theorem coeff_decompressRow (l : Bytes) (off : Nat) {x : Nat} (hx : x < 256) :
    (decompressRow l off).coeff x =
      decompress10 (unpack10 (fun i => (byteAt l (off + 5 * (x / 4) + i)).toUInt16) (x % 4)) := by
  rw [decompressRow, Poly.coeff_ofFn _ hx]
  rfl

theorem decompress10_congr {t t' : UInt16} (h : t.toNat % 1024 = t'.toNat % 1024) :
    decompress10 t = decompress10 t' := by
  rw [← Int16.toInt_inj, toInt_decompress10, toInt_decompress10, h]

/-- Each coefficient comes back as its own compression, whatever the neighbours in its five bytes are. -/
theorem decompressRow_compressRow {l : Bytes} {off : Nat} {a : Poly}
    (hl : ∀ i < 320, byteAt l (off + i) = byteAt (compressRow a) i) {x : Nat} (hx : x < 256) :
    (decompressRow l off).coeff x = decompress10 (compress10 (a.coeff x)) := by
  rw [coeff_decompressRow l off hx]
  set t := fun k => compress10 (a.coeff (4 * (x / 4) + k)) with ht
  have hread : ∀ i < 5, byteAt l (off + 5 * (x / 4) + i) = (pack10 t).getD i 0 := by
    intro i hi
    rw [add_assoc, hl _ (by omega), compressRow_eq, byteAt,
      Blocks.getD_flatMap (k := 5) (fun _ _ => rfl) (by rw [List.length_range]; omega) hi, List.getElem_range]
  have hunpack : unpack10 (fun i => (byteAt l (off + 5 * (x / 4) + i)).toUInt16) (x % 4) =
      unpack10 (fun i => ((pack10 t).getD i 0).toUInt16) (x % 4) := by
    simp only [unpack10, hread 0 (by norm_num), hread 1 (by norm_num), hread 2 (by norm_num),
      hread 3 (by norm_num), hread 4 (by norm_num)]
  rw [hunpack]
  refine decompress10_congr ?_
  rw [unpack10_pack10 (fun k => compress10_lt _) (Nat.mod_lt _ (by norm_num)), Nat.div_add_mod,
    Nat.mod_eq_of_lt (compress10_lt _)]

/-- Every string of 320 bytes is the compression of the row that is read from it. -/
theorem compressRow_decompressRow {l : Bytes} {off : Nat} (hl : off + 320 ≤ l.length) :
    compressRow (decompressRow l off) = (l.drop off).take 320 := by
  rw [compressRow_eq]
  have hlen : ((l.drop off).take 320).length = 5 * (List.range 64).length := by
    rw [List.length_take, List.length_drop, List.length_range]
    omega
  refine (Blocks.eq_flatMap (k := 5) (fun _ _ => rfl) hlen 0 fun i hi j hj => ?_).symm
  rw [List.length_range] at hi
  have hread : ((l.drop off).take 320).getD (5 * i + j) 0 = byteAt l (off + 5 * i + j) := by
    rw [add_assoc, ← byteAt_drop]
    exact byteAt_take _ (by omega)
  have hcoeff : ∀ k < 4, (compress10 ((decompressRow l off).coeff (4 * i + k))).toNat =
      (unpack10 (fun n => (byteAt l (off + 5 * i + n)).toUInt16) k).toNat % 1024 := by
    intro k hk
    rw [coeff_decompressRow l off (by omega), compress10_decompress10, show (4 * i + k) / 4 = i by omega,
      show (4 * i + k) % 4 = k by omega]
  rw [List.getElem_range, hread, pack10_unpack10 hcoeff fun k => compress10_lt _]
  rcases show j = 0 ∨ j = 1 ∨ j = 2 ∨ j = 3 ∨ j = 4 by omega with rfl | rfl | rfl | rfl | rfl <;> rfl

/-! ## Compression to four bits -/

/-- The number that `poly_compress` keeps: the nearest to `16/q` of the representative, modulo `16`. -/
theorem toNat_compress4 {c : Int16} (hlow : 0 ≤ (positive c).toInt) (hhigh : (positive c).toInt ≤ 3328) :
    (compress4 c).toNat = ((positive c).toUInt16.toNat * 16 + 1665) * 80635 / 268435456 % 16 := by
  have hnat := toNat_toUInt16 hlow
  set t := (positive c).toUInt16.toNat with ht
  have hshift : ((positive c).toInt32 <<< 4).toUInt32.toNat = t * 16 := by
    have hword : (positive c).toInt32.toUInt32.toNat = t := by
      have hwrap := toNat_toUInt32 (positive c).toInt32
      rw [Int16.toInt_toInt32] at hwrap
      omega
    show ((positive c).toInt32.toUInt32 <<< 4).toNat = _
    rw [UInt32.toNat_shiftLeft, hword]
    show t <<< 4 % 2 ^ 32 = _
    rw [Nat.shiftLeft_eq]
    exact Nat.mod_eq_of_lt (by omega)
  have hm : ∀ n : Nat, n &&& 15 = n % 16 := fun n => Nat.and_two_pow_sub_one_eq_mod n 4
  simp only [compress4, UInt32.toNat_toUInt8, UInt32.toNat_and, UInt32.toNat_shiftRight, UInt32.toNat_mul,
    UInt32.toNat_add]
  rw [hshift]
  show (((t * 16 + 1665) % 2 ^ 32 * 80635 % 2 ^ 32) >>> 28 &&& 15) % 256 = _
  have h1 : (t * 16 + 1665) % 2 ^ 32 = t * 16 + 1665 := Nat.mod_eq_of_lt (by omega)
  rw [hm, Nat.shiftRight_eq_div_pow, h1]
  -- The product may leave 32 bits; the bits that are lost are not among the four kept ones.
  have h2 : (t * 16 + 1665) * 80635 % 2 ^ 32 / 2 ^ 28 = (t * 16 + 1665) * 80635 / 2 ^ 28 % 16 := by
    rw [show (2 : Nat) ^ 32 = 2 ^ 28 * 16 by norm_num, Nat.mod_mul_right_div_self]
  rw [h2, Nat.mod_mod]
  exact Nat.mod_eq_of_lt (lt_of_lt_of_le (Nat.mod_lt _ (by norm_num)) (by norm_num))

theorem toInt_decompress4 {x : UInt8} (hx : x.toNat < 16) :
    (decompress4 x).toInt = ((x.toNat * 3329 + 8) / 16 : Nat) := by
  have h : ∀ n < 16, (decompress4 (UInt8.ofNat n)).toInt = ((n * 3329 + 8) / 16 : Nat) := by decide +kernel
  have hval := h x.toNat hx
  rw [UInt8.ofNat_toNat] at hval
  exact hval

theorem bounded_decompress4 {x : UInt8} (hx : x.toNat < 16) :
    0 ≤ (decompress4 x).toInt ∧ (decompress4 x).toInt ≤ 3328 := by
  rw [toInt_decompress4 hx]
  omega

theorem compress4_lt {c : Int16} (hc : |c.toInt| ≤ 3328) : (compress4 c).toNat < 16 := by
  rcases positive_range hc with ⟨hlow, hhigh⟩
  rw [toNat_compress4 hlow hhigh]
  exact Nat.mod_lt _ (by norm_num)

theorem compress4_decompress4 {x : UInt8} (hx : x.toNat < 16) : compress4 (decompress4 x) = x := by
  have hval := toInt_decompress4 hx
  rcases bounded_decompress4 hx with ⟨hlow, hhigh⟩
  have hnat := toNat_toUInt16 hlow
  have hpos := positive_of_nonneg hlow
  rw [← UInt8.toNat_inj, toNat_compress4 (by rw [hpos]; exact hlow) (by rw [hpos]; exact hhigh), hpos]
  set u := (decompress4 x).toUInt16.toNat with hu
  have hround : u = (x.toNat * 3329 + 8) / 16 := by omega
  have hquot : (u * 16 + 1665) * 80635 / 268435456 = x.toNat := Nat.div_eq_of_lt_le (by omega) (by omega)
  rw [hquot, Nat.mod_eq_of_lt hx]

/-- Decompression is within `104` of the coefficient, modulo `q`. -/
theorem decompress4_compress4 {c : Int16} (hc : |c.toInt| ≤ 3328) :
    ∃ e k : Int, (decompress4 (compress4 c)).toInt = c.toInt + e + 3329 * k ∧ |e| ≤ 104 := by
  rcases positive_range hc with ⟨hlow, hhigh⟩
  have hval := toInt_decompress4 (compress4_lt hc)
  have hnat := toNat_toUInt16 hlow
  rw [toNat_compress4 hlow hhigh] at hval
  set u := (positive c).toUInt16.toNat with hu
  set d := (u * 16 + 1665) * 80635 / 268435456 with hd
  have hdlow : d * 268435456 ≤ (u * 16 + 1665) * 80635 := Nat.div_mul_le_self _ _
  have hdhigh : (u * 16 + 1665) * 80635 < (d + 1) * 268435456 := by
    rw [mul_comm (d + 1)]
    exact Nat.lt_mul_div_succ _ (by norm_num)
  have hdle : d ≤ 16 := by omega
  -- The topmost coefficients round up to `16`, which is kept as `0`.
  have herr : ∃ e k : Int, ((d % 16 * 3329 + 8) / 16 : Nat) = (u : Int) + e + 3329 * k ∧ |e| ≤ 104 := by
    by_cases hwrap : d = 16
    · refine ⟨3329 - u, -1, ?_, abs_le.mpr ⟨by omega, by omega⟩⟩
      rw [hwrap]
      norm_num
    · have hmod : d % 16 = d := by omega
      rw [hmod]
      exact ⟨((d * 3329 + 8) / 16 : Nat) - u, 0, by ring, abs_le.mpr ⟨by omega, by omega⟩⟩
  rcases herr with ⟨e, k, hek, he⟩
  have hpos := toInt_positive c
  split_ifs at hpos
  · exact ⟨e, k + 1, by omega, he⟩
  · exact ⟨e, k, by omega, he⟩

/-! ## `poly_compress` and `poly_decompress` -/

/-- Eight 4-bit numbers in four bytes. -/
def pack4 (t : Nat → UInt8) : Bytes :=
  [t 0 ||| (t 1 <<< 4), t 2 ||| (t 3 <<< 4), t 4 ||| (t 5 <<< 4), t 6 ||| (t 7 <<< 4)]

theorem polyCompress_eq (a : Poly) : polyCompress a =
    (List.range 32).flatMap fun i => pack4 fun j => compress4 (a.coeff (8 * i + j)) := rfl

theorem polyCompress_length (a : Poly) : (polyCompress a).length = 128 := by
  rw [polyCompress_eq, Blocks.length_flatMap (k := 4) fun _ _ => rfl, List.length_range]

theorem toNat_nibbles {t0 t1 : UInt8} (h0 : t0.toNat < 16) (h1 : t1.toNat < 16) :
    (t0 ||| (t1 <<< 4)).toNat = t0.toNat + 16 * t1.toNat := by
  rw [UInt8.toNat_or, UInt8.toNat_shiftLeft]
  show t0.toNat ||| t1.toNat <<< 4 % 256 = _
  have hs : t1.toNat <<< 4 % 256 = t1.toNat <<< 4 := by
    rw [Nat.shiftLeft_eq]
    exact Nat.mod_eq_of_lt (by omega)
  rw [hs, or_shiftLeft _ (by omega)]
  omega

theorem toNat_lowNibble (b : UInt8) : (b &&& 15).toNat = b.toNat % 16 := by
  rw [UInt8.toNat_and]
  exact Nat.and_two_pow_sub_one_eq_mod _ 4

theorem toNat_highNibble (b : UInt8) : (b >>> 4).toNat = b.toNat / 16 := by
  rw [UInt8.toNat_shiftRight]
  show b.toNat >>> 4 = _
  rw [Nat.shiftRight_eq_div_pow]

theorem byteAt_polyCompress (a : Poly) {k : Nat} (hk : k < 128) : byteAt (polyCompress a) k =
    compress4 (a.coeff (2 * k)) ||| (compress4 (a.coeff (2 * k + 1)) <<< 4) := by
  have hsplit : k = 4 * (k / 4) + k % 4 := (Nat.div_add_mod k 4).symm
  have hmod : k % 4 < 4 := Nat.mod_lt _ (by norm_num)
  rw [byteAt, polyCompress_eq]
  conv_lhs => rw [hsplit]
  rw [Blocks.getD_flatMap (k := 4) (fun _ _ => rfl) (by rw [List.length_range]; omega) hmod, List.getElem_range]
  rcases show k % 4 = 0 ∨ k % 4 = 1 ∨ k % 4 = 2 ∨ k % 4 = 3 by omega with h | h | h | h
  · rw [h, show 2 * k = 8 * (k / 4) + 0 by omega]
    rfl
  · rw [h, show 2 * k = 8 * (k / 4) + 2 by omega]
    rfl
  · rw [h, show 2 * k = 8 * (k / 4) + 4 by omega]
    rfl
  · rw [h, show 2 * k = 8 * (k / 4) + 6 by omega]
    rfl

/-- Each coefficient comes back as its own compression. -/
theorem polyDecompress_polyCompress {a : Poly} (ha : Bounded 3328 a) {x : Nat} (hx : x < 256) :
    (polyDecompress (polyCompress a)).coeff x = decompress4 (compress4 (a.coeff x)) := by
  have hlow := compress4_lt (ha (2 * (x / 2)))
  have hhigh := compress4_lt (ha (2 * (x / 2) + 1))
  have hbyte := toNat_nibbles hlow hhigh
  rw [polyDecompress, Poly.coeff_ofFn _ hx, byteAt_polyCompress a (by omega)]
  split_ifs with h
  · have hnibble : (compress4 (a.coeff (2 * (x / 2))) ||| compress4 (a.coeff (2 * (x / 2) + 1)) <<< 4) &&& 15 =
        compress4 (a.coeff (2 * (x / 2))) := by
      rw [← UInt8.toNat_inj, toNat_lowNibble, hbyte]
      omega
    rw [hnibble, show 2 * (x / 2) = x by omega]
  · have hnibble : (compress4 (a.coeff (2 * (x / 2))) ||| compress4 (a.coeff (2 * (x / 2) + 1)) <<< 4) >>> 4 =
        compress4 (a.coeff (2 * (x / 2) + 1)) := by
      rw [← UInt8.toNat_inj, toNat_highNibble, hbyte]
      omega
    rw [hnibble, show 2 * (x / 2) + 1 = x by omega]

/-- Every string of 128 bytes is the compression of the polynomial that is read from it. -/
theorem polyCompress_polyDecompress {l : Bytes} (hl : l.length = 128) : polyCompress (polyDecompress l) = l := by
  refine List.ext_getElem (by rw [polyCompress_length, hl]) fun k hk hk' => ?_
  have hk128 : k < 128 := by omega
  rw [← List.getD_eq_getElem _ 0 hk, ← List.getD_eq_getElem _ 0 hk']
  show byteAt (polyCompress (polyDecompress l)) k = byteAt l k
  have hlow : ((byteAt l k) &&& 15).toNat < 16 := by
    rw [toNat_lowNibble]
    omega
  have hbyte : (byteAt l k).toNat < 256 := UInt8.toNat_lt _
  have hhigh : ((byteAt l k) >>> 4).toNat < 16 := by
    rw [toNat_highNibble]
    omega
  have heven : (polyDecompress l).coeff (2 * k) = decompress4 (byteAt l k &&& 15) := by
    rw [polyDecompress, Poly.coeff_ofFn _ (by omega), if_pos (by omega), show 2 * k / 2 = k by omega]
  have hodd : (polyDecompress l).coeff (2 * k + 1) = decompress4 (byteAt l k >>> 4) := by
    rw [polyDecompress, Poly.coeff_ofFn _ (by omega), if_neg (by omega), show (2 * k + 1) / 2 = k by omega]
  rw [byteAt_polyCompress _ hk128, heven, hodd, compress4_decompress4 hlow, compress4_decompress4 hhigh,
    ← UInt8.toNat_inj, toNat_nibbles hlow hhigh, toNat_lowNibble, toNat_highNibble]
  omega

end HybridPqc.Mlkem
