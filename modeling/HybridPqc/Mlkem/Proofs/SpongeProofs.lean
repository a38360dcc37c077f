import HybridPqc.Lib.Sponge
import HybridPqc.Mlkem.Proofs.MatrixProofs

/-!
# The sponge of SHA-3

The functions of `fips202_ref.c` are one sponge: the incremental ones for every way to cut the input and the output,
and the ones that work on whole blocks.
-/

namespace HybridPqc.Mlkem

open Sponge

/-- Keccak at the rate `r`. -/
def keccak (r : Nat) : Sponge (Vector UInt64 25) where
  rate := r
  permute := keccakF1600StatePermute
  absorbAt := xorByte
  readAt := laneByte

variable {r : Nat}

/-! ## Bytes of a lane -/

theorem getD_xorLane (s : Vector UInt64 25) {k : Nat} (v : UInt64) (hk : k < 25) (j : Nat) :
    (xorLane s k v).getD j 0 = if j = k then s.getD j 0 ^^^ v else s.getD j 0 := by
  by_cases hj : j < 25
  · by_cases heq : j = k
    · simp [xorLane, Vector.getD, heq, hk]
    · simp [xorLane, Vector.getD, hj, heq, Ne.symm heq]
  · rw [if_neg (by omega)]
    simp [xorLane, Vector.getD, hj]

theorem xorLane_of_le (s : Vector UInt64 25) {k : Nat} (v : UInt64) (hk : 25 ≤ k) : xorLane s k v = s := by
  rw [xorLane]
  exact Vector.ext fun j hj => by rw [Vector.getElem_setIfInBounds_ne hj (by omega)]

theorem ext_lanes {s t : Vector UInt64 25} (h : ∀ j < 25, s.getD j 0 = t.getD j 0) : s = t := by
  refine Vector.ext fun j hj => ?_
  have hlane := h j hj
  simpa [Vector.getD, hj] using hlane

theorem xorLane_zero (s : Vector UInt64 25) (k : Nat) : xorLane s k 0 = s := by
  by_cases hk : k < 25
  · exact ext_lanes fun j _ => by rw [getD_xorLane s 0 hk, UInt64.xor_zero, ite_self]
  · exact xorLane_of_le s 0 (by omega)

theorem xorLane_xorLane (s : Vector UInt64 25) (k : Nat) (v w : UInt64) :
    xorLane (xorLane s k v) k w = xorLane s k (v ^^^ w) := by
  by_cases hk : k < 25
  · refine ext_lanes fun j _ => ?_
    rw [getD_xorLane _ w hk, getD_xorLane s v hk, getD_xorLane s _ hk]
    split_ifs
    · rw [UInt64.xor_assoc]
    · rfl
  · rw [xorLane_of_le s v (by omega), xorLane_of_le s w (by omega), xorLane_of_le s _ (by omega)]

theorem toUInt64_xor_shiftLeft (a b : UInt8) (n : UInt64) :
    (a ^^^ b).toUInt64 <<< n = (a.toUInt64 <<< n) ^^^ (b.toUInt64 <<< n) := by
  rw [UInt8.toUInt64_xor, UInt64.shiftLeft_xor]

theorem lawful_keccak : (keccak r).Lawful where
  absorbAt_zero s i := by
    show xorLane s (i / 8) ((0 : UInt8).toUInt64 <<< _) = s
    rw [show (0 : UInt8).toUInt64 = 0 from rfl, UInt64.zero_shiftLeft, xorLane_zero]
  absorbAt_absorbAt s i a b := by
    show xorLane (xorLane s (i / 8) _) (i / 8) _ = xorLane s (i / 8) _
    rw [xorLane_xorLane, toUInt64_xor_shiftLeft]

theorem xorBytes_eq (s : Vector UInt64 25) (i : Nat) (l : Bytes) : xorBytes s i l = (keccak r).absorbRange s i l := by
  induction l generalizing s i with
  | nil => rfl
  | cons b l ih => rw [xorBytes, ih, absorbRange]; rfl

/-! ## The incremental functions -/

section Incremental

/-- The state and the position of a `keccak_state`. -/
def KeccakState.pair (st : KeccakState r) : Vector UInt64 25 × Nat := (st.s, st.pos)

theorem pair_refill (st : KeccakState r) : (refill st).pair = (keccak r).settle st.pair := by
  rw [refill, settle]
  split_ifs with h h' h'
  · rfl
  · exact absurd h h'
  · exact absurd h' h
  · rfl

variable [NeZero r]

theorem rate_pos : 0 < (keccak r).rate := Nat.pos_of_ne_zero (NeZero.ne r)

/-- `keccak_absorb` absorbs byte by byte. -/
theorem pair_keccakAbsorb (st : KeccakState r) (inp : Bytes) :
    (keccakAbsorb st inp).pair = (keccak r).absorb ((keccak r).settle st.pair) inp := by
  induction st, inp using keccakAbsorb.induct with
  | case1 st inp h s ih =>
    rw [keccakAbsorb, dif_pos h, ih]
    have hr : 0 < r := rate_pos
    have hfresh : (keccak r).settle (keccakF1600StatePermute s, 0) = (keccakF1600StatePermute s, 0) :=
      settle_of_lt hr
    show (keccak r).absorb ((keccak r).settle (keccakF1600StatePermute s, 0)) _ = _
    rw [hfresh]
    have hpos := st.pos_le
    by_cases hfull : st.pos = r
    · have hs : s = st.s := by
        show xorBytes st.s st.pos (inp.take (r - st.pos)) = st.s
        rw [hfull, Nat.sub_self, List.take_zero]
        rfl
      have hsettle : (keccak r).settle st.pair = (keccakF1600StatePermute st.s, 0) := if_pos hfull
      rw [hs, hsettle, hfull, Nat.sub_self, List.drop_zero]
    · have hlt : st.pos < r := by omega
      have hsettle : (keccak r).settle st.pair = st.pair := settle_of_lt hlt
      have hblock : (keccak r).absorb st.pair (inp.take (r - st.pos)) = (keccakF1600StatePermute s, 0) := by
        rw [absorb_of_eq hlt (by rw [List.length_take]; show st.pos + _ = r; omega)]
        show (keccakF1600StatePermute ((keccak r).absorbRange st.s st.pos _), 0) = _
        rw [← xorBytes_eq]
      rw [hsettle, ← hblock, ← absorb_append, List.take_append_drop]
  | case2 st inp h =>
    have hlt : st.pos + inp.length < r := by omega
    have hsettle : (keccak r).settle st.pair = st.pair :=
      settle_of_lt (by show st.pos < r; omega)
    rw [keccakAbsorb, dif_neg h, hsettle, absorb_of_lt hlt]
    show (xorBytes st.s st.pos inp, _) = ((keccak r).absorbRange st.s st.pos inp, _)
    rw [← xorBytes_eq]
    rfl

/-- `keccak_squeeze` squeezes byte by byte. -/
theorem keccakSqueeze_eq (st : KeccakState r) (outlen : Nat) :
    (keccakSqueeze st outlen).1 = ((keccak r).squeeze outlen st.pair).1 ∧
      (keccakSqueeze st outlen).2.pair = ((keccak r).squeeze outlen st.pair).2 := by
  induction st, outlen using keccakSqueeze.induct with
  | case1 st =>
    rw [keccakSqueeze, dif_pos rfl]
    exact ⟨rfl, rfl⟩
  | case2 st outlen h n ih =>
    have hlt := refill_pos_lt st
    have hblock : (keccak r).squeeze n (refill st).pair =
        ((List.range n).map fun i => laneByte (refill st).s ((refill st).pos + i),
          ((refill st).s, (refill st).pos + n)) :=
      squeeze_of_le (by show (refill st).pos + n ≤ r; omega) fun _ => hlt
    have hsplit : (keccak r).squeeze outlen st.pair = (keccak r).squeeze (n + (outlen - n)) (refill st).pair := by
      rw [pair_refill, Nat.add_sub_cancel' (Nat.min_le_right _ _),
        squeeze_settle rate_pos st.pos_le (Nat.pos_of_ne_zero h)]
    rw [keccakSqueeze, dif_neg h, hsplit, squeeze_add, hblock]
    exact ⟨congrArg _ ih.1, ih.2⟩

end Incremental

/-! ## Words of the input and the output -/

theorem or_eq_xor {a k : Nat} (b : Nat) (h : a < 2 ^ k) : a ||| b <<< k = a ^^^ b <<< k := by
  refine Nat.eq_of_testBit_eq fun i => ?_
  rw [Nat.testBit_or, Nat.testBit_xor, Nat.testBit_shiftLeft]
  by_cases hi : i < k
  · rw [decide_eq_false (by omega : ¬ k ≤ i), Bool.false_and, Bool.or_false, Bool.xor_false]
  · have hbit : a.testBit i = false :=
      Nat.testBit_lt_two_pow (lt_of_lt_of_le h (Nat.pow_le_pow_right (by norm_num) (by omega)))
    rw [hbit, Bool.false_or, Bool.false_xor]

theorem toNat_byte_shiftLeft (b : UInt8) {i : Nat} (hi : i < 8) :
    (b.toUInt64 <<< (8 * i).toUInt64).toNat = b.toNat <<< (8 * i) := by
  have hb : b.toNat < 256 := b.toNat_lt
  have hshift : (8 * i).toUInt64.toNat % 64 = 8 * i := by
    show 8 * i % 18446744073709551616 % 64 = 8 * i
    omega
  rw [UInt64.toNat_shiftLeft, hshift, UInt8.toNat_toUInt64]
  refine Nat.mod_eq_of_lt ?_
  rw [Nat.shiftLeft_eq]
  calc b.toNat * 2 ^ (8 * i) < 2 ^ 8 * 2 ^ (8 * i) := Nat.mul_lt_mul_of_pos_right hb (by positivity)
    _ = 2 ^ (8 + 8 * i) := (pow_add ..).symm
    _ ≤ 2 ^ 64 := Nat.pow_le_pow_right (by norm_num) (by omega)

/-- The bytes of a word do not overlap, so that or is xor. -/
theorem load64_bytes (x : Bytes) (off : Nat) {n : Nat} (hn : n ≤ 8) :
    ((List.range n).foldl (fun r i => r ||| (byteAt x (off + i)).toUInt64 <<< (8 * i).toUInt64) 0).toNat <
        2 ^ (8 * n) ∧
      (List.range n).foldl (fun r i => r ||| (byteAt x (off + i)).toUInt64 <<< (8 * i).toUInt64) 0 =
        (List.range n).foldl (fun r i => r ^^^ (byteAt x (off + i)).toUInt64 <<< (8 * i).toUInt64) 0 := by
  induction n with
  | zero => exact ⟨by norm_num, rfl⟩
  | succ n ih =>
    rcases ih (by omega) with ⟨hlt, hxor⟩
    have hb : (byteAt x (off + n)).toNat < 256 := UInt8.toNat_lt _
    rw [List.range_succ, List.foldl_append, List.foldl_append, ← hxor, List.foldl_cons, List.foldl_nil,
      List.foldl_cons, List.foldl_nil]
    constructor
    · rw [UInt64.toNat_or, toNat_byte_shiftLeft _ (by omega), or_shiftLeft _ hlt, Nat.mul_succ, pow_add]
      have hpow : 0 < 2 ^ (8 * n) := by positivity
      nlinarith
    · rw [← UInt64.toNat_inj, UInt64.toNat_or, UInt64.toNat_xor, toNat_byte_shiftLeft _ (by omega), or_eq_xor _ hlt]

/-- A word is absorbed byte by byte. -/
theorem xorLane_load64 (s : Vector UInt64 25) {i : Nat} {inp : Bytes} (h : 8 * i + 8 ≤ inp.length) :
    xorLane s i (load64 inp (8 * i)) = (keccak r).absorbRange s (8 * i) ((inp.drop (8 * i)).take 8) := by
  have hprefix : ∀ n ≤ 8, xorLane s i ((List.range n).foldl
      (fun r j => r ^^^ (byteAt inp (8 * i + j)).toUInt64 <<< (8 * j).toUInt64) 0) =
        (keccak r).absorbRange s (8 * i) ((inp.drop (8 * i)).take n) := by
    intro n
    induction n with
    | zero => exact fun _ => xorLane_zero s i
    | succ n ih =>
      intro hn
      have hlen : n < (inp.drop (8 * i)).length := by
        rw [List.length_drop]
        omega
      have hbyte : (inp.drop (8 * i))[n] = byteAt inp (8 * i + n) := by
        rw [← byteAt_drop, byteAt, List.getD_eq_getElem _ _ hlen]
      have hlane : xorByte ((keccak r).absorbRange s (8 * i) ((inp.drop (8 * i)).take n)) (8 * i + n)
          (byteAt inp (8 * i + n)) = xorLane ((keccak r).absorbRange s (8 * i) ((inp.drop (8 * i)).take n)) i
            ((byteAt inp (8 * i + n)).toUInt64 <<< (8 * n).toUInt64) := by
        rw [xorByte, show (8 * i + n) / 8 = i by omega, show (8 * i + n) % 8 = n by omega]
      rw [List.range_succ, List.foldl_append, List.foldl_cons, List.foldl_nil, ← xorLane_xorLane, ih (by omega),
        ← hlane, ← List.take_append_getElem hlen, absorbRange_append, List.length_take, min_eq_left (by omega), hbyte]
      rfl
  rw [load64, (load64_bytes inp (8 * i) (le_refl 8)).2]
  exact hprefix 8 (le_refl 8)

theorem foldl_xorLane (s : Vector UInt64 25) {m : Nat} {inp : Bytes} (h : 8 * m ≤ inp.length) :
    (List.range m).foldl (fun s i => xorLane s i (load64 inp (8 * i))) s =
      (keccak r).absorbRange s 0 (inp.take (8 * m)) := by
  induction m with
  | zero => rfl
  | succ m ih =>
    rw [List.range_succ, List.foldl_append, List.foldl_cons, List.foldl_nil, ih (by omega),
      xorLane_load64 (r := r) _ (by omega), Nat.mul_succ, List.take_add, absorbRange_append, List.length_take,
      Nat.zero_add, min_eq_left (by omega)]

/-- The words of a block are its bytes. -/
theorem flatMap_store64 (s : Vector UInt64 25) (m : Nat) :
    ((List.range m).flatMap fun i => store64 (s.getD i 0)) = (List.range (8 * m)).map (laneByte s) := by
  have hlen : ((List.range (8 * m)).map (laneByte s)).length = 8 * (List.range m).length := by
    rw [List.length_map, List.length_range, List.length_range]
  refine (Blocks.eq_flatMap (k := 8) (fun _ _ => by rw [store64, List.length_map, List.length_range]) hlen 0
    fun i hi j hj => ?_).symm
  rw [List.length_range] at hi
  rw [List.getD_eq_getElem _ _ (by rw [List.length_map, List.length_range]; omega),
    List.getD_eq_getElem _ _ (by rw [store64, List.length_map, List.length_range]; omega)]
  simp only [store64, List.getElem_map, List.getElem_range]
  rw [laneByte, show (8 * i + j) / 8 = i by omega, show (8 * i + j) % 8 = j by omega]

/-! ## The functions on whole blocks -/

section Blocks

variable [NeZero r] (h8 : r % 8 = 0)
include h8

/-- What the loop over the full blocks leaves is the start of the last block. -/
theorem absorbFullBlocks_spec (s : Vector UInt64 25) (inp : Bytes) : (absorbFullBlocks r s inp).2.length < r ∧
    (keccak r).absorb (s, 0) inp =
      (xorBytes (absorbFullBlocks r s inp).1 0 (absorbFullBlocks r s inp).2, (absorbFullBlocks r s inp).2.length) := by
  have hr : 0 < r := rate_pos
  induction s, inp using absorbFullBlocks.induct (r := r) with
  | case1 s inp h ih =>
    have hword : (List.range (r / 8)).foldl (fun s i => xorLane s i (load64 inp (8 * i))) s =
        (keccak r).absorbRange s 0 (inp.take r) := by
      rw [foldl_xorLane (r := r) s (by omega), show 8 * (r / 8) = r by omega]
    have hblock : (keccak r).absorb (s, 0) (inp.take r) =
        (keccakF1600StatePermute ((keccak r).absorbRange s 0 (inp.take r)), 0) :=
      absorb_of_eq hr (by rw [List.length_take, min_eq_left h, Nat.zero_add]; rfl)
    rw [hword] at ih
    rw [absorbFullBlocks, dif_pos h, hword]
    refine ⟨ih.1, ?_⟩
    rw [← ih.2, ← hblock, ← absorb_append, List.take_append_drop]
  | case2 s inp h =>
    rw [absorbFullBlocks, dif_neg h]
    have hlt : inp.length < r := by omega
    refine ⟨hlt, ?_⟩
    rw [absorb_of_lt (by show 0 + inp.length < r; omega), Nat.zero_add, ← xorBytes_eq]

theorem xorLane_top (s : Vector UInt64 25) : xorLane s ((r - 1) / 8) ((1 : UInt64) <<< 63) = xorByte s (r - 1) 0x80 := by
  have hr : 0 < r := rate_pos
  rw [xorByte, show (r - 1) % 8 = 7 by omega]
  rfl

/-- `keccak_absorb_once` is the state of the padded message. -/
theorem keccakAbsorbOnce_eq (inp : Bytes) (p : UInt8) : keccakAbsorbOnce r inp p =
    (keccak r).finish ((keccak r).absorb (Vector.replicate 25 0, 0) inp) p := by
  rw [(absorbFullBlocks_spec h8 _ inp).2, keccakAbsorbOnce, xorLane_top h8]
  rfl

theorem keccakFinalize_eq (s : Vector UInt64 25) (pos : Nat) (p : UInt8) :
    keccakFinalize s pos r p = (keccak r).finish (s, pos) p := by
  have hr : 0 < r := rate_pos
  rw [keccakFinalize, show r / 8 - 1 = (r - 1) / 8 by omega, xorLane_top h8]
  rfl

/-- `keccak_squeezeblocks` squeezes whole blocks. -/
theorem keccakSqueezeblocks_eq (s : Vector UInt64 25) (n : Nat) :
    (keccak r).squeeze (r * n) (s, r) = ((keccakSqueezeblocks r s n).1, ((keccakSqueezeblocks r s n).2, r)) := by
  have hr : 0 < r := rate_pos
  induction n generalizing s with
  | zero => rfl
  | succ n ih =>
    have hsettle : (keccak r).settle (s, r) = (keccakF1600StatePermute s, 0) := if_pos rfl
    have hblock : (keccak r).squeeze r (s, r) =
        ((List.range r).map (laneByte (keccakF1600StatePermute s)), (keccakF1600StatePermute s, r)) := by
      rw [← squeeze_settle rate_pos (le_refl r) hr, hsettle,
        squeeze_of_le (by show 0 + r ≤ r; omega) fun _ => hr]
      simp only [Nat.zero_add]
      rfl
    rw [Nat.mul_succ, Nat.add_comm, squeeze_add, hblock, ih, keccakSqueezeblocks, flatMap_store64,
      show 8 * (r / 8) = r by omega]

end Blocks

/-! ## SHAKE and SHA-3 -/

/-- The zero state. -/
abbrev zeroState : Vector UInt64 25 := Vector.replicate 25 0

section Hashes

variable [NeZero r] (h8 : r % 8 = 0)
include h8

/-- Whole blocks and a rest are one output. -/
theorem squeeze_blocks_rest (inp : Bytes) (p : UInt8) (outlen : Nat) :
    (keccakSqueezeblocks r (keccakAbsorbOnce r inp p) (outlen / r)).1 ++
      (keccakSqueeze (⟨(keccakSqueezeblocks r (keccakAbsorbOnce r inp p) (outlen / r)).2, r, le_refl r⟩ : KeccakState r)
        (outlen - outlen / r * r)).1 = (List.range outlen).map ((keccak r).hashByte zeroState p inp) := by
  have hsum : outlen = r * (outlen / r) + (outlen - outlen / r * r) := by
    have := Nat.div_mul_le_self outlen r
    rw [mul_comm r]
    omega
  have hbytes : (List.range outlen).map ((keccak r).hashByte zeroState p inp) =
      ((keccak r).squeeze outlen (keccakAbsorbOnce r inp p, r)).1 := by
    rw [squeeze_eq rate_pos _ (le_refl r), keccakAbsorbOnce_eq h8]
    exact List.map_congr_left fun n _ => hashByte_eq lawful_keccak rate_pos _ p inp n
  rw [hbytes]
  conv_rhs => rw [hsum, squeeze_add, keccakSqueezeblocks_eq h8]
  rw [(keccakSqueeze_eq _ _).1]
  rfl

/-- The words of the state after the padded message. -/
theorem flatMap_hash (inp : Bytes) (p : UInt8) {m : Nat} (hm : 8 * m ≤ r) :
    ((List.range m).flatMap fun i => store64 ((keccakF1600StatePermute (keccakAbsorbOnce r inp p)).getD i 0)) =
      (List.range (8 * m)).map ((keccak r).hashByte zeroState p inp) := by
  have hr : 0 < r := rate_pos
  rw [flatMap_store64, keccakAbsorbOnce_eq h8]
  refine List.map_congr_left fun n hn => ?_
  have hlt : n < r := lt_of_lt_of_le (List.mem_range.mp hn) hm
  rw [hashByte_eq lawful_keccak rate_pos, outputByte]
  show _ = laneByte (keccakF1600StatePermute^[(r + n) / r] _) ((r + n) % r)
  rw [Nat.add_div_left _ hr, Nat.div_eq_of_lt hlt, Nat.add_mod_left, Nat.mod_eq_of_lt hlt]
  rfl

end Hashes

/-- The four hash functions are the sponge of the padded message. -/
theorem hashes_eq (inp : Bytes) :
    (∀ outlen, shake128 outlen inp = (List.range outlen).map ((keccak 168).hashByte zeroState 0x1F inp)) ∧
    (∀ outlen, shake256 outlen inp = (List.range outlen).map ((keccak 136).hashByte zeroState 0x1F inp)) ∧
    sha3256 inp = (List.range 32).map ((keccak 136).hashByte zeroState 0x06 inp) ∧
    sha3512 inp = (List.range 64).map ((keccak 72).hashByte zeroState 0x06 inp) :=
  ⟨squeeze_blocks_rest rfl inp 0x1F, squeeze_blocks_rest rfl inp 0x1F, flatMap_hash rfl inp 0x06 (by norm_num),
    flatMap_hash rfl inp 0x06 (by norm_num)⟩

/-! ## Calls in any number of pieces -/

section Calls

variable [NeZero r]

theorem pair_foldl_keccakAbsorb (chunks : List Bytes) {st : KeccakState r} (h : st.pos < r) :
    (chunks.foldl keccakAbsorb st).pair = (keccak r).absorb st.pair chunks.flatten := by
  induction chunks generalizing st with
  | nil => rfl
  | cons c chunks ih =>
    have hpair : (keccakAbsorb st c).pair = (keccak r).absorb st.pair c := by
      rw [pair_keccakAbsorb, settle_of_lt h]
    have hlt : (keccakAbsorb st c).pos < r := by
      show (keccakAbsorb st c).pair.2 < r
      rw [hpair]
      exact absorb_lt rate_pos h c
    rw [List.foldl_cons, ih hlt, hpair, List.flatten_cons, absorb_append]

/-- The output of a sequence of calls of `keccak_squeeze`. -/
def squeezeCalls : List Nat → KeccakState r → Bytes
  | [], _ => []
  | n :: lens, st => (keccakSqueeze st n).1 ++ squeezeCalls lens (keccakSqueeze st n).2

theorem squeezeCalls_eq (lens : List Nat) (st : KeccakState r) :
    squeezeCalls lens st = ((keccak r).squeeze lens.sum st.pair).1 := by
  induction lens generalizing st with
  | nil => rfl
  | cons n lens ih =>
    rw [squeezeCalls, ih, (keccakSqueeze_eq st n).1, (keccakSqueeze_eq st n).2, List.sum_cons, squeeze_add]

/-- Absorbing in pieces, finishing and squeezing in pieces gives the output for the whole input. -/
theorem squeezeCalls_foldl (h8 : r % 8 = 0) (p : UInt8) (chunks : List Bytes) (lens : List Nat) :
    squeezeCalls lens (⟨keccakFinalize (chunks.foldl keccakAbsorb (keccakInit : KeccakState r)).s
      (chunks.foldl keccakAbsorb (keccakInit : KeccakState r)).pos r p, r, le_refl r⟩ : KeccakState r) =
      (List.range lens.sum).map ((keccak r).hashByte zeroState p chunks.flatten) := by
  have hpair : (chunks.foldl keccakAbsorb (keccakInit : KeccakState r)).pair =
      (keccak r).absorb (zeroState, 0) chunks.flatten := pair_foldl_keccakAbsorb chunks (rate_pos (r := r))
  rw [squeezeCalls_eq, squeeze_eq rate_pos _ (le_refl r)]
  refine List.map_congr_left fun n _ => ?_
  rw [hashByte_eq lawful_keccak rate_pos, keccakFinalize_eq h8]
  show (keccak r).outputByte ((keccak r).finish (chunks.foldl keccakAbsorb keccakInit).pair p, r) n = _
  rw [hpair]
  rfl

end Calls

/-- However a caller cuts its input and its output, the extendable-output functions give the bytes of one call. -/
theorem shake_calls (chunks : List Bytes) (lens : List Nat) :
    squeezeCalls lens (shake128Finalize (chunks.foldl shake128Absorb shake128Init)) =
      shake128 lens.sum chunks.flatten ∧
    squeezeCalls lens (shake256Finalize (chunks.foldl shake256Absorb shake256Init)) =
      shake256 lens.sum chunks.flatten := by
  rcases hashes_eq chunks.flatten with ⟨h128, h256, -⟩
  rw [h128, h256]
  exact ⟨squeezeCalls_foldl rfl 0x1F chunks lens, squeezeCalls_foldl rfl 0x1F chunks lens⟩

/-! ## The streams of the matrix -/

theorem fips202_xofSqueezeblocks (n : Nat) (st : KeccakState shake128Rate) :
    (fips202.xofSqueezeblocks n st).1 = (keccakSqueezeblocks shake128Rate st.s n).1 := by
  induction n generalizing st with
  | zero => rfl
  | succ n ih =>
    have hlen : (keccakSqueezeblocks shake128Rate st.s 1).1.length = 168 := by
      have h := congrArg (fun out => out.1.length) (keccakSqueezeblocks_eq (r := 168) rfl st.s 1)
      simp only [squeeze_length] at h
      exact h.symm
    have hblock : (fips202.xofSqueezeblock st).1.toList = (keccakSqueezeblocks shake128Rate st.s 1).1 :=
      ByteArr.toList_ofBytes hlen
    have hsplit : (keccakSqueezeblocks shake128Rate st.s (n + 1)).1 = (keccakSqueezeblocks shake128Rate st.s 1).1 ++
        (keccakSqueezeblocks shake128Rate (keccakSqueezeblocks shake128Rate st.s 1).2 n).1 := by
      simp only [keccakSqueezeblocks, List.append_nil]
    rw [hsplit]
    exact congrArg₂ (· ++ ·) hblock (ih _)

/-- The stream of an entry is the output of SHAKE128 for the seed and the two indices. -/
theorem entryStream_fips202 (seed : Bytes) (n : Nat) (x y : UInt8) :
    entryStream fips202 seed n x y = shake128 (168 * n) (seed ++ [x, y]) := by
  have hbytes := congrArg Prod.fst (keccakSqueezeblocks_eq (r := 168) rfl (keccakAbsorbOnce 168 (seed ++ [x, y]) 0x1F) n)
  rw [(hashes_eq (seed ++ [x, y])).1, entryStream]
  show (fips202.xofSqueezeblocks n (shake128AbsorbOnce (seed ++ [x, y]))).1 = _
  rw [fips202_xofSqueezeblocks]
  show (keccakSqueezeblocks 168 (keccakAbsorbOnce 168 (seed ++ [x, y]) 0x1F) n).1 = _
  rw [← hbytes, squeeze_eq (rate_pos (r := 168)) _ (le_refl 168), keccakAbsorbOnce_eq rfl]
  exact List.map_congr_left fun k _ => (hashByte_eq lawful_keccak (rate_pos (r := 168)) _ _ _ k).symm

/-- The matrix of a seed: entry by entry, the first 256 acceptable values in the output of SHAKE128. -/
theorem genMatrix_fips202 (fuel : Nat) (seed : Bytes) (transposed : Bool) (a : Polymat) :
    genMatrix fips202 (fuel + 1) seed transposed = some a ↔ ∀ i j : Fin 3,
      let x := if transposed then i else j
      let y := if transposed then j else i
      let values := accepted (shake128 (168 * (3 + fuel)) (seed ++ [x.val.toUInt8, y.val.toUInt8]))
      256 ≤ values.length ∧ ∀ k < 256, (a.entry i j).coeff k = values.getD k 0 := by
  rw [genMatrix_eq_some]
  refine forall_congr' fun i => forall_congr' fun j => ?_
  have hentry : ∀ x y : UInt8, ∀ p : Poly, genEntry fips202 (fuel + 1) seed x y = some p ↔
      256 ≤ (accepted (shake128 (168 * (3 + fuel)) (seed ++ [x, y]))).length ∧
        ∀ k < 256, p.coeff k = (accepted (shake128 (168 * (3 + fuel)) (seed ++ [x, y]))).getD k 0 := by
    intro x y p
    rw [genEntry_eq, entryStream_fips202]
    split_ifs with hlen
    · rw [Option.some.injEq]
      refine ⟨fun h => ⟨hlen, fun k hk => by rw [← h, Poly.coeff_ofFn _ hk]⟩, fun h => Poly.ext_coeff fun k hk => ?_⟩
      rw [Poly.coeff_ofFn _ hk, h.2 k hk]
    · exact ⟨nofun, fun h => absurd h.1 hlen⟩
  cases transposed
  · exact hentry _ _ _
  · exact hentry _ _ _

end HybridPqc.Mlkem
