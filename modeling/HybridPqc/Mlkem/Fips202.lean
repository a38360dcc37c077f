import HybridPqc.Mlkem.Poly

/-!
# Keccak

`fips202_ref.c`. Beside the 25 lanes, the `keccak_state` of an extendable-output function has the number of
bytes of the current block that are absorbed or squeezed; it never passes the rate.
-/

namespace HybridPqc.Mlkem

/-! ## The permutation -/

/-- `ROL(a, offset)`. -/
def rol (a : UInt64) (offset : UInt64) : UInt64 := (a <<< offset) ^^^ (a >>> (64 - offset))

/-- `KeccakF_RoundConstants`. -/
def keccakRoundConstants : Vector UInt64 24 :=
  #v[0x0000000000000001, 0x0000000000008082, 0x800000000000808a, 0x8000000080008000,
    0x000000000000808b, 0x0000000080000001, 0x8000000080008081, 0x8000000000008009,
    0x000000000000008a, 0x0000000000000088, 0x0000000080008009, 0x000000008000000a,
    0x000000008000808b, 0x800000000000008b, 0x8000000000008089, 0x8000000000008003,
    0x8000000000008002, 0x8000000000000080, 0x000000000000800a, 0x800000008000000a,
    0x8000000080008081, 0x8000000000008080, 0x0000000080000001, 0x8000000080008008]

/-- The local copies of the lanes. -/
structure Lanes where
  (aba abe abi abo abu : UInt64)
  (aga age agi ago agu : UInt64)
  (aka ake aki ako aku : UInt64)
  (ama ame ami amo amu : UInt64)
  (asa ase asi aso asu : UInt64)

/-- `copyFromState`. -/
def Lanes.ofState (state : Vector UInt64 25) : Lanes :=
  let s := fun i => state.getD i 0
  {
    aba := s 0, abe := s 1, abi := s 2, abo := s 3, abu := s 4,
    aga := s 5, age := s 6, agi := s 7, ago := s 8, agu := s 9,
    aka := s 10, ake := s 11, aki := s 12, ako := s 13, aku := s 14,
    ama := s 15, ame := s 16, ami := s 17, amo := s 18, amu := s 19,
    asa := s 20, ase := s 21, asi := s 22, aso := s 23, asu := s 24 }

/-- `copyToState`. -/
def Lanes.toState (a : Lanes) : Vector UInt64 25 :=
  #v[a.aba, a.abe, a.abi, a.abo, a.abu,
      a.aga, a.age, a.agi, a.ago, a.agu,
      a.aka, a.ake, a.aki, a.ako, a.aku,
      a.ama, a.ame, a.ami, a.amo, a.amu,
      a.asa, a.ase, a.asi, a.aso, a.asu]

/-- `prepareTheta` and `thetaRhoPiChiIotaPrepareTheta(round, A, E)`; the second half of the loop's body is
the same with the names exchanged. -/
def thetaRhoPiChiIota (rc : UInt64) (a : Lanes) : Lanes :=
  let ⟨aba, abe, abi, abo, abu, aga, age, agi, ago, agu, aka, ake, aki, ako, aku, ama, ame, ami, amo, amu,
    asa, ase, asi, aso, asu⟩ := a
  let bca := aba ^^^ aga ^^^ aka ^^^ ama ^^^ asa
  let bce := abe ^^^ age ^^^ ake ^^^ ame ^^^ ase
  let bci := abi ^^^ agi ^^^ aki ^^^ ami ^^^ asi
  let bco := abo ^^^ ago ^^^ ako ^^^ amo ^^^ aso
  let bcu := abu ^^^ agu ^^^ aku ^^^ amu ^^^ asu
  let da := bcu ^^^ rol bce 1
  let de := bca ^^^ rol bci 1
  let di := bce ^^^ rol bco 1
  let dO := bci ^^^ rol bcu 1
  let du := bco ^^^ rol bca 1
  let aba := aba ^^^ da
  let bca := aba
  let age := age ^^^ de
  let bce := rol age 44
  let aki := aki ^^^ di
  let bci := rol aki 43
  let amo := amo ^^^ dO
  let bco := rol amo 21
  let asu := asu ^^^ du
  let bcu := rol asu 14
  let eba := bca ^^^ (~~~bce &&& bci)
  let eba := eba ^^^ rc
  let ebe := bce ^^^ (~~~bci &&& bco)
  let ebi := bci ^^^ (~~~bco &&& bcu)
  let ebo := bco ^^^ (~~~bcu &&& bca)
  let ebu := bcu ^^^ (~~~bca &&& bce)
  let abo := abo ^^^ dO
  let bca := rol abo 28
  let agu := agu ^^^ du
  let bce := rol agu 20
  let aka := aka ^^^ da
  let bci := rol aka 3
  let ame := ame ^^^ de
  let bco := rol ame 45
  let asi := asi ^^^ di
  let bcu := rol asi 61
  let ega := bca ^^^ (~~~bce &&& bci)
  let ege := bce ^^^ (~~~bci &&& bco)
  let egi := bci ^^^ (~~~bco &&& bcu)
  let ego := bco ^^^ (~~~bcu &&& bca)
  let egu := bcu ^^^ (~~~bca &&& bce)
  let abe := abe ^^^ de
  let bca := rol abe 1
  let agi := agi ^^^ di
  let bce := rol agi 6
  let ako := ako ^^^ dO
  let bci := rol ako 25
  let amu := amu ^^^ du
  let bco := rol amu 8
  let asa := asa ^^^ da
  let bcu := rol asa 18
  let eka := bca ^^^ (~~~bce &&& bci)
  let eke := bce ^^^ (~~~bci &&& bco)
  let eki := bci ^^^ (~~~bco &&& bcu)
  let eko := bco ^^^ (~~~bcu &&& bca)
  let eku := bcu ^^^ (~~~bca &&& bce)
  let abu := abu ^^^ du
  let bca := rol abu 27
  let aga := aga ^^^ da
  let bce := rol aga 36
  let ake := ake ^^^ de
  let bci := rol ake 10
  let ami := ami ^^^ di
  let bco := rol ami 15
  let aso := aso ^^^ dO
  let bcu := rol aso 56
  let ema := bca ^^^ (~~~bce &&& bci)
  let eme := bce ^^^ (~~~bci &&& bco)
  let emi := bci ^^^ (~~~bco &&& bcu)
  let emo := bco ^^^ (~~~bcu &&& bca)
  let emu := bcu ^^^ (~~~bca &&& bce)
  let abi := abi ^^^ di
  let bca := rol abi 62
  let ago := ago ^^^ dO
  let bce := rol ago 55
  let aku := aku ^^^ du
  let bci := rol aku 39
  let ama := ama ^^^ da
  let bco := rol ama 41
  let ase := ase ^^^ de
  let bcu := rol ase 2
  let esa := bca ^^^ (~~~bce &&& bci)
  let ese := bce ^^^ (~~~bci &&& bco)
  let esi := bci ^^^ (~~~bco &&& bcu)
  let eso := bco ^^^ (~~~bcu &&& bca)
  let esu := bcu ^^^ (~~~bca &&& bce)
  ⟨eba, ebe, ebi, ebo, ebu,
    ega, ege, egi, ego, egu,
    eka, eke, eki, eko, eku,
    ema, eme, emi, emo, emu,
    esa, ese, esi, eso, esu⟩

/-- `KeccakF1600_StatePermute`: two rounds an iteration, from the `A` lanes to the `E` lanes and back. -/
def keccakF1600StatePermute (state : Vector UInt64 25) : Vector UInt64 25 :=
  ((List.range 12).foldl
    (fun a i => thetaRhoPiChiIota (keccakRoundConstants.getD (2 * i + 1) 0)
      (thetaRhoPiChiIota (keccakRoundConstants.getD (2 * i) 0) a))
    (Lanes.ofState state)).toState

/-! ## Bytes of the state -/

/-- `s[k] ^= v`. -/
def xorLane (s : Vector UInt64 25) (k : Nat) (v : UInt64) : Vector UInt64 25 :=
  s.setIfInBounds k (s.getD k 0 ^^^ v)

/-- `s[i/8] ^= (uint64_t)b << 8*(i%8)`. -/
def xorByte (s : Vector UInt64 25) (i : Nat) (b : UInt8) : Vector UInt64 25 :=
  xorLane s (i / 8) (b.toUInt64 <<< (8 * (i % 8)).toUInt64)

/-- The loop that absorbs the bytes of `inp` at the positions from `i` on. -/
def xorBytes (s : Vector UInt64 25) (i : Nat) : Bytes → Vector UInt64 25
  | [] => s
  | b :: inp => xorBytes (xorByte s i b) (i + 1) inp

/-- `s[i/8] >> 8*(i%8)`, stored to a byte. -/
def laneByte (s : Vector UInt64 25) (i : Nat) : UInt8 :=
  (s.getD (i / 8) 0 >>> (8 * (i % 8)).toUInt64).toUInt8

def load64 (x : Bytes) (off : Nat) : UInt64 :=
  (List.range 8).foldl (fun r i => r ||| (byteAt x (off + i)).toUInt64 <<< (8 * i).toUInt64) 0

def store64 (u : UInt64) : Bytes := (List.range 8).map fun i => (u >>> (8 * i).toUInt64).toUInt8

/-! ## The sponge -/

/-- `keccak_state` at the rate `r`. -/
structure KeccakState (r : Nat) where
  s : Vector UInt64 25
  pos : Nat
  pos_le : pos ≤ r

variable {r : Nat}

/-- `keccak_init`, with the position that the callers set. -/
def keccakInit : KeccakState r := ⟨Vector.replicate 25 0, 0, Nat.zero_le r⟩

/-- Incremental absorption. -/
def keccakAbsorb [NeZero r] (st : KeccakState r) (inp : Bytes) : KeccakState r :=
  if _h : r ≤ st.pos + inp.length then
    let s := xorBytes st.s st.pos (inp.take (r - st.pos))
    keccakAbsorb ⟨keccakF1600StatePermute s, 0, Nat.zero_le r⟩ (inp.drop (r - st.pos))
  else ⟨xorBytes st.s st.pos inp, st.pos + inp.length, by omega⟩
termination_by (inp.length, st.pos)
decreasing_by
  have hr : r ≠ 0 := NeZero.ne r
  have hpos := st.pos_le
  rw [List.length_drop, Prod.lex_def]
  by_cases hlt : st.pos < r
  · exact Or.inl (by simp only; omega)
  · exact Or.inr ⟨by simp only; omega, by simp only; omega⟩

/-- `keccak_finalize`: domain separation and the last bit of the padding. -/
def keccakFinalize (s : Vector UInt64 25) (pos r : Nat) (p : UInt8) : Vector UInt64 25 :=
  xorLane (xorByte s pos p) (r / 8 - 1) ((1 : UInt64) <<< 63)

/-- The permutation before a squeezed-out block is left. -/
def refill (st : KeccakState r) : KeccakState r :=
  if st.pos = r then ⟨keccakF1600StatePermute st.s, 0, Nat.zero_le r⟩ else st

theorem refill_pos_lt [NeZero r] (st : KeccakState r) : (refill st).pos < r := by
  have hr : r ≠ 0 := NeZero.ne r
  have hpos := st.pos_le
  rw [refill]
  split_ifs with h
  · exact Nat.pos_of_ne_zero hr
  · omega

/-- Incremental squeezing. -/
def keccakSqueeze [NeZero r] (st : KeccakState r) (outlen : Nat) : Bytes × KeccakState r :=
  if h : outlen = 0 then ([], st)
  else
    let n := min (r - (refill st).pos) outlen
    let rest := keccakSqueeze ⟨(refill st).s, (refill st).pos + n, by have := refill_pos_lt st; omega⟩
      (outlen - n)
    (((List.range n).map fun k => laneByte (refill st).s ((refill st).pos + k)) ++ rest.1, rest.2)
termination_by outlen
decreasing_by
  have := refill_pos_lt st
  omega

/-- The loop over the full blocks of `keccak_absorb_once`: the state and the bytes that are left. -/
def absorbFullBlocks (r : Nat) [NeZero r] (s : Vector UInt64 25) (inp : Bytes) :
    Vector UInt64 25 × Bytes :=
  if _h : r ≤ inp.length then
    absorbFullBlocks r (keccakF1600StatePermute
      ((List.range (r / 8)).foldl (fun s i => xorLane s i (load64 inp (8 * i))) s)) (inp.drop r)
  else (s, inp)
termination_by inp.length
decreasing_by
  have hr : r ≠ 0 := NeZero.ne r
  rw [List.length_drop]
  omega

/-- Absorption in one call, from the zero state, with the padding. -/
def keccakAbsorbOnce (r : Nat) [NeZero r] (inp : Bytes) (p : UInt8) : Vector UInt64 25 :=
  let blocks := absorbFullBlocks r (Vector.replicate 25 0) inp
  let s := xorBytes blocks.1 0 blocks.2
  let s := xorByte s blocks.2.length p
  xorLane s ((r - 1) / 8) ((1 : UInt64) <<< 63)

/-- Squeezing of `nblocks` full blocks. -/
def keccakSqueezeblocks (r : Nat) (s : Vector UInt64 25) : Nat → Bytes × Vector UInt64 25
  | 0 => ([], s)
  | nblocks + 1 =>
    let s := keccakF1600StatePermute s
    let rest := keccakSqueezeblocks r s nblocks
    ((List.range (r / 8)).flatMap (fun i => store64 (s.getD i 0)) ++ rest.1, rest.2)

/-! ## SHAKE128, SHAKE256, SHA3-256 and SHA3-512 -/

abbrev shake128Rate : Nat := 168

abbrev shake256Rate : Nat := 136

abbrev sha3256Rate : Nat := 136

abbrev sha3512Rate : Nat := 72

def shake128Init : KeccakState shake128Rate := keccakInit

def shake128Absorb (st : KeccakState shake128Rate) (inp : Bytes) : KeccakState shake128Rate :=
  keccakAbsorb st inp

def shake128Finalize (st : KeccakState shake128Rate) : KeccakState shake128Rate :=
  ⟨keccakFinalize st.s st.pos shake128Rate 0x1F, shake128Rate, le_refl _⟩

def shake128Squeeze (outlen : Nat) (st : KeccakState shake128Rate) : Bytes × KeccakState shake128Rate :=
  keccakSqueeze st outlen

def shake128AbsorbOnce (inp : Bytes) : KeccakState shake128Rate :=
  ⟨keccakAbsorbOnce shake128Rate inp 0x1F, shake128Rate, le_refl _⟩

def shake128Squeezeblocks (nblocks : Nat) (st : KeccakState shake128Rate) :
    Bytes × KeccakState shake128Rate :=
  let out := keccakSqueezeblocks shake128Rate st.s nblocks
  (out.1, ⟨out.2, st.pos, st.pos_le⟩)

def shake128 (outlen : Nat) (inp : Bytes) : Bytes :=
  let state := shake128AbsorbOnce inp
  let nblocks := outlen / shake128Rate
  let blocks := shake128Squeezeblocks nblocks state
  let rest := shake128Squeeze (outlen - nblocks * shake128Rate) blocks.2
  blocks.1 ++ rest.1

def shake256Init : KeccakState shake256Rate := keccakInit

def shake256Absorb (st : KeccakState shake256Rate) (inp : Bytes) : KeccakState shake256Rate :=
  keccakAbsorb st inp

def shake256Finalize (st : KeccakState shake256Rate) : KeccakState shake256Rate :=
  ⟨keccakFinalize st.s st.pos shake256Rate 0x1F, shake256Rate, le_refl _⟩

def shake256Squeeze (outlen : Nat) (st : KeccakState shake256Rate) : Bytes × KeccakState shake256Rate :=
  keccakSqueeze st outlen

def shake256AbsorbOnce (inp : Bytes) : KeccakState shake256Rate :=
  ⟨keccakAbsorbOnce shake256Rate inp 0x1F, shake256Rate, le_refl _⟩

def shake256Squeezeblocks (nblocks : Nat) (st : KeccakState shake256Rate) :
    Bytes × KeccakState shake256Rate :=
  let out := keccakSqueezeblocks shake256Rate st.s nblocks
  (out.1, ⟨out.2, st.pos, st.pos_le⟩)

def shake256 (outlen : Nat) (inp : Bytes) : Bytes :=
  let state := shake256AbsorbOnce inp
  let nblocks := outlen / shake256Rate
  let blocks := shake256Squeezeblocks nblocks state
  let rest := shake256Squeeze (outlen - nblocks * shake256Rate) blocks.2
  blocks.1 ++ rest.1

def sha3256 (inp : Bytes) : Bytes :=
  let s := keccakF1600StatePermute (keccakAbsorbOnce sha3256Rate inp 0x06)
  (List.range 4).flatMap fun i => store64 (s.getD i 0)

def sha3512 (inp : Bytes) : Bytes :=
  let s := keccakF1600StatePermute (keccakAbsorbOnce sha3512Rate inp 0x06)
  (List.range 8).flatMap fun i => store64 (s.getD i 0)

end HybridPqc.Mlkem
