import HybridPqc.Lib.Keccak
import HybridPqc.Mlkem.Proofs.SpongeProofs

/-!
# The Keccak permutation

The unrolled half-round of `KeccakF1600_StatePermute` is a round of the permutation: its rotations are the ones of
the walk through the lanes, its table of constants is the output of the shift register.
-/

namespace HybridPqc.Mlkem

/-! ## Rotations and constants -/

/-- `ROL` is the rotation. -/
theorem rotl_eq_rol (a : UInt64) {n : Nat} (hpos : 0 < n) (hlt : n < 64) : Keccak.rotl a n = rol a n.toUInt64 := by
  have hn : (n.toUInt64).toNat = n := Nat.mod_eq_of_lt (by omega)
  have hsub : ((64 : UInt64) - n.toUInt64).toNat = 64 - n := by
    rw [UInt64.toNat_sub_of_le _ _ (UInt64.le_iff_toNat_le.mpr (by rw [hn]; exact hlt.le)), hn]
    rfl
  have ha : a.toNat < 2 ^ 64 := a.toNat_lt
  have hhigh : a.toNat / 2 ^ (64 - n) < 2 ^ n := by
    rw [Nat.div_lt_iff_lt_mul (by positivity), ← pow_add]
    rwa [show n + (64 - n) = 64 by omega]
  have hlow : a.toNat * 2 ^ n % 2 ^ 64 = (a.toNat % 2 ^ (64 - n)) <<< n := by
    rw [Nat.shiftLeft_eq, ← Nat.mul_mod_mul_right, ← pow_add, show 64 - n + n = 64 by omega]
  have hrotl : (Keccak.rotl a n).toNat = a.toNat <<< (n % 64) % 2 ^ 64 ||| a.toNat >>> (64 - n % 64) :=
    BitVec.toNat_rotateLeft ..
  rw [← UInt64.toNat_inj, hrotl, rol, UInt64.toNat_xor, UInt64.toNat_shiftLeft, UInt64.toNat_shiftRight, hn, hsub,
    Nat.mod_eq_of_lt hlt, Nat.mod_eq_of_lt (show 64 - n < 64 by omega), Nat.shiftRight_eq_div_pow,
    Nat.shiftLeft_eq, hlow, Nat.or_comm, or_eq_xor _ hhigh, Nat.xor_comm]

theorem rotl_zero (a : UInt64) : Keccak.rotl a 0 = a := by
  have hrotl : (Keccak.rotl a 0).toNat = a.toNat <<< (0 % 64) % 2 ^ 64 ||| a.toNat >>> (64 - 0 % 64) :=
    BitVec.toNat_rotateLeft ..
  rw [← UInt64.toNat_inj, hrotl, Nat.zero_mod, Nat.shiftLeft_zero, Nat.mod_eq_of_lt a.toNat_lt,
    Nat.shiftRight_eq_div_pow, Nat.div_eq_of_lt a.toNat_lt, Nat.or_zero]

theorem keccakRoundConstants_eq : ∀ i < 24, keccakRoundConstants.getD i 0 = Keccak.roundConstant i := by
  decide +kernel

/-- The rotations that the code spells out. -/
def rotations : Vector (Vector Nat 5) 5 :=
  #v[#v[0, 36, 3, 41, 18], #v[1, 44, 10, 45, 2], #v[62, 6, 43, 15, 61], #v[28, 55, 25, 21, 56],
    #v[27, 20, 39, 8, 14]]

theorem offset_eq : ∀ x y, Keccak.offset x y = rotations[x][y] := by decide +kernel

theorem rho_eq (A : Keccak.State) : Keccak.rho A = fun x y =>
    if x = 0 ∧ y = 0 then A x y else rol (A x y) (rotations[x][y]).toUInt64 := by
  have hrange : ∀ x y : Fin 5, ¬ (x = 0 ∧ y = 0) → 0 < rotations[x][y] ∧ rotations[x][y] < 64 := by decide +kernel
  funext x y
  rw [Keccak.rho, offset_eq]
  split_ifs with h
  · rw [h.1, h.2]
    exact rotl_zero _
  · exact rotl_eq_rol _ (hrange x y h).1 (hrange x y h).2

/-! ## Rounds -/

/-- The state as five by five lanes. -/
def lanes (s : Vector UInt64 25) : Keccak.State := fun x y => s.getD (x + 5 * y) 0

/-- One half of the loop's body. -/
theorem lanes_thetaRhoPiChiIota (a : Lanes) {i : Nat} (hi : i < 24) :
    lanes (thetaRhoPiChiIota (keccakRoundConstants.getD i 0) a).toState = Keccak.round i (lanes a.toState) := by
  have hone : ∀ v, Keccak.rotl v 1 = rol v 1 := fun v => rotl_eq_rol v (by norm_num) (by norm_num)
  rw [Keccak.round, rho_eq, keccakRoundConstants_eq i hi]
  funext x y
  simp only [Keccak.iota, Keccak.chi, Keccak.pi, Keccak.theta, hone]
  fin_cases x <;> fin_cases y <;> rfl

theorem toState_ofState (s : Vector UInt64 25) : (Lanes.ofState s).toState = s := by
  refine ext_lanes fun j hj => ?_
  have h : ∀ j : Fin 25, (Lanes.ofState s).toState.getD j 0 = s.getD j 0 := by
    intro j
    fin_cases j <;> rfl
  exact h ⟨j, hj⟩

/-- `KeccakF1600_StatePermute` is the permutation with 24 rounds. -/
theorem lanes_keccakF1600StatePermute (s : Vector UInt64 25) :
    lanes (keccakF1600StatePermute s) = Keccak.permute 24 (lanes s) := by
  have hrounds : ∀ n ≤ 12, lanes ((List.range n).foldl (fun a i =>
      thetaRhoPiChiIota (keccakRoundConstants.getD (2 * i + 1) 0)
        (thetaRhoPiChiIota (keccakRoundConstants.getD (2 * i) 0) a)) (Lanes.ofState s)).toState =
      Keccak.permute (2 * n) (lanes s) := by
    intro n
    induction n with
    | zero => exact fun _ => congrArg lanes (toState_ofState s)
    | succ n ih =>
      intro hn
      rw [List.range_succ, List.foldl_append, List.foldl_cons, List.foldl_nil, lanes_thetaRhoPiChiIota _ (by omega),
        lanes_thetaRhoPiChiIota _ (by omega), ih (by omega), show 2 * (n + 1) = 2 * n + 1 + 1 by ring,
        Keccak.permute_succ, Keccak.permute_succ]
  exact hrounds 12 (le_refl 12)

/-! ## Hash functions -/

theorem lane_index {i : Nat} (hi : i < 200) : ((Keccak.lane i).1.val + 5 * (Keccak.lane i).2.val) = i / 8 := by
  show i / 8 % 5 + 5 * (i / 8 / 5 % 5) = i / 8
  omega

theorem eq_lane_iff {i : Nat} (hi : i < 200) (x y : Fin 5) : (x, y) = Keccak.lane i ↔ x.val + 5 * y.val = i / 8 := by
  have hindex := lane_index hi
  constructor
  · intro h
    rw [← hindex, ← h]
  · intro h
    have hx := x.isLt
    have hy := y.isLt
    have hx' := (Keccak.lane i).1.isLt
    have hy' := (Keccak.lane i).2.isLt
    exact Prod.ext (Fin.ext (by show x.val = _; omega)) (Fin.ext (by show y.val = _; omega))

theorem hom_lanes {r : Nat} (hr : r ≤ 200) : Sponge.Hom (keccak r) (Keccak.sponge r) lanes where
  rate := rfl
  permute := lanes_keccakF1600StatePermute
  absorbAt s i b hi := by
    have hlt : i < 200 := lt_of_lt_of_le hi hr
    funext x y
    show (xorLane s (i / 8) _).getD (x + 5 * y) 0 = if (x, y) = Keccak.lane i then _ else _
    rw [getD_xorLane s _ (show i / 8 < 25 by omega)]
    simp only [eq_lane_iff hlt]
    rfl
  readAt s i hi := by
    show laneByte s i = (s.getD (_ + 5 * _) 0 >>> _).toUInt8
    rw [lane_index (lt_of_lt_of_le hi hr), laneByte]

theorem lanes_zeroState : lanes zeroState = fun _ _ => 0 := by
  funext x y
  fin_cases x <;> fin_cases y <;> rfl

/-- SHAKE128, SHAKE256, SHA3-256 and SHA3-512: every output byte is the byte of the sponge of the padded input, with
the permutation of the step mappings. -/
theorem hashes_fips202 (inp : Bytes) :
    (∀ outlen, shake128 outlen inp =
      (List.range outlen).map ((Keccak.sponge 168).hashByte (fun _ _ => 0) 0x1F inp)) ∧
    (∀ outlen, shake256 outlen inp =
      (List.range outlen).map ((Keccak.sponge 136).hashByte (fun _ _ => 0) 0x1F inp)) ∧
    sha3256 inp = (List.range 32).map ((Keccak.sponge 136).hashByte (fun _ _ => 0) 0x06 inp) ∧
    sha3512 inp = (List.range 64).map ((Keccak.sponge 72).hashByte (fun _ _ => 0) 0x06 inp) := by
  rw [← lanes_zeroState]
  rcases hashes_eq inp with ⟨h128, h256, hsha256, hsha512⟩
  have hbyte : ∀ {r : Nat}, 0 < r → r ≤ 200 → ∀ (p : UInt8),
      (keccak r).hashByte zeroState p inp = (Keccak.sponge r).hashByte (lanes zeroState) p inp :=
    fun hpos hle p => funext fun n => (hom_lanes hle).hashByte hpos zeroState p inp n
  refine ⟨fun outlen => ?_, fun outlen => ?_, ?_, ?_⟩
  · rw [h128, hbyte (by norm_num) (by norm_num)]
  · rw [h256, hbyte (by norm_num) (by norm_num)]
  · rw [hsha256, hbyte (by norm_num) (by norm_num)]
  · rw [hsha512, hbyte (by norm_num) (by norm_num)]

end HybridPqc.Mlkem
