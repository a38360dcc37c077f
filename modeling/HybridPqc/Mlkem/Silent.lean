import HybridPqc.Mlkem.Proofs.IndcpaProofs

/-!
# A silent symmetric layer

Streams that give zeros only. The noise polynomials of an exchange vanish with them, so that what holds for small
noise can be applied to concrete coins. The key of a message is the message itself, and that of a rejected ciphertext
has all bits set.
-/

namespace HybridPqc.Mlkem

open SplitTransform

/-- The hash function `G` gives the first 32 bytes and zeros, `J` gives ones, all others give zeros. -/
def silent : Symmetric where
  XofState := Unit
  hashH _ := ByteArr.zero 32
  hashG m := ByteArr.ofBytes 64 (m.takeD 32 0 ++ List.replicate 32 0)
  xofAbsorb _ _ _ := ()
  xofSqueezeblock st := (ByteArr.zero xofBlockbytes, st)
  prf _ _ := ByteArr.zero 128
  rkprf _ _ := ByteArr.ofBytes 32 (List.replicate 32 255)

/-- The matrix of zeros. -/
def zeroMatrix : Polymat := Vector.ofFn fun _ => Polyvec.ofFn fun _ => Poly.ofFn fun _ => 0

theorem entry_zeroMatrix (i j : Fin 3) : zeroMatrix.entry i j = Poly.ofFn fun _ => 0 := by
  have h : zeroMatrix.get i = Polyvec.ofFn fun _ => Poly.ofFn fun _ => 0 := Vector.getElem_ofFn i.isLt
  rw [Polymat.entry, h, Polyvec.vec_ofFn]

/-- All candidates of a silent stream are accepted. -/
theorem accepted_zeros (n : Nat) : accepted (List.replicate (3 * n) 0) = List.replicate (2 * n) 0 := by
  induction n with
  | zero => rfl
  | succ n ih =>
    have hbytes : List.replicate (3 * (n + 1)) (0 : UInt8) = 0 :: 0 :: 0 :: List.replicate (3 * n) 0 := rfl
    have hvalues : List.replicate (2 * (n + 1)) (0 : Int16) = 0 :: 0 :: List.replicate (2 * n) 0 := rfl
    rw [hbytes, hvalues, accepted_cons, ih]
    rfl

/-- One block of a stream. -/
def zeroBlock : Bytes := (ByteArr.zero xofBlockbytes).toList

theorem genEntry_silent (seed : Bytes) (x y : UInt8) :
    genEntry silent 1 seed x y = some (Poly.ofFn fun _ => 0) := by
  have hblock : zeroBlock = List.replicate 168 0 := rfl
  have hstream : entryStream silent seed (genMatrixNblocks + 0) x y = List.replicate (3 * 168) 0 := by
    show zeroBlock ++ (zeroBlock ++ (zeroBlock ++ [])) = _
    rw [hblock, List.append_nil, List.replicate_append_replicate, List.replicate_append_replicate]
  have hvalues := accepted_zeros 168
  have hlen : 256 ≤ (accepted (List.replicate (3 * 168) 0)).length := by
    rw [hvalues, List.length_replicate]
    decide
  have hzero : ∀ c ∈ accepted (List.replicate (3 * 168) 0), c = 0 := fun c hc => by
    rw [hvalues] at hc
    exact List.eq_of_mem_replicate hc
  rw [genEntry_eq, hstream, if_pos hlen]
  refine congrArg some (Poly.ext_coeff fun i hi => ?_)
  rw [Poly.coeff_ofFn _ hi, Poly.coeff_ofFn _ hi, List.getD_eq_getElem _ _ (by omega)]
  exact hzero _ (List.getElem_mem _)

theorem genMatrix_silent (seed : Bytes) (transposed : Bool) :
    genMatrix silent 1 seed transposed = some zeroMatrix := by
  rw [genMatrix_eq_some]
  intro i j
  rw [entry_zeroMatrix, genPoly]
  split_ifs
  · exact genEntry_silent seed _ _
  · exact genEntry_silent seed _ _

theorem bitAt_zeros (n i : Nat) : bitAt (List.replicate n 0) i = 0 := by
  have hbyte : byteAt (List.replicate n 0) (i / 8) = 0 := by
    rw [byteAt, List.getD_eq_getElem?_getD, List.getElem?_replicate]
    split_ifs <;> rfl
  rw [bitAt, hbyte]
  simp

theorem polyElem_eq_zero {r : Poly} (h : ∀ x < 256, residues r x = 0) : polyElem r = 0 := by
  rw [polyElem, ofCoeffs_eq_sum]
  refine Finset.sum_eq_zero fun i hi => ?_
  rw [h i (Finset.mem_range.mp hi), map_zero, zero_mul]

theorem residues_cbd2_zeros (x : Nat) : residues (cbd2 (List.replicate 128 0)) x = 0 := by
  by_cases hx : x < 256
  · rw [residues, residue, toInt_cbd2 _ hx]
    simp only [bitAt_zeros]
    rfl
  · rw [residues, Poly.coeff_eq_zero _ (by omega)]
    decide

theorem coeff_eq_of_polyElem {r : Poly} {f : Nat → Zq} (hr : Bounded 1664 r) (h : polyElem r = ofCoeffs 256 f) {x : Nat}
    (hx : x < 256) {c : Int} (hc : f x = c) : ∃ k : Int, (r.coeff x).toInt = c + 3329 * k ∧ |c + 3329 * k| ≤ 1664 := by
  have hres : ((r.coeff x).toInt : Zq) = (c : Zq) := (ofCoeffs_residues h hx).trans hc
  have hdiff : (((r.coeff x).toInt - c : Int) : Zq) = 0 := by
    rw [Int.cast_sub, hres, sub_self]
  rcases (ZMod.intCast_zmod_eq_zero_iff_dvd _ 3329).mp hdiff with ⟨k, hk⟩
  have heq : (r.coeff x).toInt = c + 3329 * k := by
    push_cast at hk
    omega
  exact ⟨k, heq, heq ▸ hr x⟩

section Transcript

variable (a : Polymat) (ha : ∀ i j, Canonical (a.entry i j)) (keyCoins m coins : Bytes)

/-- All noise polynomials of a transcript are zero. -/
theorem residues_silent (i : Fin 3) (y : Nat) :
    residues ((transcript silent a keyCoins m coins).skpv.vec i) y = 0 ∧
    residues ((transcript silent a keyCoins m coins).e.vec i) y = 0 ∧
    residues ((transcript silent a keyCoins m coins).sp.vec i) y = 0 ∧
    residues ((transcript silent a keyCoins m coins).ep.vec i) y = 0 ∧
    residues (transcript silent a keyCoins m coins).epp y = 0 := by
  simp only [transcript, Polyvec.vec_ofFn]
  exact ⟨residues_cbd2_zeros y, residues_cbd2_zeros y, residues_cbd2_zeros y, residues_cbd2_zeros y,
    residues_cbd2_zeros y⟩

include ha

theorem small_silent : (transcript silent a keyCoins m coins).Small := by
  refine ⟨ha, fun i => ?_, fun i => ?_, fun i => ?_, fun i => ?_, bounded_cbd2 _⟩
  all_goals
    simp only [transcript, Polyvec.vec_ofFn]
    exact bounded_cbd2 _

/-- The ciphertext holds the message alone. -/
theorem polyElem_b_silent (i : Fin 3) : polyElem ((transcript silent a keyCoins m coins).b.vec i) = 0 := by
  have hzero := residues_silent a keyCoins m coins
  rw [Transcript.polyElem_b (small_silent a ha keyCoins m coins), polyElem_eq_zero fun y _ => (hzero i y).2.2.2.1, add_zero]
  exact Finset.sum_eq_zero fun j _ => by rw [polyElem_eq_zero fun y _ => (hzero j y).2.2.1, mul_zero]

theorem polyElem_v_silent :
    polyElem (transcript silent a keyCoins m coins).v = ofCoeffs 256 fun y => ((1665 * bitAt m y : Int) : Zq) := by
  have hzero := residues_silent a keyCoins m coins
  have hmsg : polyElem (polyFrommsg m) = ofCoeffs 256 fun y => ((1665 * bitAt m y : Int) : Zq) := by
    rw [polyElem, ofCoeffs_eq_sum, ofCoeffs_eq_sum]
    refine Finset.sum_congr rfl fun y hy => ?_
    rw [residues, residue, toInt_polyFrommsg m (Finset.mem_range.mp hy)]
  rw [Transcript.polyElem_v (small_silent a ha keyCoins m coins), polyElem_eq_zero fun y _ => (hzero 0 y).2.2.2.2, add_zero,
    Finset.sum_eq_zero fun i _ => by rw [polyElem_eq_zero fun y _ => (hzero i y).2.2.1, mul_zero], zero_add]
  exact hmsg

/-- Compression loses nothing of the coefficients of a message. -/
theorem vError_silent {x : Nat} (hx : x < 256) : (transcript silent a keyCoins m coins).vError x = 0 := by
  set t := transcript silent a keyCoins m coins with ht
  have hv : t.v.coeff x = 0 ∨ t.v.coeff x = -1664 := by
    rcases coeff_eq_of_polyElem (Transcript.bounded_v t) (polyElem_v_silent a ha keyCoins m coins) hx rfl with
      ⟨k, hk, hle⟩
    rcases abs_le.mp hle with ⟨hlow, hhigh⟩
    rw [← Int16.toInt_inj, ← Int16.toInt_inj, hk]
    rcases Nat.lt_succ_iff_lt_or_eq.mp (bitAt_lt m x) with hbit | hbit
    · rw [Nat.lt_one_iff.mp hbit] at hlow hhigh ⊢
      exact .inl (by rw [Int16.toInt_zero]; omega)
    · rw [hbit] at hlow hhigh ⊢
      exact .inr (by rw [show (-1664 : Int16).toInt = -1664 from rfl]; omega)
  rw [Transcript.vError, residues, residues, Transcript.ct,
    coeff_unpack_snd t.b ((Transcript.bounded_v t).mono (by norm_num)) hx]
  rcases hv with hv | hv <;> rw [hv] <;> decide

theorem noise_silent {x : Nat} (hx : x < 256) : (transcript silent a keyCoins m coins).noise x = 0 := by
  have hzero := residues_silent a keyCoins m coins
  rw [Transcript.noise, (hzero 0 x).2.2.2.2, vError_silent a ha keyCoins m coins hx]
  simp only [convolution, (hzero _ _).1, (hzero _ _).2.1, zero_mul, Finset.sum_const_zero, add_zero, sub_zero]

theorem smallNoise_silent : (transcript silent a keyCoins m coins).SmallNoise := by
  intro x hx
  have hbit := bitAt_lt (transcript silent a keyCoins m coins).m x
  rw [noise_silent a ha keyCoins m coins hx, ZMod.valMinAbs_zero]
  omega

/-- The vector in the ciphertext is zero. -/
theorem coeff_unpack_silent : ((unpackCiphertext (transcript silent a keyCoins m coins).ct).1.vec 0).coeff 0 = 0 := by
  set t := transcript silent a keyCoins m coins with ht
  have hzero : polyElem (t.b.vec 0) = ofCoeffs 256 fun _ => 0 := by
    rw [polyElem_b_silent a ha keyCoins m coins, ofCoeffs_eq_sum]
    simp only [map_zero, zero_mul, Finset.sum_const_zero]
  have hcoeff : (t.b.vec 0).coeff 0 = 0 := by
    rcases coeff_eq_of_polyElem (x := 0) (Transcript.bounded_b t 0) hzero (by norm_num) Int.cast_zero.symm with
      ⟨k, hk, hle⟩
    rcases abs_le.mp hle with ⟨hlow, hhigh⟩
    rw [← Int16.toInt_inj, Int16.toInt_zero, hk]
    omega
  rw [Transcript.ct, coeff_unpack_fst t.b t.v 0 (by norm_num), hcoeff]
  decide

end Transcript

end HybridPqc.Mlkem
