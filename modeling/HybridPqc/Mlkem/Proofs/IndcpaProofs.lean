import HybridPqc.Mlkem.Transcript
import HybridPqc.Mlkem.Proofs.PolyProofs

/-!
# Decryption

A decrypted message is the encrypted one up to the noise. The values of key generation, encryption and decryption
are followed through the transforms as elements of the ring; only the errors of the compression stay.
-/

namespace HybridPqc.Mlkem

open SplitTransform

/-! ## The format of a ciphertext -/

theorem polyvecCompress_length (b : Polyvec) : (polyvecCompress b).length = 960 := by
  rw [polyvecCompress, flatMap_finRange]
  simp only [List.length_append, compressRow_length]

theorem packCiphertext_length (b : Polyvec) (v : Poly) : (packCiphertext b v).length = 1088 := by
  rw [packCiphertext, List.length_append, polyvecCompress_length, polyCompress_length]

theorem byteAt_packCiphertext (b : Polyvec) (v : Poly) (i : Fin 3) {x : Nat} (hx : x < 320) :
    byteAt (packCiphertext b v) (320 * i + x) = byteAt (compressRow (b.vec i)) x := by
  have hlen := fun j => compressRow_length (b.vec j)
  rw [packCiphertext, polyvecCompress, flatMap_finRange]
  match i with
  | 0 =>
    rw [show 320 * (0 : Fin 3).val + x = x by simp, List.append_assoc,
      byteAt_append_left _ (by rw [hlen]; exact hx)]
  | 1 =>
    rw [show 320 * (1 : Fin 3).val + x = 320 + x by simp, List.append_assoc, byteAt_append_right _ (hlen 0),
      List.append_assoc, byteAt_append_left _ (by rw [hlen]; exact hx)]
  | 2 =>
    rw [show 320 * (2 : Fin 3).val + x = 320 + (320 + x) by simp; omega, List.append_assoc,
      byteAt_append_right _ (hlen 0), List.append_assoc, byteAt_append_right _ (hlen 1),
      byteAt_append_left _ (by rw [hlen]; exact hx)]

/-- What a packed vector is read back as. -/
theorem coeff_unpack_fst (b : Polyvec) (v : Poly) (i : Fin 3) {x : Nat} (hx : x < 256) :
    ((unpackCiphertext (packCiphertext b v)).1.vec i).coeff x =
      decompress10 (compress10 ((b.vec i).coeff x)) := by
  rw [unpackCiphertext, polyvecDecompress, Polyvec.vec_ofFn]
  exact decompressRow_compressRow (fun y hy => byteAt_packCiphertext b v i hy) hx

theorem coeff_unpack_snd (b : Polyvec) {v : Poly} (hv : Bounded 3328 v) {x : Nat} (hx : x < 256) :
    (unpackCiphertext (packCiphertext b v)).2.coeff x = decompress4 (compress4 (v.coeff x)) := by
  have hdrop : (packCiphertext b v).drop 960 = polyCompress v := by
    rw [packCiphertext, ← polyvecCompress_length b, List.drop_left]
  rw [unpackCiphertext, hdrop]
  exact polyDecompress_polyCompress hv hx

theorem canonical_unpack_fst (l : Bytes) (i : Fin 3) : Canonical ((unpackCiphertext l).1.vec i) :=
  canonical_of_lt fun x hx => by
    rw [unpackCiphertext, polyvecDecompress, Polyvec.vec_ofFn, coeff_decompressRow l _ hx]
    exact bounded_decompress10 _

theorem canonical_unpack_snd (l : Bytes) : Canonical (unpackCiphertext l).2 :=
  canonical_of_lt fun x hx => by
    rw [unpackCiphertext, polyDecompress, Poly.coeff_ofFn _ hx]
    split_ifs
    · exact bounded_decompress4 (by rw [toNat_lowNibble]; omega)
    · have hbyte : (byteAt (l.drop 960) (x / 2)).toNat < 256 := UInt8.toNat_lt _
      exact bounded_decompress4 (by rw [toNat_highNibble]; omega)

/-- Every string of 1088 bytes is the ciphertext of what is read from it. -/
theorem packCiphertext_unpackCiphertext (ct : ByteArr 1088) :
    packCiphertext (unpackCiphertext ct.toList).1 (unpackCiphertext ct.toList).2 = ct.toList := by
  have hl := ct.toList_length
  set l := ct.toList
  have hrow : ∀ i : Fin 3, compressRow ((unpackCiphertext l).1.vec i) = (l.drop (320 * i)).take 320 := by
    intro i
    rw [unpackCiphertext, polyvecDecompress, Polyvec.vec_ofFn, compressRow_decompressRow]
    omega
  have hlast : polyCompress (unpackCiphertext l).2 = l.drop 960 :=
    polyCompress_polyDecompress (by rw [List.length_drop, hl])
  rw [packCiphertext, hlast, polyvecCompress, flatMap_finRange, hrow, hrow, hrow]
  show (l.drop 0).take 320 ++ ((l.drop 320).take 320 ++ (l.drop 640).take 320) ++ l.drop 960 = l
  rw [List.drop_zero]
  conv_rhs => rw [← List.take_append_drop 960 l, show 960 = 320 + (320 + 320) from rfl, List.take_add,
    List.take_add, List.drop_drop]

/-! ## Keys that are read back -/

theorem nttElem_unpacked {a : Polyvec} (ha : VecBounded 3328 a) (l : Bytes) (i : Fin 3) :
    nttElem ((polyvecFrombytes (polyvecTobytes a ++ l)).vec i) = nttElem (a.vec i) ∧
      Bounded 3328 ((polyvecFrombytes (polyvecTobytes a ++ l)).vec i) := by
  rw [polyvecFrombytes_polyvecTobytes ha, Polyvec.vec_ofFn]
  constructor
  · refine nttElem_congr fun x hx => ?_
    rw [residues, Poly.coeff_ofFn _ hx, residue_positive, residues]
  · refine bounded_of_lt (by norm_num) fun x hx => ?_
    rw [Poly.coeff_ofFn _ hx]
    rcases positive_range (ha i x) with ⟨hlow, hhigh⟩
    exact abs_le.mpr ⟨by omega, hhigh⟩

/-! ## The values of a transcript as elements -/

namespace Transcript

/-- The noise polynomials are small and the matrix is reduced. -/
structure Small (t : Transcript) : Prop where
  a : ∀ i j, Canonical (t.a.entry i j)
  skpv : VecBounded 2 t.skpv
  e : VecBounded 2 t.e
  sp : VecBounded 2 t.sp
  ep : VecBounded 2 t.ep
  epp : Bounded 2 t.epp

variable {t : Transcript} (h : t.Small)

theorem bounded_pkpv (t : Transcript) : VecBounded 1664 t.pkpv := fun i => by
  rw [pkpv, polyvecReduce, Polyvec.vec_ofFn]
  exact bounded_polyReduce _

theorem bounded_b (t : Transcript) : VecBounded 1664 t.b := fun i => by
  rw [b, polyvecReduce, Polyvec.vec_ofFn]
  exact bounded_polyReduce _

theorem bounded_v (t : Transcript) : Bounded 1664 t.v := bounded_polyReduce _

/-- What a small multiple of the modulus hides. -/
theorem abs_valMinAbs_sub {c d : Int16} {e k n : Int} (h : d.toInt = c.toInt + e + 3329 * k) (he : |e| ≤ n)
    (hn : n ≤ 1664) : |ZMod.valMinAbs (residue d - residue c)| ≤ n := by
  have hq : (3329 : Zq) = 0 := by decide
  have hdiff : residue d - residue c = (e : Zq) := by
    rw [residue, h]
    push_cast
    rw [hq, residue]
    ring
  rcases abs_le.mp he with ⟨hlow, hhigh⟩
  have hval : ZMod.valMinAbs (e : Zq) = e :=
    (ZMod.valMinAbs_spec _ _).mpr ⟨rfl, by push_cast; omega, by push_cast; omega⟩
  rw [hdiff, hval]
  exact he

/-- The errors of the compression are at most 2 in the vector and at most 104 in the polynomial. -/
theorem abs_errors (t : Transcript) (x : Nat) :
    (∀ j, |ZMod.valMinAbs (t.bError j x)| ≤ 2) ∧ |ZMod.valMinAbs (t.vError x)| ≤ 104 := by
  by_cases hx : x < 256
  · constructor
    · intro j
      rcases decompress10_compress10 (((bounded_b t).mono (show (1664 : Int) ≤ 3328 by norm_num)) j x)
        with ⟨e, k, hek, he⟩
      rw [bError, residues, residues, ct, coeff_unpack_fst t.b t.v j hx]
      exact abs_valMinAbs_sub hek he (by norm_num)
    · have hv := (bounded_v t).mono (show (1664 : Int) ≤ 3328 by norm_num)
      rcases decompress4_compress4 (hv x) with ⟨e, k, hek, he⟩
      rw [vError, residues, residues, ct, coeff_unpack_snd t.b hv hx]
      exact abs_valMinAbs_sub hek he (by norm_num)
  · have hzero : ∀ r : Poly, residues r x = 0 := fun r => by
      rw [residues, Poly.coeff_eq_zero r (by omega)]
      decide
    simp [bError, vError, hzero]

include h

theorem nttElem_pkpv (i : Fin 3) : nttElem (t.pkpv.vec i) =
    ∑ j, nttElem (t.a.entry i j) * polyElem (t.skpv.vec j) + polyElem (t.e.vec i) := by
  have hrow : VecBounded 32767 (t.a.get i) := fun j => ((h.a i j).bounded).mono (by norm_num)
  have hs : VecBounded 9471 t.skpv := h.skpv.mono (by norm_num)
  have he : VecBounded 9471 t.e := h.e.mono (by norm_num)
  have hacc := bounded_basemulAcc (t.a.get i) (polyvecNtt t.skpv)
  have htomont := bounded_polyTomont (hacc.mono (show (1664 : Int) ≤ 32767 by norm_num))
  simp only [pkpv, polyvecReduce, polyvecAdd, Polyvec.vec_ofFn]
  rw [nttElem_polyReduce, nttElem_polyAdd htomont (bounded_polyvecNtt t.e i) (by norm_num),
    nttElem_polyTomont (hacc.mono (by norm_num)), nttElem_polyvecNtt he,
    nttElem_basemulAcc hrow ((bounded_polyvecNtt _).mono (by norm_num)), ← mul_assoc, ← scalar_mul,
    mont_mul_montInv, scalar_one, one_mul]
  simp only [nttElem_polyvecNtt hs, Polymat.entry]

theorem polyElem_b (i : Fin 3) : polyElem (t.b.vec i) =
    ∑ j, nttElem (t.a.entry j i) * polyElem (t.sp.vec j) + polyElem (t.ep.vec i) := by
  have hentry : ∀ j, ((transpose t.a).get i).vec j = t.a.entry j i := fun j => entry_transpose t.a i j
  have hrow : VecBounded 32767 ((transpose t.a).get i) := fun j => by
    rw [hentry]
    exact ((h.a j i).bounded).mono (by norm_num)
  rcases polyElem_invntt_basemulAcc hrow (h.sp.mono (show (2 : Int) ≤ 9471 by norm_num)) with ⟨hbound, helem⟩
  simp only [b, polyvecReduce, polyvecAdd, polyvecInvnttTomont, Polyvec.vec_ofFn]
  rw [polyElem_polyReduce, polyElem_polyAdd hbound (h.ep i) (by norm_num), helem]
  simp only [hentry]

theorem polyElem_v : polyElem t.v =
    ∑ i, nttElem (t.pkpv.vec i) * polyElem (t.sp.vec i) + polyElem t.epp + polyElem (polyFrommsg t.m) := by
  have hpk := fun i => nttElem_unpacked ((bounded_pkpv t).mono (show (1664 : Int) ≤ 3328 by norm_num)) [] i
  simp only [List.append_nil] at hpk
  have hread : VecBounded 32767 (polyvecFrombytes (polyvecTobytes t.pkpv)) := fun i =>
    (hpk i).2.mono (by norm_num)
  rcases polyElem_invntt_basemulAcc hread (h.sp.mono (show (2 : Int) ≤ 9471 by norm_num)) with ⟨hbound, helem⟩
  rw [v, polyElem_polyReduce, polyElem_polyAdd (bounded_polyAdd hbound h.epp (by norm_num))
    (bounded_polyFrommsg t.m) (by norm_num), polyElem_polyAdd hbound h.epp (by norm_num), helem]
  simp only [fun i => (hpk i).1]

omit h in
/-- The errors of the compression, as elements. -/
theorem ofCoeffs_errors (t : Transcript) :
    ofCoeffs 256 t.vError = polyElem (unpackCiphertext t.ct).2 - polyElem t.v ∧
      ∀ j, ofCoeffs 256 (t.bError j) = polyElem ((unpackCiphertext t.ct).1.vec j) - polyElem (t.b.vec j) :=
  ⟨ofCoeffs_sub _ _ _ fun _ _ => rfl, fun _ => ofCoeffs_sub _ _ _ fun _ _ => rfl⟩

omit h in
theorem ofCoeffs_noise (t : Transcript) : ofCoeffs 256 t.noise =
    polyElem t.epp + ofCoeffs 256 t.vError + ∑ j, polyElem (t.e.vec j) * polyElem (t.sp.vec j) -
      ∑ j, polyElem (t.skpv.vec j) * (polyElem (t.ep.vec j) + ofCoeffs 256 (t.bError j)) := by
  have hsum : ∀ j, ofCoeffs 256 (fun y => residues (t.ep.vec j) y + t.bError j y) =
      polyElem (t.ep.vec j) + ofCoeffs 256 (t.bError j) := fun j => ofCoeffs_add _ _ _ fun _ _ => rfl
  rw [ofCoeffs_sub _ _ t.noise fun _ _ => rfl, ofCoeffs_add _ _ _ fun _ _ => rfl,
    ofCoeffs_add _ _ _ fun _ _ => rfl, ofCoeffs_sum, ofCoeffs_sum]
  simp only [ofCoeffs_convolution, hsum]
  rfl

/-! ## What decryption computes -/

/-- The polynomial that `indcpa_dec` decodes, for a secret key that is followed by the bytes `l`. -/
def mp (t : Transcript) (l : Bytes) : Poly :=
  let skpv := unpackSk (packSk (polyvecNtt t.skpv) ++ l)
  let mp := polyvecBasemulAccMontgomery skpv (polyvecNtt (unpackCiphertext t.ct).1)
  polyReduce (polySub (unpackCiphertext t.ct).2 (polyInvnttTomont mp))

theorem polyElem_mp (l : Bytes) : polyElem (t.mp l) = polyElem (polyFrommsg t.m) + ofCoeffs 256 t.noise := by
  have hsk := nttElem_unpacked ((bounded_polyvecNtt t.skpv).mono (show (1664 : Int) ≤ 3328 by norm_num)) l
  have hread : VecBounded 32767 (unpackSk (packSk (polyvecNtt t.skpv) ++ l)) := fun i =>
    (hsk i).2.mono (by norm_num)
  have hct : VecBounded 9471 (unpackCiphertext t.ct).1 := fun i =>
    (canonical_unpack_fst t.ct i).bounded.mono (by norm_num)
  have hs : ∀ i, nttElem ((unpackSk (packSk (polyvecNtt t.skpv) ++ l)).vec i) = polyElem (t.skpv.vec i) :=
    fun i => by rw [unpackSk, packSk, (hsk i).1, nttElem_polyvecNtt (h.skpv.mono (by norm_num))]
  rcases polyElem_invntt_basemulAcc hread hct with ⟨hbound, helem⟩
  rcases ofCoeffs_errors t with ⟨hverr, hberr⟩
  rw [mp, polyElem_polyReduce, polyElem_polySub (canonical_unpack_snd t.ct).bounded hbound (by norm_num), helem,
    ofCoeffs_noise]
  simp only [hs, hverr, hberr, polyElem_v h, nttElem_pkpv h, polyElem_b h, Fin.sum_univ_three]
  ring

theorem residues_mp (l : Bytes) {x : Nat} (hx : x < 256) :
    residues (t.mp l) x = residues (polyFrommsg t.m) x + t.noise x := by
  have : Nontrivial Zq := ⟨0, 1, by decide⟩
  have hsum : ofCoeffs 256 (fun x => residues (polyFrommsg t.m) x + t.noise x) =
      polyElem (polyFrommsg t.m) + ofCoeffs 256 t.noise := ofCoeffs_add _ _ _ fun _ _ => rfl
  exact ofCoeffs_injective (by norm_num) ((polyElem_mp h l).trans hsum.symm) x hx

/-- Each decoded bit is the bit of the message as long as the noise there is small. -/
theorem bitAt_mp (l : Bytes) {x : Nat} (hx : x < 256) : bitAt (polyTomsg (t.mp l)) x = t.decodedBit x := by
  have hbound : |((t.mp l).coeff x).toInt| ≤ 1664 := bounded_polyReduce _ x
  have hres := residues_mp h l hx
  rw [residues, residues, residue, residue, toInt_polyFrommsg t.m hx, ← ZMod.coe_valMinAbs (t.noise x)] at hres
  rw [bitAt_polyTomsg _ hx, toNat_messageBit hbound, decodedBit]
  have hbit := bitAt_lt t.m x
  have hsmall := ZMod.valMinAbs_mem_Ioc (t.noise x)
  set n := ZMod.valMinAbs (t.noise x) with hn
  set c := ((t.mp l).coeff x).toInt with hc
  -- the coefficient and the sum differ by a multiple of `q`
  have hdvd : (3329 : Int) ∣ c - (1665 * bitAt t.m x + n) := by
    rw [← Nat.cast_ofNat, ← ZMod.intCast_zmod_eq_zero_iff_dvd, Int.cast_sub, hres]
    push_cast
    ring
  rcases hdvd with ⟨k, hk⟩
  rcases abs_le.mp hbound with ⟨hlow, hhigh⟩
  have hn1 : -3329 < n * 2 := hsmall.1
  have hn2 : n * 2 ≤ 3329 := hsmall.2
  rcases show bitAt t.m x = 0 ∨ bitAt t.m x = 1 by omega with hzero | hone
  · rw [hzero] at hk ⊢
    split_ifs <;> omega
  · rw [hone] at hk ⊢
    split_ifs <;> omega

end Transcript

/-! ## Key generation, encryption and decryption -/

section Bits

theorem ofBits_length (b : Nat → Nat) : (ofBits b).length = 32 := by
  rw [ofBits, List.length_map, List.length_range]

theorem bitAt_ofBits {b : Nat → Nat} (hb : ∀ i, b i < 2) {i : Nat} (hi : i < 256) : bitAt (ofBits b) i = b i := by
  have hlt : ofBitsLe (fun j => b (8 * (i / 8) + j)) 8 < 2 ^ 8 := ofBitsLe_lt (fun j => hb _) 8
  have hbyte : byteAt (ofBits b) (i / 8) = UInt8.ofNat (ofBitsLe (fun j => b (8 * (i / 8) + j)) 8) := by
    rw [byteAt, List.getD_eq_getElem _ _ (by rw [ofBits_length]; omega)]
    simp only [ofBits, List.getElem_map, List.getElem_range]
  rw [bitAt, hbyte, UInt8.toNat_ofNat', Nat.mod_eq_of_lt hlt,
    ofBitsLe_div_mod (fun j => hb _) (Nat.mod_lt i (by norm_num)), Nat.div_add_mod]

end Bits

theorem Transcript.decodedBit_lt (t : Transcript) (x : Nat) : t.decodedBit x < 2 := by
  have hbit := bitAt_lt t.m x
  rw [decodedBit]
  split_ifs <;> omega

theorem indcpaDec_ct {t : Transcript} (h : t.Small) (l : Bytes) :
    indcpaDec t.ct (packSk (polyvecNtt t.skpv) ++ l) = ofBits t.decodedBit := by
  refine eq_of_bitAt (n := 32) (polyTomsg_length _) (ofBits_length _) fun i hi => ?_
  rw [bitAt_ofBits t.decodedBit_lt (by omega)]
  exact t.bitAt_mp h l (by omega)

section Coins

variable (S : Symmetric)

theorem small_transcript {fuel : Nat} {seed : Bytes} {a : Polymat} (ha : genMatrix S fuel seed false = some a)
    (keyCoins m coins : Bytes) : (transcript S a keyCoins m coins).Small := by
  refine ⟨canonical_genMatrix ha, fun i => ?_, fun i => ?_, fun i => ?_, fun i => ?_, bounded_cbd2 _⟩
  all_goals
    simp only [transcript, Polyvec.vec_ofFn]
    exact bounded_cbd2 _

theorem publicSeed_length (coins : Bytes) : (publicSeed S coins).length = 32 := by
  rw [publicSeed, List.length_take, List.Vector.toList_length]
  rfl

theorem indcpaKeypairDerand_eq (fuel : Nat) (keyCoins m coins : Bytes) : indcpaKeypairDerand S fuel keyCoins =
    (genMatrix S fuel (publicSeed S keyCoins) false).map fun a =>
      (packPk (transcript S a keyCoins m coins).pkpv (publicSeed S keyCoins),
        packSk (polyvecNtt (transcript S a keyCoins m coins).skpv)) := by
  rw [indcpaKeypairDerand, publicSeed]
  cases genMatrix S fuel ((S.hashG (keyCoins.take 32 ++ [3])).toList.take 32) false <;> rfl

/-- Encryption under a packed key, with the matrix of its seed. -/
theorem indcpaEnc_packPk {fuel : Nat} {seed : Bytes} (hseed : seed.length = 32) {a : Polymat}
    (ha : genMatrix S fuel seed false = some a) (keyCoins m coins : Bytes) :
    indcpaEnc S fuel m (packPk (transcript S a keyCoins m coins).pkpv seed) coins =
      some (transcript S a keyCoins m coins).ct := by
  set t := transcript S a keyCoins m coins with ht
  have hvec : polyvecFrombytes (polyvecTobytes t.pkpv ++ seed) = polyvecFrombytes (polyvecTobytes t.pkpv) := by
    have hbound := (Transcript.bounded_pkpv t).mono (show (1664 : Int) ≤ 3328 by norm_num)
    rw [polyvecFrombytes_polyvecTobytes hbound, ← polyvecFrombytes_polyvecTobytes hbound [], List.append_nil]
  have hread : unpackPk (packPk t.pkpv seed) = (polyvecFrombytes (polyvecTobytes t.pkpv), seed) := by
    rw [unpackPk, packPk, hvec, ← polyvecTobytes_length t.pkpv, List.drop_left, ← hseed, List.take_length]
  rw [indcpaEnc, hread]
  dsimp only
  rw [genMatrix_true, ha]
  rfl

/-- Key generation, encryption and decryption, for every choice of coins: they return if the matrix is sampled, and
what comes back differs from the message in the bits where the noise is too large. -/
theorem indcpa_roundTrip (fuel : Nat) (keyCoins m coins : Bytes) :
    ((indcpaKeypairDerand S fuel keyCoins).bind fun key =>
      (indcpaEnc S fuel m key.1 coins).map fun ct => indcpaDec ct key.2) =
    (genMatrix S fuel (publicSeed S keyCoins) false).map fun a =>
      ofBits (transcript S a keyCoins m coins).decodedBit := by
  rw [indcpaKeypairDerand_eq S fuel keyCoins m coins]
  cases ha : genMatrix S fuel (publicSeed S keyCoins) false with
  | none => rfl
  | some a =>
    have hdec := indcpaDec_ct (small_transcript S ha keyCoins m coins) []
    rw [List.append_nil] at hdec
    have henc := indcpaEnc_packPk S (publicSeed_length S keyCoins) ha keyCoins m coins
    rw [Option.map_some, Option.bind_some, henc, Option.map_some, Option.map_some, hdec]

end Coins

end HybridPqc.Mlkem
