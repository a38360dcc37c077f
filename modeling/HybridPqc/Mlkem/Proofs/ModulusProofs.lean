import HybridPqc.Mlkem.Proofs.IndcpaProofs

/-!
# Public keys that are not reduced

Encryption reads twelve bits for each coefficient of a public key and does not compare them with `q`. Only the
residues reach the ciphertext.
-/

namespace HybridPqc.Mlkem

/-! ## Reduced polynomials -/

/-- A coefficient between `-q/2` and `q/2` is determined by its residue. -/
theorem eq_of_residue {a b : Int16} (ha : |a.toInt| ≤ 1664) (hb : |b.toInt| ≤ 1664) (h : residue a = residue b) :
    a = b := by
  rcases abs_le.mp ha with ⟨ha1, ha2⟩
  rcases abs_le.mp hb with ⟨hb1, hb2⟩
  rcases (ZMod.intCast_eq_intCast_iff_dvd_sub _ _ 3329).mp h with ⟨k, hk⟩
  rw [← Int16.toInt_inj]
  push_cast at hk
  omega

theorem Poly.eq_of_residues {r s : Poly} (hr : Bounded 1664 r) (hs : Bounded 1664 s)
    (h : ∀ x < 256, residues r x = residues s x) : r = s :=
  Poly.ext_coeff fun x hx => eq_of_residue (hr x) (hs x) (h x hx)

/-- The inner product depends on the residues only. -/
theorem polyvecBasemulAcc_congr {a a' b : Polyvec} (ha : VecBounded 32767 a) (ha' : VecBounded 32767 a')
    (hb : VecBounded 3329 b) (h : ∀ i, ∀ x < 256, residues (a.vec i) x = residues (a'.vec i) x) :
    polyvecBasemulAccMontgomery a b = polyvecBasemulAccMontgomery a' b := by
  refine Poly.eq_of_residues (bounded_basemulAcc a b) (bounded_basemulAcc a' b) (nttElem_injective ?_)
  rw [nttElem_basemulAcc ha hb, nttElem_basemulAcc ha' hb]
  simp only [fun i => nttElem_congr (h i)]

/-! ## Keys -/

theorem bounded_polyvecFrombytes (l : Bytes) : VecBounded 4095 (polyvecFrombytes l) := fun i =>
  bounded_of_lt (by norm_num) fun x hx => by
    rw [polyvecFrombytes, Polyvec.vec_ofFn]
    rcases coeff_polyFrombytes (l.drop (384 * i)) hx with ⟨hlow, hhigh⟩
    exact abs_le.mpr ⟨by omega, by omega⟩

section Encryption

variable (S : Symmetric) (fuel : Nat)

/-- Two public keys with the same seed and the same residues encrypt alike. -/
theorem indcpaEnc_congr {pk pk' : Bytes} (hseed : (unpackPk pk).2 = (unpackPk pk').2)
    (h : ∀ i, ∀ x < 256, residues ((unpackPk pk).1.vec i) x = residues ((unpackPk pk').1.vec i) x)
    (m coins : Bytes) : indcpaEnc S fuel m pk coins = indcpaEnc S fuel m pk' coins := by
  have hacc := fun sp => polyvecBasemulAcc_congr (b := polyvecNtt sp)
    ((bounded_polyvecFrombytes pk).mono (by norm_num)) ((bounded_polyvecFrombytes pk').mono (by norm_num))
    ((bounded_polyvecNtt sp).mono (by norm_num)) h
  simp only [indcpaEnc, unpackPk] at hseed ⊢
  rw [hseed]
  simp only [hacc]

/-- The key with the standard representatives of the coefficients. -/
def canonicalPk (pk : Bytes) : Bytes := packPk (polyvecReduce (unpackPk pk).1) (unpackPk pk).2

theorem unpackPk_packPk (v : Polyvec) {seed : Bytes} (h : seed.length ≤ 32) :
    unpackPk (packPk v seed) = (polyvecFrombytes (polyvecTobytes v ++ seed), seed) := by
  rw [unpackPk, packPk, ← polyvecTobytes_length v, List.drop_left, List.take_of_length_le h]

theorem unpackPk_canonicalPk (pk : Bytes) : unpackPk (canonicalPk pk) =
    (polyvecFrombytes (polyvecTobytes (polyvecReduce (unpackPk pk).1) ++ (unpackPk pk).2), (unpackPk pk).2) :=
  unpackPk_packPk _ (List.length_take_le _ _)

theorem residues_canonicalPk (pk : Bytes) (i : Fin 3) {x : Nat} (hx : x < 256) :
    residues ((unpackPk (canonicalPk pk)).1.vec i) x = residues ((unpackPk pk).1.vec i) x := by
  have hred : VecBounded 1664 (polyvecReduce (unpackPk pk).1) := fun i => by
    rw [polyvecReduce, Polyvec.vec_ofFn]
    exact bounded_polyReduce _
  have hread := (nttElem_unpacked (hred.mono (show (1664 : Int) ≤ 3328 by norm_num)) (unpackPk pk).2 i).1
  rw [unpackPk_canonicalPk, nttElem_injective hread x hx, polyvecReduce, Polyvec.vec_ofFn,
    residues_polyReduce _ x hx]

/-- There is no modulus check: every string of bytes is a public key, and it encrypts like the key whose coefficients
are reduced. -/
theorem indcpaEnc_canonicalPk (m pk coins : Bytes) :
    indcpaEnc S fuel m (canonicalPk pk) coins = indcpaEnc S fuel m pk coins := by
  have hseed : (unpackPk (canonicalPk pk)).2 = (unpackPk pk).2 := by rw [unpackPk_canonicalPk]
  exact indcpaEnc_congr S fuel hseed (fun i _ hx => residues_canonicalPk pk i hx) m coins

end Encryption

end HybridPqc.Mlkem
