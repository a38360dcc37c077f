import HybridPqc.Lib.Negacyclic
import HybridPqc.Mlkem.Polyvec
import HybridPqc.Mlkem.Proofs.NttProofs

/-!
# The arithmetic of polynomials

Every operation of `poly_ref.c` and `polyvec_ref.c` on coefficients, as an operation of the ring, with the bounds
that keep its `int16_t` sums exact.
-/

namespace HybridPqc.Mlkem

open SplitTransform

/-! ## Elements of a coefficientwise result -/

theorem polyElem_linear {r a b : Poly} (c d : Zq)
    (h : ∀ i < 256, residues r i = c * residues a i + d * residues b i) :
    polyElem r = scalar c * polyElem a + scalar d * polyElem b := by
  rw [polyElem, ofCoeffs_linear c d h]
  rfl

theorem nttElem_congr {r s : Poly} (h : ∀ i < 256, residues r i = residues s i) : nttElem r = nttElem s :=
  element_congr isTree_zetaRes inv128_mul blockLen_rq (by norm_num) h

theorem nttElem_add {r a b : Poly} (h : ∀ i < 256, residues r i = residues a i + residues b i) :
    nttElem r = nttElem a + nttElem b := by
  rw [nttElem, element_congr isTree_zetaRes inv128_mul blockLen_rq (by norm_num) h,
    element_add isTree_zetaRes inv128_mul blockLen_rq (by norm_num)]
  rfl

theorem nttElem_smul {r a : Poly} (c : Zq) (h : ∀ i < 256, residues r i = c * residues a i) :
    nttElem r = scalar c * nttElem a := by
  rw [nttElem, element_congr isTree_zetaRes inv128_mul blockLen_rq (by norm_num) h,
    element_smul isTree_zetaRes inv128_mul blockLen_rq (by norm_num)]
  rfl

/-! ## Reduction, sums and differences -/

theorem coeff_polyReduce (r : Poly) {i : Nat} (hi : i < 256) :
    (polyReduce r).coeff i = barrettReduce (r.coeff i) := Poly.coeff_ofFn _ hi

theorem bounded_polyReduce (r : Poly) : Bounded 1664 (polyReduce r) :=
  bounded_of_lt (by norm_num) fun i hi => by
    rw [coeff_polyReduce r hi]
    exact abs_barrettReduce_le _

theorem residues_polyReduce (r : Poly) : ∀ i < 256, residues (polyReduce r) i = residues r i := by
  intro i hi
  rw [residues, coeff_polyReduce r hi, residue_barrettReduce, residues]

theorem polyElem_polyReduce (r : Poly) : polyElem (polyReduce r) = polyElem r :=
  ofCoeffs_congr (residues_polyReduce r)

theorem nttElem_polyReduce (r : Poly) : nttElem (polyReduce r) = nttElem r :=
  nttElem_congr (residues_polyReduce r)

section Sums

variable {a b : Poly} {m n : Int}

theorem residues_polyAdd (ha : Bounded m a) (hb : Bounded n b) (h : m + n ≤ 32767) :
    ∀ i < 256, residues (polyAdd a b) i = residues a i + residues b i := by
  intro i hi
  rw [residues, polyAdd, Poly.coeff_ofFn _ hi, residue_add_of_abs_le (ha i) (hb i) h, residues, residues]

theorem bounded_polyAdd (ha : Bounded m a) (hb : Bounded n b) (h : m + n ≤ 32767) :
    Bounded (m + n) (polyAdd a b) := by
  have hm : 0 ≤ m := le_trans (abs_nonneg _) (ha 0)
  have hn : 0 ≤ n := le_trans (abs_nonneg _) (hb 0)
  refine bounded_of_lt (by omega) fun i hi => ?_
  rw [polyAdd, Poly.coeff_ofFn _ hi, toInt_add_of_abs_le (ha i) (hb i) h]
  exact le_trans (abs_add_le _ _) (add_le_add (ha i) (hb i))

theorem polyElem_polyAdd (ha : Bounded m a) (hb : Bounded n b) (h : m + n ≤ 32767) :
    polyElem (polyAdd a b) = polyElem a + polyElem b := by
  have hsum := polyElem_linear (r := polyAdd a b) (a := a) (b := b) 1 1 fun i hi => by
    rw [residues_polyAdd ha hb h i hi, one_mul, one_mul]
  rw [hsum, scalar_one, one_mul, one_mul]

theorem nttElem_polyAdd (ha : Bounded m a) (hb : Bounded n b) (h : m + n ≤ 32767) :
    nttElem (polyAdd a b) = nttElem a + nttElem b := nttElem_add (residues_polyAdd ha hb h)

theorem bounded_polySub (ha : Bounded m a) (hb : Bounded n b) (h : m + n ≤ 32767) :
    Bounded (m + n) (polySub a b) := by
  have hm : 0 ≤ m := le_trans (abs_nonneg _) (ha 0)
  have hn : 0 ≤ n := le_trans (abs_nonneg _) (hb 0)
  refine bounded_of_lt (by omega) fun i hi => ?_
  rw [polySub, Poly.coeff_ofFn _ hi, toInt_sub_of_abs_le (ha i) (hb i) h]
  exact le_trans (abs_sub _ _) (add_le_add (ha i) (hb i))

theorem polyElem_polySub (ha : Bounded m a) (hb : Bounded n b) (h : m + n ≤ 32767) :
    polyElem (polySub a b) = polyElem a - polyElem b := by
  have hdiff := polyElem_linear (r := polySub a b) (a := a) (b := b) 1 (-1) fun i hi => by
    rw [residues, polySub, Poly.coeff_ofFn _ hi, residue_sub_of_abs_le (ha i) (hb i) h, residues, residues]
    ring
  rw [hdiff, scalar_one, show scalar (-1) = -1 by rw [scalar, map_neg, map_one]]
  ring

end Sums

/-! ## Transforms -/

/-- `poly_ntt` gives a reduced vector that stands for the polynomial. -/
theorem nttElem_polyNtt {r : Poly} (hr : Bounded 9471 r) :
    nttElem (polyNtt r) = polyElem r := by
  rw [polyNtt, nttElem_polyReduce, nttElem_ntt hr (by norm_num)]

theorem bounded_polyNtt (r : Poly) : Bounded 1664 (polyNtt r) := bounded_polyReduce _

theorem residues_polyTomont {r : Poly} (hr : Bounded 32767 r) :
    ∀ i < 256, residues (polyTomont r) i = mont * residues r i := by
  intro i hi
  have hf : |(1353 : Int16).toInt| ≤ 3329 := by decide
  have hcoeff : (polyTomont r).coeff i = fqmul 1353 (r.coeff i) := by
    rw [polyTomont, Poly.coeff_ofFn _ hi, fqmul, Int32.mul_comm]
  rw [residues, hcoeff, residue_fqmul hf (hr i), mul_right_comm,
    show residue 1353 * montInv = mont from by decide, residues]

theorem nttElem_polyTomont {r : Poly} (hr : Bounded 32767 r) :
    nttElem (polyTomont r) = scalar mont * nttElem r := nttElem_smul mont (residues_polyTomont hr)

theorem bounded_polyTomont {r : Poly} (hr : Bounded 32767 r) : Bounded 3328 (polyTomont r) := by
  refine bounded_of_lt (by norm_num) fun i hi => ?_
  have hf : |(1353 : Int16).toInt| ≤ 3329 := by decide
  rw [polyTomont, Poly.coeff_ofFn _ hi, Int32.mul_comm]
  exact abs_fqmul_le hf (hr i)

/-! ## Products -/

theorem residue_neg_zetaAt (k : Nat) : residue (-zetaAt k) = -residue (zetaAt k) := by
  rcases abs_le.mp (abs_zetaAt_le k) with ⟨hlow, hhigh⟩
  rw [residue, Int16.toInt_neg, Int.bmod_eq_of_le (by omega) (by omega), Int.cast_neg, residue]

theorem abs_neg_zetaAt_le (k : Nat) : |(-zetaAt k).toInt| ≤ 3329 := by
  have h := abs_zetaAt_le k
  rcases abs_le.mp h with ⟨hlow, hhigh⟩
  rw [Int16.toInt_neg, Int.bmod_eq_of_le (by omega) (by omega), abs_neg]
  exact h

section Basemul

variable {a0 a1 b0 b1 zeta : Int16}

theorem basemul_fst (ha0 : |a0.toInt| ≤ 32767) (ha1 : |a1.toInt| ≤ 32767) (hb0 : |b0.toInt| ≤ 3329)
    (hb1 : |b1.toInt| ≤ 3329) (hz : |zeta.toInt| ≤ 3329) :
    |(basemul a0 a1 b0 b1 zeta).1.toInt| ≤ 6656 ∧ residue (basemul a0 a1 b0 b1 zeta).1 =
      montInv * (residue a0 * residue b0 + residue zeta * montInv * (residue a1 * residue b1)) := by
  have h11 := abs_fqmul_le hb1 ha1
  have h00 := abs_fqmul_le hb0 ha0
  have hmul := abs_fqmul_le hz (le_trans h11 (by norm_num))
  have hdef : (basemul a0 a1 b0 b1 zeta).1 = fqmul zeta (fqmul b1 a1) + fqmul b0 a0 := by
    rw [basemul, fqmul_comm a1, fqmul_comm a0, fqmul_comm _ zeta]
  rw [hdef]
  constructor
  · rw [toInt_add_of_abs_le hmul h00 (by norm_num)]
    exact le_trans (abs_add_le _ _) (by omega)
  · rw [residue_add_of_abs_le hmul h00 (by norm_num), residue_fqmul hz (le_trans h11 (by norm_num)),
      residue_fqmul hb1 ha1, residue_fqmul hb0 ha0]
    ring

theorem basemul_snd (ha0 : |a0.toInt| ≤ 32767) (ha1 : |a1.toInt| ≤ 32767) (hb0 : |b0.toInt| ≤ 3329)
    (hb1 : |b1.toInt| ≤ 3329) :
    |(basemul a0 a1 b0 b1 zeta).2.toInt| ≤ 6656 ∧ residue (basemul a0 a1 b0 b1 zeta).2 =
      montInv * (residue a0 * residue b1 + residue a1 * residue b0) := by
  have h01 := abs_fqmul_le hb1 ha0
  have h10 := abs_fqmul_le hb0 ha1
  have hdef : (basemul a0 a1 b0 b1 zeta).2 = fqmul b1 a0 + fqmul b0 a1 := by
    rw [basemul, fqmul_comm a0 b1, fqmul_comm a1 b0]
  rw [hdef]
  constructor
  · rw [toInt_add_of_abs_le h01 h10 (by norm_num)]
    exact le_trans (abs_add_le _ _) (by omega)
  · rw [residue_add_of_abs_le h01 h10 (by norm_num), residue_fqmul hb1 ha0, residue_fqmul hb0 ha1]
    ring

end Basemul

section PolyBasemul

variable {a b : Poly}

/-- The pair of coefficients with the index `p` is a product modulo `X^2 - root (128 + p)`. -/
theorem coeff_polyBasemul (ha : Bounded 32767 a) (hb : Bounded 3329 b) {x : Nat} (hx : x < 256) :
    |((polyBasemulMontgomery a b).coeff x).toInt| ≤ 6656 ∧ residues (polyBasemulMontgomery a b) x =
      montInv * pairMul zetaRes (2 ^ 7) (residues a) (residues b) x := by
  rw [residues, polyBasemulMontgomery, Poly.coeff_ofFn _ hx, pairMul]
  have hi : x = 4 * (x / 4) + x % 4 := by omega
  have hmod : x % 4 < 4 := Nat.mod_lt _ (by norm_num)
  set i := x / 4 with hidef
  have hroot0 : root zetaRes (2 ^ 7 + 2 * i) = zetaRes (64 + i) := by
    rw [show 2 ^ 7 + 2 * i = 2 * (64 + i) by ring, root_double zetaRes (by omega)]
  have hroot1 : root zetaRes (2 ^ 7 + (2 * i + 1)) = -zetaRes (64 + i) := by
    rw [show 2 ^ 7 + (2 * i + 1) = 2 * (64 + i) + 1 by ring, root_double_add_one zetaRes (by omega)]
  rcases show x % 4 = 0 ∨ x % 4 = 1 ∨ x % 4 = 2 ∨ x % 4 = 3 by omega with h | h | h | h
  · have hhalf : x / 2 = 2 * i := by omega
    rw [if_pos h, if_pos (show x % 2 = 0 by omega), hhalf, hroot0, show 2 * (2 * i) = 4 * i by ring]
    exact basemul_fst (ha _) (ha _) (hb _) (hb _) (abs_zetaAt_le _)
  · have hhalf : x / 2 = 2 * i := by omega
    rw [if_neg (by omega), if_pos h, if_neg (show ¬ x % 2 = 0 by omega), hhalf,
      show 2 * (2 * i) = 4 * i by ring]
    exact basemul_snd (ha _) (ha _) (hb _) (hb _)
  · have hhalf : x / 2 = 2 * i + 1 := by omega
    rw [if_neg (by omega), if_neg (by omega), if_pos h, if_pos (show x % 2 = 0 by omega), hhalf, hroot1,
      show 2 * (2 * i + 1) = 4 * i + 2 by ring, zetaRes, ← neg_mul, ← residue_neg_zetaAt]
    exact basemul_fst (ha _) (ha _) (hb _) (hb _) (abs_neg_zetaAt_le _)
  · have hhalf : x / 2 = 2 * i + 1 := by omega
    rw [if_neg (by omega), if_neg (by omega), if_neg (by omega), if_neg (show ¬ x % 2 = 0 by omega), hhalf,
      show 2 * (2 * i + 1) = 4 * i + 2 by ring]
    exact basemul_snd (ha _) (ha _) (hb _) (hb _)

theorem bounded_polyBasemul (ha : Bounded 32767 a) (hb : Bounded 3329 b) :
    Bounded 6656 (polyBasemulMontgomery a b) :=
  bounded_of_lt (by norm_num) fun _ hx => (coeff_polyBasemul ha hb hx).1

/-- Multiplication in the transformed domain, with the factor that Montgomery reduction leaves. -/
theorem nttElem_polyBasemul (ha : Bounded 32767 a) (hb : Bounded 3329 b) :
    nttElem (polyBasemulMontgomery a b) = scalar montInv * (nttElem a * nttElem b) := by
  have hres := fun x hx => (coeff_polyBasemul (x := x) ha hb hx).2
  rw [nttElem, element_congr isTree_zetaRes inv128_mul blockLen_rq (by norm_num) hres,
    element_smul isTree_zetaRes inv128_mul blockLen_rq (by norm_num),
    element_pairMul isTree_zetaRes inv128_mul blockLen_rq]
  rfl

end PolyBasemul

/-! ## Vectors -/

/-- All coefficients of all polynomials are at most `B` in absolute value. -/
def VecBounded (B : Int) (a : Polyvec) : Prop := ∀ i, Bounded B (a.vec i)

/-- The inner product of two transformed vectors. -/
theorem nttElem_basemulAcc {a b : Polyvec} (ha : VecBounded 32767 a) (hb : VecBounded 3329 b) :
    nttElem (polyvecBasemulAccMontgomery a b) =
      scalar montInv * ∑ i, nttElem (a.vec i) * nttElem (b.vec i) := by
  have hprod := fun i => bounded_polyBasemul (ha i) (hb i)
  have hsum := bounded_polyAdd (hprod 0) (hprod 1) (by norm_num)
  rw [polyvecBasemulAccMontgomery, nttElem_polyReduce, nttElem_polyAdd hsum (hprod 2) (by norm_num),
    nttElem_polyAdd (hprod 0) (hprod 1) (by norm_num), nttElem_polyBasemul (ha 0) (hb 0),
    nttElem_polyBasemul (ha 1) (hb 1), nttElem_polyBasemul (ha 2) (hb 2), Fin.sum_univ_three]
  ring

theorem bounded_basemulAcc (a b : Polyvec) : Bounded 1664 (polyvecBasemulAccMontgomery a b) :=
  bounded_polyReduce _

theorem VecBounded.mono {B B' : Int} {a : Polyvec} (h : VecBounded B a) (hle : B ≤ B') : VecBounded B' a :=
  fun i => (h i).mono hle

theorem nttElem_polyvecNtt {a : Polyvec} (ha : VecBounded 9471 a) (i : Fin 3) :
    nttElem ((polyvecNtt a).vec i) = polyElem (a.vec i) := by
  rw [polyvecNtt, Polyvec.vec_ofFn, nttElem_polyNtt (ha i)]

theorem bounded_polyvecNtt (a : Polyvec) : VecBounded 1664 (polyvecNtt a) := fun i => by
  rw [polyvecNtt, Polyvec.vec_ofFn]
  exact bounded_polyNtt _

/-- An inner product, taken in the transformed domain and brought back. -/
theorem polyElem_invntt_basemulAcc {a b : Polyvec} (ha : VecBounded 32767 a) (hb : VecBounded 9471 b) :
    Bounded 3328 (polyInvnttTomont (polyvecBasemulAccMontgomery a (polyvecNtt b))) ∧
      polyElem (polyInvnttTomont (polyvecBasemulAccMontgomery a (polyvecNtt b))) =
        ∑ i, nttElem (a.vec i) * polyElem (b.vec i) := by
  have hbounded := (bounded_basemulAcc a (polyvecNtt b)).mono (show (1664 : Int) ≤ 16383 by norm_num)
  rcases polyElem_invntt hbounded with ⟨hinv, helem⟩
  refine ⟨hinv, ?_⟩
  rw [polyInvnttTomont, helem, nttElem_basemulAcc ha ((bounded_polyvecNtt b).mono (by norm_num)), ← mul_assoc,
    ← scalar_mul, mont_mul_montInv, scalar_one, one_mul]
  exact Finset.sum_congr rfl fun i _ => by rw [nttElem_polyvecNtt hb]

/-! ## Products and inverses, coefficient by coefficient -/

theorem ofCoeffs_residues {r : Poly} {f : Nat → Zq} (h : polyElem r = ofCoeffs 256 f) {x : Nat} (hx : x < 256) :
    residues r x = f x := by
  have : Nontrivial Zq := ⟨0, 1, by decide⟩
  exact ofCoeffs_injective (by norm_num) h x hx

/-- Transforming two vectors, multiplying and transforming back multiplies the polynomials modulo `X^256 + 1`. -/
theorem residues_invntt_basemulAcc {a b : Polyvec} (ha : VecBounded 9471 a) (hb : VecBounded 9471 b) {x : Nat}
    (hx : x < 256) :
    |((polyInvnttTomont (polyvecBasemulAccMontgomery (polyvecNtt a) (polyvecNtt b))).coeff x).toInt| ≤ 3328 ∧
    residues (polyInvnttTomont (polyvecBasemulAccMontgomery (polyvecNtt a) (polyvecNtt b))) x =
      ∑ i, convolution 256 (residues (a.vec i)) (residues (b.vec i)) x := by
  rcases polyElem_invntt_basemulAcc ((bounded_polyvecNtt a).mono (show (1664 : Int) ≤ 32767 by norm_num)) hb
    with ⟨hbound, helem⟩
  refine ⟨hbound x, ?_⟩
  rw [← ofCoeffs_residues (f := fun x => ∑ i, convolution 256 (residues (a.vec i)) (residues (b.vec i)) x) _ hx]
  rw [helem, ofCoeffs_sum]
  refine Finset.sum_congr rfl fun i _ => ?_
  rw [nttElem_polyvecNtt ha, ofCoeffs_convolution]
  rfl

/-- The polynomial with all coefficients one. -/
def ones : Poly := Poly.ofFn fun _ => 1

theorem bounded_ones : Bounded 9471 ones := bounded_of_lt (by norm_num) fun i hi => by
  rw [ones, Poly.coeff_ofFn _ hi]
  decide

theorem residues_ones {i : Nat} (hi : i < 256) : residues ones i = 1 := by
  rw [residues, ones, Poly.coeff_ofFn _ hi]
  decide

/-- One product is `1` and 255 are `-1`. -/
theorem convolution_ones : convolution 256 (residues ones) (residues ones) 0 = -254 := by
  have hfirst : residues ones 0 * shiftUp 256 (residues ones) 0 0 = 1 := by
    rw [shiftUp, if_pos le_rfl, residues_ones (by norm_num), mul_one]
  have hrest : ∀ i ∈ Finset.range 255, residues ones (i + 1) * shiftUp 256 (residues ones) (i + 1) 0 = -1 := by
    intro i hi
    have hlt : i < 255 := Finset.mem_range.mp hi
    rw [shiftUp, if_neg (by omega), residues_ones (by omega), residues_ones (by omega), one_mul]
  rw [convolution, Finset.sum_range_succ' _ 255, hfirst, Finset.sum_congr rfl hrest, Finset.sum_const,
    Finset.card_range, nsmul_eq_mul]
  norm_num

theorem residues_invntt_basemulAcc_ones :
    let a := Polyvec.ofFn fun _ => ones
    |((polyInvnttTomont (polyvecBasemulAccMontgomery (polyvecNtt a) (polyvecNtt a))).coeff 0).toInt| ≤ 3328 ∧
    residues (polyInvnttTomont (polyvecBasemulAccMontgomery (polyvecNtt a) (polyvecNtt a))) 0 = -762 := by
  intro a
  have ha : VecBounded 9471 a := fun i => by
    rw [Polyvec.vec_ofFn]
    exact bounded_ones
  have hvalue : ∑ i, convolution 256 (residues (a.vec i)) (residues (a.vec i)) 0 = -762 := by
    simp only [a, Polyvec.vec_ofFn, convolution_ones, Finset.sum_const, Finset.card_univ, Fintype.card_fin]
    decide
  rcases residues_invntt_basemulAcc ha ha (show 0 < 256 by norm_num) with ⟨hbound, hres⟩
  exact ⟨hbound, hres.trans hvalue⟩

theorem nttElem_injective {r s : Poly} (h : nttElem r = nttElem s) : ∀ x < 256, residues r x = residues s x := by
  have : Nontrivial Zq := ⟨0, 1, by decide⟩
  exact element_injective isTree_zetaRes inv128_mul blockLen_rq (by norm_num) h

/-- The two transforms are inverse to each other, up to the factor that leaves the Montgomery domain. -/
theorem residues_ntt_invntt {r : Poly} (hr : Bounded 9471 r) {x : Nat} (hx : x < 256) :
    residues (polyInvnttTomont (polyNtt r)) x = mont * residues r x ∧
      residues (polyNtt (polyInvnttTomont r)) x = mont * residues r x := by
  have hscale : ∀ x < 256, residues (polyTomont r) x = mont * residues r x :=
    residues_polyTomont (hr.mono (by norm_num))
  constructor
  · have hinv := (polyElem_invntt ((bounded_polyNtt r).mono (show (1664 : Int) ≤ 16383 by norm_num))).2
    rw [nttElem_polyNtt hr] at hinv
    rw [← hscale x hx]
    refine ofCoeffs_residues (hinv.trans ?_) hx
    have hlin := polyElem_linear (r := polyTomont r) (a := r) (b := r) mont 0 fun i hi => by
      rw [hscale i hi, zero_mul, add_zero]
    rw [← polyElem, hlin, scalar, scalar, map_zero, zero_mul, add_zero]
  · rcases polyElem_invntt (hr.mono (show (9471 : Int) ≤ 16383 by norm_num)) with ⟨hbound, hinv⟩
    rw [← hscale x hx]
    refine nttElem_injective ?_ x hx
    rw [polyInvnttTomont, nttElem_polyNtt (hbound.mono (by norm_num)), hinv,
      nttElem_polyTomont (hr.mono (by norm_num))]

theorem residues_ntt_invntt_ones : residues (polyInvnttTomont (polyNtt ones)) 0 = mont ∧
    residues (polyNtt (polyInvnttTomont ones)) 0 = mont := by
  have hone : mont * residues ones 0 = mont := by rw [residues_ones (by norm_num), mul_one]
  rcases residues_ntt_invntt bounded_ones (show 0 < 256 by norm_num) with ⟨hinv, hntt⟩
  exact ⟨hinv.trans hone, hntt.trans hone⟩

end HybridPqc.Mlkem
