import HybridPqc.Lib.LocalUpdates
import HybridPqc.Mlkem.Ring
import HybridPqc.Mlkem.Proofs.ReduceProofs

/-!
# The in-place transforms compute the layers of a splitting transform

The innermost loops of `ntt` and `invntt` change a pair of coefficients at a time, and no two iterations of a layer
share a coefficient. So a layer is one simultaneous update, and on residues it is a layer of the transform of
`SplitTransform` for the tree of the zetas, provided that no sum leaves the `int16_t` range.
-/

namespace HybridPqc.Mlkem

open SplitTransform

/-! ## Products -/

theorem toInt_mul_toInt32 (a b : Int16) : (a.toInt32 * b.toInt32).toInt = a.toInt * b.toInt := by
  have ha : |a.toInt| ≤ 32768 := abs_le.mpr ⟨a.le_toInt, le_of_lt a.toInt_lt⟩
  have hb : |b.toInt| ≤ 32768 := abs_le.mpr ⟨b.le_toInt, le_of_lt b.toInt_lt⟩
  have hab : |a.toInt * b.toInt| ≤ 32768 * 32768 := by
    rw [abs_mul]
    exact mul_le_mul ha hb (abs_nonneg _) (by norm_num)
  rcases abs_le.mp hab with ⟨hlow, hhigh⟩
  rw [Int32.toInt_mul, Int16.toInt_toInt32, Int16.toInt_toInt32]
  exact Int.bmod_eq_of_le (by omega) (by omega)

theorem residue_fqmul {a b : Int16} (ha : |a.toInt| ≤ 3329) (hb : |b.toInt| ≤ 32767) :
    residue (fqmul a b) = residue a * residue b * montInv := by
  rw [fqmul, residue_montgomeryReduce (by rw [toInt_mul_toInt32]; exact montgomeryInput_mul ha hb),
    toInt_mul_toInt32, Int.cast_mul, residue, residue]

theorem abs_fqmul_le {a b : Int16} (ha : |a.toInt| ≤ 3329) (hb : |b.toInt| ≤ 32767) :
    |(fqmul a b).toInt| ≤ 3328 :=
  abs_montgomeryReduce_lt (by rw [toInt_mul_toInt32]; exact montgomeryInput_mul ha hb)

theorem fqmul_comm (a b : Int16) : fqmul a b = fqmul b a := by
  rw [fqmul, fqmul, Int32.mul_comm]

/-! ## Layers of pairs -/

/-- The loop body replaces the coefficients at `j` and `j + len` by `F` and `G` of both. -/
def IsPairStep (len : Nat) (step : Poly → Nat → Poly) (F G : Int16 → Int16 → Int16) : Prop :=
  ∀ r j, j + len < 256 → ∀ x, (step r j).coeff x =
    if x = j then F (r.coeff j) (r.coeff (j + len))
    else if x = j + len then G (r.coeff j) (r.coeff (j + len)) else r.coeff x

theorem isPairStep_nttButterfly {len : Nat} (hlen : 0 < len) (zeta : Int16) :
    IsPairStep len (nttButterfly len zeta) (fun a b => a + fqmul zeta b) (fun a b => a - fqmul zeta b) := by
  intro r j hj x
  simp only [nttButterfly, Poly.coeff_set _ _ (show j < 256 by omega), Poly.coeff_set _ _ hj]
  rw [if_neg (show j ≠ j + len by omega)]

theorem isPairStep_invnttButterfly {len : Nat} (hlen : 0 < len) (zeta : Int16) :
    IsPairStep len (invnttButterfly len zeta) (fun a b => barrettReduce (a + b))
      (fun a b => fqmul zeta (b - a)) := by
  intro r j hj x
  simp only [invnttButterfly, Poly.coeff_set _ _ (show j < 256 by omega), Poly.coeff_set _ _ hj]
  rw [if_neg (show j + len ≠ j by omega)]
  split_ifs <;> first | rfl | omega

section PairLayer

variable {len : Nat} {step : Poly → Nat → Poly} {F G : Int16 → Int16 → Int16}

/-- The iteration of the block from `start` on that a coefficient belongs to. -/
def pairOwner (start len x : Nat) : Nat := if x < start + len then x else x - len

theorem local_pairStep (hstep : IsPairStep len step F G) {start : Nat} (hstart : start + 2 * len ≤ 256) :
    LocalUpdates.Local Poly.coeff step (pairOwner start len) (List.range' start len) where
  frame j hj r x hx := by
    rcases List.mem_range'_1.mp hj with ⟨hlow, hhigh⟩
    rw [hstep r j (by omega), if_neg, if_neg]
    · intro heq
      exact hx (by rw [pairOwner, if_neg (by omega)]; omega)
    · intro heq
      exact hx (by rw [pairOwner, if_pos (by omega), heq])
  depends j hj r t hagree x hx := by
    rcases List.mem_range'_1.mp hj with ⟨hlow, hhigh⟩
    have hlower : r.coeff j = t.coeff j := hagree j (by rw [pairOwner, if_pos (by omega)])
    have hupper : r.coeff (j + len) = t.coeff (j + len) :=
      hagree (j + len) (by rw [pairOwner, if_neg (by omega)]; omega)
    rw [hstep r j (by omega), hstep t j (by omega), hlower, hupper, hagree x hx]

theorem coeff_block_lower (hstep : IsPairStep len step F G) {start : Nat} (hstart : start + 2 * len ≤ 256)
    (r : Poly) {i : Nat} (hi : i < len) :
    ((List.range' start len).foldl step r).coeff (start + i) =
      F (r.coeff (start + i)) (r.coeff (start + i + len)) := by
  have hown : pairOwner start len (start + i) = start + i := by rw [pairOwner, if_pos (by omega)]
  rw [LocalUpdates.get_foldl_of_mem (local_pairStep hstep hstart) List.nodup_range', hown,
    hstep r _ (by omega), if_pos rfl]
  rw [hown]
  exact List.mem_range'_1.mpr ⟨by omega, by omega⟩

theorem coeff_block_upper (hstep : IsPairStep len step F G) {start : Nat} (hstart : start + 2 * len ≤ 256)
    (r : Poly) {i : Nat} (hi : i < len) :
    ((List.range' start len).foldl step r).coeff (start + i + len) =
      G (r.coeff (start + i)) (r.coeff (start + i + len)) := by
  have hown : pairOwner start len (start + i + len) = start + i := by
    rw [pairOwner, if_neg (by omega)]
    omega
  rw [LocalUpdates.get_foldl_of_mem (local_pairStep hstep hstart) List.nodup_range', hown,
    hstep r _ (by omega), if_neg (by omega), if_pos rfl]
  rw [hown]
  exact List.mem_range'_1.mpr ⟨by omega, by omega⟩

theorem coeff_block_of_outside (hstep : IsPairStep len step F G) {start : Nat}
    (hstart : start + 2 * len ≤ 256) (r : Poly) {x : Nat} (hx : x < start ∨ start + 2 * len ≤ x) :
    ((List.range' start len).foldl step r).coeff x = r.coeff x := by
  refine LocalUpdates.get_foldl_of_notMem (local_pairStep hstep hstart) r fun hmem => ?_
  rcases List.mem_range'_1.mp hmem with ⟨hlow, hhigh⟩
  rw [pairOwner] at hlow hhigh
  split_ifs at hlow hhigh <;> omega

/-- The loop over all blocks of a layer, with a loop body for each block. -/
def pairLayer (len blocks : Nat) (step : Nat → Poly → Nat → Poly) (r : Poly) : Poly :=
  (List.range blocks).foldl (fun r b => (List.range' (2 * len * b) len).foldl (step b) r) r

theorem block_end_le {blocks b : Nat} (hsize : blocks * (2 * len) = 256) (hb : b < blocks) :
    2 * len * b + 2 * len ≤ 256 := by
  have h : 2 * len * (b + 1) ≤ 2 * len * blocks := Nat.mul_le_mul_left _ hb
  rw [mul_add, mul_one, mul_comm _ blocks, hsize] at h
  exact h

theorem local_pairLayer {blocks : Nat} {step : Nat → Poly → Nat → Poly} {F G : Nat → Int16 → Int16 → Int16}
    (hlen : 0 < len) (hsize : blocks * (2 * len) = 256)
    (hstep : ∀ b, IsPairStep len (step b) (F b) (G b)) :
    LocalUpdates.Local Poly.coeff (fun r b => (List.range' (2 * len * b) len).foldl (step b) r)
      (fun x => x / (2 * len)) (List.range blocks) where
  frame b hb r x hx := by
    refine coeff_block_of_outside (hstep b) (block_end_le hsize (List.mem_range.mp hb)) r ?_
    by_contra hin
    refine hx ?_
    rcases half_cases hlen x with ⟨c, i, hi, rfl⟩ | ⟨c, i, hi, rfl⟩
    · exact Nat.div_eq_of_lt_le (by rw [mul_comm]; omega) (by rw [add_mul, mul_comm b]; omega)
    · exact Nat.div_eq_of_lt_le (by rw [mul_comm]; omega) (by rw [add_mul, mul_comm b]; omega)
  depends b hb r t hagree x hx := by
    have hend := block_end_le hsize (List.mem_range.mp hb)
    have hdiv : ∀ i, i < 2 * len → (2 * len * b + i) / (2 * len) = b := fun i hi => div_lower hi
    rcases half_cases hlen x with ⟨c, i, hi, rfl⟩ | ⟨c, i, hi, rfl⟩
    · have hc : c = b := by rw [← hx, div_lower (by omega)]
      rw [hc, coeff_block_lower (hstep b) hend r hi, coeff_block_lower (hstep b) hend t hi,
        hagree _ (hdiv i (by omega)), add_assoc, hagree _ (hdiv (i + len) (by omega))]
    · have hc : c = b := by rw [← hx, add_assoc, div_lower (by omega)]
      rw [hc, coeff_block_upper (hstep b) hend r hi, coeff_block_upper (hstep b) hend t hi,
        hagree _ (hdiv i (by omega)), add_assoc, hagree _ (hdiv (i + len) (by omega))]

section Values

variable {blocks : Nat} {step : Nat → Poly → Nat → Poly} {F G : Nat → Int16 → Int16 → Int16}

theorem coeff_pairLayer_lower (hlen : 0 < len) (hsize : blocks * (2 * len) = 256)
    (hstep : ∀ b, IsPairStep len (step b) (F b) (G b)) (r : Poly) {b i : Nat} (hb : b < blocks) (hi : i < len) :
    (pairLayer len blocks step r).coeff (2 * len * b + i) =
      F b (r.coeff (2 * len * b + i)) (r.coeff (2 * len * b + i + len)) := by
  have hdiv : (2 * len * b + i) / (2 * len) = b := div_lower (by omega)
  rw [pairLayer, LocalUpdates.get_foldl_of_mem (local_pairLayer hlen hsize hstep) List.nodup_range, hdiv,
    coeff_block_lower (hstep b) (block_end_le hsize hb) r hi]
  rw [hdiv]
  exact List.mem_range.mpr hb

theorem coeff_pairLayer_upper (hlen : 0 < len) (hsize : blocks * (2 * len) = 256)
    (hstep : ∀ b, IsPairStep len (step b) (F b) (G b)) (r : Poly) {b i : Nat} (hb : b < blocks) (hi : i < len) :
    (pairLayer len blocks step r).coeff (2 * len * b + i + len) =
      G b (r.coeff (2 * len * b + i)) (r.coeff (2 * len * b + i + len)) := by
  have hdiv : (2 * len * b + i + len) / (2 * len) = b := by rw [add_assoc, div_lower (by omega)]
  rw [pairLayer, LocalUpdates.get_foldl_of_mem (local_pairLayer hlen hsize hstep) List.nodup_range, hdiv,
    coeff_block_upper (hstep b) (block_end_le hsize hb) r hi]
  rw [hdiv]
  exact List.mem_range.mpr hb

end Values

end PairLayer

/-! ## The layers of `ntt` -/

theorem layer_div {l : Nat} (hl : l < 7) : 128 / blockLen 7 2 (l + 1) = 2 ^ l := by
  have h : ∀ l < 7, 128 / blockLen 7 2 (l + 1) = 2 ^ l := by decide
  exact h l hl

theorem layer_size {l : Nat} (hl : l < 7) : 2 ^ l * (2 * blockLen 7 2 (l + 1)) = 256 :=
  blocks_mul_two_mul_blockLen hl

theorem layer_pos (l : Nat) : 0 < blockLen 7 2 (l + 1) := blockLen_pos (by norm_num) _

theorem nttLayer_eq {l : Nat} (hl : l < 7) (r : Poly) :
    nttLayer (2 ^ l, r) (blockLen 7 2 (l + 1)) = (2 ^ (l + 1), pairLayer (blockLen 7 2 (l + 1)) (2 ^ l)
      (fun b => nttButterfly (blockLen 7 2 (l + 1)) (zetaAt (2 ^ l + b))) r) := by
  rw [nttLayer, layer_div hl, LocalUpdates.foldl_counter_up (f := fun k r b =>
    (List.range' (2 * blockLen 7 2 (l + 1) * b) (blockLen 7 2 (l + 1))).foldl
      (nttButterfly (blockLen 7 2 (l + 1)) (zetaAt k)) r), pow_succ, mul_two]
  rfl

/-- A layer of `ntt` adds at most `q - 1` to the coefficients, and splits the residues. -/
theorem nttLayer_spec {l : Nat} (hl : l < 7) {r : Poly} {B : Int} (hr : Bounded B r) (hB : B + 3328 ≤ 32767) :
    Bounded (B + 3328) (nttLayer (2 ^ l, r) (blockLen 7 2 (l + 1))).2 ∧
      ∀ x < 256, residues (nttLayer (2 ^ l, r) (blockLen 7 2 (l + 1))).2 x =
        split zetaRes (2 ^ l) (blockLen 7 2 (l + 1)) (residues r) x := by
  have hB0 : 0 ≤ B := le_trans (abs_nonneg _) (hr 0)
  have hlen := layer_pos l
  have hsize := layer_size hl
  have hstep := fun b => isPairStep_nttButterfly hlen (zetaAt (2 ^ l + b))
  rw [nttLayer_eq hl]
  set len := blockLen 7 2 (l + 1) with hlendef
  have hprod : ∀ b x, |(fqmul (zetaAt (2 ^ l + b)) (r.coeff x)).toInt| ≤ 3328 := fun b x =>
    abs_fqmul_le (abs_zetaAt_le _) (le_trans (hr x) (by omega))
  have hres : ∀ b x, residue (fqmul (zetaAt (2 ^ l + b)) (r.coeff x)) =
      zetaRes (2 ^ l + b) * residue (r.coeff x) := fun b x => by
    rw [residue_fqmul (abs_zetaAt_le _) (le_trans (hr x) (by omega)), zetaRes]
    ring
  constructor
  · refine bounded_of_lt (by omega) fun x hx => ?_
    rw [← hsize] at hx
    rcases half_cases hlen x with ⟨b, i, hi, rfl⟩ | ⟨b, i, hi, rfl⟩
    · have hb := block_lt_of_lower hx
      rw [coeff_pairLayer_lower hlen hsize hstep r hb hi, toInt_add_of_abs_le (hr _) (hprod b _) (by omega)]
      exact le_trans (abs_add_le _ _) (add_le_add (hr _) (hprod b _))
    · have hb : b < 2 ^ l := block_lt_of_lower (i := i + len) (by rw [← add_assoc]; exact hx)
      rw [coeff_pairLayer_upper hlen hsize hstep r hb hi, toInt_sub_of_abs_le (hr _) (hprod b _) (by omega)]
      exact le_trans (abs_sub _ _) (add_le_add (hr _) (hprod b _))
  · intro x hx
    rw [← hsize] at hx
    rcases half_cases hlen x with ⟨b, i, hi, rfl⟩ | ⟨b, i, hi, rfl⟩
    · have hb := block_lt_of_lower hx
      rw [residues, coeff_pairLayer_lower hlen hsize hstep r hb hi,
        residue_add_of_abs_le (hr _) (hprod b _) (by omega), hres, split_lower hi]
      rfl
    · have hb : b < 2 ^ l := block_lt_of_lower (i := i + len) (by rw [← add_assoc]; exact hx)
      rw [residues, coeff_pairLayer_upper hlen hsize hstep r hb hi,
        residue_sub_of_abs_le (hr _) (hprod b _) (by omega), hres, split_upper hi]
      rfl

theorem nttLayer_fst {l : Nat} (hl : l < 7) (r : Poly) :
    (nttLayer (2 ^ l, r) (blockLen 7 2 (l + 1))).1 = 2 ^ (l + 1) := by
  rw [nttLayer_eq hl]

/-- The first `l` layers of `ntt`. -/
def nttLayers (l : Nat) (r : Poly) : Nat × Poly :=
  (List.range l).foldl (fun s l => nttLayer s (blockLen 7 2 (l + 1))) (1, r)

theorem ntt_eq_nttLayers (r : Poly) : ntt r = (nttLayers 7 r).2 := by
  have hlens : [128, 64, 32, 16, 8, 4, 2] = (List.range 7).map fun l => blockLen 7 2 (l + 1) := by decide
  rw [ntt, hlens, List.foldl_map, nttLayers]

/-- No sum of the first `l` layers overflows, and they are the first `l` layers of the transform. -/
theorem nttLayers_spec {l : Nat} (hl : l ≤ 7) {r : Poly} {B : Int} (hr : Bounded B r)
    (hB : B + 3328 * 7 ≤ 32767) :
    (nttLayers l r).1 = 2 ^ l ∧ Bounded (B + 3328 * l) (nttLayers l r).2 ∧
      ∀ x < 256, residues (nttLayers l r).2 x = forward zetaRes 7 2 l (residues r) x := by
  induction l with
  | zero => exact ⟨rfl, hr.mono (by simp), fun x _ => rfl⟩
  | succ l ih =>
    rcases ih (by omega) with ⟨hk, hbound, hres⟩
    have hsucc : nttLayers (l + 1) r = nttLayer (2 ^ l, (nttLayers l r).2) (blockLen 7 2 (l + 1)) := by
      rw [nttLayers, List.range_succ, List.foldl_append, List.foldl_cons, List.foldl_nil, ← hk]
      rfl
    rcases nttLayer_spec (show l < 7 by omega) hbound (by omega) with ⟨hbound', hres'⟩
    rw [hsucc]
    refine ⟨nttLayer_fst (by omega) _, hbound'.mono (by push_cast; omega), fun x hx => ?_⟩
    rw [hres' x hx, forward]
    have hsize := layer_size (show l < 7 by omega)
    exact split_congr (layer_pos l) (by rw [hsize]; exact hres) x (by rw [hsize]; exact hx)

/-- `ntt` of coefficients of at most `9471` does not overflow, and its output stands for the input polynomial. -/
theorem nttElem_ntt {r : Poly} {B : Int} (hr : Bounded B r) (hB : B + 3328 * 7 ≤ 32767) :
    nttElem (ntt r) = polyElem r := by
  rcases nttLayers_spec (le_refl 7) hr hB with ⟨-, -, hres⟩
  rw [nttElem, ntt_eq_nttLayers,
    element_congr isTree_zetaRes inv128_mul blockLen_rq (by norm_num) hres,
    element_forward isTree_zetaRes inv128_mul blockLen_rq, polyElem]

theorem bounded_ntt {r : Poly} {B : Int} (hr : Bounded B r) (hB : B + 3328 * 7 ≤ 32767) :
    Bounded (B + 3328 * 7) (ntt r) := by
  rcases nttLayers_spec (le_refl 7) hr hB with ⟨-, hbound, -⟩
  rw [ntt_eq_nttLayers]
  exact hbound

/-! ## The layers of `invntt` -/

theorem invnttLayer_eq {l : Nat} (hl : l < 7) (r : Poly) :
    invnttLayer (2 ^ (l + 1) - 1, r) (blockLen 7 2 (l + 1)) = (2 ^ l - 1,
      pairLayer (blockLen 7 2 (l + 1)) (2 ^ l)
        (fun b => invnttButterfly (blockLen 7 2 (l + 1)) (zetaAt (2 * 2 ^ l - 1 - b))) r) := by
  have hk : 2 ^ (l + 1) - 1 - 2 ^ l = 2 ^ l - 1 := by rw [pow_succ]; omega
  rw [invnttLayer, layer_div hl, LocalUpdates.foldl_counter_down (f := fun k r b =>
    (List.range' (2 * blockLen 7 2 (l + 1) * b) (blockLen 7 2 (l + 1))).foldl
      (invnttButterfly (blockLen 7 2 (l + 1)) (zetaAt k)) r), hk, pow_succ, mul_comm (2 ^ l)]
  rfl

/-- The Barrett reductions of a layer of `invntt` keep the coefficients small, and it merges the residues. -/
theorem invnttLayer_spec {l : Nat} (hl : l < 7) {r : Poly} {B : Int} (hr : Bounded B r) (hB : B ≤ 16383) :
    Bounded 3328 (invnttLayer (2 ^ (l + 1) - 1, r) (blockLen 7 2 (l + 1))).2 ∧
      ∀ x < 256, residues (invnttLayer (2 ^ (l + 1) - 1, r) (blockLen 7 2 (l + 1))).2 x =
        merge zetaRes (2 ^ l) (blockLen 7 2 (l + 1)) (residues r) x := by
  have hlen := layer_pos l
  have hsize := layer_size hl
  have hstep := fun b => isPairStep_invnttButterfly hlen (zetaAt (2 * 2 ^ l - 1 - b))
  rw [invnttLayer_eq hl]
  set len := blockLen 7 2 (l + 1) with hlendef
  have hdiff : ∀ x y, |(r.coeff x - r.coeff y).toInt| ≤ 32767 := fun x y => by
    rw [toInt_sub_of_abs_le (hr x) (hr y) (by omega)]
    exact le_trans (abs_sub _ _) (by have := hr x; have := hr y; omega)
  constructor
  · refine bounded_of_lt (by norm_num) fun x hx => ?_
    rw [← hsize] at hx
    rcases half_cases hlen x with ⟨b, i, hi, rfl⟩ | ⟨b, i, hi, rfl⟩
    · rw [coeff_pairLayer_lower hlen hsize hstep r (block_lt_of_lower hx) hi]
      exact le_trans (abs_barrettReduce_le _) (by norm_num)
    · have hb : b < 2 ^ l := block_lt_of_lower (i := i + len) (by rw [← add_assoc]; exact hx)
      rw [coeff_pairLayer_upper hlen hsize hstep r hb hi]
      exact abs_fqmul_le (abs_zetaAt_le _) (hdiff _ _)
  · intro x hx
    rw [← hsize] at hx
    rcases half_cases hlen x with ⟨b, i, hi, rfl⟩ | ⟨b, i, hi, rfl⟩
    · rw [residues, coeff_pairLayer_lower hlen hsize hstep r (block_lt_of_lower hx) hi,
        residue_barrettReduce, residue_add_of_abs_le (hr _) (hr _) (by omega), merge_lower hi]
      rfl
    · have hb : b < 2 ^ l := block_lt_of_lower (i := i + len) (by rw [← add_assoc]; exact hx)
      rw [residues, coeff_pairLayer_upper hlen hsize hstep r hb hi,
        residue_fqmul (abs_zetaAt_le _) (hdiff _ _), residue_sub_of_abs_le (hr _) (hr _) (by omega),
        merge_upper hi, zetaRes]
      simp only [residues]
      ring

/-- The inverses of the first `l` layers, the last layer first. -/
def invnttLayers (l : Nat) (s : Nat × Poly) : Nat × Poly :=
  (List.range l).reverse.foldl (fun s l => invnttLayer s (blockLen 7 2 (l + 1))) s

theorem invnttLayers_spec {l : Nat} (hl : l ≤ 7) {r : Poly} {B : Int} (hr : Bounded B r) (hlow : 3328 ≤ B)
    (hB : B ≤ 16383) :
    Bounded B (invnttLayers l (2 ^ l - 1, r)).2 ∧
      ∀ x < 256, residues (invnttLayers l (2 ^ l - 1, r)).2 x = backward zetaRes 7 2 l (residues r) x := by
  induction l generalizing r with
  | zero => exact ⟨hr, fun x _ => rfl⟩
  | succ l ih =>
    rcases invnttLayer_spec (show l < 7 by omega) hr hB with ⟨hbound, hres⟩
    have hsucc : invnttLayers (l + 1) (2 ^ (l + 1) - 1, r) =
        invnttLayers l (2 ^ l - 1, (invnttLayer (2 ^ (l + 1) - 1, r) (blockLen 7 2 (l + 1))).2) := by
      rw [invnttLayers, List.range_succ, List.reverse_append, List.reverse_singleton, List.singleton_append,
        List.foldl_cons, invnttLayer_eq (by omega), invnttLayers]
    rcases ih (by omega) (hbound.mono hlow) with ⟨hbound', hres'⟩
    rw [hsucc]
    refine ⟨hbound', fun x hx => ?_⟩
    rw [hres' x hx, backward]
    exact backward_congr (m := 7) (n := 2) (by norm_num) (by omega) hres x hx

/-- `invntt` of coefficients of at most `16383` does not overflow; it gives the polynomial, in the Montgomery
domain. -/
theorem polyElem_invntt {r : Poly} (hr : Bounded 16383 r) :
    Bounded 3328 (invntt r) ∧ polyElem (invntt r) = scalar mont * nttElem r := by
  have hlens : [2, 4, 8, 16, 32, 64, 128] = (List.range 7).reverse.map fun l => blockLen 7 2 (l + 1) := by
    decide
  have hdef : invntt r = Poly.ofFn fun j => fqmul ((invnttLayers 7 (2 ^ 7 - 1, r)).2.coeff j) 1441 := by
    rw [invntt, hlens, List.foldl_map, invnttLayers]
    rfl
  rcases invnttLayers_spec (le_refl 7) hr (by norm_num) (le_refl _) with ⟨hbound, hres⟩
  set s := (invnttLayers 7 (2 ^ 7 - 1, r)).2 with hs
  have hf : |(1441 : Int16).toInt| ≤ 3329 := by decide
  constructor
  · refine bounded_of_lt (by norm_num) fun i hi => ?_
    rw [hdef, Poly.coeff_ofFn _ hi, fqmul_comm]
    exact abs_fqmul_le hf (le_trans (hbound i) (by norm_num))
  · have hscale : ∀ x < 256, residues (invntt r) x = 512 * backward zetaRes 7 2 7 (residues r) x +
        0 * backward zetaRes 7 2 7 (residues r) x := by
      intro x hx
      rw [residues, hdef, Poly.coeff_ofFn _ hx, fqmul_comm,
        residue_fqmul hf (le_trans (hbound x) (by norm_num)), zero_mul, add_zero, ← hres x hx, residues]
      rw [mul_right_comm, show residue 1441 * montInv = 512 from by decide]
    rw [polyElem, ofCoeffs_linear _ _ hscale, map_zero, zero_mul, add_zero,
      ofCoeffs_backward inv128_mul, nttElem, ← mul_assoc, ← map_mul,
      show (512 : Zq) * 2 ^ 7 = mont from by decide]
    rfl

end HybridPqc.Mlkem
