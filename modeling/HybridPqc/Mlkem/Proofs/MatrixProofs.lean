import HybridPqc.Mlkem.Indcpa
import HybridPqc.Mlkem.Proofs.SerializeProofs

/-!
# The public matrix

An entry of the matrix is the first 256 acceptable twelve-bit numbers of an output stream, however many blocks the
loop of `gen_matrix` has to add.
-/

namespace HybridPqc.Mlkem

/-! ## Candidates and accepted values -/

/-- The twelve-bit numbers of a byte string, in order. -/
def candidates : Bytes → List UInt16
  | b0 :: b1 :: b2 :: buf => (twelveBits b0 b1 b2).1 :: (twelveBits b0 b1 b2).2 :: candidates buf
  | _ => []

/-- Those of them that are residues. -/
def accepted (buf : Bytes) : List Int16 :=
  ((candidates buf).filter fun val => decide (val < 3329)).map UInt16.toInt16

theorem accepted_cons (b0 b1 b2 : UInt8) (buf : Bytes) : accepted (b0 :: b1 :: b2 :: buf) =
    (if (twelveBits b0 b1 b2).1 < 3329 then [(twelveBits b0 b1 b2).1.toInt16] else []) ++
    (if (twelveBits b0 b1 b2).2 < 3329 then [(twelveBits b0 b1 b2).2.toInt16] else []) ++ accepted buf := by
  rw [accepted, candidates, List.filter_cons, List.filter_cons, accepted]
  by_cases h1 : (twelveBits b0 b1 b2).1 < 3329 <;> by_cases h2 : (twelveBits b0 b1 b2).2 < 3329 <;> simp [h1, h2]

theorem accepted_append {buf : Bytes} (h : buf.length % 3 = 0) (rest : Bytes) :
    accepted (buf ++ rest) = accepted buf ++ accepted rest := by
  induction buf using candidates.induct with
  | case1 b0 b1 b2 buf ih =>
    have hlen : buf.length % 3 = 0 := by
      simp only [List.length_cons] at h
      omega
    simp only [List.cons_append, accepted_cons, ih hlen, List.append_assoc]
  | case2 buf hshort =>
    rcases buf with _ | ⟨b0, _ | ⟨b1, _ | ⟨b2, buf⟩⟩⟩
    · rfl
    · simp at h
    · simp at h
    · exact absurd rfl (hshort b0 b1 b2 buf)

theorem accepted_range {c : Int16} {buf : Bytes} (h : c ∈ accepted buf) : 0 ≤ c.toInt ∧ c.toInt ≤ 3328 := by
  rcases List.mem_map.mp h with ⟨val, hval, rfl⟩
  have hlt : val.toNat < 3329 := UInt16.lt_iff_toNat_lt.mp (of_decide_eq_true (List.mem_filter.mp hval).2)
  rw [toInt_toInt16 (by omega)]
  omega

/-- One candidate: it goes into the buffer if there is room, and else nothing that follows goes in either. -/
theorem fill_step {α : Type} {len : Nat} {r : List α} (hr : r.length ≤ len) (x : α) (p : Prop) [Decidable p]
    (l : List α) : (if r.length < len ∧ p then r ++ [x] else r).length ≤ len ∧
      (if r.length < len ∧ p then r ++ [x] else r) ++
        l.take (len - (if r.length < len ∧ p then r ++ [x] else r).length) =
      r ++ ((if p then [x] else []) ++ l).take (len - r.length) := by
  by_cases hp : p
  · by_cases hlt : r.length < len
    · rw [if_pos ⟨hlt, hp⟩, if_pos hp, List.length_append, List.length_singleton, List.append_assoc,
        show len - r.length = (len - (r.length + 1)) + 1 by omega]
      exact ⟨hlt, rfl⟩
    · rw [if_neg (fun h => hlt h.1), show len - r.length = 0 by omega, List.take_zero, List.take_zero]
      exact ⟨hr, rfl⟩
  · rw [if_neg (fun h => hp h.2), if_neg hp]
    exact ⟨hr, rfl⟩

/-- `rej_uniform` fills up the buffer with what is accepted. -/
theorem rejUniformFrom_eq (len : Nat) (r : List Int16) (buf : Bytes) (hr : r.length ≤ len) :
    rejUniformFrom len r buf = r ++ (accepted buf).take (len - r.length) := by
  induction buf using candidates.induct generalizing r with
  | case1 b0 b1 b2 buf ih =>
    rw [rejUniformFrom]
    split_ifs with hlt
    · rcases fill_step hr (twelveBits b0 b1 b2).1.toInt16 ((twelveBits b0 b1 b2).1 < 3329)
        ((if (twelveBits b0 b1 b2).2 < 3329 then [(twelveBits b0 b1 b2).2.toInt16] else []) ++ accepted buf)
        with ⟨hlen1, hfirst⟩
      simp only [hlt, true_and] at hlen1 hfirst
      rcases fill_step hlen1 (twelveBits b0 b1 b2).2.toInt16 ((twelveBits b0 b1 b2).2 < 3329) (accepted buf)
        with ⟨hlen2, hsecond⟩
      rw [ih _ hlen2, hsecond, hfirst, accepted_cons, List.append_assoc]
    · rw [show len - r.length = 0 by omega, List.take_zero, List.append_nil]
  | case2 buf hshort =>
    have hnone : accepted buf = [] := by
      rw [accepted, candidates]
      · rfl
      · exact hshort
    rw [hnone, List.take_nil, List.append_nil, rejUniformFrom]
    exact hshort

theorem rejUniform_eq (len : Nat) (buf : Bytes) : rejUniform len buf = (accepted buf).take len := by
  rw [rejUniform, rejUniformFrom_eq len [] buf (Nat.zero_le _)]
  rfl

/-! ## The output stream -/

section Stream

variable (S : Symmetric)

theorem xofSqueezeblocks_length (n : Nat) (st : S.XofState) : (S.xofSqueezeblocks n st).1.length = 168 * n := by
  induction n generalizing st with
  | zero => rfl
  | succ n ih =>
    rw [Symmetric.xofSqueezeblocks]
    rw [List.length_append, ih, List.Vector.toList_length, Nat.mul_add, Nat.mul_one, Nat.add_comm]

/-- Squeezing in two calls gives the same blocks. -/
theorem xofSqueezeblocks_add (m n : Nat) (st : S.XofState) : (S.xofSqueezeblocks (m + n) st).1 =
    (S.xofSqueezeblocks m st).1 ++ (S.xofSqueezeblocks n (S.xofSqueezeblocks m st).2).1 := by
  induction m generalizing st with
  | zero => rw [Nat.zero_add, Symmetric.xofSqueezeblocks, List.nil_append]
  | succ m ih =>
    rw [Nat.succ_add, Symmetric.xofSqueezeblocks, Symmetric.xofSqueezeblocks]
    simp only [ih, List.append_assoc]

/-- The loop of `gen_matrix` with `fuel` refills goes on from the values accepted so far. -/
theorem loop_refillCoeffs (fuel : Nat) {buf : Bytes} (hbuf : buf.length % 3 = 0) (st : S.XofState) :
    (Loops.loop (refillCoeffs S) (fuel + 1) ((accepted buf).take 256, st)).map Prod.fst =
      if 256 ≤ (accepted (buf ++ (S.xofSqueezeblocks fuel st).1)).length
      then some ((accepted (buf ++ (S.xofSqueezeblocks fuel st).1)).take 256) else none := by
  induction fuel generalizing buf st with
  | zero =>
    rw [Symmetric.xofSqueezeblocks, List.append_nil, Loops.loop, refillCoeffs]
    simp only [List.length_take]
    by_cases h : 256 ≤ (accepted buf).length
    · rw [if_neg (by omega), if_pos h]
      rfl
    · rw [if_pos (by omega), if_neg h]
      rfl
  | succ fuel ih =>
    rw [Loops.loop, refillCoeffs]
    simp only [List.length_take]
    by_cases h : 256 ≤ (accepted buf).length
    · rw [if_neg (by omega), accepted_append hbuf, List.length_append, if_pos (by omega),
        List.take_append_of_le_length h]
      rfl
    · have hblock : (S.xofSqueezeblocks 1 st).1.length = 168 := xofSqueezeblocks_length S 1 st
      have hrest : (accepted buf).take 256 = accepted buf := List.take_of_length_le (by omega)
      have hnext : (accepted buf).take 256 ++ rejUniform (256 - min 256 (accepted buf).length)
          (S.xofSqueezeblocks 1 st).1 = (accepted (buf ++ (S.xofSqueezeblocks 1 st).1)).take 256 := by
        rw [rejUniform_eq, accepted_append hbuf, List.take_append, Nat.min_eq_right (by omega)]
      rw [if_pos (by omega)]
      simp only [hnext]
      rw [ih (by rw [List.length_append, hblock]; omega), List.append_assoc, Nat.add_comm fuel 1,
        xofSqueezeblocks_add]

end Stream

/-! ## Entries -/

section Entries

variable (S : Symmetric) (fuel : Nat) (seed : Bytes)

/-- The stream of an entry, of `n` blocks. -/
def entryStream (n : Nat) (x y : UInt8) : Bytes := (S.xofSqueezeblocks n (S.xofAbsorb seed x y)).1

/-- An entry is the first 256 accepted values of its stream, and it is there as soon as the blocks that the loop may
read hold that many. -/
theorem genEntry_eq (x y : UInt8) : genEntry S (fuel + 1) seed x y =
    if 256 ≤ (accepted (entryStream S seed (genMatrixNblocks + fuel) x y)).length
    then some (Poly.ofFn fun i => (accepted (entryStream S seed (genMatrixNblocks + fuel) x y)).getD i 0)
    else none := by
  set st := S.xofAbsorb seed x y with hst
  have hlen : (S.xofSqueezeblocks genMatrixNblocks st).1.length % 3 = 0 := by
    rw [xofSqueezeblocks_length]
    rfl
  have hloop := loop_refillCoeffs S fuel hlen (S.xofSqueezeblocks genMatrixNblocks st).2
  rw [← xofSqueezeblocks_add] at hloop
  have hmap : genEntry S (fuel + 1) seed x y = ((Loops.loop (refillCoeffs S) (fuel + 1)
      ((accepted (S.xofSqueezeblocks genMatrixNblocks st).1).take 256,
        (S.xofSqueezeblocks genMatrixNblocks st).2)).map Prod.fst).map
      fun l => Poly.ofFn fun i => l.getD i 0 := by
    rw [← rejUniform_eq, Option.map_map]
    rfl
  rw [hmap, hloop, entryStream, ← hst]
  split_ifs with h
  · rw [Option.map_some]
    refine congrArg some (Poly.ext_coeff fun i hi => ?_)
    rw [Poly.coeff_ofFn _ hi, Poly.coeff_ofFn _ hi, List.getD_eq_getElem?_getD, List.getElem?_take_of_lt hi,
      List.getD_eq_getElem?_getD]
  · rfl

/-- All coefficients are standard representatives. -/
def Canonical (r : Poly) : Prop := ∀ i, 0 ≤ (r.coeff i).toInt ∧ (r.coeff i).toInt ≤ 3328

theorem Canonical.bounded {r : Poly} (h : Canonical r) : Bounded 3328 r :=
  fun i => abs_le.mpr ⟨by have := (h i).1; omega, (h i).2⟩

theorem canonical_of_lt {r : Poly} (h : ∀ i < 256, 0 ≤ (r.coeff i).toInt ∧ (r.coeff i).toInt ≤ 3328) :
    Canonical r := by
  intro i
  by_cases hi : i < 256
  · exact h i hi
  · rw [Poly.coeff_eq_zero r (by omega)]
    decide

theorem canonical_genEntry {x y : UInt8} {r : Poly} (h : genEntry S fuel seed x y = some r) : Canonical r := by
  cases fuel with
  | zero => cases h
  | succ fuel =>
    rw [genEntry_eq] at h
    split_ifs at h with hlen
    rw [← Option.some.inj h]
    refine canonical_of_lt fun i hi => ?_
    rw [Poly.coeff_ofFn _ hi, List.getD_eq_getElem _ _ (by omega)]
    exact accepted_range (List.getElem_mem _)

end Entries

/-! ## The matrix -/

/-- The polynomial `a[i].vec[j]` of a matrix. -/
def Polymat.entry (a : Polymat) (i j : Fin 3) : Poly := (a.get i).vec j

theorem Polymat.ext_entry {a b : Polymat} (h : ∀ i j, a.entry i j = b.entry i j) : a = b :=
  Vector.ext fun i hi => Polyvec.ext_vec fun j => h ⟨i, hi⟩ j

def transpose (a : Polymat) : Polymat := Vector.ofFn fun i => Polyvec.ofFn fun j => a.entry j i

@[simp] theorem entry_transpose (a : Polymat) (i j : Fin 3) : (transpose a).entry i j = a.entry j i := by
  have h : (transpose a).get i = Polyvec.ofFn fun j => a.entry j i := Vector.getElem_ofFn i.isLt
  rw [Polymat.entry, h, Polyvec.vec_ofFn]

section Matrix

variable {S : Symmetric} {fuel : Nat} {seed : Bytes} {transposed : Bool}

theorem genRow_eq_some {i : Nat} {v : Polyvec} : genRow S fuel seed transposed i = some v ↔
    ∀ j : Fin 3, genPoly S fuel seed transposed i j = some (v.vec j) := by
  simp only [genRow, Option.bind_eq_bind, Option.bind_eq_some_iff, Option.some.injEq]
  constructor
  · rintro ⟨p0, h0, p1, h1, p2, h2, rfl⟩ j
    fin_cases j
    · exact h0
    · exact h1
    · exact h2
  · intro h
    refine ⟨_, h 0, _, h 1, _, h 2, Polyvec.ext_vec fun j => ?_⟩
    fin_cases j <;> rfl

/-- The matrix is there if all its entries are. -/
theorem genMatrix_eq_some {a : Polymat} : genMatrix S fuel seed transposed = some a ↔
    ∀ i j : Fin 3, genPoly S fuel seed transposed i j = some (a.entry i j) := by
  simp only [genMatrix, Option.bind_eq_bind, Option.bind_eq_some_iff, Option.some.injEq]
  constructor
  · rintro ⟨a0, h0, a1, h1, a2, h2, rfl⟩ i
    fin_cases i
    · exact genRow_eq_some.mp h0
    · exact genRow_eq_some.mp h1
    · exact genRow_eq_some.mp h2
  · intro h
    refine ⟨_, genRow_eq_some.mpr (h 0), _, genRow_eq_some.mpr (h 1), _, genRow_eq_some.mpr (h 2), ?_⟩
    refine Polymat.ext_entry fun i j => ?_
    fin_cases i <;> rfl

theorem genMatrix_true : genMatrix S fuel seed true = (genMatrix S fuel seed false).map transpose := by
  refine Option.ext fun b => ?_
  rw [genMatrix_eq_some, Option.map_eq_some_iff]
  constructor
  · intro h
    refine ⟨transpose b, genMatrix_eq_some.mpr fun i j => ?_, Polymat.ext_entry fun i j => ?_⟩
    · rw [entry_transpose]
      exact h j i
    · rw [entry_transpose, entry_transpose]
  · rintro ⟨a, ha, rfl⟩ i j
    rw [entry_transpose]
    exact genMatrix_eq_some.mp ha j i

theorem canonical_genMatrix {a : Polymat} (h : genMatrix S fuel seed transposed = some a) (i j : Fin 3) :
    Canonical (a.entry i j) := by
  have hentry := genMatrix_eq_some.mp h i j
  rw [genPoly] at hentry
  split_ifs at hentry
  · exact canonical_genEntry S fuel seed hentry
  · exact canonical_genEntry S fuel seed hentry

end Matrix

end HybridPqc.Mlkem
