import Mathlib.Data.List.GetD

/-!
# Strings of blocks of one length

The output of a loop that writes `k` entries an iteration, read entry by entry.
-/

namespace Blocks

variable {α β : Type*} {L : List β} {f : β → List α} {k : ℕ}

theorem length_flatMap (hf : ∀ b ∈ L, (f b).length = k) : (L.flatMap f).length = k * L.length := by
  induction L with
  | nil => simp
  | cons b L ih =>
    rw [List.flatMap_cons, List.length_append, hf b (List.mem_cons_self ..),
      ih fun c hc => hf c (List.mem_cons_of_mem b hc), List.length_cons, Nat.mul_add, Nat.mul_one,
      Nat.add_comm]

/-- Entry `j` of block `i`. -/
theorem getD_flatMap (hf : ∀ b ∈ L, (f b).length = k) {i j : ℕ} (hi : i < L.length) (hj : j < k) (d : α) :
    (L.flatMap f).getD (k * i + j) d = (f L[i]).getD j d := by
  induction L generalizing i with
  | nil => exact absurd hi (Nat.not_lt_zero i)
  | cons b L ih =>
    have hb := hf b (List.mem_cons_self ..)
    cases i with
    | zero =>
      rw [List.flatMap_cons, Nat.mul_zero, Nat.zero_add, List.getD_append _ _ _ _ (by omega)]
      rfl
    | succ i =>
      have hge : (f b).length ≤ k * (i + 1) + j := by rw [hb, Nat.mul_add]; omega
      rw [List.flatMap_cons, List.getD_append_right _ _ _ _ hge, hb,
        show k * (i + 1) + j - k = k * i + j by rw [Nat.mul_add]; omega]
      exact ih (fun c hc => hf c (List.mem_cons_of_mem b hc)) (Nat.lt_of_succ_lt_succ hi)

/-- A string whose entries are those of the blocks is the string of the blocks. -/
theorem eq_flatMap (hf : ∀ b ∈ L, (f b).length = k) {l : List α} (hlen : l.length = k * L.length) (d : α)
    (h : ∀ i (hi : i < L.length), ∀ j < k, l.getD (k * i + j) d = (f L[i]).getD j d) : l = L.flatMap f := by
  refine List.ext_getElem (by rw [hlen, length_flatMap hf]) fun x hx hx' => ?_
  have hk : 0 < k := by
    rw [hlen] at hx
    exact Nat.pos_of_mul_pos_right (Nat.lt_of_le_of_lt (Nat.zero_le x) hx)
  have hsplit : k * (x / k) + x % k = x := Nat.div_add_mod x k
  have hi : x / k < L.length := Nat.div_lt_of_lt_mul (by rw [← hlen]; exact hx)
  have hj : x % k < k := Nat.mod_lt x hk
  rw [← List.getD_eq_getElem l d hx, ← List.getD_eq_getElem _ d hx', ← hsplit, h _ hi _ hj,
    getD_flatMap hf hi hj]

end Blocks
