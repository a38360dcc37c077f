import Mathlib.Data.List.Nodup
import Mathlib.Data.List.DropRight
import Mathlib.Tactic.Linarith

/-!
# Bounded tables with first-in first-out eviction

A table is the list of its keys, oldest first. Inserting a new key removes the oldest one when more
than `cap` keys are present, so a table never holds more than `cap + 1` keys, and a key stays for
exactly `cap` further insertions however full the table was when it came in.
-/

namespace FifoTable

variable {κ : Type} (cap : Nat)

/-- Insert a new key, evicting the oldest when more than `cap` keys are present. -/
def push (l : List κ) (k : κ) : List κ := (if cap < l.length then l.tail else l) ++ [k]

/-- Insert several new keys, one after the other. -/
def pushAll (l : List κ) (ks : List κ) : List κ := ks.foldl (push cap) l

variable {cap}

theorem mem_of_mem_push {l : List κ} {k k' : κ} (h : k ∈ push cap l k') : k ∈ l ∨ k = k' := by
  unfold push at h
  rcases List.mem_append.mp h with h | h
  · split at h
    · exact .inl (List.mem_of_mem_tail h)
    · exact .inl h
  · exact .inr (List.mem_singleton.mp h)

@[simp] theorem pushAll_nil (l : List κ) : pushAll cap l [] = l := rfl

@[simp] theorem pushAll_cons (l : List κ) (k : κ) (ks : List κ) :
    pushAll cap l (k :: ks) = pushAll cap (push cap l k) ks := rfl

theorem pushAll_append (l ks ks' : List κ) :
    pushAll cap l (ks ++ ks') = pushAll cap (pushAll cap l ks) ks' := by
  simp [pushAll]

theorem pushAll_concat (l ks : List κ) (k : κ) :
    pushAll cap l (ks ++ [k]) = push cap (pushAll cap l ks) k := by
  simp [pushAll]

/-- The table holds the last `cap + 1` of all keys ever inserted. -/
theorem pushAll_eq_drop {l : List κ} (h : l.length ≤ cap + 1) (ks : List κ) :
    pushAll cap l ks = (l ++ ks).drop (l.length + ks.length - (cap + 1)) := by
  induction ks using List.reverseRecOn with
  | nil => simp [show l.length - (cap + 1) = 0 by omega]
  | append_singleton ks k ih =>
    have hdrop : ∀ n, n ≤ l.length + ks.length →
        (l ++ (ks ++ [k])).drop n = (l ++ ks).drop n ++ [k] := by
      intro n hn
      rw [← List.append_assoc, List.drop_append_of_le_length (by rwa [List.length_append])]
    rw [pushAll_concat, ih]
    unfold push
    simp only [List.length_drop, List.length_append, List.length_singleton]
    by_cases hfull : cap < l.length + ks.length - (l.length + ks.length - (cap + 1))
    · rw [if_pos hfull, List.tail_drop, hdrop _ (by omega)]
      congr 2
      omega
    · rw [if_neg hfull, hdrop _ (by omega)]
      congr 2
      omega

/-- A key stays in the table for exactly `cap` insertions after its own. -/
theorem mem_pushAll_push {l : List κ} (hl : l.length ≤ cap + 1) {k : κ}
    {ks : List κ} (hk : k ∉ ks) : k ∈ pushAll cap (push cap l k) ks ↔ ks.length ≤ cap := by
  rw [← pushAll_cons, pushAll_eq_drop hl]
  by_cases hle : ks.length ≤ cap
  · simp only [hle, iff_true]
    rw [List.drop_append]
    apply List.mem_append_right
    have h0 : l.length + (k :: ks).length - (cap + 1) - l.length = 0 := by
      simp only [List.length_cons]; omega
    rw [h0]
    simp
  · simp only [hle, iff_false]
    intro hmem
    have hsplit : l ++ k :: ks = (l ++ [k]) ++ ks := by simp
    have hlen : (l ++ [k]).length ≤ l.length + (k :: ks).length - (cap + 1) := by
      simp only [List.length_append, List.length_cons, List.length_nil]; omega
    rw [hsplit, List.drop_append, List.drop_of_length_le hlen, List.nil_append] at hmem
    exact hk (List.mem_of_mem_drop hmem)

end FifoTable
