import Mathlib.Data.List.Forall2
import Mathlib.Data.List.Nodup
import Mathlib.Data.List.Sort

/-!
# Logs in increasing order

Two logs that are ordered by one strictly increasing rank: when every entry of the second has a source
in the first, the second is what a sublist of the first gives. So no source is used twice, and the order
is kept.
-/

namespace Increasing

variable {α β γ : Type}

/-- Entries with strictly increasing ranks are distinct. -/
theorem nodup (rank : γ → Nat) {l : List γ} (h : (l.map rank).Pairwise (· < ·)) : l.Nodup := by
  rw [List.pairwise_map] at h
  refine h.imp fun {a b} hlt => ?_
  rintro rfl
  exact lt_irrefl _ hlt

/-- Two logs with strictly increasing ranks and the same entries are equal. -/
theorem eq_of_mem_iff (rank : γ → Nat) {l m : List γ} (hl : (l.map rank).Pairwise (· < ·))
    (hm : (m.map rank).Pairwise (· < ·)) (h : ∀ x, x ∈ l ↔ x ∈ m) : l = m := by
  have hperm : l.Perm m := (List.perm_ext_iff_of_nodup (nodup rank hl) (nodup rank hm)).mpr h
  rw [List.pairwise_map] at hl hm
  refine hperm.eq_of_pairwise (fun a b _ _ hab hba => ?_) hl hm
  exact absurd hab (lt_asymm hba)

/-- A log whose entries all have a source is what a sublist of the sources gives. -/
theorem exists_sublist (f : α → γ) (g : β → γ) (rank : γ → Nat) {l : List α} {m : List β}
    (hl : (l.map fun a => rank (f a)).Pairwise (· < ·))
    (hm : (m.map fun b => rank (g b)).Pairwise (· < ·)) (h : ∀ b ∈ m, ∃ a ∈ l, f a = g b) :
    ∃ sub : List α, sub.Sublist l ∧ List.Forall₂ (fun a b => f a = g b) sub m := by
  classical
  refine ⟨l.filter fun a => f a ∈ m.map g, List.filter_sublist, ?_⟩
  have hsub : ((l.filter fun a => f a ∈ m.map g).map f) = m.map g := by
    refine eq_of_mem_iff rank ?_ ?_ fun x => ?_
    · rw [List.map_map]
      exact hl.sublist (List.filter_sublist.map _)
    · rw [List.map_map]
      exact hm
    · simp only [List.mem_map, List.mem_filter, decide_eq_true_eq]
      constructor
      · rintro ⟨a, ⟨-, b, hb, hba⟩, rfl⟩
        exact ⟨b, hb, hba⟩
      · rintro ⟨b, hb, rfl⟩
        obtain ⟨a, ha, hab⟩ := h b hb
        exact ⟨a, ⟨ha, b, hb, hab.symm⟩, hab⟩
  have hall : List.Forall₂ (fun a b => a = b)
      ((l.filter fun a => f a ∈ m.map g).map f) (m.map g) := by
    rw [hsub]
    exact List.forall₂_refl _
  rw [List.forall₂_map_left_iff, List.forall₂_map_right_iff] at hall
  exact hall

/-- Matched logs are matched entry by entry with any fact about the entries. -/
theorem forall₂_of_mem {R S : α → β → Prop} {l : List α} {m : List β} (h : List.Forall₂ R l m)
    (hS : ∀ a ∈ l, ∀ b ∈ m, R a b → S a b) : List.Forall₂ S l m := by
  induction h with
  | nil => exact .nil
  | cons hab _ ih =>
    exact .cons (hS _ (by simp) _ (by simp) hab)
      (ih fun a ha b hb => hS a (by simp [ha]) b (by simp [hb]))

end Increasing
