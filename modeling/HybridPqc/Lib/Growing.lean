import Mathlib.Data.List.Nodup

/-!
# Lists that grow at the end

A history to which entries are appended and in which an entry is named by its position. Positions stay
valid as the list grows, and a key that never repeats determines the position.
-/

namespace Growing

variable {α β : Type} {l l' : List α} {a b : α} {i j : Nat}

theorem getElem?_append (h : l[i]? = some a) (m : List α) : (l ++ m)[i]? = some a := by
  rw [List.getElem?_append_left (List.getElem?_eq_some_iff.mp h).1]
  exact h

theorem getElem?_prefix (hl : l <+: l') (h : l[i]? = some a) : l'[i]? = some a := by
  obtain ⟨m, rfl⟩ := hl
  exact getElem?_append h m

/-- An entry of the grown list is an old one, or the new one in the last position. -/
theorem getElem?_concat (h : (l ++ [b])[i]? = some a) : l[i]? = some a ∨ i = l.length ∧ a = b := by
  rcases Nat.lt_or_ge i l.length with hlt | hge
  · rw [List.getElem?_append_left hlt] at h
    exact .inl h
  · have hi : i = l.length := by
      have hbound := (List.getElem?_eq_some_iff.mp h).1
      rw [List.length_append, List.length_singleton] at hbound
      omega
    subst hi
    rw [List.getElem?_concat_length, Option.some.injEq] at h
    exact .inr ⟨rfl, h.symm⟩

theorem eq_of_nodup_map {f : α → β} (hl : (l.map f).Nodup) (hi : l[i]? = some a)
    (hj : l[j]? = some b) (h : f a = f b) : i = j := by
  have hi' : (l.map f)[i]? = some (f a) := by rw [List.getElem?_map, hi]; rfl
  have hj' : (l.map f)[j]? = some (f a) := by rw [List.getElem?_map, hj, h]; rfl
  have hlt := (List.getElem?_eq_some_iff.mp hi').1
  exact (List.getElem?_inj hlt hl).mp (hi'.trans hj'.symm)

theorem nodup_map_concat {f : α → β} (hl : (l.map f).Nodup) (hnew : ∀ a ∈ l, f b ≠ f a) :
    ((l ++ [b]).map f).Nodup := by
  rw [List.map_append, List.nodup_append]
  refine ⟨hl, List.nodup_singleton _, ?_⟩
  intro x hx y hy
  obtain ⟨a, ha, rfl⟩ := List.mem_map.mp hx
  rw [List.map_singleton, List.mem_singleton] at hy
  rw [hy]
  exact (hnew a ha).symm

end Growing
