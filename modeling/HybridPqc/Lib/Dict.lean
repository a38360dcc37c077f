import Mathlib.Data.List.Nodup
import Mathlib.Tactic.Linarith

/-!
# Insertion-ordered dictionaries

Association lists with distinct keys. Setting a key that is present keeps its position, setting a new
key appends it, so the first key is the one that was inserted earliest among those still present.
-/

namespace Assoc

variable {κ α : Type} [DecidableEq κ]

/-- `l[k] = v` on an association list: in place when `k` is present, at the end otherwise. -/
def set (k : κ) (v : α) : List (κ × α) → List (κ × α)
  | [] => [(k, v)]
  | (k', v') :: l => if k' = k then (k', v) :: l else (k', v') :: set k v l

@[simp] theorem map_fst_set (k : κ) (v : α) (l : List (κ × α)) :
    (set k v l).map Prod.fst =
      if k ∈ l.map Prod.fst then l.map Prod.fst else l.map Prod.fst ++ [k] := by
  induction l with
  | nil => simp [set]
  | cons p l ih =>
    obtain ⟨k', v'⟩ := p
    by_cases h : k' = k
    · simp [set, h]
    · simp only [set, if_neg h, List.map_cons, ih, List.mem_cons, Ne.symm h, false_or]
      split <;> rfl

theorem mem_map_fst_set {k k' : κ} {v : α} {l : List (κ × α)} :
    k' ∈ (set k v l).map Prod.fst ↔ k' = k ∨ k' ∈ l.map Prod.fst := by
  rw [map_fst_set]
  split
  · next h =>
    constructor
    · exact .inr
    · rintro (rfl | h')
      · exact h
      · exact h'
  · rw [List.mem_append, List.mem_singleton, or_comm]

theorem set_ne_nil (k : κ) (v : α) (l : List (κ × α)) : set k v l ≠ [] := by
  cases l with
  | nil => simp [set]
  | cons p l =>
    rw [set]
    split <;> simp

theorem lookup_set [BEq κ] [LawfulBEq κ] (k k' : κ) (v : α) (l : List (κ × α)) :
    (set k v l).lookup k' = if k' = k then some v else l.lookup k' := by
  induction l with
  | nil =>
    by_cases h : k' = k
    · simp [set, h]
    · have hb : (k' == k) = false := by simpa using h
      simp [set, List.lookup_cons, h, hb]
  | cons p l ih =>
    obtain ⟨k₁, v₁⟩ := p
    by_cases h : k₁ = k
    · subst h
      by_cases h' : k' = k₁
      · simp [set, h']
      · have hb : (k' == k₁) = false := by simpa using h'
        simp [set, List.lookup_cons, h', hb]
    · by_cases h' : k' = k₁
      · subst h'
        simp [set, h]
      · have hb : (k' == k₁) = false := by simpa using h'
        simp [set, h, List.lookup_cons, hb, ih]

/-- Setting a key changes nothing when it has this value already. -/
theorem set_eq_self_iff [BEq κ] [LawfulBEq κ] {k : κ} {v : α} {l : List (κ × α)} :
    set k v l = l ↔ l.lookup k = some v := by
  induction l with
  | nil => simp [set]
  | cons p l ih =>
    obtain ⟨k', v'⟩ := p
    by_cases h : k' = k
    · subst h
      simp [set, eq_comm]
    · have hb : (k == k') = false := by simpa using Ne.symm h
      simp [set, h, List.lookup_cons, hb, ih]

theorem lookup_eq_none_iff {k : κ} {l : List (κ × α)} :
    l.lookup k = none ↔ k ∉ l.map Prod.fst := by
  rw [List.lookup_eq_none_iff]
  constructor
  · rintro h hk
    obtain ⟨p, hp, rfl⟩ := List.mem_map.mp hk
    simpa using h p hp
  · intro h p hp
    simp only [bne_iff_ne, ne_eq]
    rintro rfl
    exact h (List.mem_map_of_mem hp)

theorem lookup_filter_ne {k k' : κ} (h : k' ≠ k) (l : List (κ × α)) :
    (l.filter fun p => decide (p.1 ≠ k)).lookup k' = l.lookup k' := by
  induction l with
  | nil => rfl
  | cons p l ih =>
    by_cases hp : p.1 = k
    · have hb : (k' == p.1) = false := by simpa [hp] using h
      rw [List.filter_cons_of_neg (by simpa using hp), ih, List.lookup_cons, hb]
    · rw [List.filter_cons_of_pos (by simpa using hp), List.lookup_cons, List.lookup_cons, ih]

theorem map_fst_filter_ne (k : κ) (l : List (κ × α)) :
    (l.filter fun p => decide (p.1 ≠ k)).map Prod.fst =
      (l.map Prod.fst).filter fun a => decide (a ≠ k) := by
  rw [List.filter_map]
  rfl

theorem filter_ne_of_notMem {k : κ} {l : List (κ × α)} (h : k ∉ l.map Prod.fst) :
    (l.filter fun p => decide (p.1 ≠ k)) = l := by
  rw [List.filter_eq_self]
  intro p hp
  have hne : p.1 ≠ k := by
    rintro rfl
    exact h (List.mem_map_of_mem hp)
  simpa using hne

theorem filter_ne_set (k : κ) (v : α) (l : List (κ × α)) :
    ((set k v l).filter fun p => decide (p.1 ≠ k)) = l.filter fun p => decide (p.1 ≠ k) := by
  induction l with
  | nil => simp [set]
  | cons p l ih =>
    obtain ⟨k', v'⟩ := p
    by_cases h : k' = k
    · simp [set, h]
    · rw [set, if_neg h, List.filter_cons_of_pos (by simpa using h),
        List.filter_cons_of_pos (by simpa using h), ih]

theorem mem_set {k : κ} {v : α} {l : List (κ × α)} {p : κ × α} (h : p ∈ set k v l) :
    p = (k, v) ∨ p ∈ l := by
  induction l with
  | nil => exact .inl (List.mem_singleton.mp h)
  | cons q l ih =>
    obtain ⟨k', v'⟩ := q
    rw [set] at h
    split at h
    · next hk =>
      rcases List.mem_cons.mp h with rfl | h
      · exact .inl (by rw [hk])
      · exact .inr (List.mem_cons_of_mem _ h)
    · rcases List.mem_cons.mp h with rfl | h
      · exact .inr List.mem_cons_self
      · rcases ih h with h | h
        · exact .inl h
        · exact .inr (List.mem_cons_of_mem _ h)

/-- The entry of a key, and the others. -/
theorem perm_cons_filter_ne {k : κ} {v : α} {l : List (κ × α)} (hl : (l.map Prod.fst).Nodup)
    (h : l.lookup k = some v) : l.Perm ((k, v) :: l.filter fun p => decide (p.1 ≠ k)) := by
  induction l with
  | nil => simp at h
  | cons p l ih =>
    obtain ⟨k', v'⟩ := p
    rw [List.map_cons, List.nodup_cons] at hl
    by_cases hk : k' = k
    · subst hk
      have hv : v' = v := by simpa using h
      subst hv
      rw [List.filter_cons_of_neg (by simp), filter_ne_of_notMem hl.1]
    · have hb : (k == k') = false := by simpa using Ne.symm hk
      rw [List.lookup_cons, hb] at h
      rw [List.filter_cons_of_pos (by simpa using hk)]
      exact ((ih hl.2 h).cons (k', v')).trans (List.Perm.swap (k, v) (k', v') _)

end Assoc

/-- A dictionary in insertion order: `nodup` makes a repeated key impossible. -/
@[ext]
structure Dict (κ α : Type) where
  entries : List (κ × α)
  nodup : (entries.map Prod.fst).Nodup

namespace Dict

variable {κ α : Type}

def empty : Dict κ α := ⟨[], List.nodup_nil⟩

def keys (d : Dict κ α) : List κ := d.entries.map Prod.fst

/-- `len(d)`. -/
def size (d : Dict κ α) : Nat := d.entries.length

/-- `next(iter(d))`: the earliest inserted key. -/
def oldest? (d : Dict κ α) : Option κ := d.keys.head?

theorem keys_nodup (d : Dict κ α) : d.keys.Nodup := d.nodup

@[simp] theorem keys_length (d : Dict κ α) : d.keys.length = d.size := by simp [keys, size]

@[simp] theorem keys_empty : (empty : Dict κ α).keys = [] := rfl

@[simp] theorem size_empty : (empty : Dict κ α).size = 0 := rfl

variable [DecidableEq κ]

/-- `d.get(k)`. -/
def get? (d : Dict κ α) (k : κ) : Option α := d.entries.lookup k

/-- `d[k] = v`. -/
def set (d : Dict κ α) (k : κ) (v : α) : Dict κ α where
  entries := Assoc.set k v d.entries
  nodup := by
    rw [Assoc.map_fst_set]
    split
    · exact d.nodup
    · next h => exact List.nodup_append.mpr ⟨d.nodup, List.nodup_singleton k, by
        rintro a ha b hb rfl
        exact h (List.mem_singleton.mp hb ▸ ha)⟩

/-- `del d[k]`, and nothing when `k` is absent. -/
def erase (d : Dict κ α) (k : κ) : Dict κ α where
  entries := d.entries.filter fun p => decide (p.1 ≠ k)
  nodup := by
    rw [Assoc.map_fst_filter_ne]
    exact d.nodup.filter _

@[simp] theorem get?_empty (k : κ) : (empty : Dict κ α).get? k = none := rfl

theorem get?_eq_none_iff {d : Dict κ α} {k : κ} : d.get? k = none ↔ k ∉ d.keys :=
  Assoc.lookup_eq_none_iff

theorem mem_keys_of_get? {d : Dict κ α} {k : κ} {v : α} (h : d.get? k = some v) : k ∈ d.keys := by
  by_contra hk
  rw [get?_eq_none_iff.mpr hk] at h
  cases h

theorem exists_get? {d : Dict κ α} {k : κ} (h : k ∈ d.keys) : ∃ v, d.get? k = some v := by
  cases hv : d.get? k with
  | none => exact absurd h (get?_eq_none_iff.mp hv)
  | some v => exact ⟨v, rfl⟩

theorem get?_set (d : Dict κ α) (k k' : κ) (v : α) :
    (d.set k v).get? k' = if k' = k then some v else d.get? k' :=
  Assoc.lookup_set k k' v d.entries

@[simp] theorem get?_set_self (d : Dict κ α) (k : κ) (v : α) : (d.set k v).get? k = some v := by
  rw [get?_set, if_pos rfl]

theorem get?_set_ne (d : Dict κ α) {k k' : κ} (v : α) (h : k' ≠ k) :
    (d.set k v).get? k' = d.get? k' := by
  rw [get?_set, if_neg h]

theorem keys_set (d : Dict κ α) (k : κ) (v : α) :
    (d.set k v).keys = if k ∈ d.keys then d.keys else d.keys ++ [k] :=
  Assoc.map_fst_set k v d.entries

theorem keys_set_of_mem {d : Dict κ α} {k : κ} (v : α) (h : k ∈ d.keys) :
    (d.set k v).keys = d.keys := by
  rw [keys_set, if_pos h]

theorem keys_set_of_notMem {d : Dict κ α} {k : κ} (v : α) (h : k ∉ d.keys) :
    (d.set k v).keys = d.keys ++ [k] := by
  rw [keys_set, if_neg h]

theorem get?_erase_ne (d : Dict κ α) {k k' : κ} (h : k' ≠ k) : (d.erase k).get? k' = d.get? k' :=
  Assoc.lookup_filter_ne h d.entries

theorem keys_erase (d : Dict κ α) (k : κ) :
    (d.erase k).keys = d.keys.filter fun a => decide (a ≠ k) :=
  Assoc.map_fst_filter_ne k d.entries

theorem get?_erase_self (d : Dict κ α) (k : κ) : (d.erase k).get? k = none := by
  rw [get?_eq_none_iff, keys_erase]
  simp

/-- Removing the oldest key removes the first key and keeps the order of the others. -/
theorem keys_erase_oldest {d : Dict κ α} {k : κ} (h : d.oldest? = some k) :
    (d.erase k).keys = d.keys.tail := by
  rw [keys_erase]
  have hd := d.keys_nodup
  unfold oldest? at h
  cases hk : d.keys with
  | nil => rw [hk] at h; simp at h
  | cons a l =>
    rw [hk] at h hd
    simp only [List.head?_cons, Option.some.injEq] at h
    subst h
    rw [List.filter_cons_of_neg (by simp), List.tail_cons, List.filter_eq_self]
    intro b hb
    simp only [ne_eq, decide_not, Bool.not_eq_true', decide_eq_false_iff_not]
    rintro rfl
    exact (List.nodup_cons.mp hd).1 hb

theorem erase_set (d : Dict κ α) (k : κ) (v : α) : (d.set k v).erase k = d.erase k :=
  Dict.ext (Assoc.filter_ne_set k v d.entries)

theorem erase_of_get?_eq_none {d : Dict κ α} {k : κ} (h : d.get? k = none) : d.erase k = d :=
  Dict.ext (Assoc.filter_ne_of_notMem (get?_eq_none_iff.mp h))

/-- The entry of a key, and those that are left when it is deleted. -/
theorem entries_perm {d : Dict κ α} {k : κ} {v : α} (h : d.get? k = some v) :
    d.entries.Perm ((k, v) :: (d.erase k).entries) :=
  Assoc.perm_cons_filter_ne d.nodup h

theorem ne_of_mem_entries_erase {d : Dict κ α} {k : κ} {p : κ × α} (h : p ∈ (d.erase k).entries) :
    p.1 ≠ k := by
  have hp := (List.mem_filter.mp h).2
  simpa using hp

theorem mem_entries_set {d : Dict κ α} {k : κ} {v : α} {p : κ × α} (h : p ∈ (d.set k v).entries) :
    p = (k, v) ∨ p ∈ d.entries :=
  Assoc.mem_set h

theorem mem_entries_of_erase {d : Dict κ α} {k : κ} {p : κ × α} (h : p ∈ (d.erase k).entries) :
    p ∈ d.entries :=
  (List.mem_filter.mp h).1

theorem mem_entries_of_get? {d : Dict κ α} {k : κ} {v : α} (h : d.get? k = some v) :
    (k, v) ∈ d.entries :=
  (entries_perm h).symm.subset List.mem_cons_self

end Dict
