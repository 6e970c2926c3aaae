import Mathlib.Data.List.Perm.Subperm

/-!
# Ordered maps

`std::map` with a numeric key: the entries in the order of their keys, each key once.  The order is
the one in which a loop over the map visits the entries.

## Main definitions

* `OrderedMap α`: entries sorted by their keys
* `get?`, `set`, `erase`, `filter`, `mapValues`: `find`, assignment through `operator[]`, `erase`,
  and the loops that erase or change entries

## Main results

* `get?_set`, `get?_erase`, `get?_filter`, `get?_mapValues`: what is found after a change
* `mem_keys_set`, `mem_keys_erase`: the keys after a change
* `size_set_of_mem`, `size_set_of_not_mem`, `size_le_of_keys_subset`: the number of entries
-/

namespace ProtoRelay

open List

/-- Entries sorted by their keys. -/
structure OrderedMap (α : Type*) where
  entries : List (Nat × α)
  sorted : entries.Pairwise (·.1 < ·.1)

namespace OrderedMap

variable {α β : Type*}

/-- Insertion into sorted entries; an entry with the same key is replaced. -/
def insertEntry (k : Nat) (v : α) : List (Nat × α) → List (Nat × α)
  | [] => [(k, v)]
  | e :: es =>
    if k < e.1 then (k, v) :: e :: es
    else if k = e.1 then (k, v) :: es
    else e :: insertEntry k v es

theorem mem_insertEntry_iff {k : Nat} {v : α} {e : Nat × α} {es : List (Nat × α)}
    (h : es.Pairwise (·.1 < ·.1)) : e ∈ insertEntry k v es ↔ e = (k, v) ∨ e.1 ≠ k ∧ e ∈ es := by
  fun_induction insertEntry k v es with
  | case1 => simp
  | case2 | case3 | case4 => grind [pairwise_cons]

theorem sorted_insertEntry (k : Nat) (v : α) {es : List (Nat × α)}
    (h : es.Pairwise (·.1 < ·.1)) : (insertEntry k v es).Pairwise (·.1 < ·.1) := by
  induction es with
  | nil => exact pairwise_singleton _ _
  | cons e es ih =>
    obtain ⟨hhead, htail⟩ := pairwise_cons.mp h
    rw [insertEntry]
    split
    · rename_i hlt
      refine pairwise_cons.mpr ⟨fun e' he' => ?_, h⟩
      rcases mem_cons.mp he' with rfl | he'
      · exact hlt
      · exact Nat.lt_trans hlt (hhead e' he')
    · split
      · rename_i heq
        exact pairwise_cons.mpr ⟨fun e' he' => heq ▸ hhead e' he', htail⟩
      · refine pairwise_cons.mpr ⟨fun e' he' => ?_, ih htail⟩
        rcases (mem_insertEntry_iff htail).mp he' with rfl | ⟨-, he'⟩
        · omega
        · exact hhead e' he'

/-! ## Operations -/

def empty : OrderedMap α := ⟨[], .nil⟩

/-- `find`. -/
def get? (m : OrderedMap α) (k : Nat) : Option α := m.entries.lookup k

/-- Assignment through `operator[]`. -/
def set (m : OrderedMap α) (k : Nat) (v : α) : OrderedMap α :=
  ⟨insertEntry k v m.entries, sorted_insertEntry k v m.sorted⟩

/-- The loop that erases the entries whose values do not satisfy `p`. -/
def filter (m : OrderedMap α) (p : α → Bool) : OrderedMap α :=
  ⟨m.entries.filter (p ·.2), m.sorted.filter _⟩

def erase (m : OrderedMap α) (k : Nat) : OrderedMap α :=
  ⟨m.entries.filter (·.1 != k), m.sorted.filter _⟩

/-- The loop that changes every value. -/
def mapValues (m : OrderedMap α) (f : α → β) : OrderedMap β :=
  ⟨m.entries.map fun e => (e.1, f e.2), pairwise_map.mpr m.sorted⟩

def keys (m : OrderedMap α) : List Nat := m.entries.map (·.1)

def size (m : OrderedMap α) : Nat := m.entries.length

section

variable {m : OrderedMap α} {k k' : Nat} {v v' : α}

@[simp] theorem length_keys (m : OrderedMap α) : m.keys.length = m.size := length_map _

theorem nodup_keys (m : OrderedMap α) : m.keys.Nodup :=
  pairwise_map.mpr (m.sorted.imp fun h => Nat.ne_of_lt h)

/-! ## What is found -/

theorem lookup_eq_some_iff {es : List (Nat × α)} (hsorted : es.Pairwise (·.1 < ·.1)) :
    es.lookup k = some v ↔ (k, v) ∈ es := by
  induction es with
  | nil => simp
  | cons e es ih =>
    obtain ⟨hhead, htail⟩ := pairwise_cons.mp hsorted
    rw [lookup_cons, mem_cons]
    by_cases hk : k = e.1
    · subst hk
      simp only [beq_self_eq_true, Option.some.injEq]
      refine ⟨fun h => .inl (by rw [← h]), ?_⟩
      rintro (h | h)
      · rw [← h]
      · exact absurd (hhead _ h) (Nat.lt_irrefl _)
    · have hne : (k == e.1) = false := by simpa using hk
      rw [hne]
      rw [ih htail]
      refine ⟨.inr, ?_⟩
      rintro (h | h)
      · exact absurd (by rw [← h]) hk
      · exact h

theorem get?_eq_some_iff : m.get? k = some v ↔ (k, v) ∈ m.entries := lookup_eq_some_iff m.sorted

theorem mem_keys_iff : k ∈ m.keys ↔ ∃ v, m.get? k = some v := by
  simp [keys, get?_eq_some_iff]

theorem mem_keys_of_get? (h : m.get? k = some v) : k ∈ m.keys := mem_keys_iff.mpr ⟨v, h⟩

theorem get?_eq_none_iff : m.get? k = none ↔ k ∉ m.keys := by
  rw [mem_keys_iff, Option.eq_none_iff_forall_ne_some, not_exists]

theorem get?_set (m : OrderedMap α) (k k' : Nat) (v : α) :
    (m.set k v).get? k' = if k' = k then some v else m.get? k' := by
  apply Option.ext
  intro v'
  rw [get?_eq_some_iff, set, mem_insertEntry_iff m.sorted]
  split
  · rename_i h
    simp [h, eq_comm]
  · rename_i h
    simp [h, get?_eq_some_iff]

@[simp] theorem get?_set_self (m : OrderedMap α) (k : Nat) (v : α) :
    (m.set k v).get? k = some v := by
  rw [get?_set, if_pos rfl]

theorem get?_set_of_ne (h : k' ≠ k) (m : OrderedMap α) (v : α) :
    (m.set k v).get? k' = m.get? k' := by
  rw [get?_set, if_neg h]

theorem get?_filter (m : OrderedMap α) (p : α → Bool) (k : Nat) :
    (m.filter p).get? k = (m.get? k).filter p := by
  apply Option.ext
  intro v
  rw [get?_eq_some_iff, filter, mem_filter, Option.filter_eq_some_iff, get?_eq_some_iff]

theorem get?_of_get?_filter {p : α → Bool} (h : (m.filter p).get? k = some v) :
    m.get? k = some v ∧ p v = true := by
  rw [get?_filter] at h
  exact Option.filter_eq_some_iff.mp h

theorem get?_erase (m : OrderedMap α) (k k' : Nat) :
    (m.erase k).get? k' = if k' = k then none else m.get? k' := by
  apply Option.ext
  intro v
  rw [get?_eq_some_iff, erase]
  split
  · rename_i h
    simp [h]
  · rename_i h
    simp [h, get?_eq_some_iff]

theorem get?_of_get?_erase (h : (m.erase k).get? k' = some v) : m.get? k' = some v ∧ k' ≠ k := by
  rw [get?_erase] at h
  split at h
  · cases h
  · exact ⟨h, ‹_›⟩

theorem get?_mapValues (m : OrderedMap α) (f : α → β) (k : Nat) :
    (m.mapValues f).get? k = (m.get? k).map f := by
  apply Option.ext
  intro w
  rw [get?_eq_some_iff, mapValues, mem_map, Option.map_eq_some_iff]
  constructor
  · rintro ⟨e, he, heq⟩
    cases heq
    exact ⟨e.2, get?_eq_some_iff.mpr he, rfl⟩
  · rintro ⟨v, hv, rfl⟩
    exact ⟨(k, v), get?_eq_some_iff.mp hv, rfl⟩

/-! ## Keys and sizes -/

theorem mem_keys_set : k' ∈ (m.set k v).keys ↔ k' = k ∨ k' ∈ m.keys := by
  rw [mem_keys_iff, mem_keys_iff, get?_set]
  split
  · rename_i h
    simp [h]
  · rename_i h
    simp [h]

theorem mem_keys_erase : k' ∈ (m.erase k).keys ↔ k' ≠ k ∧ k' ∈ m.keys := by
  rw [mem_keys_iff, mem_keys_iff, get?_erase]
  split
  · rename_i h
    simp [h]
  · rename_i h
    simp [h]

@[simp] theorem keys_mapValues (m : OrderedMap α) (f : α → β) : (m.mapValues f).keys = m.keys := by
  simp [keys, mapValues]

/-- A map with fewer keys has fewer entries. -/
theorem size_le_of_keys_subset {m' : OrderedMap β} (h : ∀ k ∈ m.keys, k ∈ m'.keys) :
    m.size ≤ m'.size := by
  rw [← length_keys, ← length_keys]
  exact (subperm_of_subset m.nodup_keys h).length_le

theorem size_set_of_mem (h : k ∈ m.keys) (v : α) : (m.set k v).size = m.size := by
  apply Nat.le_antisymm
  · refine size_le_of_keys_subset fun k' hk' => ?_
    rcases mem_keys_set.mp hk' with rfl | hk'
    · exact h
    · exact hk'
  · exact size_le_of_keys_subset fun k' hk' => mem_keys_set.mpr (.inr hk')

theorem size_set_of_not_mem (h : k ∉ m.keys) (v : α) : (m.set k v).size = m.size + 1 := by
  have hperm : (m.set k v).keys.Perm (k :: m.keys) := by
    refine (perm_ext_iff_of_nodup (nodup_keys _) ?_).mpr fun k' => ?_
    · exact nodup_cons.mpr ⟨h, m.nodup_keys⟩
    · rw [mem_keys_set, mem_cons]
  have hlen := hperm.length_eq
  rwa [length_keys, length_cons, length_keys] at hlen

end

end OrderedMap

end ProtoRelay
