import Mathlib.Algebra.BigOperators.Group.List.Basic

/-!
# Lists of slots

A machine that keeps one record per party changes one of them in a step.  Counts and sums over the
records then change by what the record contributes before and after.

## Main results

* `sum_map_modify_add`, `countP_modify_add`: sums and counts after a change of one slot
* `forall_mem_modify`: what holds for every slot after one of them was changed
-/

namespace ProtoRelay

open List

variable {α : Type*} {l : List α} {i : Nat} {a : α} {f : α → α}

theorem modify_of_getElem?_eq_none (h : l[i]? = none) : l.modify i f = l :=
  modify_eq_self (List.getElem?_eq_none_iff.mp h)

/-- The sum after a change of one slot. -/
theorem sum_map_modify_add {M : Type*} [AddCommMonoid M] (g : α → M) (h : l[i]? = some a) :
    ((l.modify i f).map g).sum + g a = (l.map g).sum + g (f a) := by
  induction l generalizing i with
  | nil => cases h
  | cons b l ih =>
    cases i with
    | zero =>
      cases h
      simp [add_comm, add_left_comm]
    | succ i =>
      have hl := ih h
      simp only [modify_succ_cons, map_cons, sum_cons]
      rw [add_assoc, hl, add_assoc]

/-- The count after a change of one slot. -/
theorem countP_modify_add (p : α → Bool) (h : l[i]? = some a) :
    (l.modify i f).countP p + (if p a then 1 else 0) = l.countP p + (if p (f a) then 1 else 0) := by
  have hsum : ∀ l : List α, l.countP p = (l.map fun a => if p a then 1 else 0).sum := by
    intro l
    induction l with
    | nil => rfl
    | cons b l ih => simp [countP_cons, ih, add_comm]
  rw [hsum, hsum]
  exact sum_map_modify_add (fun a => if p a then 1 else 0) h

theorem getElem?_modify_self (h : l[i]? = some a) : (l.modify i f)[i]? = some (f a) := by
  simp [h]

theorem getElem?_modify_of_ne {j : Nat} (h : i ≠ j) : (l.modify i f)[j]? = l[j]? := by
  simp [h]

/-- A slot after a change of one of them is that one or another. -/
theorem getElem?_modify_cases {j : Nat} {b : α} (h : l[i]? = some a)
    (hj : (l.modify i f)[j]? = some b) : i = j ∧ b = f a ∨ i ≠ j ∧ l[j]? = some b := by
  by_cases hij : i = j
  · subst hij
    exact .inl ⟨rfl, (Option.some.inj ((getElem?_modify_self h).symm.trans hj)).symm⟩
  · rw [getElem?_modify_of_ne hij] at hj
    exact .inr ⟨hij, hj⟩

/-- A slot replaced by one that looks the same. -/
theorem map_set_of_eq {β : Type*} {g : α → β} {b : α} (h : l[i]? = some a) (hg : g b = g a) :
    (l.set i b).map g = l.map g := by
  apply ext_getElem?
  intro j
  rw [getElem?_map, getElem?_map, getElem?_set]
  split
  · rename_i heq
    subst heq
    have hlt : i < l.length := (List.getElem?_eq_some_iff.mp h).1
    rw [if_pos hlt, h, Option.map_some, Option.map_some, hg]
  · rfl

theorem mem_set_self {b : α} (h : l[i]? = some a) : b ∈ l.set i b := by
  have hlt : i < l.length := (List.getElem?_eq_some_iff.mp h).1
  exact mem_of_getElem? (getElem?_set_self hlt)

/-- The other slots are still there. -/
theorem mem_set_of_mem {b c : α} (h : l[i]? = some a) (hc : c ∈ l) : c = a ∨ c ∈ l.set i b := by
  obtain ⟨j, hj⟩ := mem_iff_getElem?.mp hc
  by_cases heq : i = j
  · subst heq
    rw [h] at hj
    exact .inl (Option.some.inj hj).symm
  · refine .inr (mem_of_getElem? (i := j) ?_)
    rw [getElem?_set_ne heq]
    exact hj

/-- What holds for the changed slot and held for all of them holds for all of them. -/
theorem forall_mem_modify {P : α → Prop} (h : ∀ a ∈ l, P a) (hf : ∀ a ∈ l, P a → P (f a)) :
    ∀ a ∈ l.modify i f, P a := by
  intro b hb
  obtain ⟨j, hj⟩ := mem_iff_getElem?.mp hb
  rw [getElem?_modify] at hj
  obtain ⟨a, ha, rfl⟩ := Option.map_eq_some_iff.mp hj
  have hmem := mem_of_getElem? ha
  split
  · exact hf a hmem (h a hmem)
  · exact h a hmem

end ProtoRelay
