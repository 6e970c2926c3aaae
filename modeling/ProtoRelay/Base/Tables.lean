import Mathlib.Data.List.Nodup

/-!
# Tables

A statement `UPDATE t SET .. WHERE ..` is a guarded map over the rows of a table.  This module has
the rules by which facts about the rows of a table pass through it.

## Main definitions

* `SqlOutcome`: how statements end
* `updateWhere p f rows`: the rows after `f` was applied to those that satisfy `p`

## Main results

* `mem_updateWhere`: the rows after an update
* `eq_of_key_eq`, `filter_key_eq_singleton`: a row is determined by its key
* `filter_eq_filter_iff`: when two DELETE statements leave the same rows
-/

namespace ProtoRelay

open List

variable {α κ : Type*}

/-- How a statement ends: it is done, it fails, or it is executed and its answer is lost. -/
inductive SqlOutcome
  | done | failed | lost
  deriving DecidableEq

def SqlOutcome.executed (o : SqlOutcome) : Bool := o != .failed

/-- What the client of the database is told. -/
def SqlOutcome.reported (o : SqlOutcome) : Bool := o == .done

/-- The rows after `UPDATE .. SET f WHERE p`. -/
def updateWhere (p : α → Bool) (f : α → α) (rows : List α) : List α :=
  rows.map fun r => if p r then f r else r

section

variable {p : α → Bool} {f : α → α} {rows : List α} {r r' : α}

theorem mem_updateWhere : r' ∈ updateWhere p f rows ↔ ∃ r ∈ rows, r' = if p r then f r else r := by
  simp only [updateWhere, mem_map, eq_comm]

theorem mem_updateWhere_of_not (hr : r ∈ rows) (hp : p r = false) : r ∈ updateWhere p f rows :=
  mem_updateWhere.mpr ⟨r, hr, by simp [hp]⟩

theorem mem_updateWhere_of_pos (hr : r ∈ rows) (hp : p r = true) : f r ∈ updateWhere p f rows :=
  mem_updateWhere.mpr ⟨r, hr, by simp [hp]⟩

/-- A row stays if it is not updated, or if it is what the update makes of it. -/
theorem mem_updateWhere_self_iff (hf : ∀ r, f (f r) = f r) (hr : r ∈ rows) :
    r ∈ updateWhere p f rows ↔ (p r = true → f r = r) := by
  constructor
  · intro hmem hp
    obtain ⟨row, -, hrow⟩ := mem_updateWhere.mp hmem
    split at hrow
    · rw [hrow, hf]
    · next hnot => exact absurd (hrow ▸ hp) hnot
  · intro h
    by_cases hp : p r = true
    · exact h hp ▸ mem_updateWhere_of_pos hr hp
    · exact mem_updateWhere_of_not hr (eq_false_of_ne_true hp)

theorem map_updateWhere (key : α → κ) (hf : ∀ r, key (f r) = key r) :
    (updateWhere p f rows).map key = rows.map key := by
  simp only [updateWhere, map_map, map_inj_left, Function.comp_apply]
  intro r _
  split
  · exact hf r
  · rfl

/-- What `f` keeps for the rows it is applied to, an update keeps for all rows. -/
theorem forall_mem_updateWhere {P : α → Prop} (h : ∀ r ∈ rows, P r)
    (hf : ∀ r ∈ rows, p r = true → P r → P (f r)) : ∀ r ∈ updateWhere p f rows, P r := by
  intro r' hr'
  obtain ⟨r, hr, rfl⟩ := mem_updateWhere.mp hr'
  split
  · rename_i hp
    exact hf r hr hp (h r hr)
  · exact h r hr

/-- A row is determined by its key. -/
theorem eq_of_key_eq {key : α → κ} (hnd : (rows.map key).Nodup) (hr : r ∈ rows)
    (hr' : r' ∈ rows) (hkey : key r = key r') : r = r' :=
  inj_on_of_nodup_map hnd hr hr' hkey

/-- A key selects one row. -/
theorem filter_key_eq_singleton [DecidableEq κ] {key : α → κ} (hnd : (rows.map key).Nodup)
    (hr : r ∈ rows) : (rows.filter fun r' => key r' = key r) = [r] := by
  induction rows with
  | nil => cases hr
  | cons row rows ih =>
    rw [map_cons, nodup_cons] at hnd
    rcases mem_cons.mp hr with rfl | hr
    · -- no other row has the key of the first one
      have hrest : (rows.filter fun r' => key r' = key r) = [] := by
        rw [filter_eq_nil_iff]
        intro r' hr' hkey
        exact hnd.1 (of_decide_eq_true hkey ▸ mem_map_of_mem hr')
      rw [filter_cons_of_pos (by simp), hrest]
    · have hne : key row ≠ key r := fun hkey => hnd.1 (hkey ▸ mem_map_of_mem hr)
      rw [filter_cons_of_neg (by simpa using hne), ih hnd.2 hr]

/-- Two WHERE clauses select the same rows of a table if they agree on each of them. -/
theorem filter_eq_filter_iff {q : α → Bool} :
    rows.filter p = rows.filter q ↔ ∀ r ∈ rows, p r = q r := by
  constructor
  · intro h r hr
    have hmem : r ∈ rows.filter p ↔ r ∈ rows.filter q := by rw [h]
    simpa [hr] using hmem
  · exact fun h => filter_congr h

end

end ProtoRelay
