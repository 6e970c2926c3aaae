import Mathlib.Data.List.Basic

/-!
# Logs

What a machine has done is recorded in a list, newest first.  Most of what is said about it has one
of two shapes: every entry is justified by the entries before it, or an entry is still in force
because no later one has revoked it.

## Main definitions

* `Grounded P log`: every entry `e` of `log` satisfies `P e earlier`, for the entries before it
* `InForce revokes e log`: `e` is in `log`, and no later entry revokes it

## Main results

* `grounded_cons`: an entry is added when it is justified
* `inForce_cons`: what is in force after an entry was added
-/

namespace ProtoRelay

variable {ε : Type*}

/-- Every entry of the log is justified by those before it. -/
def Grounded (P : ε → List ε → Prop) (log : List ε) : Prop :=
  ∀ later e earlier, log = later ++ e :: earlier → P e earlier

variable {P : ε → List ε → Prop}

theorem grounded_nil : Grounded P [] := by
  intro later e earlier h
  simp at h

variable {e : ε} {log : List ε}

theorem grounded_cons : Grounded P (e :: log) ↔ P e log ∧ Grounded P log := by
  constructor
  · intro h
    refine ⟨h [] e log rfl, fun later e' earlier hlog => ?_⟩
    exact h (e :: later) e' earlier (by rw [hlog, List.cons_append])
  · rintro ⟨he, h⟩ later e' earlier hlog
    cases later with
    | nil =>
      obtain ⟨rfl, rfl⟩ := List.cons.inj hlog
      exact he
    | cons x later => exact h later e' earlier (List.cons.inj hlog).2

theorem Grounded.cons (h : Grounded P log) (he : P e log) : Grounded P (e :: log) :=
  grounded_cons.mpr ⟨he, h⟩

/-- An entry splits the log at its place. -/
theorem Grounded.exists_of_mem (h : Grounded P log) (he : e ∈ log) :
    ∃ later earlier, log = later ++ e :: earlier ∧ P e earlier := by
  obtain ⟨later, earlier, hlog⟩ := List.append_of_mem he
  exact ⟨later, earlier, hlog, h later e earlier hlog⟩

/-! ## Revocation -/

/-- The entry `e` was made, and no later entry revokes it. -/
def InForce (revokes : ε → ε → Prop) (e : ε) (log : List ε) : Prop :=
  ∃ later earlier, log = later ++ e :: earlier ∧ ∀ e' ∈ later, ¬ revokes e' e

variable {revokes : ε → ε → Prop}

theorem not_inForce_nil (e : ε) : ¬ InForce revokes e [] := by
  rintro ⟨later, earlier, hlog, -⟩
  simp at hlog

theorem inForce_cons {e' : ε} :
    InForce revokes e (e' :: log) ↔ e' = e ∨ (InForce revokes e log ∧ ¬ revokes e' e) := by
  constructor
  · rintro ⟨later, earlier, hlog, hlater⟩
    cases later with
    | nil => exact .inl (List.cons.inj hlog).1
    | cons x later =>
      obtain ⟨rfl, hrest⟩ := List.cons.inj hlog
      exact .inr ⟨⟨later, earlier, hrest, fun e'' he'' => hlater e'' (.tail _ he'')⟩,
        hlater _ List.mem_cons_self⟩
  · rintro (rfl | ⟨⟨later, earlier, rfl, hlater⟩, hnot⟩)
    · exact ⟨[], log, rfl, nofun⟩
    · exact ⟨e' :: later, earlier, rfl, List.forall_mem_cons.mpr ⟨hnot, hlater⟩⟩

theorem InForce.mem (h : InForce revokes e log) : e ∈ log := by
  obtain ⟨later, earlier, rfl, -⟩ := h
  simp

end ProtoRelay
