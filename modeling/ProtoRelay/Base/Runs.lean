import Mathlib.Data.List.Infix

/-!
# Runs of an input-driven machine

A server session is a machine that takes one input at a time: bytes from the peer, answers of
asynchronous work, scheduling choices.  Its runs are the folds of its step function over input
lists.  This module has the induction rules by which properties of one step become properties of
every run.

## Main definitions

* `run step s is`: the state after the inputs `is`
* `StepsMeet step P s is`: every step of the run satisfies the condition `P`

## Main results

* `run_invariant`: what every step preserves holds at the end of every run
* `run_invariant_of_stepsMeet`: the same for runs whose steps all meet a condition
* `stepsMeet_iff_forall_good`: when the condition is exact
* `stepsMeet_iff_of_invariant`: when two conditions select the same runs
* `run_related`: a relation every pair of equal steps preserves holds at the end of two runs on the
  same inputs
-/

namespace ProtoRelay

variable {σ τ ι : Type*}

/-- The state after the inputs `is`, taken one by one from `s`. -/
def run (step : σ → ι → σ) (s : σ) (is : List ι) : σ := is.foldl step s

section Run

variable (step : σ → ι → σ)

@[simp] theorem run_nil (s : σ) : run step s [] = s := rfl

@[simp] theorem run_cons (s : σ) (i : ι) (is : List ι) :
    run step s (i :: is) = run step (step s i) is := rfl

@[simp] theorem run_append (s : σ) (is js : List ι) :
    run step s (is ++ js) = run step (run step s is) js := by
  simp [run]

end Run

/-- Every step of the run on `is` from `s` satisfies `P` (of the state before it and its input). -/
def StepsMeet (step : σ → ι → σ) (P : σ → ι → Prop) : σ → List ι → Prop
  | _, [] => True
  | s, i :: is => P s i ∧ StepsMeet step P (step s i) is

section StepsMeet

variable {step : σ → ι → σ} {P Q : σ → ι → Prop}

@[simp] theorem stepsMeet_nil (s : σ) : StepsMeet step P s [] := trivial

@[simp] theorem stepsMeet_cons (s : σ) (i : ι) (is : List ι) :
    StepsMeet step P s (i :: is) ↔ P s i ∧ StepsMeet step P (step s i) is := Iff.rfl

theorem stepsMeet_append (s : σ) (is js : List ι) :
    StepsMeet step P s (is ++ js) ↔
      StepsMeet step P s is ∧ StepsMeet step P (run step s is) js := by
  induction is generalizing s with
  | nil => simp
  | cons i is ih => simp [ih, and_assoc]

theorem stepsMeet_of_forall {s : σ} {is : List ι} (h : ∀ s, ∀ i ∈ is, P s i) :
    StepsMeet step P s is := by
  induction is generalizing s with
  | nil => trivial
  | cons i is ih => exact ⟨h s i List.mem_cons_self, ih fun s j hj => h s j (.tail i hj)⟩

instance StepsMeet.instDecidable [∀ s i, Decidable (P s i)] :
    (s : σ) → (is : List ι) → Decidable (StepsMeet step P s is)
  | _, [] => .isTrue trivial
  | s, i :: is =>
    have := StepsMeet.instDecidable (step s i) is
    inferInstanceAs (Decidable (P s i ∧ StepsMeet step P (step s i) is))

end StepsMeet

section Invariants

variable {step : σ → ι → σ} {P : σ → ι → Prop} (Inv : σ → Prop)

/-- **Invariant rule for conditional runs**: if a step that meets `P` keeps `Inv`, a run whose steps
all meet `P` ends in a state that satisfies it. -/
theorem run_invariant_of_stepsMeet (hstep : ∀ s i, Inv s → P s i → Inv (step s i))
    {s : σ} (hs : Inv s) {is : List ι} (his : StepsMeet step P s is) : Inv (run step s is) := by
  induction is generalizing s with
  | nil => exact hs
  | cons i is ih => exact ih (hstep s i hs his.1) his.2

/-- **Invariant rule**: what every step keeps holds at the end of every run. -/
theorem run_invariant (hstep : ∀ s i, Inv s → Inv (step s i)) {s : σ} (hs : Inv s)
    (is : List ι) : Inv (run step s is) := by
  induction is generalizing s with
  | nil => exact hs
  | cons i is ih => exact ih (hstep s i hs)

/-- **Exactness rule**: if a step that meets `P` keeps the invariant, and one that does not meet it
leads to a bad state, then the runs whose steps all meet `P` are the ones that only see good
states. -/
theorem stepsMeet_iff_forall_good (Inv Good : σ → Prop) (hgood : ∀ s, Inv s → Good s)
    (hstep : ∀ s i, Inv s → P s i → Inv (step s i))
    (hbreak : ∀ s i, Inv s → ¬ P s i → ¬ Good (step s i)) {s : σ} (hs : Inv s) (is : List ι) :
    StepsMeet step P s is ↔ ∀ js, js <+: is → Good (run step s js) := by
  induction is generalizing s with
  | nil => simpa using hgood s hs
  | cons i is ih =>
    constructor
    · rintro ⟨hi, his⟩ js hjs
      cases js with
      | nil => exact hgood s hs
      | cons j js =>
        obtain ⟨rfl, hjs'⟩ := List.cons_prefix_cons.mp hjs
        exact (ih (hstep s j hs hi)).mp his js hjs'
    · intro hall
      have hi : P s i := by
        by_contra hi
        exact hbreak s i hs hi (hall [i] (by simp))
      refine ⟨hi, (ih (hstep s i hs hi)).mpr fun js hjs => ?_⟩
      exact hall (i :: js) (List.cons_prefix_cons.mpr ⟨rfl, hjs⟩)

/-- **Equivalence rule**: conditions on steps that agree where the invariant holds select the same
runs, if the steps that meet them keep it. -/
theorem stepsMeet_iff_of_invariant {Q : σ → ι → Prop} (hiff : ∀ s i, Inv s → (P s i ↔ Q s i))
    (hstep : ∀ s i, Inv s → P s i → Inv (step s i)) {s : σ} (hs : Inv s) (is : List ι) :
    StepsMeet step P s is ↔ StepsMeet step Q s is := by
  induction is generalizing s with
  | nil => exact Iff.rfl
  | cons i is ih =>
    rw [stepsMeet_cons, stepsMeet_cons, ← hiff s i hs]
    exact and_congr_right fun hi => ih (hstep s i hs hi)

/-- **Lockstep rule**: a relation that equal inputs keep holds at the end of two runs on the same
inputs. -/
theorem run_related {step' : τ → ι → τ} (R : σ → τ → Prop)
    (hstep : ∀ s t i, R s t → R (step s i) (step' t i)) {s : σ} {t : τ} (h : R s t)
    (is : List ι) : R (run step s is) (run step' t is) := by
  induction is generalizing s t with
  | nil => exact h
  | cons i is ih => exact ih (hstep s t i h)

end Invariants

end ProtoRelay
