import Mathlib.Data.Nat.Basic
import Mathlib.Logic.Relation

/-!
# Loops that may not end

A `while` loop of a program is a step function that is undefined where the loop is left.  It is run
with fuel, and it returns what it returns for some amount of fuel.

## Main definitions

* `loop step fuel s`: the state in which the loop is left, if the fuel suffices
* `Returns step s r`: the loop entered in `s` is left in `r`
* `Visits step s t`: the loop entered in `s` comes to `t`

## Main results

* `returns_iff_of_step`: one turn of the loop
* `exists_returns_of_variant`: a loop whose turns all lower a number returns
* `not_returns_of_stuck`: a turn that changes nothing goes on forever
* `Visits.invariant`: what every turn keeps
-/

namespace ProtoRelay

variable {σ : Type*}

/-- The loop with a bound on its turns. -/
def loop (step : σ → Option σ) : Nat → σ → Option σ
  | 0, _ => none
  | fuel + 1, s =>
    match step s with
    | none => some s
    | some s' => loop step fuel s'

/-- The loop entered in `s` is left in `r`. -/
def Returns (step : σ → Option σ) (s r : σ) : Prop := ∃ fuel, loop step fuel s = some r

/-- The loop entered in `s` comes to `t` after some turns. -/
def Visits (step : σ → Option σ) : σ → σ → Prop := Relation.ReflTransGen fun s t => step s = some t

section

variable {step : σ → Option σ} {s s' r r' : σ}

theorem returns_of_done (h : step s = none) : Returns step s s := ⟨1, by simp [loop, h]⟩

theorem returns_iff_of_step (h : step s = some s') : Returns step s r ↔ Returns step s' r := by
  constructor
  · rintro ⟨fuel, hfuel⟩
    cases fuel with
    | zero => cases hfuel
    | succ fuel =>
      simp only [loop, h] at hfuel
      exact ⟨fuel, hfuel⟩
  · rintro ⟨fuel, hfuel⟩
    exact ⟨fuel + 1, by simpa only [loop, h] using hfuel⟩

/-- A turn that changes nothing goes on forever. -/
theorem not_returns_of_stuck (h : step s = some s) : ¬ Returns step s r := by
  rintro ⟨fuel, hfuel⟩
  induction fuel with
  | zero => cases hfuel
  | succ fuel ih =>
    simp only [loop, h] at hfuel
    exact ih hfuel

/-- **Variant rule**: a loop returns if every turn it comes to lowers a number. -/
theorem exists_returns_of_variant (variant : σ → Nat)
    (h : ∀ t t', Visits step s t → step t = some t' → variant t' < variant t) :
    ∃ r, Returns step s r := by
  induction hn : variant s using Nat.strongRecOn generalizing s with
  | ind n ih =>
    cases hs : step s with
    | none => exact ⟨s, returns_of_done hs⟩
    | some s' =>
      have hlt : variant s' < n := hn ▸ h s s' .refl hs
      obtain ⟨r, hr⟩ := ih _ hlt (fun t t' ht => h t t' (.head hs ht)) rfl
      exact ⟨r, (returns_iff_of_step hs).mpr hr⟩

/-- A loop is left in a state that it comes to, and there is no turn from it. -/
theorem Returns.visits (h : Returns step s r) : Visits step s r ∧ step r = none := by
  obtain ⟨fuel, hfuel⟩ := h
  induction fuel generalizing s with
  | zero => cases hfuel
  | succ fuel ih =>
    cases hturn : step s with
    | none =>
      simp only [loop, hturn, Option.some.injEq] at hfuel
      subst hfuel
      exact ⟨.refl, hturn⟩
    | some s' =>
      simp only [loop, hturn] at hfuel
      obtain ⟨hvisits, hdone⟩ := ih hfuel
      exact ⟨.head hturn hvisits, hdone⟩

/-- **Invariant rule**: what every turn keeps holds in every state the loop comes to. -/
theorem Visits.invariant {Inv : σ → Prop} (h : Visits step s r) (hs : Inv s)
    (hstep : ∀ t t', Inv t → step t = some t' → Inv t') : Inv r := by
  induction h with
  | refl => exact hs
  | tail _ hturn ih => exact hstep _ _ ih hturn

end

end ProtoRelay
