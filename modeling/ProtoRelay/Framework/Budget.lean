import ProtoRelay.Framework.Transitions

/-!
# The error budget

An event is rejected if the guard table has no row for it or no handler is registered.  A
description with an error budget closes the session "after this many consecutive errors".  The
engine counts the rejected events in the session's `stay_times_`, and nothing sets that counter
back: an event that is accepted does not restore the budget, and a session is closed at the rejected
event that is the last of the budget in all.

The events a session has dispatched are kept as history, so that what is consecutive can be
read off.
-/

namespace ProtoRelay

open List

variable {St Ev ε : Type}

/-- A session under an engine with an error budget. -/
structure BudgetSession (St ε : Type) where
  engine : EngineSession St ε
  stayTimes : Nat := 0
  /-- history: whether each event was rejected, newest first -/
  rejected : List Bool := []
  /-- history: the engine has closed the session because of the budget -/
  exhausted : Bool := false

namespace BudgetSession

/-- `bump_error_budget`. -/
def bumpErrorBudget (budget : Nat) (s : BudgetSession St ε) : BudgetSession St ε :=
  if budget = 0 then s
  else
    let s := { s with stayTimes := s.stayTimes + 1 }
    if s.stayTimes < budget then s
    else
      { s with
        engine := { s.engine with base := s.engine.base.closeAfterFlush }, exhausted := true }

section

variable [LineProtocol St] [DecidableEq St] [DecidableEq Ev] (d : Desc St Ev)
  (handled : St → Ev → Bool) (budget : Nat) (s : BudgetSession St ε)

/-- Whether the input is an event that is rejected; nothing, if none is looked up. -/
def verdict : EngineInput St Ev → Option Bool
  | .move (.dispatch event _) =>
    match s.engine.base.takeLine with
    | none => none
    | some (_, b) =>
      if b.closed || d.isTerminal b.state then none
      else some !((d.guardTarget b.state event).isSome && handled b.state event)
  | _ => none

def step (i : EngineInput St Ev) : BudgetSession St ε :=
  let s' := { s with engine := s.engine.step d handled i }
  match s.verdict d handled i with
  | none => s'
  | some false => { s' with rejected := false :: s.rejected }
  | some true => bumpErrorBudget budget { s' with rejected := true :: s.rejected }

/-- **The budget is one of consecutive events**: the engine has closed the session because of it if
and only if as many events in a row were rejected. -/
def Consecutive : Prop := s.exhausted = true ↔ List.replicate budget true <:+: s.rejected

/-- The rejected event that is the last of the budget comes right behind the others. -/
def InARow (i : EngineInput St Ev) : Prop :=
  s.verdict d handled i = some true → s.rejected.count true + 1 = budget →
    List.replicate (budget - 1) true <+: s.rejected

structure Counted : Prop where
  count : s.stayTimes = s.rejected.count true
  spent : s.exhausted = true ↔ budget ≤ s.stayTimes
  consecutive : s.Consecutive budget

end

theorem le_count_of_infix {n : Nat} {l : List Bool} (h : List.replicate n true <:+: l) :
    n ≤ l.count true := by
  have hle := h.sublist.count_le true
  rwa [count_replicate_self] at hle

section

variable [LineProtocol St] [DecidableEq St] [DecidableEq Ev] {d : Desc St Ev}
  {handled : St → Ev → Bool}
  {budget : Nat} (hb : 0 < budget) {s : BudgetSession St ε} {i : EngineInput St Ev}
include hb

theorem Counted.step (h : s.Counted budget) (hi : s.InARow d handled budget i) :
    (s.step d handled budget i).Counted budget := by
  obtain ⟨n, rfl⟩ := Nat.exists_eq_succ_of_ne_zero hb.ne'
  unfold BudgetSession.step
  split
  · exact { h with }
  · -- no row of rejected events starts here
    refine ⟨by simpa using h.count, h.spent, ?_⟩
    simpa [Consecutive, infix_cons_iff, replicate_succ] using h.consecutive
  · rename_i hrej
    have hcount : s.stayTimes + 1 = (true :: s.rejected).count true := by simp [h.count]
    rw [bumpErrorBudget, if_neg (by omega)]
    dsimp only
    split
    · rename_i hlt
      have hopen : ¬ s.exhausted = true := fun he => by
        have hle := h.spent.mp he
        omega
      refine ⟨hcount, iff_of_false hopen hlt.not_ge, iff_of_false hopen fun hrow => ?_⟩
      have hle := le_count_of_infix hrow
      dsimp only at hle
      omega
    · rename_i hge
      refine ⟨hcount, iff_of_true rfl (Nat.le_of_not_lt hge), iff_of_true rfl ?_⟩
      by_cases hle : n + 1 ≤ s.stayTimes
      · exact (h.consecutive.mp (h.spent.mpr hle)).trans (suffix_cons _ _).isInfix
      · have hrow := hi hrej (by rw [← h.count]; omega)
        exact (cons_prefix_cons.mpr ⟨rfl, hrow⟩).isInfix

theorem not_consecutive_step (h : s.Counted budget) (hi : ¬ s.InARow d handled budget i) :
    ¬ (s.step d handled budget i).Consecutive budget := by
  simp only [InARow, Classical.not_imp] at hi
  obtain ⟨hrej, hcount, hrow⟩ := hi
  obtain ⟨n, rfl⟩ := Nat.exists_eq_succ_of_ne_zero hb.ne'
  unfold BudgetSession.step
  rw [hrej]
  dsimp only
  rw [bumpErrorBudget, if_neg (by omega)]
  dsimp only
  rw [if_neg (by rw [h.count]; omega)]
  intro hcons
  rcases infix_cons_iff.mp (hcons.mp rfl) with hpre | hin
  · exact hrow (cons_prefix_cons.mp hpre).2
  · have hle := le_count_of_infix hin
    omega

/-- **When the budget is one of consecutive events**: in every run of a session, whatever the
description and the handlers are, the engine closes it at the rejected event that completes a row of
as many, and never before, if and only if the rejected event that is the last of the budget in all
completes one. -/
theorem budget_consecutive_iff (d : Desc St Ev) (handled : St → Ev → Bool) (state : St)
    (is : List (EngineInput St Ev)) :
    let s₀ : BudgetSession St ε := { engine := { base := { state } } }
    (∀ js, js <+: is → (run (step d handled budget) s₀ js).Consecutive budget) ↔
      StepsMeet (step d handled budget) (InARow d handled budget) s₀ is := by
  intro s₀
  obtain ⟨n, rfl⟩ := Nat.exists_eq_succ_of_ne_zero hb.ne'
  have hstart : s₀.Consecutive (n + 1) := iff_of_false (by simp [s₀]) (by simp [s₀, replicate_succ])
  exact (stepsMeet_iff_forall_good (Counted (n + 1)) _ (fun _ h => h.consecutive)
    (fun _ _ h => h.step hb)
    (fun _ _ h => not_consecutive_step hb h) ⟨rfl, by simp [s₀], hstart⟩ is).symm

end

theorem budget_consecutive_iff_start :
    letI : LineProtocol Unit := ⟨fun _ buffer => buffer.contains 10, fun _ buffer => (buffer, [])⟩
    (run (step (⟨[], [], [], []⟩ : Desc Unit Unit) (fun _ _ => true) 1)
      ({ engine := { base := { state := () } } } : BudgetSession Unit Empty)
      [.move .read, .runTask, .move (.readDone (some [10])),
        .move (.dispatch () [])]).Consecutive 1 := by
  let _ : LineProtocol Unit := ⟨fun _ buffer => buffer.contains 10, fun _ buffer => (buffer, [])⟩
  refine (budget_consecutive_iff Nat.one_pos _ _ () _).mpr ?_ _ (prefix_refl _)
  exact stepsMeet_of_forall fun _ _ _ _ _ => nil_prefix

/-- A rejected event, an accepted one and a rejected one use up a budget of two. -/
theorem not_forall_consecutive : ¬ ∀ is : List (EngineInput Unit Bool),
    letI : LineProtocol Unit :=
      ⟨fun _ buffer => buffer.contains 10, fun _ buffer => (buffer.take 1, buffer.drop 1)⟩
    (run (step ⟨[⟨(), true, none⟩], [], [], []⟩ (fun _ _ => true) 2)
      ({ engine := { base := { state := () } } } : BudgetSession Unit Empty) is).Consecutive 2 := by
  intro h
  have hrow := (h [.move .read, .runTask, .move (.readDone (some [10, 10, 10])),
    .move (.dispatch false []), .move (.dispatch true []), .move (.dispatch false [])]).mp
      (by decide)
  revert hrow
  decide

end BudgetSession

end ProtoRelay
