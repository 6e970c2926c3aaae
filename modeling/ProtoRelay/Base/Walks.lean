import Mathlib.Data.Set.Card

/-!
# Walks over unfolded lists

A list of terms is walked from the front; a term gives an answer at once, or another list of terms
stands in its place and is walked first.  The walk of a list may stop at a term, by its answer.
Nothing bounds how often terms unfold, so the walk as a function takes a fuel, the number of levels
it may descend, and counts the terms with a cost.

Beside it stands the unfolded list itself, which may be infinite: `ListReaches ts p u` says that the
term `u` is at position `p` of it and that no walk stops in front of it.  The walk ends with a cost
of at most `k` exactly if at most `k` positions of terms with a cost are reached.

## Main definitions

* `Walk`: how terms unfold, and where walks stop
* `Walk.term`, `Walk.list`: the walk, with fuel
* `Walk.TermGives`, `Walk.ListGives`: the answers, without fuel
* `Walk.TermReaches`, `Walk.ListReaches`, `Walk.costly`: the positions reached

## Main results

* `Walk.exists_list_iff`: a walk ends within a cost exactly if the positions reached allow it
* `Walk.list_bad_iff`, `Walk.exists_list_good_iff`: it stops at a bad answer exactly if it
  reaches one
-/

namespace ProtoRelay

/-- How terms of type `T` unfold and answer. -/
structure Walk (T O : Type*) where
  /-- the answer of a term, or the list in its place -/
  expand : T → O ⊕ List T
  costs : T → Bool
  /-- the walk of a list ends at this term with this answer -/
  stops : T → O → Bool
  /-- the answer of a term from where the walk of its list stopped -/
  back : T → Option (T × O) → O

namespace Walk

variable {T O : Type*} (w : Walk T O)

def cost (t : T) : Nat := if w.costs t then 1 else 0

/-- The walk of a list, over that of a term: where it stopped, and its cost. -/
def list (term : T → Option (O × Nat)) : List T → Option (Option (T × O) × Nat)
  | [] => some (none, 0)
  | t :: ts =>
    match term t with
    | none => none
    | some (o, n) =>
      if w.stops t o then some (some (t, o), n)
      else (list term ts).map fun r => (r.1, n + r.2)

/-- The walk of a term, over that of the list in its place. -/
def termWith (nested : List T → Option (Option (T × O) × Nat)) (t : T) : Option (O × Nat) :=
  match w.expand t with
  | .inl o => some (o, w.cost t)
  | .inr ts => (nested ts).map fun r => (w.back t r.1, r.2 + w.cost t)

/-- The walk of a term; `none` if it does not end within that many levels. -/
def term : Nat → T → Option (O × Nat)
  | 0 => w.termWith fun _ => none
  | fuel + 1 => w.termWith (w.list (term fuel))

/-! ## Answers and positions -/

mutual

/-- The answer of a term. -/
inductive TermGives : T → O → Prop
  | answer {t : T} {o : O} (h : w.expand t = .inl o) : TermGives t o
  | nested {t : T} {ts : List T} {r : Option (T × O)} (h : w.expand t = .inr ts)
      (hr : ListGives ts r) : TermGives t (w.back t r)

/-- Where the walk of a list stops. -/
inductive ListGives : List T → Option (T × O) → Prop
  | done : ListGives [] none
  | stopped {t : T} {ts : List T} {o : O} (ht : TermGives t o) (h : w.stops t o = true) :
      ListGives (t :: ts) (some (t, o))
  | next {t : T} {ts : List T} {o : O} {r : Option (T × O)} (ht : TermGives t o)
      (h : w.stops t o = false) (hr : ListGives ts r) : ListGives (t :: ts) r

end

mutual

/-- `u` is at position `p` of the unfolded term, and reached. -/
inductive TermReaches : T → List Nat → T → Prop
  | self (t : T) : TermReaches t [] t
  | inside {t u : T} {ts : List T} {p : List Nat} (h : w.expand t = .inr ts)
      (hu : ListReaches ts p u) : TermReaches t p u

/-- `u` is at position `p` of the unfolded list, and reached. -/
inductive ListReaches : List T → List Nat → T → Prop
  | here {t u : T} {ts : List T} {p : List Nat} (hu : TermReaches t p u) : ListReaches
      (t :: ts) (0 :: p) u
  | later {t u : T} {ts : List T} {o : O} {i : Nat} {p : List Nat} (ht : w.TermGives t o)
      (h : w.stops t o = false)
      (hu : ListReaches ts (i :: p) u) : ListReaches (t :: ts) ((i + 1) :: p) u

end

/-- The positions in a term that have a cost. -/
def termCostly (t : T) : Set (List Nat) := {p | ∃ u, w.TermReaches t p u ∧ w.costs u = true}

/-- The positions in a list that have a cost. -/
def costly (ts : List T) : Set (List Nat) := {p | ∃ u, w.ListReaches ts p u ∧ w.costs u = true}

variable {w} {t : T} {ts : List T}

mutual

theorem TermGives.unique {t : T} {o o' : O} : w.TermGives t o → w.TermGives t o' → o' = o
  | .answer h, .answer h' => Sum.inl.inj (h'.symm.trans h)
  | .answer h, .nested h' _ => nomatch h.symm.trans h'
  | .nested h _, .answer h' => nomatch h.symm.trans h'
  | .nested h hr, .nested h' hr' => by
    obtain rfl := Sum.inr.inj (h.symm.trans h')
    rw [hr.unique hr']

theorem ListGives.unique {ts : List T} {r r' : Option (T × O)} :
    w.ListGives ts r → w.ListGives ts r' → r' = r
  | .done, .done => rfl
  | .stopped ht _, .stopped ht' _ => by rw [ht.unique ht']
  | .stopped ht h, .next ht' h' _ => by
    rw [ht.unique ht', h] at h'
    cases h'
  | .next ht h _, .stopped ht' h' => by
    rw [ht.unique ht', h] at h'
    cases h'
  | .next _ _ hr, .next _ _ hr' => hr.unique hr'

end

/-! ## One step of a walk -/

variable {term : T → Option (O × Nat)}

theorem list_cons_of_stops {o : O} {n : Nat} (h : term t = some (o, n))
    (hstops : w.stops t o = true) :
    w.list term (t :: ts) = some (some (t, o), n) := by
  unfold Walk.list
  rw [h]
  exact if_pos hstops

theorem list_cons_of_not_stops {o : O} {n : Nat} (h : term t = some (o, n))
    (hstops : w.stops t o = false) :
    w.list term (t :: ts) = (w.list term ts).map fun r => (r.1, n + r.2) := by
  rw [Walk.list, h]
  exact if_neg (by rw [hstops]; exact Bool.false_ne_true)

/-- A loop that treats its elements as the walk treats theirs gives what the walk gives. -/
theorem eq_list_map {α β : Type*} {loop : List α → Option (β × Nat)}
    {value : Option (T × O) → β} (site : α → T) (hnil : loop [] = some (value none, 0))
    (hcons : ∀ a as, loop (a :: as) =
      match term (site a) with
      | none => none
      | some (o, n) =>
        if w.stops (site a) o then some (value (some (site a, o)), n)
        else (loop as).map fun r => (r.1, n + r.2)) (as : List α) :
    loop as = (w.list term (as.map site)).map fun r => (value r.1, r.2) := by
  induction as with
  | nil => exact hnil
  | cons a as ih =>
    rw [hcons, List.map_cons, list, ih]
    cases term (site a) with
    | none => rfl
    | some r =>
      dsimp only
      split
      · rfl
      · rw [Option.map_map, Option.map_map]
        rfl

/-! ## Counting positions -/

theorem ListReaches.ne_nil {p : List Nat} {u : T} (h : w.ListReaches ts p u) : p ≠ [] := by
  cases h with
  | here | later => exact List.cons_ne_nil _ _

/-- One step to the right at the top of a position. -/
def bump : List Nat → List Nat
  | [] => []
  | i :: p => (i + 1) :: p

theorem bump_injective : Function.Injective bump := by
  rintro (_ | ⟨i, p⟩) (_ | ⟨j, q⟩) h
  · rfl
  · cases h
  · cases h
  · simpa [bump] using h

theorem costly_nil : w.costly [] = ∅ := by
  ext p
  constructor
  · rintro ⟨u, hu, -⟩
    cases hu
  · nofun

theorem mem_termCostly_nil : [] ∈ w.termCostly t ↔ w.costs t = true := by
  constructor
  · rintro ⟨u, hu, hcost⟩
    cases hu with
    | self => exact hcost
    | inside h hu => exact absurd rfl hu.ne_nil
  · intro h
    exact ⟨t, .self t, h⟩

theorem encard_self : Set.encard {p : List Nat | p = [] ∧ w.costs t = true} = w.cost t := by
  unfold cost
  split
  · next hcost => simp [hcost]
  · next hcost => simp [hcost]

theorem encard_termCostly_of_answer {o : O} (h : w.expand t = .inl o) :
    (w.termCostly t).encard = w.cost t := by
  rw [← encard_self]
  congr 1
  ext p
  constructor
  · rintro ⟨u, hu, hcost⟩
    cases hu with
    | self => exact ⟨rfl, hcost⟩
    | inside h' =>
      rw [h] at h'
      cases h'
  · rintro ⟨rfl, hcost⟩
    exact mem_termCostly_nil.mpr hcost

theorem encard_termCostly_of_nested (h : w.expand t = .inr ts) :
    (w.termCostly t).encard = (w.costly ts).encard + w.cost t := by
  have hs : w.termCostly t = w.costly ts ∪ {p | p = [] ∧ w.costs t = true} := by
    ext p
    constructor
    · rintro ⟨u, hu, hcost⟩
      cases hu with
      | self => exact .inr ⟨rfl, hcost⟩
      | inside h' hu =>
        rw [h] at h'
        cases h'
        exact .inl ⟨u, hu, hcost⟩
    · rintro (⟨u, hu, hcost⟩ | ⟨rfl, hcost⟩)
      · exact ⟨u, .inside h hu, hcost⟩
      · exact mem_termCostly_nil.mpr hcost
  have hdisj : Disjoint (w.costly ts) {p | p = [] ∧ w.costs t = true} := by
    rw [Set.disjoint_left]
    rintro p ⟨u, hu, -⟩ ⟨rfl, -⟩
    exact hu.ne_nil rfl
  rw [hs, Set.encard_union_eq hdisj, encard_self]

theorem image_cons_subset_costly : List.cons 0 '' w.termCostly t ⊆ w.costly (t :: ts) := by
  rintro - ⟨p, ⟨u, hu, hcost⟩, rfl⟩
  exact ⟨u, .here hu, hcost⟩

theorem image_bump_subset_costly {o : O} (ht : w.TermGives t o) (h : w.stops t o = false) :
    bump '' w.costly ts ⊆ w.costly (t :: ts) := by
  rintro - ⟨p, ⟨u, hu, hcost⟩, rfl⟩
  obtain ⟨i, q, rfl⟩ := List.exists_cons_of_ne_nil hu.ne_nil
  exact ⟨u, .later ht h hu, hcost⟩

/-- A walk that stops at the first term reaches nothing behind it. -/
theorem encard_costly_of_stopped {o : O} (ht : w.TermGives t o) (h : w.stops t o = true) :
    (w.costly (t :: ts)).encard = (w.termCostly t).encard := by
  have himage : w.costly (t :: ts) = List.cons 0 '' w.termCostly t := by
    apply Set.Subset.antisymm _ image_cons_subset_costly
    rintro p ⟨u, hu, hcost⟩
    cases hu with
    | here hu => exact ⟨_, ⟨u, hu, hcost⟩, rfl⟩
    | later ht' h' hu =>
      rw [ht.unique ht', h] at h'
      cases h'
  rw [himage, List.cons_injective.encard_image]

/-- A walk that goes on reaches what the rest of the list reaches. -/
theorem encard_costly_of_next {o : O} (ht : w.TermGives t o) (h : w.stops t o = false) :
    (w.costly (t :: ts)).encard = (w.termCostly t).encard + (w.costly ts).encard := by
  have hunion : w.costly (t :: ts) = List.cons 0 '' w.termCostly t ∪ bump '' w.costly ts := by
    apply Set.Subset.antisymm _
      (Set.union_subset image_cons_subset_costly (image_bump_subset_costly ht h))
    rintro p ⟨u, hu, hcost⟩
    cases hu with
    | here hu => exact .inl ⟨_, ⟨u, hu, hcost⟩, rfl⟩
    | later ht' h' hu => exact .inr ⟨_, ⟨u, hu, hcost⟩, rfl⟩
  have hdisj : Disjoint (List.cons 0 '' w.termCostly t) (bump '' w.costly ts) := by
    rw [Set.disjoint_left]
    rintro - ⟨p, -, rfl⟩ ⟨q, ⟨u, hu, -⟩, hq⟩
    obtain ⟨i, q, rfl⟩ := List.exists_cons_of_ne_nil hu.ne_nil
    simp [bump] at hq
  rw [hunion, Set.encard_union_eq hdisj, List.cons_injective.encard_image,
    bump_injective.encard_image]

/-! ## The walk computes answers and costs -/

variable (w) in
/-- A function that computes the answer of a term and its cost. -/
def Computes (term : T → Option (O × Nat)) : Prop :=
  ∀ t o n, term t = some (o, n) → w.TermGives t o ∧ (w.termCostly t).encard = n

theorem Computes.list {term : T → Option (O × Nat)} (hterm : w.Computes term)
    {r : Option (T × O)} {n : Nat} (h : w.list term ts = some (r, n)) :
    w.ListGives ts r ∧ (w.costly ts).encard = n := by
  induction ts generalizing r n with
  | nil =>
    cases h
    refine ⟨.done, ?_⟩
    rw [costly_nil, Set.encard_empty]
    rfl
  | cons t ts ih =>
    unfold Walk.list at h
    split at h
    · cases h
    · next o m ht =>
      obtain ⟨hgives, hcost⟩ := hterm t o m ht
      split at h
      · next hstop =>
        cases h
        exact ⟨.stopped hgives hstop, (encard_costly_of_stopped hgives hstop).trans hcost⟩
      · next hstop =>
        rw [Bool.not_eq_true] at hstop
        obtain ⟨⟨r', k⟩, hrest, heq⟩ := Option.map_eq_some_iff.mp h
        cases heq
        obtain ⟨hgives', hcost'⟩ := ih hrest
        refine ⟨.next hgives hstop hgives', ?_⟩
        rw [encard_costly_of_next hgives hstop, hcost, hcost']
        exact (Nat.cast_add m k).symm

variable (w) in
/-- **The walk with fuel computes the answers and the number of positions with a cost.** -/
theorem computes_term (fuel : Nat) : w.Computes (w.term fuel) := by
  -- a term answers itself, or through the list in its place, one level down
  have hwith {nested : List T → Option (Option (T × O) × Nat)}
      (hnested : ∀ ts r n, nested ts = some (r, n) → w.ListGives ts r ∧ (w.costly ts).encard = n) :
      w.Computes (w.termWith nested) := by
    intro t o n h
    unfold termWith at h
    split at h
    · next hexp =>
      cases h
      exact ⟨.answer hexp, encard_termCostly_of_answer hexp⟩
    · next ts hexp =>
      obtain ⟨⟨r, k⟩, hr, heq⟩ := Option.map_eq_some_iff.mp h
      cases heq
      obtain ⟨hgives, hcost⟩ := hnested ts r k hr
      refine ⟨.nested hexp hgives, ?_⟩
      rw [encard_termCostly_of_nested hexp, hcost]
      exact (Nat.cast_add k (w.cost t)).symm
  induction fuel with
  | zero => exact hwith fun ts r n h => nomatch h
  | succ fuel ih => exact hwith fun ts r n h => ih.list h

/-! ## Enough fuel -/

theorem exists_list_of_encard_le (hterm : w.Computes term) {k : Nat}
    (hends : ∀ t, (w.termCostly t).encard ≤ k → ∃ a, term t = some a)
    (h : (w.costly ts).encard ≤ k) : ∃ a, w.list term ts = some a := by
  induction ts with
  | nil => exact ⟨_, rfl⟩
  | cons t ts ih =>
    have hhead : (w.termCostly t).encard ≤ k := by
      rw [← List.cons_injective.encard_image]
      exact (Set.encard_le_encard image_cons_subset_costly).trans h
    obtain ⟨⟨o, n⟩, ht⟩ := hends t hhead
    cases hstop : w.stops t o with
    | true => exact ⟨_, list_cons_of_stops ht hstop⟩
    | false =>
      have htail : (w.costly ts).encard ≤ k := by
        rw [← bump_injective.encard_image]
        exact (Set.encard_le_encard (image_bump_subset_costly (hterm t o n ht).1 hstop)).trans h
      obtain ⟨a, ha⟩ := ih htail
      rw [list_cons_of_not_stops ht hstop, ha]
      exact ⟨_, rfl⟩

/-- A term whose unfolding has at most `k` costs ends within `k` levels, as each level costs. -/
theorem exists_term_of_encard_le (hcosts : ∀ t ts, w.expand t = .inr ts → w.costs t = true)
    (k : Nat) (t : T) (h : (w.termCostly t).encard ≤ k) : ∃ a, w.term k t = some a := by
  induction k generalizing t with
  | zero =>
    unfold term termWith
    split
    · exact ⟨_, rfl⟩
    · next ts hexp =>
      have hmem := mem_termCostly_nil.mpr (hcosts t ts hexp)
      have he : w.termCostly t = ∅ := Set.encard_eq_zero.mp (nonpos_iff_eq_zero.mp h)
      rw [he] at hmem
      cases hmem
  | succ k ih =>
    unfold term termWith
    split
    · exact ⟨_, rfl⟩
    · next ts hexp =>
      have hlist : (w.costly ts).encard ≤ k := by
        rw [encard_termCostly_of_nested hexp, cost, if_pos (hcosts t ts hexp)] at h
        exact (ENat.add_le_add_iff_right (ENat.natCast_ne_top 1)).mp (by simpa using h)
      obtain ⟨⟨r, n⟩, hr⟩ := exists_list_of_encard_le (w.computes_term k) ih hlist
      rw [hr]
      exact ⟨_, rfl⟩

/-- **A walk ends with a cost of at most `k` exactly if at most `k` positions with a cost are
reached.** -/
theorem exists_list_iff (hcosts : ∀ t ts, w.expand t = .inr ts → w.costs t = true) {k : Nat} :
    (∃ fuel r n, w.list (w.term fuel) ts = some (r, n) ∧ n ≤ k) ↔ (w.costly ts).encard ≤ k := by
  constructor
  · rintro ⟨fuel, r, n, h, hn⟩
    rw [((w.computes_term fuel).list h).2]
    exact_mod_cast hn
  · intro h
    obtain ⟨⟨r, n⟩, hr⟩ :=
      exists_list_of_encard_le (w.computes_term k) (exists_term_of_encard_le hcosts k) h
    refine ⟨k, r, n, hr, ?_⟩
    rw [((w.computes_term k).list hr).2] at h
    exact_mod_cast h

/-! ## Bad answers -/

section

variable (w) (bad : O → Prop)

/-- A bad answer is reached in the unfolded term. -/
def TermFaults (t : T) : Prop := ∃ p u o, w.TermReaches t p u ∧ w.expand u = .inl o ∧ bad o

/-- A bad answer is reached in the unfolded list. -/
def Faults (ts : List T) : Prop := ∃ p u o, w.ListReaches ts p u ∧ w.expand u = .inl o ∧ bad o

/-- The walk of a list stopped at a bad answer. -/
def StoppedBad (r : Option (T × O)) : Prop := ∃ u o, r = some (u, o) ∧ bad o

variable {w bad}

mutual

theorem TermGives.bad_iff (hstops : ∀ t o, bad o → w.stops t o = true)
    (hback : ∀ t r, bad (w.back t r) ↔ StoppedBad bad r) {t : T} {o : O} :
    w.TermGives t o → (bad o ↔ w.TermFaults bad t)
  | .answer h => by
    refine ⟨fun ho => ⟨[], t, o, .self t, h, ho⟩, ?_⟩
    rintro ⟨p, u, o', hu, hu', ho'⟩
    cases hu with
    | self => exact Sum.inl.inj (hu'.symm.trans h) ▸ ho'
    | inside h' => exact nomatch h.symm.trans h'
  | .nested h hr => by
    rw [hback, hr.bad_iff hstops hback]
    constructor
    · rintro ⟨p, u, o', hu, hfault⟩
      exact ⟨p, u, o', .inside h hu, hfault⟩
    · rintro ⟨p, u, o', hu, hu', ho'⟩
      cases hu with
      | self => exact nomatch h.symm.trans hu'
      | inside h' hu =>
        obtain rfl := Sum.inr.inj (h.symm.trans h')
        exact ⟨p, u, o', hu, hu', ho'⟩

theorem ListGives.bad_iff (hstops : ∀ t o, bad o → w.stops t o = true)
    (hback : ∀ t r, bad (w.back t r) ↔ StoppedBad bad r) {ts : List T} {r : Option (T × O)} :
    w.ListGives ts r → (StoppedBad bad r ↔ w.Faults bad ts)
  | .done => by
    constructor
    · rintro ⟨u, o, heq, -⟩
      cases heq
    · rintro ⟨p, u, o, hu, -⟩
      cases hu
  | .stopped (t := t) (o := o) ht h => by
    constructor
    · rintro ⟨u, o', heq, ho'⟩
      cases heq
      obtain ⟨p, u, o', hu, hfault⟩ := (ht.bad_iff hstops hback).mp ho'
      exact ⟨0 :: p, u, o', .here hu, hfault⟩
    · rintro ⟨p, u, o', hu, hfault⟩
      cases hu with
      | here hu => exact ⟨t, o, rfl, (ht.bad_iff hstops hback).mpr ⟨_, u, o', hu, hfault⟩⟩
      | later ht' hgo =>
        rw [ht.unique ht', h] at hgo
        cases hgo
  | .next (t := t) (o := o) ht h hr => by
    rw [hr.bad_iff hstops hback]
    constructor
    · rintro ⟨p, u, o', hu, hfault⟩
      obtain ⟨i, q, rfl⟩ := List.exists_cons_of_ne_nil hu.ne_nil
      exact ⟨(i + 1) :: q, u, o', .later ht h hu, hfault⟩
    · rintro ⟨p, u, o', hu, hfault⟩
      cases hu with
      | here hu =>
        -- a term the walk passes over has no bad answer
        have hstop := hstops t o ((ht.bad_iff hstops hback).mpr ⟨_, u, o', hu, hfault⟩)
        rw [h] at hstop
        cases hstop
      | later ht' hgo hu => exact ⟨_, u, o', hu, hfault⟩

end

/-- **A walk stops at a bad answer exactly if it reaches one.** -/
theorem list_bad_iff (hstops : ∀ t o, bad o → w.stops t o = true)
    (hback : ∀ t r, bad (w.back t r) ↔ StoppedBad bad r) {fuel : Nat} {r : Option (T × O)} {n : Nat}
    (h : w.list (w.term fuel) ts = some (r, n)) : StoppedBad bad r ↔ w.Faults bad ts :=
  ((w.computes_term fuel).list h).1.bad_iff hstops hback

/-- **A walk ends well with a cost of at most `k` exactly if at most `k` positions with a cost and
no bad answer are reached.** -/
theorem exists_list_good_iff (hcosts : ∀ t ts, w.expand t = .inr ts → w.costs t = true)
    (hstops : ∀ t o, bad o → w.stops t o = true)
    (hback : ∀ t r, bad (w.back t r) ↔ StoppedBad bad r) {k : Nat} :
    (∃ fuel r n, w.list (w.term fuel) ts = some (r, n) ∧ ¬StoppedBad bad r ∧ n ≤ k) ↔
      (w.costly ts).encard ≤ k ∧ ¬w.Faults bad ts := by
  constructor
  · rintro ⟨fuel, r, n, h, hgood, hn⟩
    exact ⟨(exists_list_iff hcosts).mp ⟨fuel, r, n, h, hn⟩,
      fun hf => hgood ((list_bad_iff hstops hback h).mpr hf)⟩
  · rintro ⟨hle, hgood⟩
    obtain ⟨fuel, r, n, h, hn⟩ := (exists_list_iff hcosts).mpr hle
    exact ⟨fuel, r, n, h, fun hr => hgood ((list_bad_iff hstops hback h).mp hr), hn⟩

end

end Walk

end ProtoRelay
