import ProtoRelay.Base.Walks
import ProtoRelay.Inbound.Spf

/-!
# The number of lookups of an SPF check

An SPF check may ask the resolver for at most ten terms.  The evaluators bound the *depth* of nested
records at `include` only; they count no terms, and `redirect` is followed without a bound.  Both
are walks over the terms of a record in which the record of another domain stands in the place of
each `include` and `redirect`.  They unfold terms in the same way and differ in where they stop: the
synchronous one passes over errors inside nested records, and the asynchronous one passes over a
`redirect` unless it ends in an error.

So each of them keeps the limit exactly for those policies whose unfolded record has at most ten
terms with a lookup in front of the place where the evaluation stops.  It also has to get there
without an exception, which `ip4` throws if one of the numbers it reads is not one.
-/

namespace ProtoRelay

open Walk

/-- A term of a record, with the domain of the record and the number of records around it. -/
structure SpfSite where
  mech : SpfMechanism
  domain : Bytes
  depth : Nat

namespace InboundVerifier

/-- What an evaluator gives for a term: a value, or the exception that leaves it. -/
abbrev SpfOutcome := Except StoiError SpfEval

def sites (mechs : List SpfMechanism) (domain : Bytes) (depth : Nat) : List SpfSite :=
  mechs.map (⟨·, domain, depth⟩)

/-! ## The evaluators as walks -/

section

variable (dns : DnsView) (clientIp : Bytes)

/-- The terms of the record a term names, or the error if it has none. -/
def nestedSites (site : SpfSite) : SpfOutcome ⊕ List SpfSite :=
  match (dns.txt site.mech.value).find? isSpfRecord with
  | none => .inl (.ok .temperror)
  | some rec => .inr (sites (parseSpfRecord rec) site.mech.value (site.depth + 1))

/-- How a term unfolds. -/
def unfoldSite (site : SpfSite) : SpfOutcome ⊕ List SpfSite :=
  match site.mech.kind with
  | .includes => if site.depth ≥ 10 then .inl (.ok .permerror) else nestedSites dns site
  | .redirect => nestedSites dns site
  | _ => .inl (evalDirect dns clientIp site.mech site.domain).1

/-- The term asks the resolver. -/
def looksUp (site : SpfSite) : Bool :=
  match site.mech.kind with
  | .a | .mx | .redirect => true
  | .includes => site.depth < 10
  | _ => false

/-- Where the walk of a nested record ends, as the synchronous evaluator reports it. -/
def syncBack : Option (SpfSite × SpfOutcome) → SpfOutcome
  | some (_, .error e) => .error e
  | some (_, .ok .matched) => .ok .matched
  | _ => .ok .noMatch

/-- The synchronous evaluator: errors end it at the top only. -/
def syncWalk : Walk SpfSite SpfOutcome where
  expand := unfoldSite dns clientIp
  costs := looksUp
  stops site o :=
    match o with
    | .error _ => true
    | .ok .matched => true
    | .ok .temperror => site.depth == 0
    | .ok .permerror => site.depth == 0
    | .ok _ => false
  back _ := syncBack

/-- Where the walk of a record ends, as the asynchronous evaluator reports it. -/
def asyncValue : Option (SpfSite × SpfOutcome) → SpfOutcome
  | some (_, .error e) => .error e
  | some (site, .ok .matched) => .ok (qualifiedEval site.mech.qualifier)
  | some (_, .ok .temperror) => .ok .temperror
  | some (_, .ok .permerror) => .ok .permerror
  | _ => .ok .neutral

/-- The asynchronous evaluator. -/
def asyncWalk : Walk SpfSite SpfOutcome where
  expand := unfoldSite dns clientIp
  costs := looksUp
  stops _ o :=
    match o with
    | .error _ => true
    | .ok .matched => true
    | .ok .temperror => true
    | .ok .permerror => true
    | .ok _ => false
  back site r :=
    match site.mech.kind with
    | .includes => (asyncValue r).map includeEval
    | _ => asyncValue r

/-! ## One term -/

variable {dns clientIp} {w : Walk SpfSite SpfOutcome}

variable {domain : Bytes} {depth : Nat}
  {nested : List SpfSite → Option (Option (SpfSite × SpfOutcome) × Nat)} {site : SpfSite}

/-- The record that a term names is looked up, and its terms are walked. -/
def nestedTerm (dns : DnsView) (w : Walk SpfSite SpfOutcome)
    (nested : List SpfSite → Option (Option (SpfSite × SpfOutcome) × Nat)) (site : SpfSite) :
    Option (SpfOutcome × Nat) :=
  match (dns.txt site.mech.value).find? isSpfRecord with
  | none => some (.ok .temperror, 1)
  | some rec =>
    (nested (sites (parseSpfRecord rec) site.mech.value (site.depth + 1))).map fun r =>
      (w.back site r.1, r.2 + 1)

/-- **What both evaluators do with a term.** -/
theorem termWith_eq (hexpand : w.expand = unfoldSite dns clientIp) (hcosts : w.costs = looksUp) :
    w.termWith nested site =
      match site.mech.kind with
      | .includes =>
        if site.depth ≥ 10 then some (.ok .permerror, 0) else nestedTerm dns w nested site
      | .redirect => nestedTerm dns w nested site
      | _ => some (evalDirect dns clientIp site.mech site.domain) := by
  have hnested (hunfold : unfoldSite dns clientIp site = nestedSites dns site)
      (hcost : looksUp site = true) : w.termWith nested site = nestedTerm dns w nested site := by
    rw [termWith, hexpand, hunfold, cost, hcosts, hcost, nestedSites, nestedTerm]
    cases (dns.txt site.mech.value).find? isSpfRecord <;> rfl
  cases hkind : site.mech.kind with
  | includes =>
    by_cases hdepth : site.depth ≥ 10
    · simp [termWith, hexpand, unfoldSite, cost, hcosts, looksUp, hkind, hdepth]
    · simp only [if_neg hdepth]
      apply hnested
      · simp [unfoldSite, hkind, hdepth]
      · simpa [looksUp, hkind] using hdepth
  | redirect =>
    apply hnested
    · simp [unfoldSite, hkind]
    · simp [looksUp, hkind]
  | _ => simp [termWith, hexpand, unfoldSite, cost, hcosts, looksUp, evalDirect, hkind]

/-! ## The synchronous evaluator -/

theorem evalSubs_eq_list {eval : SpfMechanism → Option (SpfOutcome × Nat)}
    {term : SpfSite → Option (SpfOutcome × Nat)}
    (heval : ∀ mech, eval mech = term ⟨mech, domain, depth + 1⟩) (mechs : List SpfMechanism) :
    evalSubs eval mechs = ((syncWalk dns clientIp).list term (sites mechs domain (depth + 1))).map
      fun r =>
        (syncBack r.1, r.2) := by
  refine eq_list_map _ rfl (fun mech mechs => ?_) mechs
  rw [evalSubs, heval]
  -- inside a nested record nothing but a match ends the loop
  rcases term ⟨mech, domain, depth + 1⟩ with - | ⟨e | value, n⟩
  · rfl
  · rfl
  · cases value <;> rfl

theorem evalSpfMechanismWith_eq_termWith
    {subs : List SpfMechanism → Bytes → Nat → Option (SpfOutcome × Nat)}
    (hsubs : ∀ mechs domain depth, subs mechs domain (depth + 1) =
      (nested (sites mechs domain (depth + 1))).map fun r => (syncBack r.1, r.2))
    (mech : SpfMechanism) (domain : Bytes) (depth : Nat) :
    evalSpfMechanismWith dns clientIp subs mech domain depth =
      (syncWalk dns clientIp).termWith nested ⟨mech, domain, depth⟩ := by
  rw [termWith_eq rfl rfl, evalSpfMechanismWith]
  simp only [hsubs, Option.map_map]
  rfl

/-- **The synchronous evaluator is a walk.** -/
theorem evalSpfMechanism_eq_term (fuel : Nat) (mech : SpfMechanism) (domain : Bytes) (depth : Nat) :
    evalSpfMechanism dns clientIp fuel mech domain depth =
      (syncWalk dns clientIp).term fuel ⟨mech, domain, depth⟩ := by
  induction fuel generalizing mech domain depth with
  | zero =>
    apply evalSpfMechanismWith_eq_termWith
    intro mechs domain depth
    rfl
  | succ fuel ih =>
    apply evalSpfMechanismWith_eq_termWith
    intro mechs domain depth
    exact evalSubs_eq_list (fun sub => ih sub domain (depth + 1)) mechs

/-- The result of `check_spf`, from where the walk stops. -/
def syncResult : Option (SpfSite × SpfOutcome) → Except StoiError SpfResult
  | some (_, .error e) => .error e
  | some (site, .ok .matched) => .ok (qualified site.mech.qualifier)
  | some (site, .ok .temperror) =>
    .ok { result := .temperror
          reason := bytes "SPF temporary error evaluating " ++ site.mech.mechanism }
  | some (site, .ok .permerror) =>
    .ok { result := .permerror
          reason := bytes "SPF permanent error evaluating " ++ site.mech.mechanism }
  | _ => .ok { result := .neutral, reason := bytes "no SPF mechanism matched" }

theorem checkSpfFrom_eq_list (fuel : Nat) (mechs : List SpfMechanism) (domain : Bytes) :
    checkSpfFrom (fun mech => evalSpfMechanism dns clientIp fuel mech domain 0) mechs =
      ((syncWalk dns clientIp).list ((syncWalk dns clientIp).term fuel) (sites mechs domain 0)).map
        fun r => (syncResult r.1, r.2) := by
  refine eq_list_map _ rfl (fun mech mechs => ?_) mechs
  rw [checkSpfFrom, evalSpfMechanism_eq_term]
  by_cases hexp : mech.mechanism = bytes "exp"
  · -- the explanation is skipped here; as a term it is one that never matches
    have hkind : mech.kind = .other := by
      unfold SpfMechanism.kind
      rw [hexp]
      decide
    have hterm : (syncWalk dns clientIp).term fuel ⟨mech, domain, 0⟩ = some (.ok .noMatch, 0) := by
      rw [← evalSpfMechanism_eq_term]
      cases fuel <;> simp [evalSpfMechanism, evalSpfMechanismWith, hkind, evalDirect]
    rw [hterm]
    simp [syncWalk]
  · rw [if_neg hexp]
    rcases (syncWalk dns clientIp).term fuel ⟨mech, domain, 0⟩ with - | ⟨e | value, n⟩
    · rfl
    · rfl
    · cases value <;> rfl

/-! ## The asynchronous evaluator -/

theorem continueAfter_eq_list {eval : SpfMechanism → Option (SpfOutcome × Nat)}
    {term : SpfSite → Option (SpfOutcome × Nat)}
    (heval : ∀ mech, eval mech = term ⟨mech, domain, depth⟩) (mechs : List SpfMechanism) :
    continueAfter eval mechs = ((asyncWalk dns clientIp).list term (sites mechs domain depth)).map
      fun r =>
        (asyncValue r.1, r.2) := by
  refine eq_list_map _ rfl (fun mech mechs => ?_) mechs
  rw [continueAfter, heval]
  rcases term ⟨mech, domain, depth⟩ with - | ⟨e | value, n⟩
  · rfl
  · rfl
  · cases value <;> rfl

theorem evalSpfMechanismAsyncWith_eq_termWith
    {subs : List SpfMechanism → Bytes → Nat → Option (SpfOutcome × Nat)}
    (hsubs : ∀ mechs domain depth, subs mechs domain depth =
      (nested (sites mechs domain depth)).map fun r => (asyncValue r.1, r.2)) (mech : SpfMechanism)
    (domain : Bytes) (depth : Nat) : evalSpfMechanismAsyncWith dns clientIp subs mech domain depth =
      (asyncWalk dns clientIp).termWith nested ⟨mech, domain, depth⟩ := by
  rw [termWith_eq rfl rfl, evalSpfMechanismAsyncWith]
  simp only [hsubs, Option.map_map]
  cases hkind : mech.kind with
  | includes | redirect =>
    simp only [nestedTerm, asyncWalk, hkind]
    rfl
  | _ => rfl

/-- **The asynchronous evaluator is a walk.** -/
theorem evalSpfMechanismAsync_eq_term (fuel : Nat) (mech : SpfMechanism) (domain : Bytes)
    (depth : Nat) :
    evalSpfMechanismAsync dns clientIp fuel mech domain depth =
      (asyncWalk dns clientIp).term fuel ⟨mech, domain, depth⟩ := by
  induction fuel generalizing mech domain depth with
  | zero =>
    apply evalSpfMechanismAsyncWith_eq_termWith
    intro mechs domain depth
    rfl
  | succ fuel ih =>
    apply evalSpfMechanismAsyncWith_eq_termWith
    intro mechs domain depth
    exact continueAfter_eq_list (fun sub => ih sub domain depth) mechs

/-! ## The limit -/

variable (dns clientIp) (mailFrom heloDomain : Bytes)

/-- An `ip4` term whose numbers, or those of the client's address, cannot be read. -/
def Malformed (site : SpfSite) : Prop :=
  site.mech.kind = .ip4 ∧ ∃ e, ip4Match clientIp site.mech.value site.mech.cidr = .error e

/-- If the domain has one SPF record, then at most ten of the terms reached in its unfolding ask the
resolver, and no malformed term is reached. -/
def WithinLimit (w : Walk SpfSite SpfOutcome) : Prop :=
  spfDomain mailFrom heloDomain ≠ [] →
  ∀ rec, (dns.txt (spfDomain mailFrom heloDomain)).filter isSpfRecord = [rec] →
    (w.costly (sites (parseSpfRecord rec) (spfDomain mailFrom heloDomain) 0)).encard ≤ 10 ∧
    ∀ p site, w.ListReaches (sites (parseSpfRecord rec) (spfDomain mailFrom heloDomain) 0) p site →
      ¬Malformed clientIp site

/-- Both checks end with an answer, after at most ten terms that ask the resolver. -/
def SpfBounded : Prop :=
  (∃ fuel r n, checkSpf fuel dns clientIp mailFrom heloDomain = some (.ok r, n) ∧ n ≤ 10) ∧
    ∃ fuel r n, checkSpfAsync fuel dns clientIp mailFrom heloDomain = some (.ok r, n) ∧ n ≤ 10

/-- The evaluation was left by an exception. -/
def Threw (o : SpfOutcome) : Prop := ∃ e, o = .error e

variable {dns clientIp mailFrom heloDomain}

theorem exists_unfoldSite_threw_iff :
    (∃ o, unfoldSite dns clientIp site = .inl o ∧ Threw o) ↔ Malformed clientIp site := by
  have hnested : ¬∃ o, nestedSites dns site = .inl o ∧ Threw o := by
    rintro ⟨o, ho, e, rfl⟩
    unfold nestedSites at ho
    split at ho
    · cases ho
    · cases ho
  have hdirect : (∃ o, (.inl (evalDirect dns clientIp site.mech site.domain).1 :
      SpfOutcome ⊕ List SpfSite) = .inl o ∧ Threw o) ↔
        ∃ e, (evalDirect dns clientIp site.mech site.domain).1 = .error e := by
    constructor
    · rintro ⟨o, ho, e, rfl⟩
      exact ⟨e, Sum.inl.inj ho⟩
    · rintro ⟨e, he⟩
      exact ⟨_, rfl, e, he⟩
  unfold unfoldSite Malformed
  cases hkind : site.mech.kind with
  | includes =>
    simp only [reduceCtorEq, false_and, iff_false]
    split
    · rintro ⟨o, ho, e, rfl⟩
      cases ho
    · exact hnested
  | redirect =>
    simp only [reduceCtorEq, false_and, iff_false]
    exact hnested
  | ip4 =>
    rw [hdirect]
    simp only [evalDirect, hkind, true_and]
    cases ip4Match clientIp site.mech.value site.mech.cidr with
    | error | ok => simp [Except.map]
  | _ =>
    rw [hdirect]
    simp [evalDirect, hkind]

theorem faults_iff {w : Walk SpfSite SpfOutcome} (hexpand : w.expand = unfoldSite dns clientIp)
    {terms : List SpfSite} :
    w.Faults Threw terms ↔ ∃ p site, w.ListReaches terms p site ∧ Malformed clientIp site := by
  simp only [Walk.Faults, hexpand, exists_and_left, exists_unfoldSite_threw_iff]

/-- A term that unfolds has asked the resolver. -/
theorem looksUp_of_unfoldSite {terms : List SpfSite}
    (h : unfoldSite dns clientIp site = .inr terms) :
    looksUp site = true := by
  unfold unfoldSite at h
  unfold looksUp
  cases hkind : site.mech.kind with
  | includes =>
    rw [hkind] at h
    simp only at h ⊢
    split at h
    · cases h
    · next hdepth => exact decide_eq_true (Nat.lt_of_not_le hdepth)
  | a | mx | redirect => rfl
  | _ =>
    rw [hkind] at h
    cases h

variable (r : Option (SpfSite × SpfOutcome))

theorem threw_syncBack_iff : Threw (syncBack r) ↔ Walk.StoppedBad Threw r := by
  unfold Threw Walk.StoppedBad syncBack
  split <;> simp_all

theorem threw_asyncValue_iff : Threw (asyncValue r) ↔ Walk.StoppedBad Threw r := by
  unfold Threw Walk.StoppedBad asyncValue
  split <;> simp_all

theorem threw_map_iff {β : Type} (f : SpfEval → β) (o : SpfOutcome) :
    (∃ e, o.map f = .error e) ↔ Threw o := by
  unfold Threw
  cases o with
  | error | ok => simp [Except.map]

theorem threw_asyncBack_iff (site : SpfSite) (r : Option (SpfSite × SpfOutcome)) :
    Threw ((asyncWalk dns clientIp).back site r) ↔ Walk.StoppedBad Threw r := by
  rw [← threw_asyncValue_iff]
  unfold asyncWalk
  dsimp only
  split
  · exact threw_map_iff includeEval (asyncValue r)
  · rfl

theorem threw_syncResult_iff : (∃ e, syncResult r = .error e) ↔ Walk.StoppedBad Threw r := by
  unfold Walk.StoppedBad Threw syncResult
  split <;> simp_all

/-- What both checks make of the record, over the walk of its terms. -/
theorem exists_withSpfRecord_iff {w : Walk SpfSite SpfOutcome}
    (hexpand : w.expand = unfoldSite dns clientIp) (hcosts : w.costs = looksUp)
    (hstops : ∀ site o, Threw o → w.stops site o = true)
    (hback : ∀ site r, Threw (w.back site r) ↔ Walk.StoppedBad Threw r)
    (result : Option (SpfSite × SpfOutcome) → Except StoiError SpfResult)
    (hres : ∀ r, (∃ e, result r = .error e) ↔ Walk.StoppedBad Threw r)
    {terms : Nat → List SpfMechanism → Bytes → Option (Except StoiError SpfResult × Nat)}
    (hterms : ∀ fuel mechs domain, terms fuel mechs domain =
      (w.list (w.term fuel) (sites mechs domain 0)).map fun r => (result r.1, r.2)) :
    (∃ fuel r n, withSpfRecord dns mailFrom heloDomain (terms fuel) = some (.ok r, n) ∧ n ≤ 10) ↔
      WithinLimit dns clientIp mailFrom heloDomain w := by
  have hunfolds (site : SpfSite) (nested : List SpfSite) (h : w.expand site = .inr nested) :
      w.costs site = true := by
    rw [hexpand] at h
    rw [hcosts]
    exact looksUp_of_unfoldSite h
  unfold withSpfRecord WithinLimit
  by_cases hdom : spfDomain mailFrom heloDomain = []
  · simp only [hdom, if_true, ne_eq, not_true_eq_false, false_imp_iff, iff_true]
    exact ⟨0, _, 0, rfl, Nat.zero_le 10⟩
  · simp only [ne_eq, hdom, if_false, not_false_eq_true, true_imp_iff]
    cases hrecs : (dns.txt (spfDomain mailFrom heloDomain)).filter isSpfRecord with
    | nil =>
      refine iff_of_true ⟨0, _, 0, rfl, Nat.zero_le 10⟩ ?_
      nofun
    | cons rec records =>
      cases records with
      | cons rec' records =>
        refine iff_of_true ⟨0, _, 0, rfl, Nat.zero_le 10⟩ ?_
        nofun
      | nil =>
        simp only [hterms, List.cons.injEq, and_true, forall_eq']
        have hmalformed : (∀ p site, w.ListReaches
              (sites (parseSpfRecord rec) (spfDomain mailFrom heloDomain) 0) p site →
                ¬Malformed clientIp site) ↔
            ¬w.Faults Threw (sites (parseSpfRecord rec) (spfDomain mailFrom heloDomain) 0) := by
          rw [faults_iff hexpand]
          simp only [not_exists, not_and]
        rw [hmalformed]
        refine Iff.trans ?_ (exists_list_good_iff hunfolds hstops hback)
        constructor
        · rintro ⟨fuel, r, n, h, hn⟩
          obtain ⟨⟨r', n'⟩, hlist, heq⟩ := Option.map_eq_some_iff.mp h
          obtain ⟨hr, rfl⟩ := Prod.mk.inj heq
          refine ⟨fuel, r', n', hlist, ?_, hn⟩
          intro hbad
          obtain ⟨e, he⟩ := (hres r').mpr hbad
          rw [he] at hr
          cases hr
        · rintro ⟨fuel, r, n, hlist, hgood, hn⟩
          rw [← hres r] at hgood
          cases hr : result r with
          | error e => exact absurd ⟨e, hr⟩ hgood
          | ok answer =>
            refine ⟨fuel, answer, n, ?_, hn⟩
            rw [hlist]
            simp [hr]

/-- **The policies for which both SPF checks keep the limit**: in the record unfolded as each of
them unfolds it, at most ten terms with a lookup and no malformed `ip4` term stand in front of
its end. -/
theorem spfBounded_iff :
    SpfBounded dns clientIp mailFrom heloDomain ↔
      WithinLimit dns clientIp mailFrom heloDomain (syncWalk dns clientIp) ∧
        WithinLimit dns clientIp mailFrom heloDomain (asyncWalk dns clientIp) := by
  refine and_congr ?_ ?_
  · refine exists_withSpfRecord_iff rfl rfl ?_ ?_ syncResult
      threw_syncResult_iff checkSpfFrom_eq_list
    · rintro site o ⟨e, rfl⟩
      rfl
    · intro site r
      exact threw_syncBack_iff r
  · refine exists_withSpfRecord_iff rfl rfl ?_ ?_
      (fun r => (asyncValue r).map asyncResult) ?_ ?_
    · rintro site o ⟨e, rfl⟩
      rfl
    · exact threw_asyncBack_iff
    · intro r
      rw [← threw_asyncValue_iff]
      exact threw_map_iff asyncResult (asyncValue r)
    · intro fuel mechs domain
      rw [evalSpfMechanismsAsync, continueAfter_eq_list
        (fun mech => evalSpfMechanismAsync_eq_term fuel mech domain 0), Option.map_map]
      rfl

end

/-! ## A policy that never ends -/

/-- A zone in which every domain refers to another one. -/
def loopDns : DnsView where
  txt _ := [bytes "v=spf1 redirect=a.org"]
  host _ := []
  mx _ := []

def loopTerm : SpfMechanism := { mechanism := bytes "redirect", value := bytes "a.org" }

theorem parseSpfRecord_loop : parseSpfRecord (bytes "v=spf1 redirect=a.org") = [loopTerm] := by
  decide

theorem evalSpfMechanism_loopTerm (fuel : Nat) (domain : Bytes) (depth : Nat) :
    evalSpfMechanism loopDns [] fuel loopTerm domain depth = none := by
  have hkind : loopTerm.kind = .redirect := by decide
  have hrec : (loopDns.txt loopTerm.value).find? isSpfRecord =
      some (bytes "v=spf1 redirect=a.org") := by decide
  induction fuel generalizing domain depth with
  | zero =>
    unfold evalSpfMechanism evalSpfMechanismWith
    rfl
  | succ fuel ih =>
    unfold evalSpfMechanism evalSpfMechanismWith
    rw [hrec]
    simp only [parseSpfRecord_loop, evalSubs, ih]
    rfl

/-- A zone with a redirect in a circle keeps the synchronous check busy for ever. -/
theorem not_forall_spfBounded :
    ¬∀ (dns : DnsView) (clientIp mailFrom heloDomain : Bytes),
      SpfBounded dns clientIp mailFrom heloDomain := by
  intro h
  obtain ⟨⟨fuel, r, n, hcheck, -⟩, -⟩ := h loopDns [] (bytes "u@a.org") []
  have hdom : spfDomain (bytes "u@a.org") [] = bytes "a.org" := by decide
  have hrecs : (loopDns.txt (bytes "a.org")).filter isSpfRecord =
      [bytes "v=spf1 redirect=a.org"] := by decide
  have hexp : loopTerm.mechanism ≠ bytes "exp" := by decide
  have hne : bytes "a.org" ≠ [] := by decide
  simp only [checkSpf, withSpfRecord, hdom, if_neg hne, hrecs, parseSpfRecord_loop, checkSpfFrom,
    if_neg hexp, evalSpfMechanism_loopTerm] at hcheck
  cases hcheck

end InboundVerifier

end ProtoRelay
