import ProtoRelay.Smtp.Effects

/-!
# At most one transition at a time

A handler that starts asynchronous work pauses the session until the transition is settled.  So at
any time at most one operation is pending or waits to be settled, and none while the session is not
paused.  In particular a command is dispatched only when nothing is outstanding: the continuation of
an operation finds the session as the handler that started it left it, whatever arrives meanwhile.
-/

namespace ProtoRelay

open List

namespace Session

namespace Core

/-- Transitions that are pending or wait to be settled. -/
def outstanding (k : Core) : Nat := k.view.settles.length + k.pending.toList.length

/-- At most one transition is outstanding, and none unless the session is paused. -/
def Single (k : Core) : Prop := k.outstanding ≤ k.view.paused.toNat

/-- Nothing is outstanding. -/
structure Idle (k : Core) : Prop where
  settles : k.view.settles = []
  pending : k.pending = none

/-- The session is paused for a transition of which nothing is outstanding: a continuation runs. -/
structure Armed (k : Core) : Prop extends Idle k where
  paused : k.view.paused = true

variable {k : Core}

theorem Idle.single (h : k.Idle) : k.Single := by
  simp [Single, outstanding, h.settles, h.pending]

/-! ## What the discipline gives -/

theorem Single.idle (h : k.Single) (hp : k.view.paused = false) : k.Idle := by
  simp only [Single, outstanding, hp, Bool.toNat_false] at h
  refine ⟨eq_nil_of_length_eq_zero (by omega), ?_⟩
  cases hpend : k.pending with
  | none => rfl
  | some p => simp [hpend] at h

/-- While an operation is pending nothing waits to be settled, and the session is paused. -/
theorem Single.armed {p : Pending} (h : k.Single) (hp : k.pending = some p) :
    { k with pending := none }.Armed := by
  simp only [Single, outstanding, hp, Option.toList_some, length_singleton] at h
  cases hpa : k.view.paused with
  | false => simp [hpa] at h
  | true =>
    simp only [hpa, Bool.toNat_true] at h
    have hsettles : k.view.settles = [] := eq_nil_of_length_eq_zero (by omega)
    exact ⟨⟨hsettles, rfl⟩, hpa⟩

/-- While a transition waits to be settled nothing is pending, and no other one waits. -/
theorem Single.of_settles {t : Task SmtpsState SmtpsReport}
    {ts : List (Task SmtpsState SmtpsReport)} (h : k.Single) (ht : k.view.settles = t :: ts) :
    ts = [] ∧ k.pending = none := by
  have hle : k.view.paused.toNat ≤ 1 := Bool.toNat_le _
  simp only [Single, outstanding, ht, length_cons] at h
  refine ⟨eq_nil_of_length_eq_zero (by omega), ?_⟩
  cases hpend : k.pending with
  | none => rfl
  | some p =>
    simp only [hpend, Option.toList_some, length_singleton] at h
    omega

/-! ## Operations on cores -/

theorem Idle.goto (h : k.Idle) (st : SmtpsState) (rs : List SmtpsReport) : (k.goto st rs).Idle :=
  { h with }

theorem Idle.arm (h : k.Idle) : k.arm.Armed := ⟨{ h with }, rfl⟩

theorem Idle.dispatched (h : k.Idle) (e : SmtpsEvent) (args : Bytes) : (k.dispatched e args).Idle :=
  { h with }

theorem Idle.report (h : k.Idle) (rs : List SmtpsReport) : (k.report rs).Idle :=
  { h with }

theorem Armed.report (h : k.Armed) (rs : List SmtpsReport) : (k.report rs).Armed :=
  ⟨h.toIdle.report rs, h.paused⟩

theorem Armed.reset (h : k.Armed) : k.reset.Armed := ⟨{ h with }, h.paused⟩

theorem Armed.discard (h : k.Armed) : k.discard.Armed := by
  unfold Core.discard
  split
  · exact h.reset
  · exact h

theorem Armed.await (h : k.Armed) (p : Pending) : (k.await p).Single := by
  simp [Single, outstanding, Core.await, h.settles, h.paused]

theorem Armed.post (h : k.Armed) (closed : Bool) (t : Task SmtpsState SmtpsReport) :
    (k.post closed t).Single := by
  cases closed <;> simp [Single, outstanding, Core.post, h.settles, h.pending, h.paused]

end Core

variable {env : SmtpEnv} {cfg : ServerConfig}

/-! ## Acts -/

variable {k : Core} {s : Session}

theorem MailFromAct.single {sender : Bytes} {closed : Bool} {k' : Core}
    (hact : MailFromAct sender closed k k') (h : k.Armed) : k'.Single := by
  cases hact with
  | quota | spf => exact h.await _
  | refuse | accept => exact h.post _ _

theorem MessageAct.single {closed : Bool} {k' : Core} (hact : MessageAct closed k k')
    (h : k.Armed) :
    k'.Single := by
  cases hact with
  | reject => exact h.discard.post _ _
  | await p hp => exact h.await _
  | boundary runs => exact (h.report _).await _

theorem CommandAct.single {o : Oracle} {e : SmtpsEvent} (hact : CommandAct env cfg o s e k)
    (h : s.core.Idle) : k.Single := by
  cases hact with
  | skip he => exact h.single
  | goto st he hst => exact (h.goto st _).single
  | nameUser username hname => exact (h.goto .waitAuthPassword []).single
  | startAuth | submissionAlias => exact h.arm.await _
  | mailFrom sender k hk => exact hk.single ⟨{ h with }, rfl⟩
  | takeRecipient recipient hr => exact (h.goto .waitRcptTo []).single
  | lookUp recipient p hr hp => exact h.arm.await p
  | cachedRecipient recipient hr hcached => exact h.arm.post false _
  | data | dataAgain => exact (h.goto .inMessage []).single
  | tooLarge v => exact ((h.report _).goto _ _).single
  | dataEndRefused v => exact (h.report _).arm.discard.post _ _
  | dataEnd v k hwriter hk => exact hk.single (h.report _).arm

theorem AnswerAct.single {p : Pending} {i : Input} (hact : AnswerAct env s p i k)
    (h : s.core.Armed) :
    k.Single := by
  cases hact with
  | dropped hcl => exact h.single
  | authOk account shard hopen => exact (h.report _).post false _
  | authFailed account shard lastAttempt hopen => exact (h.report _).post _ _
  | mailFrom sender k hp hk | message k hp hk => exact hk.single h
  | noAlias | aliasTargets | userFound => exact h.post false _
  | userMissing | verified => exact h.await _
  | userUnknown | notPersisted => exact h.post _ _
  | submitted m accepted k hmail hq hk =>
    rcases hk with rfl | rfl
    · exact (h.report _).reset.post _ _
    · exact (h.report _).await .persist
  | persisted hopen => exact h.reset.post _ _

/-! ## Runs -/

/-- **A step keeps the discipline.** -/
theorem single_step (h : s.core.Single) (i : ServerConfig × Input) :
    (step env s i).core.Single := by
  have hm := step_coreMove env s i
  generalize (step env s i).core = k at hm
  obtain ⟨cfg, i⟩ := i
  cases hm with
  | same | rejected => exact h
  | settled t ts ht hopen =>
    obtain ⟨rfl, hp⟩ := h.of_settles ht
    refine Core.Idle.single ⟨?_, hp⟩
    cases t <;> rfl
  | unsettled t ts ht hcl =>
    obtain ⟨rfl, hp⟩ := h.of_settles ht
    exact Core.Idle.single ⟨rfl, hp⟩
  | command o s₁ k hfound hpa hopen hact =>
    refine hact.single ?_
    rw [core_foundInput hfound]
    exact (h.idle hpa).dispatched _ _
  | threw o s₁ hfound hpa hopen hdata hmail =>
    rw [core_foundInput hfound]
    have hidle := (h.idle hpa).dispatched s₁.nextEvent s₁.lastCommandArgs
    exact Core.Idle.single { hidle with }
  | answered p k hpending hact => exact hact.single (h.armed hpending)

/-- **A run keeps the discipline.** -/
theorem single_run (h : s.core.Single) (is : List (ServerConfig × Input)) :
    (run (step env) s is).core.Single :=
  run_invariant (fun s : Session => s.core.Single) (fun _ i hs => single_step hs i) h is

def settleReports : Task SmtpsState SmtpsReport → List SmtpsReport
  | .settle _ _ rs => rs
  | _ => []

/-- Every report satisfies `R`, those that wait for their transition to be settled as well. -/
structure Core.Reports (R : SmtpsReport → Prop) (k : Core) : Prop where
  reported : ∀ r ∈ k.view.reported, R r
  waiting : ∀ t ∈ k.view.settles, ∀ r ∈ settleReports t, R r

/-- From `k` to `k'` the identity of the client stays, no password check begins, and what is
reported, or waits to be reported, waited before or satisfies `R`. -/
structure Core.Calm (R : SmtpsReport → Prop) (k k' : Core) : Prop where
  reported : ∃ rs, k'.view.reported = rs ++ k.view.reported ∧
    ∀ r ∈ rs, R r ∨ ∃ t ∈ k.view.settles, r ∈ settleReports t
  waiting : ∀ t ∈ k'.view.settles, t ∈ k.view.settles ∨ ∀ r ∈ settleReports t, R r
  isAuthenticated : k'.envelope.isAuthenticated = k.envelope.isAuthenticated
  clientUsername : k'.envelope.clientUsername = k.envelope.clientUsername
  attempt : ∀ account, k'.pending = some (.auth account) → k.pending = some (.auth account)

namespace Core

variable {R R' : SmtpsReport → Prop} {k k' : Core} {rs : List SmtpsReport}
  {t : Task SmtpsState SmtpsReport} {ts : List (Task SmtpsState SmtpsReport)}

theorem Calm.refl (k : Core) : k.Calm R k :=
  ⟨⟨[], rfl, by simp⟩, fun _ ht => .inl ht, rfl, rfl, fun _ hp => hp⟩

section

variable (h : k.Calm R k')

include h

theorem Calm.report (rs : List SmtpsReport) (hrs : ∀ r ∈ rs, R r) : k.Calm R (k'.report rs) := by
  obtain ⟨rs', heq, hrs'⟩ := h.reported
  refine { h with reported := ⟨rs.reverse ++ rs', by simp [Core.report, heq], fun r hr => ?_⟩ }
  rcases mem_append.mp hr with hmem | hmem
  · exact .inl (hrs r (mem_reverse.mp hmem))
  · exact hrs' r hmem

theorem Calm.goto (st : SmtpsState) (rs : List SmtpsReport) (hrs : ∀ r ∈ rs, R r) :
    k.Calm R (k'.goto st rs) :=
  { h.report rs hrs with }

theorem Calm.await {p : Pending} (hp : ∀ account, p ≠ .auth account) : k.Calm R (k'.await p) :=
  { h with attempt := fun account hpending => absurd (Option.some.inj hpending) (hp account) }

theorem Calm.post (closed : Bool) (ht : ∀ r ∈ settleReports t, R r) :
    k.Calm R (k'.post closed t) := by
  cases closed with
  | true => exact h
  | false =>
    refine { h with waiting := fun t' ht' => ?_ }
    rcases mem_append.mp ht' with hmem | hmem
    · exact h.waiting t' hmem
    · rw [mem_singleton.mp hmem]
      exact .inr ht

theorem Calm.discard : k.Calm R k'.discard := by
  unfold Core.discard
  split
  · exact { h with }
  · exact h

omit h in
theorem Calm.of_dispatched {e : SmtpsEvent} {args : Bytes} (h : (k.dispatched e args).Calm R k')
    (hR : R (.dispatched e args)) : k.Calm R k' := by
  obtain ⟨rs, heq, hrs⟩ := h.reported
  refine { h with reported := ⟨rs ++ [.dispatched e args], by simp [heq, Core.dispatched], ?_⟩ }
  exact forall_mem_append.mpr ⟨hrs, by simpa using .inl hR⟩

theorem Reports.of_calm (hk : k.Reports R') (hR : ∀ r, R r → R' r) : k'.Reports R' := by
  obtain ⟨rs, heq, hrs⟩ := h.reported
  refine ⟨fun r hr => ?_, fun t ht r hr => ?_⟩
  · rw [heq] at hr
    rcases mem_append.mp hr with hmem | hmem
    · rcases hrs r hmem with hr | ⟨t, ht, hr⟩
      · exact hR r hr
      · exact hk.waiting t ht r hr
    · exact hk.reported r hmem
  · rcases h.waiting t ht with hmem | hreports
    · exact hk.waiting t hmem r hr
    · exact hR r (hreports r hr)

end

/-- A transition is settled. -/
theorem calm_settled (ht : k.view.settles = t :: ts) :
    k.Calm R { k with view := { k.view with settles := ts }.settled t } := by
  have hcalm : k.Calm R { k with view := { k.view with settles := ts } } :=
    { Calm.refl k with waiting := fun t' ht' => .inl (ht ▸ mem_cons_of_mem t ht') }
  cases t with
  | settle target reply rs =>
    refine { hcalm with reported := ⟨rs.reverse, rfl, fun r hr => .inr ?_⟩ }
    exact ⟨.settle target reply rs, ht ▸ mem_cons_self, mem_reverse.mp hr⟩
  | _ => exact { hcalm with }

end Core

/-- What may be reported when the answer to `p` is handled, or a command if that is `none`, with
this mail. -/
def Reportable (mail : Option (Bytes × List Bytes)) (p : Option Pending) : SmtpsReport → Prop
  | .authResult _ ok => ok = false
  | .submitted m => mail = some (mailEnvelope m)
  | .acknowledged => p = some .submit ∨ p = some .persist
  | _ => True

section Calm

variable {mail : Option (Bytes × List Bytes)} {p : Option Pending} {k₀ k' : Core} {closed : Bool}
  {R : SmtpsReport → Prop}

theorem MailFromAct.calm {sender : Bytes} (hact : MailFromAct sender closed k k')
    (h : k₀.Calm (Reportable mail p) k) : k₀.Calm (Reportable mail p) k' := by
  cases hact with
  | quota | spf => exact h.await nofun
  | refuse reply => exact h.post _ (by simp [settleReports])
  | accept => exact h.post _ (by simp [settleReports, Reportable])

theorem MessageAct.calm (hact : MessageAct closed k k') (h : k₀.Calm (Reportable mail p) k) :
    k₀.Calm (Reportable mail p) k' := by
  cases hact with
  | reject => exact h.discard.post _ (by simp [settleReports])
  | await p hp =>
    refine h.await ?_
    rintro account rfl
    simp at hp
  | boundary runs =>
    refine (h.report _ (by simp [Reportable])).await ?_
    cases runs <;> nofun

/-- **Only a line of an AUTH exchange that names an account is not calm.** -/
theorem CommandAct.calm {o : Oracle} {e : SmtpsEvent} (hact : CommandAct env cfg o s e k)
    (p : Option Pending) : s.core.Calm (Reportable s.core.mail p) k ∨
      e = .auth ∧ ∃ account, namedAccount env cfg s = some account ∧
        (k = (s.core.withUser account).goto .waitAuthPassword [] ∨
          k = (s.core.withUser account).arm.await (.auth account)) := by
  have h : s.core.Calm (Reportable s.core.mail p) s.core := .refl s.core
  have hend (v : DataEndView) :
    s.core.Calm (Reportable s.core.mail p) (s.core.report [.dataEnd v]).arm :=
    { h.report [.dataEnd v] (by simp [Reportable]) with }
  cases hact with
  | nameUser username hname => exact .inr ⟨rfl, username, hname, .inl rfl⟩
  | startAuth account hname => exact .inr ⟨rfl, account, hname, .inr rfl⟩
  | skip he => exact .inl h
  | goto st he hst => exact .inl (h.goto st _ (by simp))
  | mailFrom sender k hk => exact .inl (hk.calm { h with })
  | takeRecipient recipient hr =>
    exact .inl { h.goto .waitRcptTo [.rcptTo [recipient]] (by simp [Reportable]) with }
  | submissionAlias recipient hr =>
    exact .inl { h.await (p := .submissionAlias recipient) nofun with }
  | lookUp recipient p hr hp =>
    refine .inl { h.await ?_ with }
    rcases hp with rfl | rfl <;> nofun
  | cachedRecipient recipient hr hcached =>
    refine .inl (Core.Calm.post ?_ _ (by simp [settleReports, Reportable]))
    exact { h with }
  | data opened hmail => exact .inl { h.goto .inMessage [] (by simp) with }
  | dataAgain hmail => exact .inl (h.goto .inMessage [] (by simp))
  | tooLarge v => exact .inl { hend v with }
  | dataEndRefused v => exact .inl ((hend v).discard.post _ (by simp [settleReports]))
  | dataEnd v k hwriter hk => exact .inl (hk.calm (hend v))

/-- **Only a successful password check is not calm.** -/
theorem AnswerAct.calm {p : Pending} {i : Input} (hact : AnswerAct env s p i k) :
    s.core.Calm (Reportable s.core.mail (some p)) k ∨
      ∃ account, p = .auth account ∧
        k = (s.core.report [.authResult account true]).authenticated.finish false .waitMailFrom
          (bytes "235 Authentication successful") [] := by
  have h : s.core.Calm (Reportable s.core.mail (some p)) s.core := .refl s.core
  cases hact with
  | authOk account shard hopen => exact .inr ⟨account, rfl, rfl⟩
  | dropped hcl => exact .inl h
  | authFailed account shard lastAttempt hopen =>
    exact .inl ((h.report _ (by simp [Reportable])).post _ (by simp [settleReports]))
  | mailFrom sender k hp hk | message k hp hk => exact .inl (hk.calm h)
  | noAlias | aliasTargets | userFound | persisted =>
    refine .inl (Core.Calm.post ?_ _ (by simp [settleReports, Reportable]))
    exact { h with }
  | userMissing | verified => exact .inl (h.await nofun)
  | userUnknown | notPersisted => exact .inl (h.post _ (by simp [settleReports]))
  | submitted m accepted k hmail hq hk =>
    have hrep := h.report [.submitted m] (by simpa [Reportable] using hmail)
    rcases hk with rfl | rfl
    · refine .inl (Core.Calm.post ?_ _ (by simp [settleReports, Reportable]))
      exact { hrep with }
    · exact .inl { hrep.await (p := .persist) nofun with }

end Calm

/-! ## Beginnings -/

/-- The core of a session right after its construction or its banner. -/
structure Core.Fresh (k : Core) : Prop extends Core.Idle k where
  unauthenticated : k.envelope.isAuthenticated = false
  recipients : k.envelope.recipientAddresses = []
  mail : k.mail = none
  state : k.view.state = .waitEhlo
  reported : ∀ r ∈ k.view.reported, ∃ e args, r = .dispatched e args

theorem IsStart.fresh (h : IsStart env s) : s.core.Fresh := by
  rcases h with ⟨cfg, listener, rfl⟩ | ⟨-, listener, rfl⟩
  · refine ⟨⟨rfl, rfl⟩, rfl, rfl, rfl, rfl, ?_⟩
    intro r hr
    exact ⟨.connect, [], mem_singleton.mp hr⟩
  · exact ⟨⟨rfl, rfl⟩, rfl, rfl, rfl, rfl, fun r hr => absurd hr not_mem_nil⟩

end Session

end ProtoRelay
