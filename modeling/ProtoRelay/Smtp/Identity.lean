import ProtoRelay.Smtp.Transitions

/-!
# The identity of an SMTP client

`is_authenticated` is set when a password check succeeds and never cleared.  `client_username` is
written before the check: by the user name of AUTH LOGIN, and by the start of every check.  After a
rejected MAIL FROM the session is back in `WAIT_AUTH`, where AUTH is legal again, so the name of an
attempt that then fails stays with a session that counts as authenticated.

This module states what the two fields should mean, shows a run in which they do not, and says
exactly which runs keep their meaning.
-/

namespace ProtoRelay

/-- The account of a successful password check. -/
def okAccount : SmtpsReport → Option Bytes
  | .authResult account true => some account
  | _ => none

/-- The account of the last successful password check; the reports are newest first. -/
def lastOkAccount (rs : List SmtpsReport) : Option Bytes := rs.findSome? okAccount

def NoOkAccount (rs : List SmtpsReport) : Prop := ∀ r ∈ rs, okAccount r = none

theorem lastOkAccount_append {rs : List SmtpsReport} (h : NoOkAccount rs) (rs' : List SmtpsReport) :
    lastOkAccount (rs ++ rs') = lastOkAccount rs' := by
  induction rs with
  | nil => rfl
  | cons r rs ih =>
    have hr : okAccount r = none := h r (by simp)
    have hrs : NoOkAccount rs := fun r' hr' => h r' (List.mem_cons_of_mem r hr')
    rw [← ih hrs]
    simp [lastOkAccount, hr]

theorem okAccount_of_reportable {mail : Option (Bytes × List Bytes)} {p : Option Pending}
    {r : SmtpsReport} (h : Session.Reportable mail p r) : okAccount r = none := by
  unfold okAccount
  split
  · cases h
  · rfl

namespace Session

/-! ## Cores -/

/-- The name of an authenticated session is the one of the last successful check, the name in a
check under way is the name of the session, and results of checks are not among the reports that
wait. -/
structure Core.Named (k : Core) : Prop where
  name : k.envelope.isAuthenticated = true →
    lastOkAccount k.view.reported = some k.envelope.clientUsername
  attempt : ∀ account, k.pending = some (.auth account) → k.envelope.clientUsername = account
  settles : ∀ t ∈ k.view.settles, NoOkAccount (settleReports t)

variable {env : SmtpEnv} {cfg : ServerConfig} {k k' : Core} {s : Session} {account : Bytes}

theorem Core.Named.of_calm {mail : Option (Bytes × List Bytes)} {p : Option Pending} (h : k.Named)
    (hcalm : k.Calm (Reportable mail p) k') : k'.Named where
  name hauth := by
    obtain ⟨rs, heq, hrs⟩ := hcalm.reported
    have hno : NoOkAccount rs := by
      intro r hr
      rcases hrs r hr with hrep | ⟨t, ht, hmem⟩
      · exact okAccount_of_reportable hrep
      · exact h.settles t ht r hmem
    rw [heq, lastOkAccount_append hno, hcalm.clientUsername]
    exact h.name (hcalm.isAuthenticated ▸ hauth)
  attempt account hp := hcalm.clientUsername.trans (h.attempt account (hcalm.attempt account hp))
  settles t ht := by
    rcases hcalm.waiting t ht with hmem | hreports
    · exact h.settles t hmem
    · exact fun r hr => okAccount_of_reportable (hreports r hr)

/-! ## Steps -/

/-- An authenticated session carries the name of the last account whose check succeeded. -/
def IdentityHolds (s : Session) : Prop :=
  s.ctx.isAuthenticated = true → lastOkAccount s.io.view.reported = some s.ctx.clientUsername

variable (env)

/-- The account that an AUTH line names which the session takes in this step. -/
def attemptedAccount (s : Session) (i : ServerConfig × Input) : Option Bytes :=
  match i.2 with
  | .consume o =>
    if s.io.closed then none
    else
      (s.foundInput o).bind fun s₁ =>
        if s₁.nextEvent = .auth then namedAccount env i.1 s₁ else none
  | _ => none

/-- The step does not name another account to a session that is authenticated. -/
def KeepsIdentity (s : Session) (i : ServerConfig × Input) : Prop :=
  s.ctx.isAuthenticated = true → ∀ account ∈ attemptedAccount env s i,
    account = s.ctx.clientUsername

instance (s : Session) (i : ServerConfig × Input) : Decidable (KeepsIdentity env s i) :=
  inferInstanceAs (Decidable (_ → _))

/-- **What a step does to the identity**: nothing, unless it takes an AUTH line that names an
account, or a password check succeeds. -/
theorem step_identity (s : Session) (i : ServerConfig × Input) :
    s.core.Calm (Reportable s.core.mail s.pending) (step env s i).core ∨
      (∃ account args, account ∈ attemptedAccount env s i ∧ s.io.paused = false ∧
        ((step env s i).core =
          ((s.core.dispatched .auth args).withUser account).goto .waitAuthPassword [] ∨
          (step env s i).core =
            ((s.core.dispatched .auth args).withUser account).arm.await (.auth account))) ∨
      ∃ account, s.pending = some (.auth account) ∧
        (step env s i).core =
          ({ s with pending := none }.core.report [.authResult account true]).authenticated.finish
            false .waitMailFrom (bytes "235 Authentication successful") [] := by
  have h : s.core.Calm (Reportable s.core.mail s.pending) s.core := .refl s.core
  have hm := step_coreMove env s i
  generalize (step env s i).core = k at hm
  obtain ⟨cfg, i⟩ := i
  cases hm with
  | same => exact .inl h
  | settled t ts ht hopen => exact .inl (Core.calm_settled ht)
  | unsettled t ts ht hcl =>
    exact .inl { h with waiting := fun t' ht' => .inl (ht ▸ List.mem_cons_of_mem t ht') }
  | rejected e args => exact .inl (Core.Calm.of_dispatched (.refl _) trivial)
  | command o s₁ k hfound hpa hopen hact =>
    have hcore := core_foundInput hfound
    rcases hact.calm s.pending with hcalm | ⟨hev, account, hname, hk⟩
    · rw [hcore] at hcalm
      exact .inl (hcalm.of_dispatched trivial)
    · rw [hcore, hev] at hk
      refine .inr (.inl ⟨account, _, ?_, hpa, hk⟩)
      simp [attemptedAccount, hopen, hfound, hev, hname]
  | threw o s₁ hfound hpa hopen hdata hmail =>
    rw [core_foundInput hfound]
    exact .inl (Core.Calm.of_dispatched { Core.Calm.refl (s.core.dispatched _ _) with } trivial)
  | answered p k hpending hact =>
    rcases hact.calm with hcalm | ⟨account, rfl, hk⟩
    · rw [hpending]
      exact .inl { hcalm with attempt := fun account hp => nomatch hcalm.attempt account hp }
    · exact .inr (.inr ⟨account, hpending, hk⟩)

variable {env} {i : ServerConfig × Input}

theorem named_step (hone : s.core.Single) (h : s.core.Named)
    (hi : KeepsIdentity env s i) : (step env s i).core.Named := by
  rcases step_identity env s i with hcalm | ⟨account, args, hname, hpa, hk⟩ | ⟨account,
    hpending, hk⟩
  · exact h.of_calm hcalm
  · have hidle : s.pending = none := (hone.idle hpa).pending
    have hsame : s.ctx.isAuthenticated = true → lastOkAccount s.io.view.reported = some account :=
      fun hauth => (h.name hauth).trans (congrArg some (hi hauth account hname).symm)
    rcases hk with hk | hk
    · rw [hk]
      exact ⟨hsame, fun _ hp => (nomatch hidle.symm.trans hp), h.settles⟩
    · rw [hk]
      exact ⟨hsame, fun _ hp => Pending.auth.inj (Option.some.inj hp), h.settles⟩
  · rw [hk]
    refine ⟨fun _ => congrArg some (h.attempt account hpending).symm, nofun, ?_⟩
    exact List.forall_mem_append.mpr ⟨h.settles, by simp [NoOkAccount, settleReports]⟩

/-! ## Runs -/

/-- The states in which an AUTH line may name an account. -/
theorem state_of_namedAccount (h : namedAccount env cfg s = some account) :
    s.io.state = .waitAuth ∨ s.io.state = .waitAuthUsername ∨ s.io.state = .waitAuthPassword := by
  unfold namedAccount at h
  split at h
  · exact .inr (.inl ‹_›)
  · exact .inr (.inr ‹_›)
  · exact .inl ‹_›
  · cases h

/-- An AUTH line that names an account is never turned down by the tables. -/
theorem act_consume_auth {s₁ : Session} {o : Oracle} (hopen : s.io.closed = false)
    (hfound : s.foundInput o = some s₁) (hev : s₁.nextEvent = .auth)
    (hname : namedAccount env cfg s₁ = some account) :
    CommandAct env cfg o s₁ .auth (s.consume env cfg o).core := by
  simp only [foundInput, Option.map_eq_some_iff] at hfound
  obtain ⟨s₀, hpar, rfl⟩ := hfound
  have hopen₀ : s₀.io.closed = false := (core_parsedInput hpar).2.2.trans hopen
  have hevent₀ : s₀.nextEvent = .auth := hev
  rw [hevent₀] at hname ⊢
  have hact : ∀ {st : SmtpsState} {s' : Session} {f : Session → Except Session Session},
      (s₀.reportDispatched .auth).io.state = st → Handled env cfg o st .auth f →
      f (s₀.reportDispatched .auth) = .ok s' →
      CommandAct env cfg o (s₀.reportDispatched .auth) .auth s'.core := by
    rintro st s' f rfl hf hs'
    exact Handled.act hf hopen₀ (by simp) hs'
  simp only [consume, hpar, dispatch, hopen₀, hevent₀]
  rcases state_of_namedAccount hname with hst | hst | hst
  all_goals
    have hst₀ : s₀.io.state = _ := hst
    simp only [hst, hst₀]
    cases env.isTls
  · exact hact hst .auth rfl
  · exact hact hst .auth rfl
  · exact hact hst .authUsername rfl
  · exact hact hst .authUsername rfl
  · exact hact hst .authPassword rfl
  · exact hact hst .authPassword rfl

/-- The name an AUTH line gives becomes the name of the session at once, and nothing else of its
identity changes. -/
theorem core_step_of_attemptedAccount (h : attemptedAccount env s i = some account) :
    (step env s i).ctx.clientUsername = account ∧
      (step env s i).ctx.isAuthenticated = s.ctx.isAuthenticated ∧
      lastOkAccount (step env s i).io.view.reported = lastOkAccount s.io.view.reported := by
  obtain ⟨cfg, i⟩ := i
  unfold attemptedAccount at h
  split at h
  · rename_i o hi
    obtain rfl : i = .consume o := hi
    split at h
    · cases h
    · rename_i hcl
      simp only [Option.bind_eq_some_iff] at h
      obtain ⟨s₁, hfound, h⟩ := h
      split at h
      · rename_i hev
        have hcore := core_foundInput hfound
        have hact := act_consume_auth (by simpa using hcl) hfound hev h
        have hauth : s₁.ctx.isAuthenticated = s.ctx.isAuthenticated :=
          congrArg (·.envelope.isAuthenticated) hcore
        have hlast : lastOkAccount s₁.io.view.reported = lastOkAccount s.io.view.reported :=
          congrArg (fun k => lastOkAccount k.view.reported) hcore
        change (s.consume env cfg o).core.envelope.clientUsername = account ∧
          (s.consume env cfg o).core.envelope.isAuthenticated = _ ∧
          lastOkAccount (s.consume env cfg o).core.view.reported = _
        rw [← hauth, ← hlast]
        generalize (s.consume env cfg o).core = k at hact
        cases hact with
        | skip he => exact absurd rfl he
        | goto st he hst => rw [he rfl] at h; cases h
        | nameUser username hname | startAuth username hname =>
          rw [hname] at h
          cases h
          exact ⟨rfl, rfl, rfl⟩
      · cases h
  · cases h

/-- A step that names another account to an authenticated session breaks its identity. -/
theorem not_identityHolds_step (hs : s.core.Named)
    (hi : ¬ KeepsIdentity env s i) : ¬ IdentityHolds (step env s i) := by
  intro hh
  apply hi
  intro hauth account haccount
  obtain ⟨huser, hauth', hlast⟩ := core_step_of_attemptedAccount haccount
  have hnew := hh (hauth'.trans hauth)
  have hold : lastOkAccount s.io.view.reported = some s.ctx.clientUsername := hs.name hauth
  rw [hlast, huser, hold] at hnew
  exact (Option.some.inj hnew).symm

theorem Core.Fresh.named (h : k.Fresh) : k.Named where
  name hauth := by rw [h.unauthenticated] at hauth; cases hauth
  attempt account hpending := by rw [h.pending] at hpending; cases hpending
  settles t ht := by rw [h.settles] at ht; cases ht

/-- **The identity of an SMTP client.**  In a run of a session, an authenticated session carries the
name of the last account whose password check succeeded, in every state, if and only if no step of
the run takes an AUTH line that names another account to a session that is already authenticated. -/
theorem identityHolds_iff_stepsMeet {s : Session} (hs : IsStart env s)
    (is : List (ServerConfig × Input)) :
    (∀ js, js <+: is → IdentityHolds (run (step env) s js)) ↔
      StepsMeet (step env) (KeepsIdentity env) s is := by
  have hinv : s.core.Single ∧ s.core.Named := ⟨hs.fresh.toIdle.single, hs.fresh.named⟩
  refine (stepsMeet_iff_forall_good (fun s : Session => s.core.Single ∧ s.core.Named)
    IdentityHolds ?_ ?_ ?_ hinv is).symm
  · intro s h
    exact h.2.name
  · intro s i h hi
    exact ⟨single_step h.1 i, named_step h.1 h.2 hi⟩
  · intro s i h hi
    exact not_identityHolds_step h.2 hi

/-- A core that is authenticated has seen a password check succeed. -/
def Core.Checked (k : Core) : Prop :=
  k.envelope.isAuthenticated = true → ∃ account, .authResult account true ∈ k.view.reported

theorem checked_step (h : s.core.Checked) (i : ServerConfig × Input) :
    (step env s i).core.Checked := by
  rcases step_identity env s i with hcalm | ⟨account, args, -, -, hk⟩ | ⟨account, -, hk⟩
  · intro hauth
    obtain ⟨account, hmem⟩ := h (hcalm.isAuthenticated ▸ hauth)
    obtain ⟨rs, heq, -⟩ := hcalm.reported
    exact ⟨account, heq ▸ List.mem_append_right rs hmem⟩
  · -- an AUTH line only names an account
    rcases hk with hk | hk
    all_goals
      rw [hk]
      exact fun hauth => (h hauth).imp fun _ => .tail _
  · rw [hk]
    exact fun _ => ⟨account, .head _⟩

/-- **No session is authenticated without a password check that succeeded.** -/
theorem checked_run (hs : IsStart env s) (is : List (ServerConfig × Input)) :
    (run (step env) s is).core.Checked := by
  refine run_invariant (fun s : Session => s.core.Checked) (fun _ i h => checked_step h i) ?_ is
  intro hauth
  rw [hs.fresh.unauthenticated] at hauth
  cases hauth

/-! ## Two logins on one connection -/

/-- A client that holds the credentials of one account and presents those of another as well. -/
def twoAccounts : SmtpEnv where
  isTls := false
  clientIp := bytes "203.0.113.9"
  decodeBlock block :=
    if block = bytes "AAAA" then some (0 :: bytes "alice" ++ 0 :: bytes "secret")
    else if block = bytes "BBBB" then some (0 :: bytes "bob" ++ 0 :: bytes "guess")
    else none
  hasDns := false
  hasQueue := true

def exampleConfig : ServerConfig := { systemDomain := bytes "example.com" }

def exampleListener : ListenerConfig := { authPolicy := .auto, advertiseStarttls := true }

def loginDialog : List (ServerConfig × Input) :=
  (quiesce ++ exchange {} (bytes "EHLO client\r\n") ++
    exchange {} (bytes "AUTH PLAIN AAAA\r\n") ++ [Input.authDone true 0] ++ quiesce).map
      (exampleConfig, ·)

/-- A rejected MAIL FROM and a login that fails. -/
def failedLoginDialog : List (ServerConfig × Input) :=
  (exchange {} (bytes "MAIL FROM:nobody\r\n") ++ exchange {} (bytes "AUTH PLAIN BBBB\r\n") ++
    [Input.authDone false 0]).map (exampleConfig, ·)

instance (s : Session) : Decidable (IdentityHolds s) := inferInstanceAs (Decidable (_ → _))

/-- With one login the identity holds throughout, and the session ends up authenticated. -/
theorem identityHolds_of_login :
    (run (step twoAccounts) (start twoAccounts exampleConfig exampleListener)
        loginDialog).ctx.isAuthenticated = true ∧
      ∀ js, js <+: loginDialog →
        IdentityHolds (run (step twoAccounts)
          (start twoAccounts exampleConfig exampleListener) js) :=
  ⟨by decide +kernel,
    (identityHolds_iff_stepsMeet (.inl ⟨exampleConfig, exampleListener, rfl⟩) loginDialog).mpr
      (by decide)⟩

theorem checked_loginDialog :
    (run (step twoAccounts) (start twoAccounts exampleConfig exampleListener)
      loginDialog).core.Checked :=
  checked_run (.inl ⟨exampleConfig, exampleListener, rfl⟩) loginDialog

/-- **A failed login changes the identity of an authenticated session.** -/
theorem not_forall_identityHolds :
    ¬ ∀ (env : SmtpEnv) (s : Session), IsStart env s →
      ∀ is, IdentityHolds (run (step env) s is) := by
  intro h
  have hh := h twoAccounts (start twoAccounts exampleConfig exampleListener)
    (.inl ⟨exampleConfig, exampleListener, rfl⟩) (loginDialog ++ failedLoginDialog)
  revert hh
  decide +kernel

end Session

end ProtoRelay
