import ProtoRelay.Smtp.Isolation

/-!
# The envelope of a submitted mail

DATA creates the mail from the recipients in the context, and the guard table lets DATA follow MAIL
FROM at once.  A mail that an earlier DATA has left behind is not replaced.  This module says what
the recipients of a submitted mail should be, in terms of the commands that were accepted, shows
that they are when DATA finds recipients and no mail, and shows a run in which they are not.
-/

namespace ProtoRelay

/-! ## Accepted recipients -/

/-- The recipients accepted since the last accepted MAIL FROM, if there is one; the reports are
newest first. -/
def acceptedSince : List SmtpsReport → Option (List Bytes)
  | [] => none
  | .mailFrom _ :: _ => some []
  | .rcptTo recipients :: rs => (acceptedSince rs).map (· ++ recipients)
  | _ :: rs => acceptedSince rs

/-- A mail was submitted since the last accepted MAIL FROM. -/
def submittedSince : List SmtpsReport → Bool
  | [] => false
  | .mailFrom _ :: _ => false
  | .submitted _ :: _ => true
  | _ :: rs => submittedSince rs

/-- The recipients are those accepted since the last accepted MAIL FROM. -/
def AcceptedExactly (recipients : List Bytes) (rs : List SmtpsReport) : Prop :=
  ∃ accepted ∈ acceptedSince rs, ∀ x, x ∈ recipients ↔ x ∈ accepted

/-- Every submitted mail has exactly the recipients accepted since its MAIL FROM, and at least one;
and only submitted mails are acknowledged. -/
structure EnvelopeComplete (rs : List SmtpsReport) : Prop where
  submitted : ∀ later m earlier, rs = later ++ .submitted m :: earlier →
    m.recipients ≠ [] ∧ AcceptedExactly m.recipients earlier
  acknowledged : ∀ later earlier, rs = later ++ .acknowledged :: earlier →
    submittedSince earlier = true

/-- The same report by report, as the record grows. -/
def EnvelopeRecord : List SmtpsReport → Prop
  | [] => True
  | .submitted m :: rs => (m.recipients ≠ [] ∧ AcceptedExactly m.recipients rs) ∧ EnvelopeRecord rs
  | .acknowledged :: rs => submittedSince rs = true ∧ EnvelopeRecord rs
  | _ :: rs => EnvelopeRecord rs

variable {rs : List SmtpsReport}

theorem EnvelopeRecord.tail {r : SmtpsReport} (h : EnvelopeRecord (r :: rs)) :
    EnvelopeRecord rs := by
  cases r with
  | submitted | acknowledged => exact h.2
  | _ => exact h

theorem EnvelopeRecord.of_append {later earlier : List SmtpsReport}
    (h : EnvelopeRecord (later ++ earlier)) : EnvelopeRecord earlier := by
  induction later with
  | nil => exact h
  | cons r later ih => exact ih h.tail

theorem EnvelopeRecord.complete (h : EnvelopeRecord rs) : EnvelopeComplete rs where
  submitted later m earlier heq := by
    rw [heq] at h
    exact h.of_append.1
  acknowledged later earlier heq := by
    rw [heq] at h
    exact h.of_append.1

/-- An accepted RCPT TO, with the recipients it stands for added in any way. -/
theorem AcceptedExactly.rcptTo {recipients recipients' : List Bytes}
    (h : AcceptedExactly recipients rs) {targets : List Bytes}
    (hmem : ∀ x, x ∈ recipients' ↔ x ∈ recipients ∨ x ∈ targets) :
    AcceptedExactly recipients' (.rcptTo targets :: rs) := by
  obtain ⟨accepted, hacc, hiff⟩ := h
  refine ⟨accepted ++ targets, ?_, fun x => ?_⟩
  · rw [Option.mem_def] at hacc ⊢
    simp [acceptedSince, hacc]
  · rw [hmem, hiff, List.mem_append]

theorem envelopeRecord_of_dispatched (h : ∀ r ∈ rs, ∃ e args, r = .dispatched e args) :
    EnvelopeRecord rs := by
  induction rs with
  | nil => trivial
  | cons r rs ih =>
    obtain ⟨e, args, rfl⟩ := h r List.mem_cons_self
    exact ih fun r' hr' => h r' (List.mem_cons_of_mem _ hr')

namespace Session

/-! ## The invariant -/

def receiving : SmtpsState → Bool
  | .waitRcptTo | .waitData => true
  | _ => false

namespace Core

/-- What is known about the envelope while an operation is pending. -/
def PendingEnveloped (k : Core) : Pending → Prop
  | .auth _ => True
  | .quota .. | .spf .. => k.envelope.recipientAddresses = []
  | .submissionAlias _ | .userExists _ | .recipientAlias _ =>
    AcceptedExactly k.envelope.recipientAddresses k.view.reported
  | .commit | .openRead | .fromAlias _ | .verify | .submit => k.view.state = .inMessage
  | .persist => submittedSince k.view.reported = true

/-- What settling the task leads to. -/
def TaskEnveloped (k : Core) : Task SmtpsState SmtpsReport → Prop
  | .settle target _ rs =>
    EnvelopeRecord (rs.reverse ++ k.view.reported) ∧
      ∃ st, target = some st ∧ st ≠ .inMessage ∧
        (receiving st = true →
          AcceptedExactly k.envelope.recipientAddresses (rs.reverse ++ k.view.reported))
  | .settleClosing target => target = some .waitQuit
  | _ => True

/-- The mail whose message is received has a complete envelope. -/
def MailEnveloped (k : Core) : Prop :=
  k.view.state = .inMessage → ∀ m ∈ k.mail, m.2 ≠ [] ∧ AcceptedExactly m.2 k.view.reported

/-- What is submitted is complete so far, and so are the recipients while the envelope is received
and the mail while the message is. -/
structure Enveloped (k : Core) : Prop where
  complete : EnvelopeRecord k.view.reported
  recipients : k.view.paused = false → receiving k.view.state = true →
    AcceptedExactly k.envelope.recipientAddresses k.view.reported
  mail : k.MailEnveloped
  pending : ∀ p ∈ k.pending, k.PendingEnveloped p
  waiting : ∀ t ∈ k.view.settles, k.TaskEnveloped t

variable {k : Core}

/-- Nothing is outstanding: the pending operation and the waiting tasks need no argument. -/
theorem Idle.enveloped (h : k.Idle) (hfull : EnvelopeRecord k.view.reported)
    (hrcpt : k.view.paused = false → receiving k.view.state = true →
      AcceptedExactly k.envelope.recipientAddresses k.view.reported)
    (hmail : k.MailEnveloped) : k.Enveloped where
  complete := hfull
  recipients := hrcpt
  mail := hmail
  pending := by simp [h.pending]
  waiting := by simp [h.settles]

theorem Idle.enveloped_outside (h : k.Idle) (hfull : EnvelopeRecord k.view.reported)
    (hst : inEnvelope k.view.state = false) : k.Enveloped := by
  refine h.enveloped hfull (fun _ hr => ?_) fun hm => ?_
  · cases hstate : k.view.state <;> simp_all [receiving, inEnvelope]
  · rw [hm] at hst
    cases hst

section

variable (h : k.Armed) (hfull : EnvelopeRecord k.view.reported) (hmail : k.MailEnveloped)

include h hfull hmail

theorem Armed.enveloped_await {p : Pending} (hp : k.PendingEnveloped p) :
    (k.await p).Enveloped where
  complete := hfull
  recipients hpaused := by
    change k.view.paused = false at hpaused
    rw [h.paused] at hpaused
    cases hpaused
  mail := hmail
  pending := by
    rintro _ ⟨⟩
    cases p <;> exact hp
  waiting := by
    change ∀ t ∈ k.view.settles, _
    simp [h.settles]

theorem Armed.enveloped_post (closed : Bool) {t : Task SmtpsState SmtpsReport}
    (ht : k.TaskEnveloped t) :
    (k.post closed t).Enveloped := by
  have hpaused : k.view.paused = false → False := by simp [h.paused]
  cases closed with
  | true => exact h.toIdle.enveloped hfull (fun hp => (hpaused hp).elim) hmail
  | false =>
    refine ⟨hfull, fun hp => (hpaused hp).elim, hmail, ?_, ?_⟩
    · change ∀ p ∈ k.pending, _
      simp [h.pending]
    · intro t' ht'
      obtain rfl : t' = t := by simpa [Core.post, h.settles] using ht'
      cases t' <;> exact ht

theorem Armed.enveloped_finish (closed : Bool) {st : SmtpsState} {reply : Bytes}
    {rs : List SmtpsReport} (ht : k.TaskEnveloped (.settle (some st) (some reply) rs)) :
    (k.finish closed st reply rs).Enveloped :=
  h.enveloped_post hfull hmail closed ht

end

theorem mailEnveloped_reset (k : Core) : k.reset.MailEnveloped := fun _ _ hm => by cases hm

theorem MailEnveloped.discard (h : k.MailEnveloped) : k.discard.MailEnveloped := by
  unfold Core.discard
  split
  · exact mailEnveloped_reset k
  · exact h

theorem view_discard (k : Core) : k.discard.view = k.view := by
  unfold discard
  split <;> rfl

/-- A task that settles outside the envelope and reports nothing. -/
theorem taskEnveloped_settle (hfull : EnvelopeRecord k.view.reported) {st : SmtpsState}
    (hst : inEnvelope st = false) (reply : Option Bytes) :
    k.TaskEnveloped (.settle (some st) reply []) := by
  refine ⟨hfull, st, rfl, ?_, ?_⟩
  · rintro rfl
    cases hst
  · intro hreceiving
    cases st <;> simp_all [receiving, inEnvelope]

section

variable (h : k.Armed) (hfull : EnvelopeRecord k.view.reported) (hmail : k.MailEnveloped)
  (hacc : AcceptedExactly k.envelope.recipientAddresses k.view.reported)

include h hfull hmail hacc

/-- Recipients are added, and the transition back to `WAIT_RCPT_TO` reports them. -/
theorem Armed.enveloped_pushTargets (targets : List Bytes) (reply : Bytes) :
    ((k.pushTargets targets).finish false .waitRcptTo reply [.rcptTo targets]).Enveloped :=
  Armed.enveloped_finish (k := k.pushTargets targets) ⟨{ h with }, h.paused⟩ hfull hmail false
    ⟨hfull, .waitRcptTo, rfl, by simp, fun _ => hacc.rcptTo fun _ => mem_pushRecipientDeduped⟩

theorem Armed.enveloped_pushRecipient (recipient : Bytes) (reply : Bytes) :
    ((k.pushRecipient recipient).finish false .waitRcptTo reply [.rcptTo [recipient]]).Enveloped :=
  Armed.enveloped_finish (k := k.pushRecipient recipient) ⟨{ h with }, h.paused⟩ hfull hmail false
    ⟨hfull, .waitRcptTo, rfl, by simp, fun _ => hacc.rcptTo fun _ => List.mem_append⟩

end

end Core

variable {env : SmtpEnv} {cfg : ServerConfig}

/-! ## Acts -/

variable {k : Core} {o : Oracle} {st : SmtpsState} {f : Session → Except Session Session}
  {s : Session}

theorem MailFromAct.enveloped {sender : Bytes} {closed : Bool} {k' : Core}
    (hact : MailFromAct sender closed k k') (h : k.Armed)
    (hfull : EnvelopeRecord k.view.reported) (hmail : k.MailEnveloped)
    (ho : k.envelope.recipientAddresses = []) : k'.Enveloped := by
  cases hact with
  | quota | spf => exact h.enveloped_await hfull hmail ho
  | refuse reply =>
    exact h.enveloped_finish hfull hmail _ (Core.taskEnveloped_settle hfull rfl _)
  | accept =>
    refine h.enveloped_finish hfull hmail _ ⟨hfull, .waitRcptTo, rfl, by simp, fun _ => ?_⟩
    rw [ho]
    exact ⟨[], rfl, fun _ => Iff.rfl⟩

theorem MessageAct.enveloped {closed : Bool} {k' : Core} (hact : MessageAct closed k k')
    (h : k.Armed) (hfull : EnvelopeRecord k.view.reported) (hmail : k.MailEnveloped)
    (hstate : k.view.state = .inMessage) : k'.Enveloped := by
  cases hact with
  | reject =>
    refine h.discard.enveloped_post ?_ hmail.discard _ rfl
    rw [Core.view_discard]
    exact hfull
  | await p hp =>
    refine h.enveloped_await hfull hmail ?_
    rcases hp with rfl | rfl | ⟨u, rfl⟩ <;> exact hstate
  | boundary runs =>
    refine (h.report [.verification runs]).enveloped_await hfull hmail ?_
    cases runs <;> exact hstate

theorem Handled.state_of_rcptTo (h : Handled env cfg o st .rcptTo f) : st = .waitRcptTo := by
  cases h with
  | rcptTo => rfl
  | selfLoop _ he => rcases he with he | he <;> cases he

theorem Handled.state_of_dataEnd (h : Handled env cfg o st .dataEnd f) : st = .inMessage := by
  cases h with
  | dataEnd => rfl
  | selfLoop _ he => rcases he with he | he <;> cases he

theorem Handled.state_of_data (h : Handled env cfg o st .data f) (hst : st ≠ .inMessage) :
    receiving st = true := by
  cases h with
  | data h => rcases h with rfl | rfl <;> rfl
  | inMessageData => exact absurd rfl hst
  | selfLoop _ he => rcases he with he | he <;> cases he

/-- A command keeps the invariant if DATA finds recipients and no mail. -/
theorem CommandAct.enveloped {e : SmtpsEvent} (hact : CommandAct env cfg o s e k)
    (h : s.core.Enveloped) (hidle : s.core.Idle) (hpaused : s.io.paused = false)
    (hhand : ∃ f, Handled env cfg o s.io.state e f) (hrd : e = .data → receiving s.io.state = true →
      s.ctx.recipientAddresses ≠ [] ∧ s.mail = none) : k.Enveloped := by
  obtain ⟨f, hhand⟩ := hhand
  -- in the states of the envelope the recipients are the accepted ones
  have hacc (hst : receiving s.io.state = true) :
      AcceptedExactly s.core.envelope.recipientAddresses s.core.view.reported :=
    h.recipients hpaused hst
  cases hact with
  | skip he => exact h
  | goto st he hst =>
    rcases hst with rfl | hst
    · exact (hidle.goto _ _).enveloped h.complete (fun _ hst => hacc hst) h.mail
    · exact (hidle.goto _ _).enveloped_outside h.complete hst
  | nameUser | tooLarge => exact Core.Idle.enveloped_outside { hidle with } h.complete rfl
  | startAuth account hname =>
    have hk : (s.core.withUser account).Idle := { hidle with }
    exact hk.arm.enveloped_await h.complete h.mail trivial
  | mailFrom sender k hk =>
    exact hk.enveloped ⟨{ hidle with }, rfl⟩ h.complete h.mail rfl
  | takeRecipient recipient hr =>
    have hst : receiving s.io.state = true := by rw [hhand.state_of_rcptTo]; rfl
    refine Core.Idle.enveloped { hidle with } h.complete (fun _ _ => ?_) fun hm => by cases hm
    exact (hacc hst).rcptTo fun x => by simp [Core.goto, Core.pushRecipient]
  | submissionAlias recipient hr =>
    have hst : receiving s.io.state = true := by rw [hhand.state_of_rcptTo]; rfl
    exact hidle.arm.enveloped_await h.complete h.mail (hacc hst)
  | lookUp recipient p hr hp =>
    have hst : receiving s.io.state = true := by rw [hhand.state_of_rcptTo]; rfl
    refine hidle.arm.enveloped_await h.complete h.mail ?_
    rcases hp with rfl | rfl <;> exact hacc hst
  | cachedRecipient recipient hr hcached =>
    have hst : receiving s.io.state = true := by rw [hhand.state_of_rcptTo]; rfl
    exact hidle.arm.enveloped_pushTargets h.complete h.mail (hacc hst) [recipient] _
  | data opened hmail hstate =>
    have hst := hhand.state_of_data hstate
    refine Core.Idle.enveloped { hidle with } h.complete (fun _ hr => by cases hr) ?_
    rintro - _ ⟨⟩
    exact ⟨(hrd rfl hst).1, hacc hst⟩
  | dataAgain hmail hstate =>
    have hst := hhand.state_of_data hstate
    rw [(hrd rfl hst).2] at hmail
    cases hmail
  | dataEndRefused v =>
    have ha : (s.core.report [.dataEnd v]).arm.Armed := (hidle.report _).arm
    have hmail : (s.core.report [.dataEnd v]).arm.MailEnveloped := h.mail
    refine ha.discard.enveloped_post ?_ hmail.discard false rfl
    rw [Core.view_discard]
    exact h.complete
  | dataEnd v k hwriter hk =>
    exact hk.enveloped (hidle.report _).arm h.complete h.mail hhand.state_of_dataEnd

theorem AnswerAct.enveloped {p : Pending} {i : Input} (hact : AnswerAct env s p i k)
    (ha : s.core.Armed) (hfull : EnvelopeRecord s.core.view.reported)
    (hmail : s.core.MailEnveloped) (hp : s.core.PendingEnveloped p) : k.Enveloped := by
  cases hact with
  | dropped hcl =>
    refine ha.toIdle.enveloped hfull (fun hpaused => ?_) hmail
    rw [ha.paused] at hpaused
    cases hpaused
  | authOk account shard hopen =>
    have hk : (s.core.report [.authResult account true]).authenticated.Armed :=
      ⟨{ ha with }, ha.paused⟩
    exact hk.enveloped_finish hfull hmail false
      (Core.taskEnveloped_settle hfull rfl (some (bytes "235 Authentication successful")))
  | authFailed account shard lastAttempt hopen =>
    exact (ha.report [.authResult account false]).enveloped_finish hfull hmail _
      (Core.taskEnveloped_settle hfull rfl (some (bytes "535 Authentication failed")))
  | mailFrom sender k hsender hk =>
    refine hk.enveloped ha hfull hmail ?_
    rcases hsender with ⟨limited, needSpf, spfMode, rfl⟩ | ⟨spfMode, rfl⟩ <;> exact hp
  | noAlias recipient hopen =>
    exact ha.enveloped_pushRecipient hfull hmail hp recipient _
  | aliasTargets recipient targets hlook htargets hopen =>
    have hacc : AcceptedExactly s.core.envelope.recipientAddresses s.core.view.reported := by
      rcases hlook with rfl | rfl <;> exact hp
    exact ha.enveloped_pushTargets hfull hmail hacc targets _
  | userFound recipient hopen =>
    exact ha.enveloped_pushTargets hfull hmail hp [recipient] _
  | userMissing | verified => exact ha.enveloped_await hfull hmail hp
  | userUnknown recipient hopen =>
    exact ha.enveloped_finish hfull hmail false ⟨hfull, .waitRcptTo, rfl, by simp, fun _ => hp⟩
  | message k hmsg hk hsubmit =>
    refine hk.enveloped ha hfull hmail ?_
    rcases hmsg with rfl | rfl | ⟨u, rfl⟩ | rfl <;> exact hp
  | submitted m accepted k hm hq hk =>
    -- the mail was complete when its DATA was handled, and nothing was accepted since
    have hfull' : EnvelopeRecord (.submitted m :: s.core.view.reported) :=
      ⟨hmail hp _ hm, hfull⟩
    rcases hk with rfl | rfl
    · exact (ha.report [.submitted m]).reset.enveloped_finish hfull' (Core.mailEnveloped_reset _)
        _ ⟨⟨rfl, hfull'⟩, .waitMailFrom, rfl, by simp, nofun⟩
    · refine ⟨hfull', ?_, ?_, ?_, ?_⟩
      · intro hpaused
        change s.core.view.paused = false at hpaused
        rw [ha.paused] at hpaused
        cases hpaused
      · intro _ e he
        split at he
        · cases he
        · cases he
          exact hmail hp _ hm
      · rintro _ ⟨⟩
        rfl
      · change ∀ t ∈ s.core.view.settles, _
        simp [ha.settles]
  | persisted hopen =>
    exact ha.reset.enveloped_finish hfull (Core.mailEnveloped_reset _) false
      ⟨⟨hp, hfull⟩, .waitMailFrom, rfl, by simp, nofun⟩
  | notPersisted outcome hout hopen => exact ha.enveloped_post hfull hmail false rfl

/-! ## Runs -/

/-- The session with the unit of input parsed that the step takes, if it takes one. -/
def parsedBy (s : Session) : Input → Option Session
  | .consume o => s.parsedInput o
  | _ => none

/-- If the step handles DATA in front of a message, then it finds recipients and no mail. -/
def EnvelopeReady (s : Session) (i : ServerConfig × Input) : Prop :=
  ∀ s₀ ∈ s.parsedBy i.2, s₀.nextEvent = .data → receiving s₀.io.state = true →
    s₀.ctx.recipientAddresses ≠ [] ∧ s₀.mail = none

instance (s : Session) (i : ServerConfig × Input) : Decidable (EnvelopeReady s i) :=
  inferInstanceAs (Decidable (∀ s₀ ∈ s.parsedBy i.2, _))

/-- **A step that is ready keeps the invariant.** -/
theorem enveloped_step (h : s.core.Enveloped) (hone : s.core.Single) {i : ServerConfig × Input}
    (hrd : EnvelopeReady s i) : (step env s i).core.Enveloped := by
  have hm := step_coreMove env s i
  generalize (step env s i).core = k at hm
  obtain ⟨cfg, i⟩ := i
  cases hm with
  | same => exact h
  | settled t ts ht hopen =>
    obtain ⟨rfl, hp⟩ := hone.of_settles ht
    have htask : s.core.TaskEnveloped t := h.waiting t (by simp [ht])
    cases t with
    | settle target reply rs =>
      obtain ⟨hfull, st, rfl, hne, hacc⟩ := htask
      exact Core.Idle.enveloped ⟨rfl, hp⟩ hfull (fun _ hst => hacc hst) (fun hst => absurd hst hne)
    | settleClosing target =>
      obtain rfl : target = some .waitQuit := htask
      exact Core.Idle.enveloped ⟨rfl, hp⟩ h.complete nofun nofun
    | _ => exact Core.Idle.enveloped ⟨rfl, hp⟩ h.complete h.recipients h.mail
  | unsettled t ts ht hcl =>
    obtain ⟨rfl, hp⟩ := hone.of_settles ht
    exact Core.Idle.enveloped ⟨rfl, hp⟩ h.complete h.recipients h.mail
  | rejected e args hpaused =>
    have hidle := hone.idle hpaused
    exact (hidle.dispatched e args).enveloped h.complete h.recipients h.mail
  | command o s₁ k hfound hpaused hopen hact hhand =>
    obtain ⟨s₀, hpar, rfl⟩ := Option.map_eq_some_iff.mp hfound
    have hcore := core_foundInput hfound
    have hidle := (hone.idle hpaused).dispatched s₀.nextEvent s₀.lastCommandArgs
    refine hact.enveloped ?_ ?_ ?_ hhand (hrd s₀ hpar)
    · rw [hcore]
      exact hidle.enveloped h.complete h.recipients h.mail
    · rw [hcore]
      exact hidle
    · exact (congrArg (·.view.paused) hcore).trans hpaused
  | threw o s₁ hfound hpaused hopen hdata hmail hstate =>
    have hcore := core_foundInput hfound
    have hidle := (hone.idle hpaused).dispatched s₁.nextEvent s₁.lastCommandArgs
    rw [hcore]
    refine Core.Idle.enveloped { hidle with } h.complete h.recipients fun hst => ?_
    exact absurd ((congrArg (·.view.state) hcore).trans hst) hstate
  | answered p k hpend hact =>
    have ha : { s with pending := none }.core.Armed := hone.armed hpend
    refine hact.enveloped ha h.complete h.mail ?_
    have hp := h.pending p hpend
    cases p <;> exact hp

/-- **Submissions are complete** in every run whose DATA commands find recipients and no mail: a
mail that is submitted has exactly the recipients accepted since its MAIL FROM, and at least one. -/
theorem envelopeComplete_of_stepsMeet {s : Session} (hs : IsStart env s)
    {is : List (ServerConfig × Input)} (his : StepsMeet (step env) EnvelopeReady s is) :
    EnvelopeComplete (run (step env) s is).io.view.reported := by
  have hfr := hs.fresh
  have hstart : s.core.Enveloped ∧ s.core.Single := by
    refine ⟨hfr.toIdle.enveloped (envelopeRecord_of_dispatched hfr.reported) ?_ ?_,
      hfr.toIdle.single⟩
    · rw [hfr.state]
      exact nofun
    · intro hst
      rw [hfr.state] at hst
      cases hst
  exact (run_invariant_of_stepsMeet (fun s : Session => s.core.Enveloped ∧ s.core.Single)
    (fun _ i h hrd => ⟨enveloped_step h.1 h.2 hrd, single_step h.2 i⟩) hstart
      his).1.complete.complete

/-! ## A mail with and without recipients -/

/-- A mail for one recipient is submitted and acknowledged, with a complete envelope. -/
theorem envelopeComplete_of_mailDialog : EnvelopeComplete
        (run (step twoAccounts) (start twoAccounts exampleConfig exampleListener)
          (ehloDialog ++ mailDialog (bytes "Subject: one\r\n.\r\n"))).io.view.reported ∧
      submittedSince (run (step twoAccounts) (start twoAccounts exampleConfig exampleListener)
          (ehloDialog ++ mailDialog (bytes "Subject: one\r\n.\r\n"))).io.view.reported = true :=
  ⟨envelopeComplete_of_stepsMeet (.inl ⟨exampleConfig, exampleListener, rfl⟩) (by decide +kernel),
    by decide +kernel⟩

/-- MAIL FROM, DATA and a message, but no RCPT TO. -/
def nobodyDialog : List (ServerConfig × Input) :=
  (exchange {} (bytes "MAIL FROM:<ann@remote.org>\r\n") ++
    exchange { openWrite := .opened (bytes "body") } (bytes "DATA\r\n") ++
    exchange {} (bytes "Subject: one\r\n\r\nfirst\r\n.\r\n") ++
    [Input.commitDone .committed, .openReadDone false, .submitDone true, .persistDone .success] ++
    quiesce).map (exampleConfig, ·)

/-- **A mail without recipients is submitted and acknowledged.** -/
theorem not_forall_envelopeComplete :
    ¬ ∀ (env : SmtpEnv) (s : Session), IsStart env s →
      ∀ is, EnvelopeComplete (run (step env) s is).io.view.reported := by
  intro h
  have hfull := h twoAccounts (start twoAccounts exampleConfig exampleListener)
    (.inl ⟨exampleConfig, exampleListener, rfl⟩) (ehloDialog ++ nobodyDialog)
  have hsubmitted : (run (step twoAccounts) (start twoAccounts exampleConfig exampleListener)
      (ehloDialog ++ nobodyDialog)).io.view.reported.any
        (fun | .submitted m => m.recipients.isEmpty | _ => false) = true := by
    decide +kernel
  obtain ⟨r, hr, hempty⟩ := List.any_eq_true.mp hsubmitted
  cases r with
  | submitted m =>
    obtain ⟨later, earlier, heq⟩ := List.append_of_mem hr
    exact (hfull.submitted later m earlier heq).1 (by simpa using hempty)
  | _ => cases hempty

end Session

end ProtoRelay
