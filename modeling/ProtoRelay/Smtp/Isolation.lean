import ProtoRelay.Smtp.Identity
import ProtoRelay.Smtp.Leftovers

/-!
# Isolation of mail transactions

A session may carry many mails.  What is decided at the end of a message should depend on that
message and on who the client is, not on earlier mails of the connection.  `reset_mail_state`, which
runs when a mail is acknowledged, forgets the larger part of the context, but not that the header of
the previous message was complete, nor the size counters, nor that a message was verified.

The comparison is between two sessions: the one that has just acknowledged a mail, and the same
session with a new context that keeps only who the client is (`Session.renewed`).  They are run on
the same inputs.
-/

namespace ProtoRelay

open List SessionBase Session SmtpsReport

namespace Session

variable {env : SmtpEnv} {cfg : ServerConfig}

/-! ## Open envelopes -/

/-- Only AUTH leaves work pending outside a mail transaction. -/
def pendingInEnvelope : Pending → Bool
  | .auth _ => false
  | _ => true

/-- Settling the task leads to a state with an open envelope. -/
def settlesInEnvelope : Task SmtpsState SmtpsReport → Bool
  | .settle (some st) _ _ => inEnvelope st
  | .settleClosing (some st) => inEnvelope st
  | _ => false

/-- An envelope is open, or a transition is under way that may open it or that it belongs to. -/
def Core.InEnvelope (k : Core) : Prop :=
  inEnvelope k.view.state = true ∨ (∃ p, k.pending = some p ∧ pendingInEnvelope p = true) ∨
    ∃ t ∈ k.view.settles, settlesInEnvelope t = true

variable {k k' : Core} {o : Oracle} {st : SmtpsState} {e : SmtpsEvent} {s s' : Session} {i : Input}
  {p : Pending} {io : SessionBase SmtpsState SmtpsReport}

theorem Core.not_inEnvelope_iff :
    ¬ k.InEnvelope ↔ inEnvelope k.view.state = false ∧
      (∀ p, k.pending = some p → pendingInEnvelope p = false) ∧
      ∀ t ∈ k.view.settles, settlesInEnvelope t = false := by
  simp [Core.InEnvelope]

theorem Core.not_inEnvelope_of_idle (h : k.Idle) (hstate : inEnvelope k.view.state = false) :
    ¬ k.InEnvelope := by
  rw [Core.not_inEnvelope_iff]
  refine ⟨hstate, ?_, ?_⟩
  · intro p hp
    rw [h.pending] at hp
    cases hp
  · intro t ht
    rw [h.settles] at ht
    cases ht

theorem Core.InEnvelope.congr (h : k.InEnvelope) (hview : k'.view.state = k.view.state)
    (hsettles : k'.view.settles = k.view.settles) (hpend : k'.pending = k.pending) :
    k'.InEnvelope := by
  rw [Core.InEnvelope, hview, hsettles, hpend]
  exact h

/-- The events that are handled in an envelope only. -/
theorem Handled.inEnvelope {f : Session → Except Session Session} (hf : Handled env cfg o st e f)
    (he : e = .rcptTo ∨ e = .data ∨ e = .dataEnd) : inEnvelope st = true := by
  cases hf with
  | rcptTo | inMessageData | dataEnd => rfl
  | data h => rcases h with rfl | rfl <;> rfl
  | selfLoop h h' => rcases h' with rfl | rfl <;> simp at he
  | _ => simp at he

/-- Only MAIL FROM opens an envelope. -/
theorem CommandAct.not_inEnvelope (hact : CommandAct env cfg o s e k) (hidle : s.core.Idle)
    (hstate : inEnvelope s.io.state = false) (he : e ≠ .mailFrom)
    (hlegal : e = .rcptTo ∨ e = .data ∨ e = .dataEnd → inEnvelope s.io.state = true) :
    ¬ k.InEnvelope := by
  have hillegal : ¬ (e = .rcptTo ∨ e = .data ∨ e = .dataEnd) := by
    intro h
    rw [hlegal h] at hstate
    cases hstate
  cases hact with
  | skip _ => exact Core.not_inEnvelope_of_idle hidle hstate
  | goto st _ hst =>
    refine Core.not_inEnvelope_of_idle (hidle.goto st []) ?_
    rcases hst with rfl | hst
    · exact hstate
    · exact hst
  | nameUser username hname =>
    exact Core.not_inEnvelope_of_idle { hidle with } rfl
  | startAuth account hname =>
    have hsettles : ((s.core.withUser account).arm.await (.auth account)).view.settles = [] :=
      hidle.settles
    rw [Core.not_inEnvelope_iff, hsettles]
    refine ⟨hstate, ?_, nofun⟩
    rintro p ⟨⟩
    rfl
  | mailFrom sender k hk => exact absurd rfl he
  | _ => exact absurd (by simp) hillegal

/-! ## Sessions that differ in verdicts -/

/-- The second session is the first with other verdicts; in an envelope they agree on whether SPF
has been checked. -/
def Follows (s t : Session) : Prop :=
  ∃ v, t = withVerdicts v s ∧ (s.core.InEnvelope → v.spfChecked = s.ctx.spfChecked)

theorem Follows.io_eq {t : Session} (h : Follows s t) : t.io = s.io := by
  obtain ⟨v, rfl, -⟩ := h
  rfl

theorem withVerdicts_eq_withLeftover (v : Verdicts) (s : Session) :
    withVerdicts v s = withLeftover { s.ctx.leftover with toVerdicts := v } s := rfl

theorem withLeftover_leftover (s : Session) : withLeftover s.ctx.leftover s = s := rfl

theorem leftover_eq_of_kept {a : Leftover} (h : s = withLeftover a s) : s.ctx.leftover = a := by
  rw [h]
  rfl

variable {v : Verdicts}

/-- A result with the leftovers there were, and the same one with other verdicts. -/
theorem follows_of_kept (hkept : s' = withLeftover s.ctx.leftover s')
    (hagree : s'.core.InEnvelope → v.spfChecked = s.ctx.spfChecked) :
    Follows s' (withLeftover { s.ctx.leftover with toVerdicts := v } s') := by
  have hleft : s'.ctx.leftover = s.ctx.leftover := leftover_eq_of_kept hkept
  have hspf : s'.ctx.spfChecked = s.ctx.spfChecked := congrArg (·.spfChecked) hleft
  refine ⟨v, ?_, ?_⟩
  · rw [withVerdicts_eq_withLeftover, hleft]
  · rw [hspf]
    exact hagree

/-- A function that does not read verdicts keeps them apart from everything else. -/
theorem follows_of_commutes {h : Session → Session}
    (hc : ∀ a, a = s.ctx.leftover ∨ a = { s.ctx.leftover with toVerdicts := v } →
      h (withLeftover a s) = withLeftover a (h s))
    (hagree : (h s).core.InEnvelope → v.spfChecked = s.ctx.spfChecked) :
    Follows (h s) (h (withVerdicts v s)) := by
  have hkept : h s = withLeftover s.ctx.leftover (h s) := hc _ (.inl rfl)
  rw [withVerdicts_eq_withLeftover, hc _ (.inr rfl)]
  exact follows_of_kept hkept hagree

theorem agrees_of_verdicts (hv : v.spfChecked = s.ctx.spfChecked) :
    ∀ a, a = s.ctx.leftover ∨ a = { s.ctx.leftover with toVerdicts := v } → Agrees a s := by
  rintro a (rfl | rfl)
  · exact agrees_leftover s
  · exact ⟨hv, rfl, rfl, rfl, rfl⟩

theorem Follows.ite {c : Prop} [Decidable c] {t t' : Session} (h : Follows s t)
    (h' : ¬ c → Follows s' t') : Follows (if c then s else s') (if c then t else t') := by
  split
  · exact h
  · exact h' ‹_›

/-! ## Handlers -/

/-- An accepted MAIL FROM makes the sessions agree on the SPF check; a rejected one leaves them
outside an envelope. -/
theorem follows_handleWaitAuthMailFrom (v : Verdicts) (hopen : s.io.closed = false)
    (hidle : s.core.Idle) :
    Follows (s.handleWaitAuthMailFrom env cfg)
      ((withVerdicts v s).handleWaitAuthMailFrom env cfg) := by
  have hreject : ∀ text, Follows { s with io := s.io.replyThenSettle text .waitAuth [] }
      { withVerdicts v s with io := s.io.replyThenSettle text .waitAuth [] } := by
    intro text
    refine ⟨v, rfl, fun hin => ?_⟩
    rw [core_replyThenSettle hopen] at hin
    exact absurd hin (Core.not_inEnvelope_of_idle (hidle.goto .waitAuth []) rfl)
  have hacc : ∀ requested, Follows (s.acceptMailFrom env cfg requested)
      ((withVerdicts v s).acceptMailFrom env cfg requested) := by
    intro requested
    have hspf : (s.acceptMailFrom env cfg requested).ctx.leftover =
        { s.ctx.leftover with spfChecked := false } := by
      have hc := withLeftover_acceptMailFrom env cfg s.ctx.leftover s requested
      rw [withLeftover_leftover] at hc
      rw [hc]
      rfl
    refine ⟨{ v with spfChecked := false }, ?_, fun _ => ?_⟩
    · rw [withVerdicts_eq_withLeftover, withLeftover_acceptMailFrom,
        withVerdicts_eq_withLeftover, hspf]
    · exact (congrArg (·.spfChecked) hspf).symm
  have hargs : (withVerdicts v s).lastCommandArgs = s.lastCommandArgs := rfl
  unfold handleWaitAuthMailFrom
  rw [hargs]
  cases betweenAngles s.lastCommandArgs with
  | none => exact Follows.ite (hreject _) fun _ => hreject _
  | some requested =>
    exact Follows.ite (hreject _) fun _ => Follows.ite (hreject _) fun _ => hacc requested

/-- Two outcomes of a handler of the same kind that are related. -/
inductive FollowsOutcome : Except Session Session → Except Session Session → Prop
  | ok {s t : Session} (h : Follows s t) : FollowsOutcome (.ok s) (.ok t)
  | error {s t : Session} (h : Follows s t) : FollowsOutcome (.error s) (.error t)

/-- A change of either outcome of a handler. -/
def bothOutcomes (g : Session → Session) : Except Session Session → Except Session Session
  | .ok s => .ok (g s)
  | .error s => .error (g s)

variable {f : Session → Except Session Session}

/-- Handlers do not read leftovers, except that the end of a message reads some, and that MAIL FROM
sets one. -/
theorem Handled.commutes (hf : Handled env cfg o st e f)
    (he : e ≠ .connect) (hmail : e ≠ .mailFrom) {a : Leftover} (ha : e = .dataEnd → Agrees a s) :
    f (withLeftover a s) = bothOutcomes (withLeftover a) (f s) := by
  cases hf with
  | connect => exact absurd rfl he
  | mailFrom => exact absurd rfl hmail
  | auth => exact congrArg Except.ok (withLeftover_handleWaitAuthAuth env cfg a s)
  | rcptTo => exact congrArg Except.ok (withLeftover_handleWaitRcptToRcptTo env cfg a s o)
  | data =>
    simp only [handleWaitDataData, withLeftover_createMailOnDataCommand]
    cases s.createMailOnDataCommand o.openWrite with
    | ok | error => rfl
  | dataEnd => exact congrArg Except.ok (withLeftover_handleInMessageDataEnd env cfg (ha rfl))
  | error => exact congrArg Except.ok (withLeftover_handleError a s)
  | _ => rfl

theorem followsOutcome_of_commutes
    (hc : ∀ a, a = s.ctx.leftover ∨ a = { s.ctx.leftover with toVerdicts := v } →
      f (withLeftover a s) = bothOutcomes (withLeftover a) (f s))
    (hagree : ∀ s', f s = .ok s' ∨ f s = .error s' → s'.core.InEnvelope →
      v.spfChecked = s.ctx.spfChecked) : FollowsOutcome (f s) (f (withVerdicts v s)) := by
  have hkept : f s = bothOutcomes (withLeftover s.ctx.leftover) (f s) := hc _ (.inl rfl)
  rw [withVerdicts_eq_withLeftover, hc _ (.inr rfl)]
  cases hs : f s with
  | ok s' =>
    rw [hs] at hkept
    exact .ok (follows_of_kept (Except.ok.inj hkept) (hagree s' (.inl hs)))
  | error s' =>
    rw [hs] at hkept
    exact .error (follows_of_kept (Except.error.inj hkept) (hagree s' (.inr hs)))

/-- **Handlers keep the sessions related.** -/
theorem followsOutcome_handled
    (hf : Handled env cfg o s.io.state e f) (hopen : s.io.closed = false) (hidle : s.core.Idle)
    (he : e ≠ .connect) (hv : s.core.InEnvelope → v.spfChecked = s.ctx.spfChecked) :
    FollowsOutcome (f s) (f (withVerdicts v s)) := by
  by_cases hmail : e = .mailFrom
  · subst hmail
    generalize s.io.state = st at hf
    cases hf with
    | mailFrom => exact .ok (follows_handleWaitAuthMailFrom v hopen hidle)
    | selfLoop _ he' => simp at he'
  · refine followsOutcome_of_commutes (fun a ha => hf.commutes he hmail fun hend => ?_) ?_
    · exact agrees_of_verdicts (hv (.inl (hf.inEnvelope (.inr (.inr hend))))) a ha
    · intro s' hs' hin
      by_cases hold : s.core.InEnvelope
      · exact hv hold
      · -- a handler other than that of MAIL FROM does not open an envelope
        rcases hs' with hs' | hs'
        · refine absurd hin ((hf.act hopen he hs').not_inEnvelope hidle ?_ hmail hf.inEnvelope)
          exact (Core.not_inEnvelope_iff.mp hold).1
        · exact hv (.inl (hf.inEnvelope (.inr (.inl (hf.threw hs').1))))

/-! ## Continuations -/

theorem Core.not_inEnvelope_finish (hidle : k.Idle) (hstate : inEnvelope k.view.state = false)
    (closed : Bool)
    (hst : inEnvelope st = false) (reply : Bytes) : ¬ (k.finish closed st reply []).InEnvelope := by
  cases closed with
  | true => exact Core.not_inEnvelope_of_idle hidle hstate
  | false =>
    have hpend : (k.finish false st reply []).pending = none := hidle.pending
    have hsettles : (k.finish false st reply []).view.settles =
        [.settle (some st) (some reply) []] := by
      simp [Core.finish, Core.post, hidle.settles]
    rw [Core.not_inEnvelope_iff, hpend, hsettles]
    refine ⟨hstate, fun p hp => ?_, fun t ht => ?_⟩
    · cases hp
    · rw [mem_singleton.mp ht]
      exact hst

/-- The result of a password check does not open an envelope. -/
theorem AnswerAct.not_inEnvelope {account : Bytes} (hact : AnswerAct env s (.auth account) i k)
    (hidle : s.core.Idle) (hstate : inEnvelope s.io.state = false) : ¬ k.InEnvelope := by
  cases hact with
  | dropped hcl => exact Core.not_inEnvelope_of_idle hidle hstate
  | authOk _ shard hopen =>
    have hok : (s.core.report [.authResult account true]).authenticated.Idle :=
      { hidle with }
    have hst : inEnvelope .waitMailFrom = false := rfl
    exact Core.not_inEnvelope_finish hok hstate _ hst _
  | authFailed _ shard lastAttempt hopen =>
    have hst : inEnvelope .waitAuth = false := rfl
    exact Core.not_inEnvelope_finish (hidle.report _) hstate _ hst _
  | mailFrom sender k hp | aliasTargets recipient targets hp | message k hp => simp at hp

/-- Continuations do not read leftovers that do not agree, except those that set verdicts. -/
theorem Answered.commutes {f : Session → Session} (ha : Answered env cfg p i f)
    (hspf : ∀ sender spfMode, p ≠ .spf sender spfMode) (hver : p ≠ .verify) {a : Leftover}
    (hagrees : Agrees a s) : f (withLeftover a s) = withLeftover a (f s) := by
  cases ha with
  | auth account ok shard => exact withLeftover_authDone cfg a s account ok shard
  | quota limited needSpf sender spfMode allowed =>
    exact withLeftover_quotaDone env a s limited needSpf sender spfMode allowed
  | spf sender spfMode => exact absurd rfl (hspf sender spfMode)
  | submissionAlias recipient targets =>
    exact withLeftover_submissionAliasDone a s recipient targets
  | recipientAlias recipient targets => exact withLeftover_recipientAliasDone a s targets
  | fromAlias authUser targets => exact withLeftover_fromAliasDone env cfg hagrees authUser targets
  | userExists recipient found => exact withLeftover_userExistsDone a s recipient found
  | commit result => exact withLeftover_commitDone env cfg hagrees result
  | openRead threw => exact withLeftover_openReadDone env cfg hagrees threw
  | verify => exact absurd rfl hver
  | submit accepted => exact withLeftover_submitDone env cfg a s accepted
  | persist outcome => exact withLeftover_persistDone a s outcome

/-- **Continuations keep the sessions related.** -/
theorem follows_answered {f : Session → Session} (ha : Answered env cfg p i f) (hidle : s.core.Idle)
    (hin : pendingInEnvelope p = true ∨ inEnvelope s.io.state = true →
      v.spfChecked = s.ctx.spfChecked) : Follows (f s) (f (withVerdicts v s)) := by
  have hact := ha.act s
  have hrest : pendingInEnvelope p = true → (∀ sender spfMode, p ≠ .spf sender spfMode) →
      p ≠ .verify → Follows (f s) (f (withVerdicts v s)) := by
    intro hp hspf hver
    have hagree := hin (.inl hp)
    refine follows_of_commutes (fun a hverds => ?_) fun _ => hagree
    exact ha.commutes hspf hver (agrees_of_verdicts hagree a hverds)
  cases ha with
  | auth account ok shard =>
    refine follows_of_commutes (h := fun s => s.authDone cfg account ok shard)
      (fun a _ => withLeftover_authDone cfg a s account ok shard) fun hafter => ?_
    cases hstate : inEnvelope s.io.state with
    | true => exact hin (.inr hstate)
    | false => exact absurd hafter (hact.not_inEnvelope hidle hstate)
  | spf sender spfMode result reason =>
    exact ⟨{ v with spfChecked := true, spfResult := result, spfReason := reason }, rfl,
      fun _ => rfl⟩
  | verify dkim dmarc spf =>
    refine ⟨{ spfChecked := true
              spfResult := if v.spfChecked then v.spfResult else spf
              spfReason := v.spfReason
              dkimResult := dkim
              dmarcResult := dmarc }, rfl, fun _ => rfl⟩
  | _ => exact hrest rfl nofun nofun

/-! ## Steps -/

/-- Bytes move the same way in both sessions. -/
theorem Follows.withIo {t : Session} (h : Follows s t)
    (hin : { s with io }.core.InEnvelope → s.core.InEnvelope) :
    Follows { s with io } { t with io } := by
  obtain ⟨v, rfl, hv⟩ := h
  exact ⟨v, rfl, fun hafter => hv (hin hafter)⟩

theorem Follows.transport {t : Session} (h : Follows s t) (hview : io.view = s.io.view) :
    Follows { s with io } { t with io } := by
  refine h.withIo fun hin => hin.congr ?_ ?_ rfl <;> simp [core, hview]

/-- A transition that is settled leads into an envelope only if it was counted before. -/
theorem View.inEnvelope_settled {v : View SmtpsState SmtpsReport}
    {t : Task SmtpsState SmtpsReport} (h : inEnvelope (v.settled t).state = true) :
    inEnvelope v.state = true ∨ settlesInEnvelope t = true := by
  cases t with
  | settle target | settleClosing target =>
    cases target with
    | none => exact .inl h
    | some st => exact .inr h
  | _ => exact .inl h

theorem inEnvelope_of_runTask (h : { s with io := s.io.runTask }.core.InEnvelope) :
    s.core.InEnvelope := by
  rcases view_runTask s.io with hview | ⟨t, ts, ht, hview⟩
  · exact h.congr (by simp [core, hview]) (by simp [core, hview]) rfl
  · have hmem : ∀ t', t' = t ∨ t' ∈ ts → settlesInEnvelope t' = true → s.core.InEnvelope :=
      fun t' ht' hin => .inr (.inr ⟨t', by simpa [core, ht] using ht', hin⟩)
    have hps : inEnvelope s.io.runTask.view.state = true ∨
        (∃ p, s.pending = some p ∧ pendingInEnvelope p = true) ∨
        ∃ t' ∈ s.io.runTask.view.settles, settlesInEnvelope t' = true := h
    rw [hview] at hps
    split at hps
    · rcases hps with hstate | hpend | ⟨t', ht', hin⟩
      · exact .inl hstate
      · exact .inr (.inl hpend)
      · exact hmem t' (.inr ht') hin
    · rcases hps with hstate | hpend | ⟨t', ht', hin⟩
      · rcases View.inEnvelope_settled hstate with hstate | hin
        · exact .inl hstate
        · exact hmem t (.inl rfl) hin
      · exact .inr (.inl hpend)
      · refine hmem t' (.inr ?_) hin
        cases t <;> exact ht'

/-- Parsing keeps the verdicts. -/
theorem spfChecked_parsedInput {s₀ : Session} (h : s.parsedInput o = some s₀) :
    s₀.ctx.spfChecked = s.ctx.spfChecked := by
  have hc : s.parsedInput o = (s.parsedInput o).map (withVerdicts s.ctx.verdicts) :=
    parsedInput_withVerdicts s.ctx.verdicts s o
  rw [h] at hc
  rw [Option.some.inj hc]
  rfl

theorem Follows.dispatch {t : Session} (h : Follows s t) (hone : s.core.Single)
    (hpa : s.io.paused = false) (o : Oracle) (he : e ≠ .connect) :
    Follows (s.dispatch env cfg o e) (t.dispatch env cfg o e) := by
  have hsame := h
  obtain ⟨v, rfl, hv⟩ := h
  simp only [Session.dispatch]
  refine Follows.ite hsame fun hopen => Follows.ite ?_ fun _ => ?_
  · exact hsame.transport (view_close _)
  · -- the command is on record in both sessions, and the tables are the same for both
    have hfound : Follows (s.reportDispatched e) ((withVerdicts v s).reportDispatched e) := by
      refine ⟨v, rfl, fun hin => hv (hin.congr ?_ ?_ rfl)⟩ <;>
        simp [core, reportDispatched, reports, view]
    have hidle : (s.reportDispatched e).core.Idle := by
      exact (hone.idle hpa).dispatched _ _
    have hreply : ∀ {s t : Session} (text : Bytes), Follows s t →
        Follows { s with io := s.io.writeReply text } { t with io := t.io.writeReply text } := by
      intro s t text hst
      rw [hst.io_eq]
      exact hst.transport (view_writeReply _ _)
    have hst : ((withVerdicts v s).reportDispatched e).io.state = (s.reportDispatched e).io.state :=
      rfl
    rw [hst]
    cases hg : (makeSmtpsDesc (!env.isTls)).guardTarget (s.reportDispatched e).io.state e with
    | none => exact hreply _ hfound
    | some target =>
      cases hh : handlerFor env cfg o (s.reportDispatched e).io.state e with
      | none => exact hreply _ hfound
      | some f =>
        have hout : FollowsOutcome (f (s.reportDispatched e))
            (f ((withVerdicts v s).reportDispatched e)) := by
          refine followsOutcome_handled (handled_of_handlerFor hh) ?_ hidle he ?_
          · exact Bool.eq_false_iff.mpr hopen
          · exact fun hin =>
              hv (hin.congr rfl (by simp [core, reportDispatched, reports, view]) rfl)
        dsimp only
        generalize f (s.reportDispatched e) = r at hout
        generalize f ((withVerdicts v s).reportDispatched e) = r' at hout
        cases hout with
        | ok h => exact h
        | error h => exact hreply _ h

/-- **A step keeps the sessions related.** -/
theorem Follows.step {t : Session} (h : Follows s t) (hone : s.core.Single)
    (i : ServerConfig × Input) : Follows (step env s i) (step env t i) := by
  have hio := h.io_eq
  have hsame := h
  obtain ⟨cfg, i⟩ := i
  have hans : Follows (s.answerPending env cfg i) (t.answerPending env cfg i) := by
    unfold answerPending
    obtain ⟨v, rfl, hv⟩ := h
    have hpend : (withVerdicts v s).pending = s.pending := rfl
    rw [hpend]
    cases hp : s.pending with
    | none => exact hsame
    | some p =>
      simp only [answer]
      cases hf : continuation env cfg p i with
      | none => exact hsame
      | some f =>
        have harmed := hone.armed hp
        refine follows_answered (answered_of_continuation hf)
          harmed.toIdle ?_
        rintro (hin | hin)
        · exact hv (.inr (.inl ⟨p, hp, hin⟩))
        · exact hv (.inl hin)
  cases i with
  | readDone data =>
    simp only [Session.step, idle, hio]
    refine Follows.ite ?_ fun _ => hsame
    exact hsame.transport (view_readDone _ _)
  | writeDone index ok =>
    simp only [Session.step, idle, hio]
    refine Follows.ite ?_ fun _ => hsame
    exact hsame.transport (view_writeDone _ _ _)
  | runTask =>
    simp only [Session.step, idle, hio]
    refine Follows.ite ?_ fun _ => hsame
    exact hsame.withIo inEnvelope_of_runTask
  | consume o =>
    obtain ⟨v, rfl, hv⟩ := h
    simp only [Session.step, consume, parsedInput_withVerdicts]
    cases hp : s.parsedInput o with
    | none => exact hsame
    | some s₀ =>
      obtain ⟨hcore, hpa, -⟩ := core_parsedInput hp
      have hpaused₀ : s₀.io.paused = false := (congrArg (·.view.paused) hcore).trans hpa
      refine Follows.dispatch ⟨v, rfl, ?_⟩ (hcore ▸ hone) hpaused₀ o (nextEvent_parsedInput hp)
      rw [hcore, spfChecked_parsedInput hp]
      exact hv
  | loopEnd =>
    simp only [Session.step, hio]
    exact hsame.transport (view_loopEnd _)
  | close =>
    simp only [Session.step, hio]
    exact hsame.transport (view_close _)
  | _ => exact hans

/-! ## What is left behind -/

/-- A handler keeps the leftovers, except that MAIL FROM forgets an SPF check. -/
theorem Handled.leftover {f : Session → Except Session Session} (hf : Handled env cfg o st e f)
    (he : e ≠ .connect) (hs' : f s = .ok s' ∨ f s = .error s') : s'.ctx.leftover = s.ctx.leftover ∨
      s'.ctx.leftover = { s.ctx.leftover with spfChecked := false } := by
  by_cases hmail : e = .mailFrom
  · subst hmail
    cases hf with
    | selfLoop _ he' => simp at he'
    | mailFrom =>
      obtain rfl : s.handleWaitAuthMailFrom env cfg = s' := by simpa using hs'
      unfold handleWaitAuthMailFrom
      split
      · exact .inl rfl
      · split
        · exact .inl rfl
        · split
          · exact .inl rfl
          · rename_i requested _ _
            have hc := withLeftover_acceptMailFrom env cfg s.ctx.leftover s requested
            rw [withLeftover_leftover] at hc
            rw [hc]
            exact .inr rfl
  · have hkept : f s = bothOutcomes (withLeftover s.ctx.leftover) (f s) :=
      hf.commutes he hmail fun _ => agrees_leftover s
    rcases hs' with hs' | hs'
    · rw [hs'] at hkept
      exact .inl (leftover_eq_of_kept (Except.ok.inj hkept))
    · rw [hs'] at hkept
      exact .inl (leftover_eq_of_kept (Except.error.inj hkept))

/-- A continuation keeps the leftovers up to verdicts and whether verification was run. -/
theorem Answered.leftover {f : Session → Session} (ha : Answered env cfg p i f) (s : Session) :
    ∃ v b, (f s).ctx.leftover = { s.ctx.leftover with toVerdicts := v, verificationRun := b } := by
  have hkept := fun hspf hver => ha.commutes hspf hver (agrees_leftover s)
  cases ha with
  | spf sender spfMode result reason => exact ⟨_, s.ctx.verificationRun, rfl⟩
  | verify dkim dmarc spf => exact ⟨_, true, rfl⟩
  | _ => exact ⟨s.ctx.verdicts, s.ctx.verificationRun, leftover_eq_of_kept (hkept nofun nofun)⟩

theorem untouched_step (h : s.ctx.leftover.Untouched) (i : ServerConfig × Input) :
    (step env s i).ctx.leftover.Untouched := by
  have hm := step_move env s i
  generalize step env s i = s' at hm
  obtain ⟨cfg, i⟩ := i
  have hhand : ∀ {o : Oracle} {s₀ s' : Session} {f : Session → Except Session Session}
      {st : SmtpsState}, s.parsedInput o = some s₀ → Handled env cfg o st s₀.nextEvent f →
      s₀.nextEvent ≠ .connect →
      (f (s₀.reportDispatched s₀.nextEvent) = .ok s' ∨
        f (s₀.reportDispatched s₀.nextEvent) = .error s') → s'.ctx.leftover.Untouched := by
    intro o s₀ s' f st hpar hf he hs'
    have h₀ : s₀.ctx.leftover.Untouched := untouched_parsedInput h hpar
    rcases hf.leftover he hs' with hleft | hleft
    · rw [hleft]
      exact h₀
    · exact h₀.of_eq hleft
  cases hm with
  | transport | settled => exact h
  | parsed o s₀ io hpar hview | rejected o s₀ io hpar hview =>
    have h₀ := untouched_parsedInput h hpar
    exact h₀
  | handled o s₀ s' f hpar hpa hopen hev hf hs' =>
    exact hhand hpar hf hev (.inl hs')
  | threw o s₀ s' f io hpar hpa hopen hf hs' hview =>
    have hs := hhand hpar hf (nextEvent_parsedInput hpar) (.inr hs')
    exact hs
  | answered p f hpend ha =>
    obtain ⟨v, ran, hleft⟩ := ha.leftover { s with pending := none }
    exact Leftover.Untouched.of_eq h hleft

theorem IsStart.untouched (h : IsStart env s) : s.ctx.leftover.Untouched := by
  rcases h with ⟨cfg, listener, rfl⟩ | ⟨-, listener, rfl⟩ <;> exact fun _ => rfl

/-! ## Acknowledged mails

When the 250 for a mail is written, the session has been reset. -/

/-- Nothing was acknowledged since the last command, and no acknowledgement waits. -/
structure Core.AckFree (k : Core) : Prop where
  last : k.view.reported.head? ≠ some .acknowledged
  waiting : ∀ t ∈ k.view.settles, .acknowledged ∉ settleReports t

theorem head?_append_ne {rs rs' : List SmtpsReport} (hrs : .acknowledged ∉ rs)
    (h : rs'.head? ≠ some .acknowledged) : (rs ++ rs').head? ≠ some .acknowledged := by
  cases rs with
  | nil => exact h
  | cons r rs =>
    intro hhead
    rw [Option.some.inj hhead] at hrs
    exact hrs mem_cons_self

theorem Core.AckFree.of_calm {R : SmtpsReport → Prop} (h : k.AckFree) (hcalm : k.Calm R k')
    (hR : ¬R .acknowledged) : k'.AckFree := by
  obtain ⟨rs, heq, hrs⟩ := hcalm.reported
  refine ⟨?_, fun t ht hack => ?_⟩
  · rw [heq]
    refine head?_append_ne (fun hack => ?_) h.last
    rcases hrs _ hack with hr | ⟨t, ht, hmem⟩
    · exact hR hr
    · exact h.waiting t ht hmem
  · rcases hcalm.waiting t ht with hmem | hreports
    · exact h.waiting t hmem hack
    · exact hR (hreports _ hack)

theorem CommandAct.ackFree (hact : CommandAct env cfg o s e k) (h : s.core.AckFree) :
    k.AckFree := by
  rcases hact.calm none with hcalm | ⟨-, account, -, rfl | rfl⟩
  · exact h.of_calm hcalm (by simp [Reportable])
  · exact { h with }
  · exact { h with }

/-- The answer that acknowledges a mail comes from the queue. -/
theorem AnswerAct.ackFree (hact : AnswerAct env s p i k) (h : s.core.AckFree)
    (hsubmit : p ≠ .submit) (hpers : p ≠ .persist) : k.AckFree := by
  rcases hact.calm with hcalm | ⟨account, -, rfl⟩
  · exact h.of_calm hcalm (by simp [Reportable, hsubmit, hpers])
  · exact ⟨by rintro ⟨⟩, forall_mem_append.mpr ⟨h.waiting, by simp [settleReports]⟩⟩

/-- The session is as `reset_mail_state` leaves it. -/
structure Rested (s : Session) : Prop where
  mail : s.mail = none
  bodyWriter : s.bodyWriter = none
  bodyLineFolder : s.bodyLineFolder = []
  ctx : resetContext s.ctx = s.ctx

def ackTask : Task SmtpsState SmtpsReport :=
  .settle (some .waitMailFrom) (some (bytes "250 OK")) [.acknowledged]

/-- If an acknowledgement waits, or was the last thing that happened, the session has been reset and
waits for the next mail. -/
structure AckRested (s : Session) : Prop where
  waiting : ∀ t ∈ s.core.view.settles, .acknowledged ∈ settleReports t → t = ackTask ∧ s.Rested
  last : s.core.view.reported.head? = some .acknowledged →
    s.core.Idle ∧ s.io.state = .waitMailFrom ∧ s.Rested

theorem Core.AckFree.ackRested (h : s.core.AckFree) : s.AckRested :=
  ⟨fun t ht hack => absurd hack (h.waiting t ht), fun hlast => absurd hlast h.last⟩

/-- A reset session that finishes with the acknowledgement. -/
theorem ackRested_of_finish (h : s.core.AckFree) (hrested : s.Rested) :
    { s with io := s.io.finish .waitMailFrom (bytes "250 OK") [.acknowledged] }.AckRested := by
  have hcore := core_finish s .waitMailFrom (bytes "250 OK") [.acknowledged]
  cases hcl : s.io.closed with
  | true =>
    rw [hcl] at hcore
    exact Core.AckFree.ackRested (hcore ▸ h)
  | false =>
    rw [hcl] at hcore
    refine ⟨?_, ?_⟩
    · rw [hcore]
      intro t ht hack
      rcases mem_append.mp ht with hmem | hmem
      · exact absurd hack (h.waiting t hmem)
      · exact ⟨mem_singleton.mp hmem, { hrested with }⟩
    · rw [hcore]
      exact fun hlast => absurd hlast h.last

theorem rested_resetMailState (s : Session) : s.resetMailState.Rested := ⟨rfl, rfl, rfl, rfl⟩

theorem ackRested_submitDone (h : s.core.AckFree) (accepted : Bool) :
    (s.submitDone env cfg accepted).AckRested := by
  have hreject : ∀ text, (s.rejectAndClose text).AckRested := by
    intro text
    refine Core.AckFree.ackRested ?_
    rw [core_rejectAndClose]
    exact h.of_calm (R := fun _ => False)
      ((Core.Calm.refl s.core).discard.post _ (by simp [settleReports]))
      not_false
  unfold submitDone
  split
  · exact hreject _
  · rename_i m hmail
    dsimp only
    have hrep : (s.core.report [.submitted (completeMail s.ctx m)]).AckFree :=
      ⟨by rintro ⟨⟩, h.waiting⟩
    split
    · split
      · refine ackRested_of_finish ?_ (rested_resetMailState _)
        exact { hrep with }
      · exact Core.AckFree.ackRested { hrep with }
    · exact hreject _

theorem ackRested_persistDone (h : s.core.AckFree) (outcome : PersistOutcome) :
    (s.persistDone outcome).AckRested := by
  have hclose : ∀ text, (s.closeWithReply text).AckRested := by
    intro text
    refine Core.AckFree.ackRested ?_
    rw [core_closeWithReply]
    exact h.of_calm (R := fun _ => False) ((Core.Calm.refl s.core).post _ (by simp [settleReports]))
      not_false
  unfold persistDone
  split
  · exact h.ackRested
  · split
    · refine ackRested_of_finish ?_ (rested_resetMailState s)
      exact { h with }
    · exact hclose _
    · exact hclose _

theorem ackRested_answered {f : Session → Session} (h : s.core.AckFree)
    (ha : Answered env cfg p i f) : (f s).AckRested := by
  have hact := ha.act s
  by_cases hsubmit : p = .submit
  · subst hsubmit
    cases ha with
    | submit accepted => exact ackRested_submitDone h accepted
  · by_cases hpers : p = .persist
    · subst hpers
      cases ha with
      | persist outcome => exact ackRested_persistDone h outcome
    · exact (hact.ackFree h hsubmit hpers).ackRested

/-- A command line is parsed without touching the mail. -/
theorem parsedInput_of_state_ne {s₀ : Session} (hstate : s.io.state ≠ .inMessage)
    (h : s.parsedInput o = some s₀) :
    s₀.ctx = s.ctx ∧ s₀.mail = s.mail ∧ s₀.bodyWriter = s.bodyWriter ∧
      s₀.bodyLineFolder = s.bodyLineFolder := by
  simp only [parsedInput, Option.bind_eq_some_iff] at h
  obtain ⟨⟨line, io⟩, hline, hparse⟩ := h
  have hview : io.state = s.io.state := congrArg View.state (takeLine_eq_some hline).2.1
  unfold parseSmtpCommand at hparse
  rw [if_neg (by rwa [hview])] at hparse
  cases hparse
  exact ⟨rfl, rfl, rfl, rfl⟩

/-- A dispatched command is the last thing that happened. -/
theorem Core.Idle.ackFree_dispatched (h : k.Idle) (e : SmtpsEvent) (args : Bytes) :
    (k.dispatched e args).AckFree := by
  refine ⟨by simp [Core.dispatched], ?_⟩
  intro t ht
  rw [show (k.dispatched e args).view.settles = [] from h.settles] at ht
  cases ht

theorem ackRested_settled (hone : s.core.Single) (h : s.AckRested)
    {t : Task SmtpsState SmtpsReport} {ts : List (Task SmtpsState SmtpsReport)}
    (ht : s.io.view.settles = t :: ts) (hview : io.view =
      if s.io.closed then { s.io.view with settles := ts }
      else { s.io.view with settles := ts }.settled t) : { s with io }.AckRested := by
  obtain ⟨rfl, hpend⟩ := hone.of_settles ht
  -- a transition waited, so the last thing that happened was no acknowledgement
  have hlast : s.io.view.reported.head? ≠ some .acknowledged := by
    intro hlast
    have hidle := (h.last hlast).1.settles
    rw [show s.core.view.settles = t :: [] from ht] at hidle
    cases hidle
  have hsettles : io.view.settles = [] := by
    rw [hview]
    split
    · rfl
    · cases t <;> rfl
  refine ⟨?_, ?_⟩
  · intro t' ht'
    have hnil : t' ∈ io.view.settles := ht'
    rw [hsettles] at hnil
    cases hnil
  · intro hnow
    have hnow' : io.view.reported.head? = some .acknowledged := hnow
    rw [hview] at hnow'
    split at hnow'
    · exact absurd hnow' hlast
    · rename_i hopen
      cases t with
      | settle target reply rs =>
        by_cases hack : .acknowledged ∈ rs
        · obtain ⟨htask, hrested⟩ := h.waiting (.settle target reply rs)
            (by rw [show s.core.view.settles = _ from ht]; simp) hack
          have hstate : io.view.state = .waitMailFrom := by
            rw [hview, if_neg hopen, htask]
            rfl
          exact ⟨⟨hsettles, hpend⟩, hstate, { hrested with }⟩
        · exact absurd hnow' (head?_append_ne (by rwa [mem_reverse]) hlast)
      | _ => exact absurd hnow' hlast

/-- **An acknowledged mail leaves the session reset.** -/
theorem ackRested_step (hone : s.core.Single) (h : s.AckRested) (i : ServerConfig × Input) :
    (step env s i).AckRested := by
  have hm := step_move env s i
  generalize step env s i = s' at hm
  obtain ⟨cfg, i⟩ := i
  have hfree {o : Oracle} {s₀ : Session} (hpar : s.parsedInput o = some s₀)
      (hpa : s.io.paused = false) : (s₀.reportDispatched s₀.nextEvent).core.AckFree := by
    rw [core_reportDispatched, (core_parsedInput hpar).1]
    exact (hone.idle hpa).ackFree_dispatched _ _
  cases hm with
  | transport io hview =>
    have hcore : { s with io }.core = s.core := by simp [core, hview]
    have hstate : io.state = s.io.state := congrArg View.state hview
    refine ⟨?_, ?_⟩
    · rw [hcore]
      intro t ht hack
      obtain ⟨htask, hrested⟩ := h.waiting t ht hack
      exact ⟨htask, { hrested with }⟩
    · rw [hcore]
      intro hlast
      obtain ⟨hidle, hst, hrested⟩ := h.last hlast
      exact ⟨hidle, hstate.trans hst, { hrested with }⟩
  | settled io t ts ht hview => exact ackRested_settled hone h ht hview
  | parsed o s₀ io hpar hview =>
    obtain ⟨hcore₀, hpa, -⟩ := core_parsedInput hpar
    have hcore : { s₀ with io }.core = s.core := by
      rw [← hcore₀]
      simp [core, hview]
    refine ⟨?_, ?_⟩
    · rw [hcore]
      intro t ht
      rw [(hone.idle hpa).settles] at ht
      cases ht
    · intro hlast
      rw [hcore] at hlast ⊢
      obtain ⟨hidle, hst, hrested⟩ := h.last hlast
      have hne : s.io.state ≠ .inMessage := by rw [hst]; simp
      obtain ⟨hctx, hmail, hwriter, hfolder⟩ := parsedInput_of_state_ne hne hpar
      have hstate : io.state = s.io.state := congrArg (·.view.state) hcore
      refine ⟨hidle, hstate.trans hst, hmail.trans hrested.mail, hwriter.trans hrested.bodyWriter,
        hfolder.trans hrested.bodyLineFolder, ?_⟩
      rw [hctx]
      exact hrested.ctx
  | rejected o s₀ io hpar hview =>
    have hcore : { s₀ with io }.core = (s₀.reportDispatched s₀.nextEvent).core := by
      simp [core, hview, reportDispatched]
    refine Core.AckFree.ackRested ?_
    rw [hcore]
    exact hfree hpar (core_parsedInput hpar).2.1
  | handled o s₀ s' f hpar hpa hopen hev hf hs' =>
    exact ((act_of_parsedInput hpar hopen hf hs').ackFree (hfree hpar hpa)).ackRested
  | threw o s₀ s' f io hpar hpa hopen hf hs' hview =>
    obtain ⟨-, -, -, hcore⟩ := hf.threw hs'
    have hio : { s' with io }.core = s'.core := by simp [core, hview]
    refine Core.AckFree.ackRested ?_
    rw [hio, hcore]
    exact { hfree hpar hpa with }
  | answered p f hpend ha =>
    refine ackRested_answered ⟨?_, ?_⟩ ha
    · intro hlast
      have hnone := (h.last hlast).1.pending
      rw [show s.core.pending = some p from hpend] at hnone
      cases hnone
    · intro t ht
      have hnil : s.io.view.settles = [] := (hone.armed hpend).settles
      have hmem : t ∈ s.io.view.settles := ht
      rw [hnil] at hmem
      cases hmem

/-! ## Transactions -/

/-- What is decided at the end of a message. -/
def isDecision : SmtpsReport → Bool
  | .dataEnd _ => true
  | .verification _ => true
  | _ => false

def decisions (s : Session) : List SmtpsReport := s.io.view.reported.filter isDecision

/-- The session as if no mail had been transferred on it: connection and authentication are the
same, everything that concerns mails is new. -/
def renewed (s : Session) : Session :=
  { s with
    ctx :=
      { listenerConfig := s.ctx.listenerConfig
        isAuthenticated := s.ctx.isAuthenticated
        plainAuthExpected := s.ctx.plainAuthExpected
        clientUsername := s.ctx.clientUsername
        ehloDomain := s.ctx.ehloDomain
        isTrustedServer := s.ctx.isTrustedServer
        shardIndex := s.ctx.shardIndex }
    mail := none
    bodyWriter := none
    bodyLineFolder := [] }

/-- The session has just acknowledged a mail. -/
def AfterMail (env : SmtpEnv) (s : Session) : Prop :=
  (∃ s₀ history, IsStart env s₀ ∧ s = run (step env) s₀ history) ∧
    s.io.view.reported.head? = some .acknowledged

/-- In a reset session that nothing was left behind in, only verdicts are old. -/
theorem renewed_eq_withVerdicts (hrested : s.Rested)
    (hleft : s.ctx.leftover = { toVerdicts := s.ctx.verdicts }) :
    s.renewed = withVerdicts {} s := by
  have hctx : s.ctx.withVerdicts {} =
      { listenerConfig := s.ctx.listenerConfig
        isAuthenticated := s.ctx.isAuthenticated
        plainAuthExpected := s.ctx.plainAuthExpected
        clientUsername := s.ctx.clientUsername
        ehloDomain := s.ctx.ehloDomain
        isTrustedServer := s.ctx.isTrustedServer
        shardIndex := s.ctx.shardIndex } := by
    calc s.ctx.withVerdicts {}
        = (resetContext (s.ctx.withLeftover s.ctx.leftover)).withVerdicts {} := by
          rw [SmtpsContext.withLeftover_leftover, hrested.ctx]
      _ = _ := by
          rw [hleft]
          rfl
  unfold renewed withVerdicts
  rw [hctx, ← hrested.mail, ← hrested.bodyWriter, ← hrested.bodyLineFolder]

/-- What holds along every run of a session. -/
theorem invariants_run (hs : IsStart env s) (is : List (ServerConfig × Input)) :
    (run (step env) s is).core.Single ∧ (run (step env) s is).ctx.leftover.Untouched ∧
      (run (step env) s is).AckRested := by
  have hfr := hs.fresh
  have hfree : s.core.AckFree := by
    refine ⟨?_, ?_⟩
    · intro hlast
      obtain ⟨e, args, he⟩ := hfr.reported _ (mem_of_mem_head? hlast)
      cases he
    · intro t ht
      rw [hfr.settles] at ht
      cases ht
  refine run_invariant (fun s : Session => s.core.Single ∧ s.ctx.leftover.Untouched ∧
    s.AckRested) ?_
    ⟨hfr.toIdle.single, hs.untouched, hfree.ackRested⟩ is
  rintro s i ⟨hone, huntouched, hack⟩
  exact ⟨single_step hone i, untouched_step huntouched i, ackRested_step hone hack i⟩

/-- **Isolation of mail transactions.**  If, when a mail has been acknowledged, no message of the
session had its header read to the end and none was verified, then whatever comes next is decided as
on a session on which no mail was transferred. -/
theorem decisions_eq_of_headerParsed_eq_false {s : Session} (hs : AfterMail env s)
    (hheader : s.ctx.headerParsed = false) (hverified : s.ctx.verificationRun = false)
    (next : List (ServerConfig × Input)) :
    decisions (run (step env) s next) = decisions (run (step env) s.renewed next) := by
  obtain ⟨⟨s₀, history, hstart, rfl⟩, hlast⟩ := hs
  obtain ⟨hone, huntouched, hack⟩ := invariants_run hstart history
  generalize run (step env) s₀ history = s at *
  obtain ⟨hidle, hstate, hrested⟩ := hack.last hlast
  have hleft : s.ctx.leftover = { toVerdicts := s.ctx.verdicts } := by
    have h := huntouched hheader
    rwa [show s.ctx.leftover.verificationRun = false from hverified] at h
  have hfollows : Follows s s.renewed := by
    refine ⟨{}, renewed_eq_withVerdicts hrested hleft, fun hin => ?_⟩
    have hout : inEnvelope s.core.view.state = false := by
      rw [show s.core.view.state = .waitMailFrom from hstate]
      rfl
    exact absurd hin (Core.not_inEnvelope_of_idle hidle hout)
  have hrun : (run (step env) s next).core.Single ∧
      Follows (run (step env) s next) (run (step env) s.renewed next) :=
    run_related (fun s t : Session => s.core.Single ∧ Follows s t)
      (fun _ _ i h => ⟨single_step h.1 i, h.2.step h.1 i⟩) ⟨hone, hfollows⟩ next
  unfold decisions
  rw [hrun.2.io_eq]

/-- **An acknowledged mail leaves the session reset**: it is idle and waits for the next
MAIL FROM. -/
theorem AfterMail.rested (h : AfterMail env s) :
    s.core.Idle ∧ s.io.state = .waitMailFrom ∧ s.Rested := by
  obtain ⟨⟨s₀, history, hs, rfl⟩, hlast⟩ := h
  exact (invariants_run hs history).2.2.last hlast

/-! ## Two mails on one connection -/

def ehloDialog : List (ServerConfig × Input) :=
  (quiesce ++ exchange {} (bytes "EHLO client\r\n")).map (exampleConfig, ·)

/-- A mail is transferred: its envelope, the message in one segment, and the answers that lead to
its acknowledgement. -/
def mailDialog (message : Bytes) : List (ServerConfig × Input) :=
  (exchange {} (bytes "MAIL FROM:<ann@remote.org>\r\n") ++
    exchange { cachedStatus := some 1 } (bytes "RCPT TO:<bob@example.com>\r\n") ++
    exchange { openWrite := .opened (bytes "body") } (bytes "DATA\r\n") ++ exchange {} message ++
    [Input.commitDone .committed, .openReadDone false, .submitDone true, .persistDone .success] ++
    quiesce).map (exampleConfig, ·)

def afterFirstMail (message : Bytes) : Session :=
  run (step twoAccounts) (start twoAccounts exampleConfig exampleListener)
    (ehloDialog ++ mailDialog message)

def spoofedMessage : Bytes := bytes "From: admin@example.com\r\n\r\nsecond\r\n.\r\n"

/-- After a mail without the end of a header, the next one is treated like a first one. -/
theorem decisions_eq_after_headless_mail :
    decisions (run (step twoAccounts) (afterFirstMail (bytes "Subject: one\r\n.\r\n"))
        (mailDialog spoofedMessage)) =
      decisions (run (step twoAccounts) (afterFirstMail (bytes "Subject: one\r\n.\r\n")).renewed
        (mailDialog spoofedMessage)) :=
  decisions_eq_of_headerParsed_eq_false
    ⟨⟨_, _, .inl ⟨exampleConfig, exampleListener, rfl⟩, rfl⟩, by decide +kernel⟩
    (by decide +kernel) (by decide +kernel) _

theorem rested_after_headless_mail : (afterFirstMail (bytes "Subject: one\r\n.\r\n")).Rested :=
  (AfterMail.rested ⟨⟨_, _, .inl ⟨exampleConfig, exampleListener, rfl⟩,
    rfl⟩, by decide +kernel⟩).2.2

/-- **The second mail of a session is not treated like the first.** -/
theorem not_forall_decisions_eq :
    ¬ ∀ (env : SmtpEnv) (s : Session), AfterMail env s → ∀ next,
      decisions (run (step env) s next) = decisions (run (step env) s.renewed next) := by
  intro h
  have hafter : AfterMail twoAccounts
    (afterFirstMail (bytes "Subject: one\r\n\r\nfirst\r\n.\r\n")) :=
    ⟨⟨_, _, .inl ⟨exampleConfig, exampleListener, rfl⟩, rfl⟩, by decide +kernel⟩
  have heq := h _ _ hafter (mailDialog spoofedMessage)
  revert heq
  decide +kernel

end Session

end ProtoRelay
