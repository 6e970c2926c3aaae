import ProtoRelay.Framework.Handover
import ProtoRelay.Smtp.Transitions

/-!
# STARTTLS in an SMTP session

A plain session that accepts STARTTLS writes `220` and gives its connection to a TLS session.  The
write is held back if the client has sent more than the STARTTLS line, and its callback, which
releases the connection, then runs at once.
-/

namespace ProtoRelay

namespace Session

/-- The positive reply to STARTTLS. -/
def readyToStartTls : Bytes := bytes "220 Ready to start TLS\r\n"

variable (env : SmtpEnv)

/-- The session with its STARTTLS line parsed, if the step accepts one. -/
def acceptsStarttls (s : Session) (i : ServerConfig × Input) : Option Session :=
  match i.2 with
  | .consume o =>
    (s.parsedInput o).filter fun s₀ =>
      !s₀.io.closed && s₀.io.state == .waitAuth && s₀.nextEvent == .starttls && !env.isTls &&
        s₀.ctx.listenerConfig.advertiseStarttls
  | _ => none

/-- If the step accepts STARTTLS, then nothing else is going on: the line came alone, and no task,
no read and no write is outstanding. -/
def Undisturbed (s : Session) (i : ServerConfig × Input) : Prop :=
  ∀ s₀, acceptsStarttls env s i = some s₀ → s₀.io.Quiet

instance (s : Session) (i : ServerConfig × Input) : Decidable (Undisturbed env s i) :=
  match h : acceptsStarttls env s i with
  | none => .isTrue (by simp [Undisturbed, h])
  | some s₀ =>
    decidable_of_iff s₀.io.Quiet (by simp [Undisturbed, h])

variable {env}

def startingTls (s₀ : Session) : SessionBase SmtpsState SmtpsReport :=
  ({ s₀.io with state := .init, paused := false } : SessionBase _ _).reports
    [.dispatched .starttls s₀.lastCommandArgs]

def startedTls (s₀ : Session) : Session :=
  { s₀ with io := s₀.startingTls.doAsyncWrite readyToStartTls (some .handoff) }

theorem step_of_acceptsStarttls {s s₀ : Session} {i : ServerConfig × Input}
    (h : acceptsStarttls env s i = some s₀) :
    s₀.io.closed = false ∧ s₀.io.state = .waitAuth ∧ s₀.core = s.core ∧ s.io.paused = false ∧
      step env s i = s₀.startedTls := by
  obtain ⟨cfg, i⟩ := i
  cases i with
  | consume o =>
    obtain ⟨hpar, hall⟩ := Option.filter_eq_some_iff.mp h
    simp only [Bool.and_eq_true, Bool.not_eq_true', beq_iff_eq] at hall
    obtain ⟨⟨⟨⟨hopen, hst⟩, hev⟩, htls⟩, hadvertise⟩ := hall
    obtain ⟨hcore, hp, -⟩ := core_parsedInput hpar
    refine ⟨hopen, hst, hcore, hp, ?_⟩
    have hterm : (makeSmtpsDesc true).isTerminal .waitAuth = false := by decide
    have hguard : (makeSmtpsDesc true).guardTarget .waitAuth .starttls = some (some .init) := by
      decide
    have hhdl : handlerFor env cfg o .waitAuth .starttls = some fun s =>
        .ok s.handleWaitAuthStarttls := by
      simp [handlerFor, htls]
    change s.consume env cfg o = _
    simp only [consume, hpar, dispatch, hopen, hev, htls, Bool.not_false, Bool.false_eq_true,
      if_false, reportDispatched]
    simp only [SessionBase.reports, hst, hterm, hguard, hhdl]
    simp [handleWaitAuthStarttls, hadvertise, SessionBase.applyClosing, SessionBase.settleClosing,
      hopen, hev, readyToStartTls, startedTls, startingTls, SessionBase.reports]
  | _ => cases h

section

variable {s : Session} {payload : Bytes} {before : List (Effect SmtpsReport)}
  (h : s.io.HandingOver payload before) (hpend : s.pending = none)

include h hpend

/-- A session that has accepted STARTTLS undisturbed does nothing but hand its connection over. -/
theorem handingOver_step (i : ServerConfig × Input) :
    (step env s i).io.HandingOver payload before ∧ (step env s i).pending = none := by
  obtain ⟨cfg, i⟩ := i
  cases i with
  | readDone data =>
    -- no read is outstanding
    simp only [step, h.readInProgress, Bool.and_false, Bool.false_eq_true, if_false]
    exact ⟨h, hpend⟩
  | writeDone index ok =>
    simp only [step]
    split
    · exact ⟨h.writeDone index ok, hpend⟩
    · exact ⟨h, hpend⟩
  | runTask =>
    simp only [step]
    split
    · exact ⟨h.runTask, hpend⟩
    · exact ⟨h, hpend⟩
  | consume o =>
    -- no line is left
    have hnone : s.parsedInput o = none := by
      rw [parsedInput, h.takeLine_eq_none]
      rfl
    simp only [step, consume, hnone]
    exact ⟨h, hpend⟩
  | loopEnd => exact ⟨h.loopEnd, hpend⟩
  | close => exact ⟨h.close, hpend⟩
  | _ =>
    simp only [step, hpend]
    exact ⟨h, trivial⟩

theorem handingOver_run
    (is : List (ServerConfig × Input)) : (run (step env) s is).io.HandingOver payload before :=
  (run_invariant (fun s : Session => s.io.HandingOver payload before ∧ s.pending = none)
    (fun _ i hs => handingOver_step hs.1 hs.2 i) ⟨h, hpend⟩ is).1

end

/-- **An undisturbed session hands its connection over safely**: from the dispatch of STARTTLS on,
whatever follows. -/
theorem safeHandover_run {s : Session} (hs : IsStart env s) {is js : List (ServerConfig × Input)}
    {i : ServerConfig × Input} (his : StepsMeet (step env) (Undisturbed env) s (is ++ i :: js))
    {s₀ : Session} (hacc : acceptsStarttls env (run (step env) s is) i = some s₀) :
    SessionBase.SafeHandover readyToStartTls s₀.startingTls
      (run (step env) s (is ++ i :: js)).io := by
  have hund := ((stepsMeet_append s is (i :: js)).mp his).2.1
  have hone : (run (step env) s is).core.Single := single_run hs.fresh.toIdle.single is
  rw [run_append, run_cons]
  generalize run (step env) s is = t at hacc hund hone
  obtain ⟨hopen, hst, hcore, hp, hstep⟩ := step_of_acceptsStarttls hacc
  have hq : s₀.startingTls.Quiet := by
    have h := hund s₀ hacc
    refine { h with buffer := ?_ }
    -- a complete line is the same thing in both states
    have hbuf := h.buffer
    rw [SessionBase.hasBufferedInput, hst] at hbuf
    exact hbuf
  -- nothing is pending when a line is taken
  have hpend : s₀.startedTls.pending = none :=
    (congrArg Core.pending hcore).trans (hone.idle hp).pending
  have hover : s₀.startedTls.io.HandingOver _ s₀.startingTls.log :=
    hq.handingOver hopen readyToStartTls
  rw [hstep]
  exact (handingOver_run hover hpend js).safe (List.suffix_append _ _)

end Session

end ProtoRelay
