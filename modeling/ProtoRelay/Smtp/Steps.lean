import ProtoRelay.Smtp.Frames

/-!
# What a step can do

One inversion for the whole machine, `Session.step_move`: a step moves bytes without touching what
the protocol sees, settles a waiting transition, rejects a command, runs a handler on a parsed
command, or continues an operation that was answered.  Every property of runs below is proved by
going through these moves.
-/

namespace ProtoRelay

open SessionBase

namespace Session

variable (env : SmtpEnv) (cfg : ServerConfig)

/-! ## Handlers -/

/-- The handler table: in state `st` the event `e` is handled by `h`. -/
inductive Handled (o : Oracle) :
    SmtpsState → SmtpsEvent → (Session → Except Session Session) → Prop
  | connect : Handled o .init .connect fun s => .ok s.handleInitConnect
  | ehlo {st : SmtpsState} (h : st = .waitEhlo ∨ st = .greeting ∨ st = .waitAuth) :
      Handled o st .ehlo fun s => .ok (s.handleGreetingEhlo env cfg)
  | starttls (h : env.isTls = false) : Handled o .waitAuth .starttls fun s =>
    .ok s.handleWaitAuthStarttls
  | auth : Handled o .waitAuth .auth fun s => .ok (s.handleWaitAuthAuth env cfg)
  | authUsername : Handled o .waitAuthUsername .auth fun s => .ok (s.handleWaitAuthUsername env)
  | authPassword : Handled o .waitAuthPassword .auth fun s => .ok (s.handleWaitAuthPassword cfg)
  | mailFrom {st : SmtpsState} (h : st = .waitAuth ∨ st = .waitMailFrom ∨ st = .waitRcptTo ∨
      st = .waitQuit) :
      Handled o st .mailFrom fun s => .ok (s.handleWaitAuthMailFrom env cfg)
  | rcptTo : Handled o .waitRcptTo .rcptTo fun s => .ok (s.handleWaitRcptToRcptTo env cfg o)
  | data {st : SmtpsState} (h : st = .waitRcptTo ∨ st = .waitData) :
      Handled o st .data fun s => s.handleWaitDataData o
  | inMessageData : Handled o .inMessage .data fun s => .ok s.handleInMessageData
  | dataEnd : Handled o .inMessage .dataEnd fun s => .ok (s.handleInMessageDataEnd env cfg)
  | quit {st : SmtpsState} (h : st ≠ .init ∧ st ≠ .closed) :
      Handled o st .quit fun s => .ok s.handleWaitQuitQuit
  | error {st : SmtpsState} (h : st ≠ .closed) : Handled o st .error fun s => .ok s.handleError
  | selfLoop {st : SmtpsState} {e : SmtpsEvent} (h : st ≠ .closed)
      (he : e = .timeout ∨ e = .empty) : Handled o st e fun s => .ok s.handleSelfLoop

variable {env cfg}

theorem handled_of_handlerFor {o : Oracle} {st : SmtpsState} {e : SmtpsEvent}
    {h : Session → Except Session Session} (hh : handlerFor env cfg o st e = some h) :
    Handled env cfg o st e h := by
  unfold handlerFor at hh
  split at hh
  case h_5 =>
    split at hh
    · cases hh
    · rename_i htls
      cases hh
      exact .starttls (by simpa using htls)
  all_goals
    cases hh
    try constructor <;> simp_all

/-! ## Continuations -/

section

variable (env cfg)

/-- The continuations of pending operations: the answer `i` to `p` is handled by `f`. -/
inductive Answered : Pending → Input → (Session → Session) → Prop
  | auth (account : Bytes) (ok : Bool) (shard : Nat) :
      Answered (.auth account) (.authDone ok shard) fun s => s.authDone cfg account ok shard
  | quota (limited needSpf : Bool) (sender spfMode : Bytes) (allowed : Bool) :
      Answered (.quota limited needSpf sender spfMode) (.quotaDone allowed)
        fun s => s.quotaDone env limited needSpf sender spfMode allowed
  | spf (sender spfMode result reason : Bytes) : Answered (.spf sender spfMode)
      (.spfDone result reason)
        fun s => s.spfDone sender spfMode result reason
  | submissionAlias (recipient : Bytes) (targets : List Bytes) :
      Answered (.submissionAlias recipient) (.aliasDone targets)
        fun s => s.submissionAliasDone recipient targets
  | recipientAlias (recipient : Bytes) (targets : List Bytes) :
      Answered (.recipientAlias recipient) (.aliasDone targets) fun s =>
        s.recipientAliasDone targets
  | fromAlias (authUser : Bytes) (targets : List Bytes) : Answered (.fromAlias authUser)
      (.aliasDone targets)
        fun s => s.fromAliasDone env cfg authUser targets
  | userExists (recipient : Bytes) (found : Bool) : Answered (.userExists recipient)
      (.userExistsDone found)
        fun s => s.userExistsDone recipient found
  | commit (result : CommitResult) :
      Answered .commit (.commitDone result) fun s => s.commitDone env cfg result
  | openRead (threw : Bool) : Answered .openRead (.openReadDone threw) fun s =>
    s.openReadDone env cfg threw
  | verify (dkim dmarc spf : Bytes) :
      Answered .verify (.verifyDone dkim dmarc spf) fun s => s.verifyDone dkim dmarc spf
  | submit (accepted : Bool) : Answered .submit (.submitDone accepted) fun s =>
    s.submitDone env cfg accepted
  | persist (outcome : PersistOutcome) :
      Answered .persist (.persistDone outcome) fun s => s.persistDone outcome

end

theorem answered_of_continuation {p : Pending} {i : Input} {f : Session → Session}
    (h : continuation env cfg p i = some f) : Answered env cfg p i f := by
  unfold continuation at h
  split at h <;> cases h
  all_goals constructor

/-! ## Moves -/

/-- The command `e` with arguments `args` is on record. -/
def Core.dispatched (k : Core) (e : SmtpsEvent) (args : Bytes) : Core :=
  { k with view := { k.view with reported := .dispatched e args :: k.view.reported } }

/-- The ways a session can move on an input. -/
inductive Move (env : SmtpEnv) (cfg : ServerConfig) (s : Session) : Input → Session → Prop
  /-- bytes move, or the session is closed -/
  | transport {i : Input} (io : SessionBase SmtpsState SmtpsReport)
      (hview : io.view = s.io.view) : Move env cfg s i { s with io }
  /-- a transition is settled, or dropped because the session is closed -/
  | settled {i : Input} (io : SessionBase SmtpsState SmtpsReport)
      (t : Task SmtpsState SmtpsReport) (ts : List (Task SmtpsState SmtpsReport))
      (hsettles : s.io.view.settles = t :: ts) (hview : io.view =
        if s.io.closed then { s.io.view with settles := ts }
        else { s.io.view with settles := ts }.settled t) : Move env cfg s i { s with io }
  /-- a unit of input is parsed, and its event not handled -/
  | parsed (o : Oracle) (s₀ : Session) (io : SessionBase SmtpsState SmtpsReport)
      (hparsed : s.parsedInput o = some s₀) (hview : io.view = s₀.io.view) :
      Move env cfg s (.consume o) { s₀ with io }
  /-- a command is rejected by the tables -/
  | rejected (o : Oracle) (s₀ : Session) (io : SessionBase SmtpsState SmtpsReport)
      (hparsed : s.parsedInput o = some s₀)
      (hview : io.view = (s₀.reportDispatched s₀.nextEvent).io.view) :
      Move env cfg s (.consume o) { s₀ with io }
  /-- a handler runs -/
  | handled (o : Oracle) (s₀ s' : Session) (h : Session → Except Session Session)
      (hparsed : s.parsedInput o = some s₀) (hpaused : s.io.paused = false)
      (hopen : s.io.closed = false) (hevent : s₀.nextEvent ≠ .connect)
      (hhandled : Handled env cfg o s.io.state s₀.nextEvent h)
      (hs' : h (s₀.reportDispatched s₀.nextEvent) = .ok s') : Move env cfg s (.consume o) s'
  /-- a handler throws and the engine replies for it -/
  | threw (o : Oracle) (s₀ s' : Session) (h : Session → Except Session Session)
      (io : SessionBase SmtpsState SmtpsReport)
      (hparsed : s.parsedInput o = some s₀) (hpaused : s.io.paused = false)
      (hopen : s.io.closed = false)
      (hhandled : Handled env cfg o s.io.state s₀.nextEvent h)
      (hs' : h (s₀.reportDispatched s₀.nextEvent) = .error s') (hview : io.view = s'.io.view) :
      Move env cfg s (.consume o) { s' with io }
  /-- a pending operation is answered -/
  | answered {i : Input} (p : Pending) (f : Session → Session) (hpending : s.pending = some p)
      (hanswered : Answered env cfg p i f) : Move env cfg s i (f { s with pending := none })

/-! ## Inversion -/

/-- Input is parsed only in a session that is not paused, and keeps its core. -/
theorem core_parsedInput {s s₀ : Session} {o : Oracle} (h : s.parsedInput o = some s₀) :
    s₀.core = s.core ∧ s.io.paused = false ∧ s₀.io.closed = s.io.closed := by
  simp only [parsedInput, Option.bind_eq_some_iff] at h
  obtain ⟨⟨line, io⟩, hline, hparse⟩ := h
  obtain ⟨hpaused, hview, hcl⟩ := takeLine_eq_some hline
  obtain ⟨buffer, hio⟩ := io_parseSmtpCommand hparse
  refine ⟨(core_parseSmtpCommand hparse).trans ?_, hpaused, ?_⟩
  · simp [core, hview]
  · rw [hio]
    exact hcl

theorem commandEvent_ne_connect {command : Bytes} {e : SmtpsEvent}
    (h : commandEvent command = some e) : e ≠ .connect := by
  unfold commandEvent at h
  repeat' split at h
  all_goals cases h
  all_goals simp

theorem parseCommandLine_ne_connect (s : Session) (data : Bytes) :
    (s.parseCommandLine data).1 ≠ .connect := by
  unfold parseCommandLine
  dsimp only
  split
  · simp
  · split
    · simp
    · split
      · exact commandEvent_ne_connect ‹_›
      · simp

/-- No line of input is the event of a new connection. -/
theorem nextEvent_parsedInput {s s₀ : Session} {o : Oracle} (h : s.parsedInput o = some s₀) :
    s₀.nextEvent ≠ .connect := by
  simp only [parsedInput, Option.bind_eq_some_iff] at h
  obtain ⟨⟨line, io⟩, -, hparse⟩ := h
  unfold parseSmtpCommand at hparse
  split at hparse
  · simp only [parseMessageUnit, Option.bind_eq_some_iff] at hparse
    obtain ⟨s₁, -, hparse⟩ := hparse
    split at hparse
    · simp only [finishMessage, Option.map_eq_some_iff] at hparse
      obtain ⟨tail, -, rfl⟩ := hparse
      simp
    · cases hparse
      simp
  · cases hparse
    exact parseCommandLine_ne_connect _ _

theorem core_reportDispatched (s : Session) (e : SmtpsEvent) :
    (s.reportDispatched e).core = s.core.dispatched e s.lastCommandArgs := by
  rfl

theorem move_consume (s : Session) (o : Oracle) :
    Move env cfg s (.consume o) (s.consume env cfg o) := by
  unfold consume
  cases hp : s.parsedInput o with
  | none => exact .transport s.io rfl
  | some s₀ =>
    obtain ⟨hcore, hpaused, hcl⟩ := core_parsedInput hp
    have hst : s₀.io.state = s.io.state := congrArg (·.view.state) hcore
    simp only [dispatch]
    split
    · exact .parsed o s₀ s₀.io hp rfl
    · rename_i hopen
      split
      · exact .parsed o s₀ _ hp (view_close _)
      · split
        · rename_i handler _ hhdl
          have hhandled := handled_of_handlerFor hhdl
          simp only [reportDispatched, reports, hst] at hhandled
          have hopen' : s.io.closed = false := by
            rw [← hcl]
            simpa using hopen
          split
          · rename_i s' hs'
            exact .handled o s₀ s' handler hp hpaused hopen' (nextEvent_parsedInput hp) hhandled hs'
          · rename_i s' hs'
            exact .threw o s₀ s' handler _ hp hpaused hopen' hhandled hs' (by simp)
        · exact .rejected o s₀ _ hp (view_writeReply _ _)

/-- **What a step can do.** -/
theorem step_move (env : SmtpEnv) (s : Session) (i : ServerConfig × Input) :
    Move env i.1 s i.2 (step env s i) := by
  obtain ⟨cfg, i⟩ := i
  have hsame : Move env cfg s i s := .transport s.io rfl
  have hans : Move env cfg s i (s.answerPending env cfg i) := by
    unfold answerPending
    cases hp : s.pending with
    | none => exact hsame
    | some p =>
      simp only [answer]
      cases hf : continuation env cfg p i with
      | none => exact hsame
      | some f => exact .answered p f hp (answered_of_continuation hf)
  cases i with
  | readDone data =>
    simp only [step]
    split
    · exact .transport _ (view_readDone _ _)
    · exact hsame
  | writeDone index ok =>
    simp only [step]
    split
    · exact .transport _ (view_writeDone _ _ _)
    · exact hsame
  | runTask =>
    simp only [step]
    split
    · rcases view_runTask s.io with h | ⟨t, ts, ht, h⟩
      · exact .transport _ h
      · exact .settled _ t ts ht h
    · exact hsame
  | consume o => exact move_consume s o
  | loopEnd => exact .transport _ (view_loopEnd _)
  | close => exact .transport _ (view_close _)
  | authDone | quotaDone | spfDone | aliasDone | userExistsDone | commitDone | openReadDone
  | verifyDone | submitDone | persistDone => exact hans

end Session

end ProtoRelay
