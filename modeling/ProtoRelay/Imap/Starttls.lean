import ProtoRelay.Framework.Handover
import ProtoRelay.Imap.Machine

/-!
# STARTTLS in an IMAP session

The IMAP handler stays in its state and writes the tagged `OK`; the connection is released by the
callback of that write, as in SMTP.
-/

namespace ProtoRelay

namespace ImapSession

/-- The positive reply to STARTTLS. -/
def beginTlsNegotiation (tag : Bytes) : Bytes := tag ++ bytes " OK Begin TLS negotiation now\r\n"

variable (env : ImapEnv)

/-- The session with its STARTTLS line parsed, if the step accepts one. -/
def acceptsStarttls (s : ImapSession) (i : ServerConfig × Input) : Option ImapSession :=
  match i.2 with
  | .consume _ =>
    s.readInput.filter fun s₀ =>
      s₀.commandParsed && !s₀.idleDoneReceived && s₀.nextEvent == .starttls && !s₀.io.closed &&
        s₀.io.state.state == .notAuthenticated && !env.isTls
  | _ => none

/-- If the step accepts STARTTLS, then nothing else is going on: the line came alone, and no task,
read, write or password check is outstanding. -/
def Undisturbed (s : ImapSession) (i : ServerConfig × Input) : Prop :=
  ∀ s₀, acceptsStarttls env s i = some s₀ → s₀.io.Quiet ∧ s₀.pending = none

instance (s : ImapSession) (i : ServerConfig × Input) : Decidable (Undisturbed env s i) :=
  match h : acceptsStarttls env s i with
  | none => .isTrue (by simp [Undisturbed, h])
  | some s₀ =>
    decidable_of_iff (s₀.io.Quiet ∧ s₀.pending = none) (by simp [Undisturbed, h])

variable {env}

def startingTls (s₀ : ImapSession) : SessionBase ImapFraming ImapReport :=
  s₀.io.reports [.dispatched .starttls s₀.currentTag s₀.lastCommandArgs]

def startedTls (s₀ : ImapSession) : ImapSession :=
  { s₀ with
    commandParsed := false
    ctx := { s₀.ctx with currentTag := s₀.currentTag }
    io := s₀.startingTls.doAsyncWrite (beginTlsNegotiation s₀.currentTag) (some .handoff) }

theorem step_of_acceptsStarttls {s s₀ : ImapSession} {i : ServerConfig × Input}
    (h : acceptsStarttls env s i = some s₀) :
    s₀.io.closed = false ∧ s₀.io.state.state = .notAuthenticated ∧
      step env s i = s₀.startedTls := by
  obtain ⟨cfg, i⟩ := i
  cases i with
  | consume after =>
    obtain ⟨hread, hall⟩ := Option.filter_eq_some_iff.mp h
    simp only [Bool.and_eq_true, Bool.not_eq_true', beq_iff_eq] at hall
    obtain ⟨⟨⟨⟨⟨hp, hdone⟩, hev⟩, hopen⟩, hst⟩, htls⟩ := hall
    refine ⟨hopen, hst, ?_⟩
    have hterm : (makeImapsDesc true).isTerminal .notAuthenticated = false := by decide
    have hguard : (makeImapsDesc true).guardTarget .notAuthenticated .starttls =
        some (some .notAuthenticated) := by
      decide
    have hhdl : handlerFor env cfg after .notAuthenticated .starttls =
        some fun s => .ok s.handleStarttls := by
      simp [handlerFor, htls]
    change s.consume env cfg after = _
    simp only [consume, hread, processRead, hp, hdone, hev, processEvent, hopen, htls,
      Bool.not_false, Bool.not_true, Bool.false_eq_true, if_false]
    simp only [SessionBase.reports, hst, hterm, hguard, hhdl]
    simp [handleStarttls, startedTls, startingTls, beginTlsNegotiation, SessionBase.reports,
      hev, hdone]
  | _ => cases h

/-- A session that has accepted STARTTLS undisturbed. -/
structure Leaving (payload : Bytes) (before : List (Effect ImapReport)) (s : ImapSession) :
    Prop where
  io : s.io.HandingOver payload before
  pending : s.pending = none
  state : s.io.state.state = .notAuthenticated

/-- It does nothing but hand its connection over. -/
theorem Leaving.step {s : ImapSession} {payload : Bytes} {before : List (Effect ImapReport)}
    (h : s.Leaving payload before) (i : ServerConfig × Input) :
    (step env s i).Leaving payload before := by
  have hst {io : SessionBase ImapFraming ImapReport} (hio : io.state = s.io.state) :
      io.state.state = .notAuthenticated := by
    rw [hio]
    exact h.state
  obtain ⟨cfg, i⟩ := i
  cases i with
  | readDone data =>
    -- no read is outstanding
    simp only [ImapSession.step, h.io.readInProgress, Bool.and_false, Bool.false_eq_true, if_false]
    exact h
  | writeDone index ok =>
    simp only [ImapSession.step]
    split
    · exact ⟨h.io.writeDone index ok, h.pending,
        hst (congrArg View.state (s.io.view_writeDone index ok))⟩
    · exact h
  | runTask =>
    simp only [ImapSession.step]
    split
    · exact ⟨h.io.runTask, h.pending, hst h.io.state_runTask⟩
    · exact h
  | consume after =>
    -- no line is left
    have hnone : s.readInput = none := by
      rw [readInput, h.io.takeLine_eq_none]
      rfl
    simp only [ImapSession.step, consume, hnone]
    exact h
  | loopEnd =>
    exact ⟨h.io.loopEnd, h.pending, hst (congrArg View.state s.io.view_loopEnd)⟩
  | close => exact ⟨h.io.close, h.pending, hst (congrArg View.state s.io.view_close)⟩
  | authDone ok userId shard =>
    simp only [ImapSession.step, h.pending]
    exact h
  | mailbox after =>
    -- the client has not logged in
    simp only [ImapSession.step, h.state]
    exact h

/-- **An undisturbed session hands its connection over safely**: from the dispatch of STARTTLS on,
whatever follows. -/
theorem safeHandover_run {s : ImapSession} {is js : List (ServerConfig × Input)}
    {i : ServerConfig × Input} (his : StepsMeet (step env) (Undisturbed env) s (is ++ i :: js))
    {s₀ : ImapSession} (hacc : acceptsStarttls env (run (step env) s is) i = some s₀) :
    SessionBase.SafeHandover (beginTlsNegotiation s₀.currentTag) s₀.startingTls
      (run (step env) s (is ++ i :: js)).io := by
  have hund := ((stepsMeet_append s is (i :: js)).mp his).2.1
  rw [run_append, run_cons]
  generalize run (step env) s is = t at hacc hund
  obtain ⟨hopen, hst, hstep⟩ := step_of_acceptsStarttls hacc
  obtain ⟨h, hpend⟩ := hund s₀ hacc
  have hq : s₀.startingTls.Quiet := { h with }
  have hleaving : s₀.startedTls.Leaving _ s₀.startingTls.log :=
    ⟨hq.handingOver hopen (beginTlsNegotiation s₀.currentTag), hpend,
      (congrArg (fun v : View ImapFraming ImapReport => v.state.state)
        (s₀.startingTls.view_doAsyncWrite _ _)).trans hst⟩
  rw [hstep]
  exact (run_invariant (fun s : ImapSession => s.Leaving _ _) (fun _ i hs => hs.step i) hleaving
    js).io.safe (List.suffix_append _ _)

end ImapSession

end ProtoRelay
