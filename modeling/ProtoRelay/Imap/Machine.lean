import ProtoRelay.Imap.Session

/-!
# The IMAP session as a machine

As for SMTP, an IMAP session takes completions of reads and writes, tasks of its executor, steps of
its input loops and answers; an input it is not ready for changes nothing.
-/

namespace ProtoRelay

namespace ImapSession

variable (env : ImapEnv) (cfg : ServerConfig)

/-! ## Dispatch -/

/-- `register_handlers`; the TLS variant of the machine has no STARTTLS.  `after` is what a handler
of the later states does. -/
def handlerFor (after : ImapSession) :
    ImapState → ImapEvent → Option (ImapSession → Except ImapSession ImapSession)
  | .init, .connect => some fun s => .ok s.handleInitConnect
  | .notAuthenticated, .capability => some fun s => .ok (s.handleCapability env)
  | .notAuthenticated, .starttls => if env.isTls then none else some fun s => .ok s.handleStarttls
  | .notAuthenticated, .login => some fun s => s.handleLogin env cfg
  | .notAuthenticated, .authenticate => some fun s => .ok (s.handleAuthenticate env cfg)
  | .notAuthenticated, .noop => some fun s => .ok s.handleNoop
  | .notAuthenticated, .logout => some fun s => .ok s.handleLogout
  | .notAuthenticated, .error => some fun s => .ok s.handleError
  | .notAuthenticated, .timeout => some fun s => .ok s.handleTimeout
  | .authenticated, _ => some fun s => .ok (s.mailboxStep after)
  | .selected, _ => some fun s => .ok (s.mailboxStep after)
  | _, _ => none

/-- `process_event` and `dispatch` of the engine, whose replies carry the tag. -/
def processEvent (s after : ImapSession) (event : ImapEvent) (tag : Bytes) : ImapSession :=
  let desc := makeImapsDesc (!env.isTls)
  let s := { s with ctx := { s.ctx with currentTag := tag } }
  if s.io.closed then s
  else if desc.isTerminal s.io.state.state then { s with io := s.io.close }
  else
    let s := { s with io := s.io.reports [.dispatched event tag s.lastCommandArgs] }
    match desc.guardTarget s.io.state.state event with
    | none => { s with io := s.io.writeReply (tag ++ bytes " BAD Invalid command sequence") }
    | some _ =>
      match handlerFor env cfg after s.io.state.state event with
      | none =>
        { s with io := s.io.writeReply (tag ++ bytes " BAD Unsupported command in current state") }
      | some handler =>
        match handler s with
        | .ok s => s
        | .error s => { s with io := s.io.writeReply (tag ++ bytes " NO Internal server error") }

def processRead (s after : ImapSession) : ImapSession :=
  if !s.commandParsed then s
  else
    let s := { s with commandParsed := false }
    if s.idleDoneReceived then
      { s with idleDoneReceived := false }.processEvent env cfg after .done s.ctx.currentTag
    else s.processEvent env cfg after s.nextEvent s.currentTag

/-- The session with its next unit of input taken and read. -/
def readInput (s : ImapSession) : Option ImapSession :=
  s.io.takeLine.map fun (line, io) => { s with io }.handleRead line

def consume (s after : ImapSession) : ImapSession :=
  match s.readInput with
  | none => s
  | some s => s.processRead env cfg after

/-! ## Steps -/

inductive Input
  | readDone (data : Option Bytes)
  | writeDone (index : Nat) (ok : Bool)
  | runTask
  /-- an input loop takes its next unit; a handler of the later states leaves the session as
  `after` -/
  | consume (after : ImapSession)
  | loopEnd
  | close
  | authDone (ok : Bool) (userId shard : Nat)
  /-- something a handler of the later states has started leaves the session as `after` -/
  | mailbox (after : ImapSession)

/-- The executor is free: no input loop is running on it. -/
def idle (s : ImapSession) : Bool := s.io.loops.isEmpty

def step (s : ImapSession) (i : ServerConfig × Input) : ImapSession :=
  match i.2 with
  | .readDone data =>
    if s.idle && s.io.readInProgress then { s with io := s.io.readDone data } else s
  | .writeDone index ok => if s.idle then { s with io := s.io.writeDone index ok } else s
  | .runTask => if s.idle then { s with io := s.io.runTask } else s
  | .consume after => s.consume env i.1 after
  | .loopEnd => { s with io := s.io.loopEnd }
  | .close => { s with io := s.io.close }
  | .authDone ok userId shard =>
    match s.pending with
    | none => s
    | some check => { s with pending := none }.authDone i.1 check ok userId shard
  | .mailbox after =>
    if s.io.state.state = .authenticated ∨ s.io.state.state = .selected then s.mailboxStep after
    else s

/-! ## Beginnings -/

/-- A session right after its construction. -/
def fresh : ImapSession := { io := { state := ⟨.init, false⟩ } }

/-- `start`, once the handshake of a TLS connection is done: the banner. -/
def start : ImapSession := fresh.processEvent env cfg fresh .connect []

/-- `start_after_starttls`, once the handshake is done: the client speaks first. -/
def startAfterStarttls : ImapSession :=
  { fresh with io := { fresh.io with state := ⟨.notAuthenticated, false⟩ }.doAsyncRead }

end ImapSession

end ProtoRelay
