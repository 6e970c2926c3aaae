import ProtoRelay.Base.Runs
import ProtoRelay.Smtp.DataEnd

/-!
# The SMTP session as a machine

A session takes inputs: completions of its reads and writes, the tasks of its executor, the steps of
the loops over its buffered input, and the answers of the asynchronous operations it waits for.  Any
interleaving of them is a run.  An input the session is not ready for changes nothing, so that every
input list is a run.  The configuration is read anew at every step, since the server may replace it.
-/

namespace ProtoRelay

namespace Session

variable (env : SmtpEnv) (cfg : ServerConfig)

/-! ## Dispatch -/

variable (o : Oracle)

/-- `register_handlers`; the TLS variant of the machine has no STARTTLS. -/
def handlerFor : SmtpsState → SmtpsEvent → Option (Session → Except Session Session)
  | .init, .connect => some fun s => .ok s.handleInitConnect
  | .waitEhlo, .ehlo => some fun s => .ok (s.handleGreetingEhlo env cfg)
  | .greeting, .ehlo => some fun s => .ok (s.handleGreetingEhlo env cfg)
  | .waitAuth, .ehlo => some fun s => .ok (s.handleGreetingEhlo env cfg)
  | .waitAuth, .starttls => if env.isTls then none else some fun s => .ok s.handleWaitAuthStarttls
  | .waitAuth, .auth => some fun s => .ok (s.handleWaitAuthAuth env cfg)
  | .waitAuthUsername, .auth => some fun s => .ok (s.handleWaitAuthUsername env)
  | .waitAuthPassword, .auth => some fun s => .ok (s.handleWaitAuthPassword cfg)
  | .waitAuth, .mailFrom => some fun s => .ok (s.handleWaitAuthMailFrom env cfg)
  | .waitMailFrom, .mailFrom => some fun s => .ok (s.handleWaitAuthMailFrom env cfg)
  | .waitRcptTo, .mailFrom => some fun s => .ok (s.handleWaitAuthMailFrom env cfg)
  | .waitQuit, .mailFrom => some fun s => .ok (s.handleWaitAuthMailFrom env cfg)
  | .waitRcptTo, .rcptTo => some fun s => .ok (s.handleWaitRcptToRcptTo env cfg o)
  | .waitRcptTo, .data => some fun s => s.handleWaitDataData o
  | .waitData, .data => some fun s => s.handleWaitDataData o
  | .inMessage, .data => some fun s => .ok s.handleInMessageData
  | .inMessage, .dataEnd => some fun s => .ok (s.handleInMessageDataEnd env cfg)
  | .init, .quit => none
  | .closed, _ => none
  | _, .quit => some fun s => .ok s.handleWaitQuitQuit
  | _, .error => some fun s => .ok s.handleError
  | _, .timeout => some fun s => .ok s.handleSelfLoop
  | _, .empty => some fun s => .ok s.handleSelfLoop
  | _, _ => none

variable (s : Session)

/-- The session as a handler finds it: the command is on record. -/
def reportDispatched (event : SmtpsEvent) : Session :=
  { s with io := s.io.reports [.dispatched event s.lastCommandArgs] }

/-- `dispatch` of the engine; a handler that throws costs one error reply. -/
def dispatch (s : Session) (event : SmtpsEvent) : Session :=
  let desc := makeSmtpsDesc (!env.isTls)
  if s.io.closed then s
  else if desc.isTerminal s.io.state then { s with io := s.io.close }
  else
    let s := s.reportDispatched event
    match desc.guardTarget s.io.state event, handlerFor env cfg o s.io.state event with
    | some _, some handler =>
      match handler s with
      | .ok s => s
      | .error s => { s with io := s.io.writeReply desc.internalErrorReply }
    | _, _ => { s with io := s.io.writeReply desc.errorReply }

/-- The session with its next unit of input taken and parsed.  `none`: the loop does not go on, or
the parser does not return. -/
def parsedInput (s : Session) : Option Session :=
  s.io.takeLine.bind fun (line, io) => { s with io }.parseSmtpCommand o line

/-- The body of the input loops: take a unit, parse it, dispatch its event.  If the parser does not
return, neither does the loop. -/
def consume (s : Session) : Session :=
  match s.parsedInput o with
  | none => s
  | some s => s.dispatch env cfg o s.nextEvent

/-! ## Steps -/

inductive Input
  /-- the outstanding read completes, with data or with an error -/
  | readDone (data : Option Bytes)
  /-- a write in flight completes -/
  | writeDone (index : Nat) (ok : Bool)
  /-- the connection executor runs its next task -/
  | runTask
  /-- an input loop takes its next unit -/
  | consume (o : Oracle)
  /-- an input loop stops -/
  | loopEnd
  /-- the session is closed from outside, by the watchdog or with the server -/
  | close
  | authDone (ok : Bool) (shard : Nat)
  | quotaDone (allowed : Bool)
  | spfDone (result reason : Bytes)
  | aliasDone (targets : List Bytes)
  | userExistsDone (found : Bool)
  | commitDone (result : CommitResult)
  | openReadDone (threw : Bool)
  | verifyDone (dkim dmarc spf : Bytes)
  | submitDone (accepted : Bool)
  | persistDone (outcome : PersistOutcome)

/-- The continuation of a pending operation for an answer of its kind. -/
def continuation : Pending → Input → Option (Session → Session)
  | .auth account, .authDone ok shard => some fun s => s.authDone cfg account ok shard
  | .quota limited needSpf sender spfMode, .quotaDone allowed =>
    some fun s => s.quotaDone env limited needSpf sender spfMode allowed
  | .spf sender spfMode, .spfDone result reason =>
    some fun s => s.spfDone sender spfMode result reason
  | .submissionAlias recipient, .aliasDone targets =>
    some fun s => s.submissionAliasDone recipient targets
  | .recipientAlias _, .aliasDone targets => some fun s => s.recipientAliasDone targets
  | .fromAlias authUser, .aliasDone targets =>
    some fun s => s.fromAliasDone env cfg authUser targets
  | .userExists recipient, .userExistsDone found => some fun s => s.userExistsDone recipient found
  | .commit, .commitDone result => some fun s => s.commitDone env cfg result
  | .openRead, .openReadDone threw => some fun s => s.openReadDone env cfg threw
  | .verify, .verifyDone dkim dmarc spf => some fun s => s.verifyDone dkim dmarc spf
  | .submit, .submitDone accepted => some fun s => s.submitDone env cfg accepted
  | .persist, .persistDone outcome => some fun s => s.persistDone outcome
  | _, _ => none

/-- The pending operation is answered: its continuation runs with nothing pending any more. -/
def answer (p : Pending) (i : Input) : Session :=
  match continuation env cfg p i with
  | none => s
  | some f => f { s with pending := none }

/-- An answer goes to the pending operation. -/
def answerPending (i : Input) : Session :=
  match s.pending with
  | none => s
  | some p => s.answer env cfg p i

def idle : Bool := s.io.loops.isEmpty

def step (i : ServerConfig × Input) : Session :=
  match i.2 with
  | .readDone data =>
    if s.idle && s.io.readInProgress then { s with io := s.io.readDone data } else s
  | .writeDone index ok => if s.idle then { s with io := s.io.writeDone index ok } else s
  | .runTask => if s.idle then { s with io := s.io.runTask } else s
  | .consume o => s.consume env i.1 o
  | .loopEnd => { s with io := s.io.loopEnd }
  | .close => { s with io := s.io.close }
  | input =>
    match s.pending with
    | none => s
    | some p => s.answer env i.1 p input

/-! ## Beginnings -/

variable (listener : ListenerConfig)

def fresh : Session :=
  { io := { state := .init }, ctx := { listenerConfig := listener } }

/-- `start`, once the handshake of a TLS connection is done: the banner. -/
def start : Session :=
  dispatch env cfg {} (fresh listener) .connect

/-- `start_after_starttls`, once the handshake is done: the client speaks first. -/
def startAfterStarttls : Session :=
  let s := fresh listener
  { s with io := { s.io with state := .waitEhlo }.doAsyncRead, nextEvent := .empty }

/-- The ways a session of this kind of connection begins. -/
def IsStart : Prop :=
  (∃ cfg listener, s = start env cfg listener) ∨
    (env.isTls = true ∧ ∃ listener, s = startAfterStarttls listener)

/-! ## Exchanges

The schedules of the examples below: what the client sends is received and handled, and everything
outstanding is done before the next segment arrives. -/

/-- The loops over the input end, and executor and network do what is outstanding. -/
def quiesce : List Input :=
  .loopEnd :: List.replicate 6 .runTask ++
    [.loopEnd, .runTask, .runTask, .runTask, .writeDone 0 true, .runTask, .writeDone 0 true,
      .runTask]

/-- A segment arrives and its first unit is handled. -/
def exchange (segment : Bytes) : List Input :=
  [.readDone (some segment), .consume o] ++ quiesce

end Session

end ProtoRelay
