import ProtoRelay.Framework.SessionBase

/-!
# The protocol state-machine engine

`pr::fsm::Engine` drives a session by a description (`pr::fsm::Desc`): a guard table that says which
event is legal in which state, the terminal states and the texts of the engine's own replies.  The
engine never takes a transition from the table.  Handlers write the next state through a few
sanctioned points, embedded here on the transport half of a session:

* `apply` settles at once: state, unpause, reply, drain the buffered input, re-arm the read;
* `applyClosing` only sets the state and unpauses;
* `replyThenSettle` replies, sets the state and re-arms the read without draining;
* `beginTransition` pauses, and `finish` / `finishClosing` post the settling to the executor.

Draining is a loop over the buffered input that dispatches commands; it is represented by the loop
it enters (`Loop.drain`), and `settleExit` is what runs after it.
-/

namespace ProtoRelay

/-! ## Descriptions -/

/-- A row of the guard table; a missing target is a self loop. -/
structure GuardRow (St Ev : Type) where
  source : St
  on : Ev
  target : Option St

/-- `pr::fsm::Desc`, the parts the engine's decisions read. -/
structure Desc (St Ev : Type) where
  guards : List (GuardRow St Ev)
  terminals : List St
  /-- `error_policy.reply`; the error budget of the descriptions in use is zero, so it is never
  counted -/
  errorReply : Bytes
  internalErrorReply : Bytes

namespace Desc

variable {St Ev : Type} [DecidableEq St] [DecidableEq Ev]

/-- `guard_target`: the target of the first row for the state and the event. -/
def guardTarget (d : Desc St Ev) (source : St) (on : Ev) : Option (Option St) :=
  (d.guards.find? fun row => row.source = source ∧ row.on = on).map (·.target)

def isTerminal (d : Desc St Ev) (s : St) : Bool := d.terminals.contains s

end Desc

/-! ## Write points -/

namespace SessionBase

variable {St ε : Type} [LineProtocol St] (s : SessionBase St ε)

/-- `write_reply`: the text, with a line end if it has none. -/
def writeReply (text : Bytes) : SessionBase St ε :=
  if s.closed || text.isEmpty then s
  else if text.getLast? = some 10 then s.doAsyncWrite text none
  else s.doAsyncWrite (text ++ [13, 10]) none

/-- `settle` up to the drain: state, unpause, reply. -/
def settleEnter (target : Option St) (reply : Option Bytes) : SessionBase St ε :=
  let s := { s with state := target.getD s.state, paused := false }
  match reply with
  | some text => s.writeReply text
  | none => s

/-- What follows the drain loop in `settle`: replies still held back are flushed by an empty write,
and the read is re-armed. -/
def settleExit : SessionBase St ε :=
  let s :=
    if !s.paused && !s.closed && !s.hasBufferedInput && !s.pendingWriteBuf.isEmpty then
      s.doAsyncWrite [] none
    else s
  if s.paused then s else s.doAsyncRead

/-- `settle`, with the reports that come with it. -/
def settle (target : Option St) (reply : Option Bytes) (report : List ε) : SessionBase St ε :=
  if s.closed then s
  else
    let s := (s.settleEnter target reply).reports report
    { s with loops := .drain :: s.loops }

def apply (target : St) (reply : Option Bytes) (report : List ε) : SessionBase St ε :=
  s.settle (some target) reply report

def settleClosing (target : Option St) : SessionBase St ε :=
  if s.closed then s else { s with state := target.getD s.state, paused := false }

def applyClosing (target : St) : SessionBase St ε :=
  s.settleClosing (some target)

/-- `reply_then_settle`, with the reports that come with the reply. -/
def replyThenSettle (text : Bytes) (target : St) (report : List ε) : SessionBase St ε :=
  if s.closed then s
  else
    let s := s.writeReply text
    let s := { s with paused := false, state := target }
    (s.reports report).doAsyncRead

/-- `begin_transition`: consumption of input stops here. -/
def beginTransition : SessionBase St ε := { s with paused := true }

/-- `Transition::finish`: settle on the executor, unless the session is closed by then. -/
def finish (target : St) (reply : Bytes) (report : List ε) : SessionBase St ε :=
  if s.closed then s else s.postTransition (.settle (some target) (some reply) report)

def finishClosing (target : St) : SessionBase St ε :=
  if s.closed then s else s.postTransition (.settleClosing (some target))

/-- The connection executor runs its first task. -/
def runTask : SessionBase St ε :=
  match s.posted with
  | [] => s
  | t :: ts =>
    let s := { s with posted := ts }
    match t with
    | .startRead => s.startRead
    | .startWrite payload callback => s.startWrite payload callback
    | .flush payload => s.flush payload
    | .closeSocket => s
    | .close => s.close
    | .settle target reply report => s.settle target reply report
    | .settleClosing target => s.settleClosing target

/-- The innermost input loop stops: its condition is false.  The loop of a completed read re-arms
the read only if nothing was dispatched. -/
def loopEnd : SessionBase St ε :=
  match s.loops with
  | [] => s
  | l :: ls =>
    if s.canConsume then s
    else
      let s := { s with loops := ls }
      match l with
      | .read dispatched => if !dispatched && !s.paused && !s.closed then s.doAsyncRead else s
      | .drain => s.settleExit

/-- The innermost input loop takes the next unit of input, if it may. -/
def takeLine : Option (Bytes × SessionBase St ε) :=
  match s.loops with
  | [] => none
  | l :: ls =>
    if s.canConsume then
      let r := LineProtocol.extractOneLine s.state s.commandReadBuffer
      let l := match l with | .read _ => Loop.read true | .drain => .drain
      some (r.1, { s with commandReadBuffer := r.2, loops := l :: ls })
    else none

end SessionBase

end ProtoRelay
