import ProtoRelay.Base.Bytes

/-!
# The transport half of a session

`pr::SessionBase` owns the connection of a session, its input buffer and the replies it has not
written yet.  All operations on the connection are posted to the connection's executor and run there
in order; the asynchronous reads and writes they start complete later.  This module embeds that
class.  Everything the class leaves to the network is an explicit part of the state: the tasks
posted and not yet run, the writes started and not yet completed, whether a read is outstanding, and
the loops that are consuming buffered input right now (they nest, since a command handler may drain
the buffer itself).

The session's own `log` records, newest first, what happened on the connection and what the protocol
on top reports about itself.  It is a history variable: no function reads it.
-/

namespace ProtoRelay

/-- The two virtual functions by which a protocol tells the transport how its input is framed; both
depend on the protocol state. -/
class LineProtocol (St : Type) where
  /-- `has_buffered_input`: the buffer holds a unit the protocol can process. -/
  hasBufferedInput : St → Bytes → Bool
  /-- `extract_one_line`: the next unit and the rest of the buffer. -/
  extractOneLine : St → Bytes → Bytes × Bytes

/-- The callbacks that handlers pass to `do_async_write`.  A write without callback re-arms the
read. -/
inductive WriteCallback
  /-- `s->close()` -/
  | close
  /-- `server->handoff_starttls(self->release_connection(), …)` -/
  | handoff
  deriving DecidableEq

/-- Work posted to the connection executor.  The last two are posted by the engine when an
asynchronous transition completes; `ε` is what the protocol reports. -/
inductive Task (St ε : Type)
  | startRead
  | startWrite (payload : Bytes) (callback : Option WriteCallback)
  | flush (payload : Bytes)
  | closeSocket
  | close
  | settle (target : Option St) (reply : Option Bytes) (report : List ε)
  | settleClosing (target : Option St)

/-- The loops that consume buffered input: the one in the completion of a read, which remembers
whether it has dispatched anything, and `drain_buffered_commands`. -/
inductive Loop
  | read (dispatched : Bool)
  | drain
  deriving DecidableEq

/-- What is recorded about a session. -/
inductive Effect (ε : Type)
  /-- `async_read` was started on the connection -/
  | readStarted
  /-- the outstanding read delivered `data` to this session -/
  | received (data : Bytes)
  /-- `async_write` of `payload` was started on the connection -/
  | wrote (payload : Bytes)
  /-- the connection was given away -/
  | released
  /-- a report of the protocol -/
  | report (e : ε)

/-- The state of `pr::SessionBase`, with the protocol state its virtual functions depend on. -/
structure SessionBase (St ε : Type) where
  commandReadBuffer : Bytes := []
  pendingWriteBuf : Bytes := []
  paused : Bool := false
  closed : Bool := false
  /-- `connection_` is not null -/
  hasConnection : Bool := true
  /-- a null `connection_` was dereferenced: the process has ended, and what follows is not a
  run of it -/
  crashed : Bool := false
  readInProgress : Bool := false
  /-- the input loops that are running, innermost first -/
  loops : List Loop := []
  /-- tasks posted to the connection executor, in order -/
  posted : List (Task St ε) := []
  /-- writes started on the connection and not completed -/
  writes : List (Option WriteCallback) := []
  state : St
  log : List (Effect ε) := []

namespace SessionBase

variable {St ε : Type}

def maxCommandBufferBytes : Nat := 16 * 1024 * 1024

def post (s : SessionBase St ε) (t : Task St ε) : SessionBase St ε :=
  { s with posted := s.posted ++ [t] }

/-- `Transition::post`, on the executor of the connection, which is taken to be there. -/
def postTransition (s : SessionBase St ε) (t : Task St ε) : SessionBase St ε :=
  { s with crashed := s.crashed || !s.hasConnection }.post t

def record (s : SessionBase St ε) (e : Effect ε) : SessionBase St ε := { s with log := e :: s.log }

/-- Record the protocol's own reports, the first of the list first. -/
def reports (s : SessionBase St ε) (es : List ε) : SessionBase St ε :=
  { s with log := es.reverse.map .report ++ s.log }

/-- `close()`: the first call marks the session closed, flushes the replies held back and closes the
socket, both through the executor. -/
def close (s : SessionBase St ε) : SessionBase St ε :=
  if s.closed then s
  else
    let s := { s with closed := true }
    if s.hasConnection then
      if s.pendingWriteBuf.isEmpty then s.post .closeSocket
      else
        { s with pendingWriteBuf := [] }.post (.flush s.pendingWriteBuf) |>.post .closeSocket
    else s

def closeAfterFlush (s : SessionBase St ε) : SessionBase St ε :=
  if s.closed then s
  else if s.hasConnection then s.post .close
  else s.close

/-- `release_connection()`: the connection moves out, `connection_` is null from here on. -/
def releaseConnection (s : SessionBase St ε) : SessionBase St ε :=
  if s.hasConnection then { s with hasConnection := false }.record .released else s

def runCallback (s : SessionBase St ε) : WriteCallback → SessionBase St ε
  | .close => s.close
  | .handoff => s.releaseConnection

section

variable [LineProtocol St] (s : SessionBase St ε)

def hasBufferedInput : Bool :=
  LineProtocol.hasBufferedInput s.state s.commandReadBuffer

def doAsyncRead : SessionBase St ε :=
  if s.closed || !s.hasConnection then s
  else if s.hasBufferedInput then s
  else s.post .startRead

/-- `do_async_write(data, callback)`: with more input buffered the data is held back and the
callback runs at once; otherwise everything held back is posted together with the data. -/
def doAsyncWrite (data : Bytes) (callback : Option WriteCallback) : SessionBase St ε :=
  if s.closed || !s.hasConnection then s
  else if s.hasBufferedInput then
    let s := { s with pendingWriteBuf := s.pendingWriteBuf ++ data }
    match callback with
    | some cb => s.runCallback cb
    | none => s
  else
    { s with pendingWriteBuf := [] }.post (.startWrite (s.pendingWriteBuf ++ data) callback)

/-- The task posted by `do_async_read`. -/
def startRead : SessionBase St ε :=
  if s.closed || !s.hasConnection then s
  else if s.hasBufferedInput then s
  else if s.readInProgress then s
  else { s with readInProgress := true }.record .readStarted

/-- The task posted by `do_async_write`. -/
def startWrite (payload : Bytes) (callback : Option WriteCallback) : SessionBase St ε :=
  if s.closed || !s.hasConnection then s
  else { s with writes := s.writes ++ [callback] }.record (.wrote payload)

/-- The flush posted by `close`. -/
def flush (payload : Bytes) : SessionBase St ε :=
  if s.hasConnection then s.record (.wrote payload) else s

/-- The outstanding read completes with `data`, up to the loop over the buffered input, which is
entered.  `none` is an error, also the one the watchdog provokes by cancelling the read. -/
def readDone (data : Option Bytes) : SessionBase St ε :=
  let s := { s with readInProgress := false }
  if s.closed then s
  else
    match data with
    | none => s.close
    | some [] => s.doAsyncRead
    | some data =>
      let s := { s with commandReadBuffer := s.commandReadBuffer ++ data }.record (.received data)
      if maxCommandBufferBytes < s.commandReadBuffer.length then s.close
      else { s with loops := .read false :: s.loops }

/-- The `i`-th write in flight completes. -/
def writeDone (i : Nat) (ok : Bool) : SessionBase St ε :=
  match s.writes[i]? with
  | none => s
  | some callback =>
    let s := { s with writes := s.writes.eraseIdx i }
    if s.closed then s
    else if !ok then s.close
    else
      match callback with
      | some cb => s.runCallback cb
      | none => s.doAsyncRead

/-- The input loop goes on: `has_buffered_input() && !paused_`. -/
def canConsume : Bool := s.hasBufferedInput && !s.paused

end

end SessionBase

end ProtoRelay
