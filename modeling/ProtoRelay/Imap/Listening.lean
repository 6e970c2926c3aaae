import ProtoRelay.Framework.Listening
import ProtoRelay.Imap.Machine

/-!
# An IMAP session that goes deaf

A command is answered, and the completion of the answer starts the next read.  So a session goes on
listening as long as every unit of input it takes is answered, starts a read itself, or pauses the
session until a query has been answered.  Every branch of `handle_read` and every handler does one
of these, with one exception: while a client is in IDLE, a line that is neither empty nor DONE is
dropped.  If it was the last complete line of its read, nothing ever reads again, and the DONE that
follows is not received.

Here the handlers of the later states are followed as far as the transport goes: what they send,
when they pause the session and when they drain its buffer.  Which of their branches is taken
depends on the arguments, on the database and on the caches, and is a choice of the run.
-/

namespace ProtoRelay

open List SessionBase ImapSession

/-! ## Handlers of the later states -/

/-- What a handler of the later states does on the transport. -/
inductive HandlerWay
  /-- `send_tagged` -/
  | reply
  /-- `set_paused(true)`, and a query is started -/
  | query
  /-- `begin_transition`, and the message is stored -/
  | transition
  /-- the answer to FETCH, from the cached list and without reading a message -/
  | fetched
  /-- `send_tagged` and `drain_buffered_commands` -/
  | replyDrained
  /-- an exception, which the engine answers -/
  | throws
  deriving DecidableEq

/-- What the handlers that look at arguments, caches or the database may do. -/
def waysOf : ImapState → ImapEvent → List HandlerWay
  | .authenticated, .select => [.reply, .query]
  | .authenticated, .examine => [.reply, .query]
  | .authenticated, .list => [.reply, .query]
  | .authenticated, .lsub => [.reply, .query]
  | .authenticated, .imapStatus => [.reply, .query]
  | .authenticated, .create => [.reply, .query]
  | .authenticated, .delete => [.reply, .query]
  | .authenticated, .rename => [.reply, .query]
  | .selected, .fetch => [.reply, .query, .fetched, .replyDrained]
  | .selected, .store => [.reply, .query]
  | .selected, .search => [.reply, .query]
  | .selected, .copy => [.reply, .query]
  | .selected, .move => [.reply, .query]
  | .selected, .uid => [.reply, .query]
  | .selected, .expunge => [.reply, .query]
  | .selected, .select => [.reply, .query]
  | .selected, .examine => [.reply, .query]
  | .selected, .close => [.reply, .query]
  | .selected, .imapStatus => [.reply, .query]
  | .selected, .noop => [.reply, .query]
  | _, .append => [.reply, .transition]
  | _, _ => [.reply]

/-- How the chain of queries of a command goes on. -/
inductive QueryAnswer
  /-- the state is set (SELECT, EXAMINE, CLOSE), the answer sent, the buffer drained -/
  | reply (text : Bytes) (target : Option ImapState)
  /-- the handler that UID calls refuses its arguments -/
  | refused (text : Bytes)
  /-- the answer to FETCH -/
  | fetched (text : Bytes)
  /-- FETCH reads a message -/
  | more

namespace ImapSession

variable (s : ImapSession)

/-- An answer of a handler; its callback re-arms the read, as a write without callback does. -/
def answer (text : Bytes) : ImapSession :=
  { s with io := s.io.doAsyncWrite (text ++ bytes "\r\n") none }

/-- `handle_idle`; the callback of its write re-arms the read. -/
def handleIdle : ImapSession :=
  { s with
    ctx := { s.ctx with idleMode := true }
    io := s.io.doAsyncWrite (bytes "+ idling\r\n") none }

def handleDone : ImapSession :=
  { s with ctx := { s.ctx with idleMode := false } }.sendTagged s.ctx.currentTag (bytes "OK")
    (bytes "IDLE terminated")

/-- The line is dropped. -/
def Drops (data : Bytes) : Prop :=
  s.io.state.awaitingLiteral = false ∧ s.ctx.idleMode = true ∧ lineOf data ≠ [] ∧
    toUpper (lineOf data) ≠ bytes "DONE"

end ImapSession

/-! ## The machine -/

/-- The loops over the input: that of a completed read, that of a settled transition, and
`drain_buffered_commands` where a handler calls it, which starts no read. -/
inductive ServingLoop
  | read (dispatched : Bool)
  | settle
  | drain

namespace ServingLoop

def ofLoop : Loop → ServingLoop
  | .read dispatched => .read dispatched
  | .drain => .settle

def taking : ServingLoop → ServingLoop
  | .read _ => .read true
  | l => l

def rearms : ServingLoop → Bool
  | .read dispatched => !dispatched
  | .settle => true
  | .drain => false

end ServingLoop

/-- A session with its loops, and what its handlers have started. -/
structure ImapServing where
  session : ImapSession
  /-- innermost first -/
  loops : List ServingLoop := []
  /-- a query is under way, or FETCH reads a message -/
  querying : Bool := false
  /-- APPEND stores a message; the state it was started in -/
  appending : Option ImapState := none
  /-- the answers to FETCH that are posted -/
  fetchesPosted : List Bytes := []
  /-- how many of them are being written -/
  fetchesWriting : Nat := 0

/-- What happens to a session. -/
inductive ServingInput
  | readDone (data : Option Bytes)
  | writeDone (index : Nat) (ok : Bool)
  | runTask
  /-- the innermost loop takes a unit of input; a handler of the later states goes this way, with
  this text -/
  | consume (way : HandlerWay) (text : Bytes)
  | loopEnd
  | close
  | authDone (ok : Bool) (userId shard : Nat)
  | queryDone (answer : QueryAnswer)
  | appendDone (ok : Bool) (reply : Bytes)
  /-- EXISTS for a client in IDLE -/
  | push (text : Bytes)
  | fetchStart
  | fetchDone (ok : Bool)

namespace ImapServing

variable (env : ImapEnv) (cfg : ServerConfig) (st : ImapServing)

/-- The session after an operation; the loops it has entered are run. -/
def put (s : ImapSession) : ImapServing :=
  { st with
    session := { s with io := { s.io with loops := [] } }
    loops := s.io.loops.map ServingLoop.ofLoop ++ st.loops }

def putIo (io : SessionBase ImapFraming ImapReport) : ImapServing := st.put { st.session with io }

/-- `drain_buffered_commands`, up to its loop. -/
def drainBufferedCommands : ImapServing :=
  { st with
    session := { st.session with io := { st.session.io with paused := false } }
    loops := .drain :: st.loops }

/-- `fetch_finalize`: the callback of this write drains the buffer and re-arms the read. -/
def fetchFinalize (text : Bytes) : ImapServing :=
  let io := st.session.io
  let text := io.pendingWriteBuf ++ text ++ bytes "\r\n"
  if io.closed || !io.hasConnection then st
  else if io.hasBufferedInput then
    { st with
      session := { st.session with io := { io with pendingWriteBuf := text, paused := false } }
      loops := .settle :: st.loops }
  else
    { st with
      session := { st.session with io := { io with pendingWriteBuf := [] } }
      fetchesPosted := st.fetchesPosted ++ [text] }

/-- A handler of the later states. -/
def handle (event : ImapEvent) (way : HandlerWay) (text : Bytes) : ImapServing :=
  let s := st.session
  match event with
  | .capability => st.put (s.handleCapability env)
  | .idle => st.put s.handleIdle
  | .done => st.put s.handleDone
  | .logout => st.put s.handleLogout
  | .timeout => st.put s.handleTimeout
  | event =>
    -- a branch the handler does not have is replaced by a refusal
    match if way ∈ .throws :: waysOf s.io.state.state event then way else .reply with
    | .reply => st.put (s.answer text)
    | .query => { st.putIo { s.io with paused := true } with querying := true }
    | .transition => { st.putIo s.io.beginTransition with appending := some s.io.state.state }
    | .fetched => st.fetchFinalize text
    | .replyDrained => (st.put (s.answer text)).drainBufferedCommands
    | .throws => st.putIo (s.io.writeReply (s.ctx.currentTag ++ bytes " NO Internal server error"))

/-- `process_event` and `dispatch` of the engine. -/
def processEvent (event : ImapEvent) (tag : Bytes) (way : HandlerWay) (text : Bytes) :
    ImapServing :=
  let s := st.session
  if s.io.closed = false ∧ (s.io.state.state = .authenticated ∨ s.io.state.state = .selected) then
    let s := { s with
      ctx := { s.ctx with currentTag := tag }
      io := s.io.reports [.dispatched event tag s.lastCommandArgs] }
    match (makeImapsDesc (!env.isTls)).guardTarget s.io.state.state event with
    | none => st.put { s with io := s.io.writeReply (tag ++ bytes " BAD Invalid command sequence") }
    | some _ => { st with session := s }.handle env event way text
  else st.put (s.processEvent env cfg s event tag)

def processRead (way : HandlerWay) (text : Bytes) : ImapServing :=
  let s := st.session
  if !s.commandParsed then st
  else
    let st := { st with session := { s with commandParsed := false, idleDoneReceived := false } }
    if s.idleDoneReceived then st.processEvent env cfg .done s.ctx.currentTag way text
    else st.processEvent env cfg s.nextEvent s.currentTag way text

/-- The next unit of input and the session without it, if a loop is running that may take it. -/
def takeLine : Option (Bytes × ImapServing) :=
  match st.loops with
  | [] => none
  | l :: ls =>
    let io := st.session.io
    if io.canConsume then
      let unit := LineProtocol.extractOneLine io.state io.commandReadBuffer
      some (unit.1, { st with
          session := { st.session with io := { io with commandReadBuffer := unit.2 } }
          loops := l.taking :: ls })
    else none

/-- The body of the loops. -/
def consume (way : HandlerWay) (text : Bytes) : ImapServing :=
  match st.takeLine with
  | none => st
  | some (line, st) => (st.put (st.session.handleRead line)).processRead env cfg way text

def loopEnd : ImapServing :=
  match st.loops with
  | [] => st
  | l :: ls =>
    let io := st.session.io
    if io.canConsume then st
    else
      let st := { st with loops := ls }
      match l with
      | .read dispatched =>
        if !dispatched && !io.paused && !io.closed then st.putIo io.doAsyncRead else st
      | .settle => st.putIo io.settleExit
      | .drain =>
        if !io.paused && !io.closed && !io.hasBufferedInput && !io.pendingWriteBuf.isEmpty then
          st.putIo (io.doAsyncWrite [] none)
        else st

/-- The queries of a command are answered, or FETCH goes on. -/
def queryDone : QueryAnswer → ImapServing
  | .reply text target =>
    let io := st.session.io
    let state := { io.state with state := target.getD io.state.state }
    ({ st with querying := false }.put
      ({ st.session with io := { io with state } }.answer text)).drainBufferedCommands
  | .refused text => { st with querying := false }.put (st.session.answer text)
  | .fetched text => { st with querying := false }.fetchFinalize text
  | .more => st.putIo { st.session.io with paused := true }

def appendDone (entry : ImapState) (ok : Bool) (reply : Bytes) : ImapServing :=
  let io := st.session.io
  let st := { st with appending := none }
  if io.closed then st
  else st.putIo (io.post (.settle (if ok then some ⟨entry, false⟩ else none) (some reply) []))

/-- The write of an answer to FETCH is started. -/
def fetchStart : ImapServing :=
  match st.fetchesPosted with
  | [] => st
  | text :: rest =>
    let io := st.session.io
    let st := { st with fetchesPosted := rest }
    if io.closed || !io.hasConnection then st
    else { st.putIo (io.record (.wrote text)) with fetchesWriting := st.fetchesWriting + 1 }

def fetchDone (ok : Bool) : ImapServing :=
  if st.fetchesWriting = 0 then st
  else
    let io := st.session.io
    let st := { st with fetchesWriting := st.fetchesWriting - 1 }
    if io.closed then st
    else if !ok then st.putIo io.close
    else st.putIo (io.settle none none [])

end ImapServing

def servingStep (env : ImapEnv) (st : ImapServing) (i : ServerConfig × ServingInput) :
    ImapServing :=
  let io := st.session.io
  match i.2 with
  | .readDone data =>
    if st.loops = [] ∧ io.readInProgress = true then st.putIo (io.readDone data) else st
  | .writeDone index ok => if st.loops = [] then st.putIo (io.writeDone index ok) else st
  | .runTask => if st.loops = [] then st.putIo io.runTask else st
  | .consume way text => st.consume env i.1 way text
  | .loopEnd => st.loopEnd
  | .close => st.putIo io.close
  | .authDone ok userId shard =>
    match st.session.pending with
    | none => st
    | some check => st.put ({ st.session with pending := none }.authDone i.1 check ok userId shard)
  | .queryDone answer =>
    if st.querying = false then st
    else if io.closed then { st with querying := false }
    else st.queryDone answer
  | .appendDone ok reply =>
    match st.appending with
    | none => st
    | some entry => st.appendDone entry ok reply
  | .push text =>
    if st.loops = [] ∧ io.closed = false ∧ st.session.ctx.idleMode = true then
      st.put (st.session.answer text)
    else st
  | .fetchStart => if st.loops = [] then st.fetchStart else st
  | .fetchDone ok => if st.loops = [] then st.fetchDone ok else st

/-- A session at its beginning: with the banner, or after STARTTLS. -/
def ImapServing.start (env : ImapEnv) (cfg : ServerConfig) (afterStarttls : Bool) : ImapServing :=
  ImapServing.put { session := .fresh } (if afterStarttls then .startAfterStarttls
    else .start env cfg)

/-! ## The property -/

namespace ImapServing

/-- Nothing is under way in an open session: it is not paused, no write is in flight, no task is
posted, no loop is running, and there is no complete input. -/
structure Rests (st : ImapServing) : Prop where
  isOpen : st.session.io.closed = false
  connected : st.session.io.hasConnection = true
  unpaused : st.session.io.paused = false
  writes : st.session.io.writes = []
  posted : st.session.io.posted = []
  fetchesPosted : st.fetchesPosted = []
  fetchesWriting : st.fetchesWriting = 0
  loops : st.loops = []
  unbuffered : st.session.io.hasBufferedInput = false

/-- **The session listens**, or has no reason to.  While `drain_buffered_commands` is running,
replies that are held back will be written. -/
inductive Listens (st : ImapServing) : Prop
  | transport (h : st.session.io.Listens)
  | fetchPosted (h : st.fetchesPosted ≠ [])
  | fetchWriting (h : st.fetchesWriting ≠ 0)
  | looping {l : ServingLoop} (hmem : l ∈ st.loops) (h : l.rearms = true)
  | draining (hmem : .drain ∈ st.loops) (h : st.session.io.pendingWriteBuf ≠ [])

end ImapServing

/-- **The steps that keep a session listening**: a line that is dropped is not what it was
waiting for. -/
def KeepsListening (st : ImapServing) (i : ServerConfig × ServingInput) : Prop :=
  match i.2 with
  | .consume _ _ => ∀ line st', st.takeLine = some (line, st') → st'.session.Drops line →
    st'.Listens
  | _ => True

/-! ## Handlers up to the login -/

namespace ImapSession

/-- Every task of the session leads somewhere, and nothing is to be dispatched. -/
structure Ready (s : ImapSession) : Prop where
  tasks : s.io.TasksLead
  parsed : s.commandParsed = false

/-- The session listens, and nothing is to be dispatched. -/
structure Attentive (s : ImapSession) : Prop where
  io : s.io.Attentive
  parsed : s.commandParsed = false

variable {s : ImapSession} (env : ImapEnv) (cfg : ServerConfig)

section

variable (h : s.Ready)

include h

theorem Ready.sendTagged (tag status message : Bytes) :
    (s.sendTagged tag status message).Attentive :=
  ⟨attentive_doAsyncWrite h.tasks _ none, h.parsed⟩

theorem Ready.answer (text : Bytes) : (s.answer text).Attentive :=
  ⟨attentive_doAsyncWrite h.tasks _ none, h.parsed⟩

theorem Ready.startAuthVerify (username okText failText : Bytes) :
    (s.startAuthVerify env cfg username okText failText).Attentive := by
  unfold ImapSession.startAuthVerify
  dsimp only
  split
  · exact h.sendTagged _ _ _
  · exact ⟨⟨.paused rfl, h.tasks⟩, h.parsed⟩

theorem Ready.verifySaslPlain (response : Bytes) :
    (s.verifySaslPlain env cfg response).Attentive := by
  unfold ImapSession.verifySaslPlain
  split
  · exact h.sendTagged _ _ _
  · exact h.startAuthVerify env cfg _ _ _

/-- The context is not looked at. -/
theorem Ready.withContext (ctx : ImapContext) : ({ s with ctx } : ImapSession).Ready :=
  { h with }

theorem Ready.handleAuthenticate : (s.handleAuthenticate env cfg).Attentive := by
  unfold ImapSession.handleAuthenticate
  split
  · have hnone := h.withContext { s.ctx with saslPlainState := .none, saslPlainResponse := [] }
    dsimp only
    split
    · exact hnone.sendTagged _ _ _
    · exact hnone.verifySaslPlain env cfg _
  · have hmech (mechanism initial : Bytes) : (if mechanism ≠ bytes "PLAIN" then
          s.sendTagged s.ctx.currentTag (bytes "NO")
            (bytes "Unsupported authentication mechanism: " ++ mechanism)
        else if initial ≠ [] then s.verifySaslPlain env cfg initial
        else
          { s with
            ctx := { s.ctx with saslPlainState := .awaiting, saslPlainResponse := [] }
            io := s.io.doAsyncWrite (bytes "+ \r\n") none }).Attentive := by
      split
      · exact h.sendTagged _ _ _
      · split
        · exact h.verifySaslPlain env cfg _
        · exact ⟨attentive_doAsyncWrite h.tasks _ none, h.parsed⟩
    dsimp only
    cases findByte 32 s.lastCommandArgs with
    | none | some => exact hmech _ _

theorem Ready.handleInitConnect : s.handleInitConnect.Attentive := by
  refine ⟨attentive_settleExit (tasksLead_settleEnter ?_ _ none), h.parsed⟩
  exact (attentive_doAsyncWrite h.tasks _ none).tasks

theorem Ready.handleLogout : s.handleLogout.Attentive := by
  refine ⟨attentive_doAsyncWrite ?_ _ (some .close), h.parsed⟩
  unfold applyClosing settleClosing
  split
  · exact h.tasks
  · exact h.tasks

theorem Ready.writeReply (tag : Bytes) {text : Bytes} (hne : text ≠ []) :
    ({ s with io := s.io.writeReply (tag ++ text) } : ImapSession).Attentive :=
  ⟨attentive_writeReply h.tasks (append_ne_nil_of_right_ne_nil _ hne), h.parsed⟩

/-- A handler answers, pauses the session or closes it, unless it throws. -/
theorem Ready.handlerFor {after : ImapSession} {state : ImapState} {event : ImapEvent}
    {handler : ImapSession → Except ImapSession ImapSession}
    (hhdl : handlerFor env cfg after state event = some handler)
    (hst : state ≠ .authenticated ∧ state ≠ .selected) :
    (∃ t, handler s = .ok t ∧ t.Attentive) ∨ ∃ t, handler s = .error t ∧ t.Ready := by
  unfold ImapSession.handlerFor at hhdl
  split at hhdl
  · cases hhdl
    exact .inl ⟨_, rfl, h.handleInitConnect⟩
  · cases hhdl
    exact .inl ⟨_, rfl, attentive_doAsyncWrite h.tasks _ none, h.parsed⟩
  · split at hhdl
    · cases hhdl
    · cases hhdl
      exact .inl ⟨_, rfl, attentive_doAsyncWrite h.tasks _ (some .handoff), h.parsed⟩
  · cases hhdl
    cases husername : loginUsername s.lastCommandArgs with
    | none => exact .inr ⟨s, by simp only [handleLogin, husername], h⟩
    | some username =>
      refine .inl ⟨s.startAuthVerify env cfg username (bytes "LOGIN completed")
        (bytes "LOGIN failed"),
        ?_, h.startAuthVerify env cfg _ _ _⟩
      simp only [handleLogin, husername]
  · cases hhdl
    exact .inl ⟨_, rfl, h.handleAuthenticate env cfg⟩
  · cases hhdl
    exact .inl ⟨_, rfl, h.sendTagged _ _ _⟩
  · cases hhdl
    exact .inl ⟨_, rfl, h.handleLogout⟩
  · cases hhdl
    exact .inl ⟨_, rfl, h.sendTagged _ _ _⟩
  · cases hhdl
    exact .inl ⟨_, rfl, attentive_doAsyncWrite h.tasks _ (some .close), h.parsed⟩
  · exact absurd rfl hst.1
  · exact absurd rfl hst.2
  · cases hhdl

/-- **A command before the login.** -/
theorem Ready.processEvent (hst : ¬(s.io.closed = false ∧
      (s.io.state.state = .authenticated ∨ s.io.state.state = .selected))) (after : ImapSession)
    (event : ImapEvent) (tag : Bytes) : (s.processEvent env cfg after event tag).Attentive := by
  unfold ImapSession.processEvent
  dsimp only
  split
  · next hcl => exact ⟨⟨.closed hcl, h.tasks⟩, h.parsed⟩
  · next hcl =>
    have hearly : s.io.state.state ≠ .authenticated ∧ s.io.state.state ≠ .selected :=
      not_or.mp fun hlate => hst ⟨eq_false_of_ne_true hcl, hlate⟩
    -- from here on the session has the tag and the report of the dispatch
    have hrep : ({ s with
        ctx := { s.ctx with currentTag := tag }
        io := s.io.reports [.dispatched event tag s.lastCommandArgs] } : ImapSession).Ready :=
      { h with }
    split
    · exact ⟨attentive_close h.tasks, h.parsed⟩
    · split
      · exact hrep.writeReply tag (by decide)
      · split
        · exact hrep.writeReply tag (by decide)
        · next handler hhdl =>
          rcases hrep.handlerFor env cfg hhdl hearly with ⟨t, ht, hattentive⟩ | ⟨t, ht, hr⟩
          · rw [ht]
            exact hattentive
          · rw [ht]
            exact hr.writeReply tag (by decide)

theorem Ready.authDone (check : AuthCheck) (ok : Bool) (userId shard : Nat) :
    (s.authDone cfg check ok userId shard).Attentive := by
  unfold ImapSession.authDone
  split
  · next hcl => exact ⟨⟨.closed hcl, h.tasks⟩, h.parsed⟩
  · split
    · exact ⟨attentive_finish h.tasks _ _ [], h.parsed⟩
    · dsimp only
      split
      · exact ⟨attentive_closeAfterFlush h.tasks, h.parsed⟩
      · exact ⟨attentive_finish h.tasks _ _ [], h.parsed⟩

end

/-! ## Reading -/

/-- A unit of input has been read: it is to be dispatched, or the session listens. -/
inductive Taken (s : ImapSession) : Prop
  | parsed (h : s.commandParsed = true) (htasks : s.io.TasksLead)
  | listens (h : s.Attentive)

theorem Ready.readLiteral (h : s.Ready) (data : Bytes) : (s.readLiteral data).Taken := by
  unfold ImapSession.readLiteral
  dsimp only
  split
  · exact .parsed rfl h.tasks
  · exact .listens ⟨attentive_doAsyncRead h.tasks, h.parsed⟩

theorem Ready.beginLiteral (h : s.Ready) (size : Nat) (text : Bytes) :
    (s.beginLiteral size text).Taken := by
  unfold ImapSession.beginLiteral
  dsimp only
  split
  · exact .parsed rfl h.tasks
  · refine .listens ⟨attentive_doAsyncWrite ?_ _ none, h.parsed⟩
    exact h.tasks

/-- **Reading a unit of input**, which is dropped or taken. -/
theorem Ready.handleRead (h : s.Ready) (data : Bytes) :
    s.Drops data ∧ s.handleRead data = s ∨ ¬s.Drops data ∧ (s.handleRead data).Taken := by
  unfold ImapSession.handleRead
  split
  · next hlit =>
    exact .inr ⟨fun hdrops => (by cases hlit.symm.trans hdrops.1), h.readLiteral data⟩
  · next hlit =>
    dsimp only
    split
    · next he =>
      refine .inr ⟨fun hdrops => hdrops.2.2.1 he, .listens ⟨?_, h.parsed⟩⟩
      exact attentive_doAsyncRead h.tasks
    · next he =>
      split
      · next hidle =>
        split
        · next hdone => exact .inr ⟨fun hdrops => hdrops.2.2.2 hdone, .parsed rfl h.tasks⟩
        · next hdone => exact .inl ⟨⟨eq_false_of_ne_true hlit, hidle, he, hdone⟩, rfl⟩
      · next hidle =>
        refine .inr ⟨fun hdrops => hidle hdrops.2.1, ?_⟩
        split
        · exact .parsed rfl h.tasks
        · split
          · exact .parsed rfl h.tasks
          · split
            · have href := h.sendTagged ((lineOf data).takeWhile (· != 32)) (bytes "BAD")
                (bytes "Literal too large")
              exact .listens ⟨attentive_closeAfterFlush href.io.tasks, href.parsed⟩
            · exact h.beginLiteral _ _

end ImapSession

/-! ## The later states -/

namespace ImapServing

variable {st : ImapServing} {s : ImapSession}

/-- The session listens, nothing is to be dispatched, and its loops are those of the machine. -/
structure Ok (st : ImapServing) : Prop where
  listens : st.Listens
  ready : st.session.Ready
  loops : st.session.io.loops = []

theorem ok_put (h : s.Attentive) : (st.put s).Ok := by
  refine ⟨?_, ⟨h.io.tasks, h.parsed⟩, rfl⟩
  cases h.io.listens with
  | closed h => exact .transport (.closed h)
  | handedOver h => exact .transport (.handedOver h)
  | paused h => exact .transport (.paused h)
  | buffered h => exact .transport (.buffered h)
  | reading h => exact .transport (.reading h)
  | writing h => exact .transport (.writing h)
  | posted h => exact .transport (.posted h)
  | @looping l hmem h =>
    refine .looping (mem_append_left _ (mem_map_of_mem hmem)) ?_
    cases l with
    | read dispatched => exact h
    | drain => rfl

theorem ok_putIo (hpar : st.session.commandParsed = false)
    {io : SessionBase ImapFraming ImapReport} (h : io.Attentive) : (st.putIo io).Ok :=
  ok_put ⟨h, hpar⟩

/-- Of the loops, those matter that re-arm the read or write what is held back. -/
theorem Ok.withLoops (h : st.Ok) {ls : List ServingLoop} (hls : ∀ l ∈ st.loops,
      l.rearms = true ∨ l = .drain ∧ st.session.io.pendingWriteBuf ≠ [] → l ∈ ls) :
    { st with loops := ls }.Ok := by
  refine ⟨?_, h.ready, h.loops⟩
  cases h.listens with
  | transport h => exact .transport h
  | fetchPosted h => exact .fetchPosted h
  | fetchWriting h => exact .fetchWriting h
  | looping hmem h => exact .looping (hls _ hmem (.inl h)) h
  | draining hmem h => exact .draining (hls _ hmem (.inr ⟨rfl, h⟩)) h

/-- Writing does not depend on whether the session is paused. -/
theorem answer_unpaused (s : ImapSession) (text : Bytes) :
    ({ s with io := { s.io with paused := false } } : ImapSession).answer text =
      { s.answer text with io := { (s.answer text).io with paused := false } } := by
  have hbuf : { s.io with paused := false }.hasBufferedInput =
      s.io.hasBufferedInput := rfl
  unfold answer doAsyncWrite
  rw [hbuf]
  split
  · rfl
  · split <;> rfl

/-- **An answer, and the buffer is drained.** -/
theorem ok_answer_drain (h : s.Ready) (text : Bytes) :
    (st.put (s.answer text)).drainBufferedCommands.Ok := by
  have hunpaused : ({ s with io := { s.io with paused := false } } : ImapSession).Ready :=
    { h with }
  have hok : (st.put
    (({ s with io := { s.io with paused := false } } : ImapSession).answer text)).Ok :=
    ok_put (hunpaused.answer text)
  rw [answer_unpaused] at hok
  exact hok.withLoops fun l hmem _ => mem_cons_of_mem _ hmem

theorem ok_fetchFinalize (h : st.session.Ready) (hl : st.session.io.loops = []) (text : Bytes) :
    (st.fetchFinalize text).Ok := by
  unfold fetchFinalize
  dsimp only
  split
  · next hgone => exact ⟨.transport (listens_of_gone hgone), h, hl⟩
  · split
    · exact ⟨.looping mem_cons_self rfl, { h with }, hl⟩
    · refine ⟨.fetchPosted ?_, { h with }, hl⟩
      exact append_ne_nil_of_right_ne_nil _ (cons_ne_nil _ _)

variable (env : ImapEnv) (cfg : ServerConfig)

section

variable (h : st.session.Ready) (hl : st.session.io.loops = []) (event : ImapEvent)

include h hl event

/-- **Every handler of the later states answers or pauses the session.** -/
theorem ok_handle (way : HandlerWay) (text : Bytes) : (st.handle env event way text).Ok := by
  unfold handle
  dsimp only
  split
  · exact ok_put ⟨attentive_doAsyncWrite h.tasks _ none, h.parsed⟩
  · exact ok_put ⟨attentive_doAsyncWrite h.tasks _ none, h.parsed⟩
  · exact ok_put ((h.withContext { st.session.ctx with idleMode := false }).sendTagged _ _ _)
  · exact ok_put h.handleLogout
  · exact ok_put ⟨attentive_doAsyncWrite h.tasks _ (some .close), h.parsed⟩
  · split
    · exact ok_put (h.answer text)
    · exact ⟨.transport (.paused rfl), { h with }, rfl⟩
    · exact ⟨.transport (.paused rfl), { h with }, rfl⟩
    · exact ok_fetchFinalize h hl text
    · exact ok_answer_drain h text
    · exact ok_put (h.writeReply st.session.ctx.currentTag (by decide))

/-- **A command is dispatched.** -/
theorem ok_processEvent (tag : Bytes) (way : HandlerWay) (text : Bytes) :
    (st.processEvent env cfg event tag way text).Ok := by
  have hrep : ({ st.session with
      ctx := { st.session.ctx with currentTag := tag }
      io := st.session.io.reports [.dispatched event tag st.session.lastCommandArgs] } :
        ImapSession).Ready := { h with }
  unfold processEvent
  dsimp only
  split
  · split
    · exact ok_put (hrep.writeReply tag (by decide))
    · refine ok_handle env ?_ ?_ event way text
      · exact hrep
      · exact hl
  · next hst => exact ok_put (h.processEvent env cfg hst _ event tag)

end

theorem ok_processRead (h : st.session.io.TasksLead) (hl : st.session.io.loops = [])
    (hpar : st.session.commandParsed = true) (way : HandlerWay) (text : Bytes) :
    (st.processRead env cfg way text).Ok := by
  unfold processRead
  dsimp only
  rw [hpar, Bool.not_true, if_neg Bool.false_ne_true]
  split
  all_goals
    refine ok_processEvent env cfg ?_ ?_ _ _ way text
    · exact ⟨h, rfl⟩
    · exact hl

/-! ## Steps -/

theorem processRead_of_not_parsed (h : st.session.commandParsed = false) (way : HandlerWay)
    (text : Bytes) :
    st.processRead env cfg way text = st := by
  unfold processRead
  dsimp only
  rw [h, Bool.not_false, if_pos rfl]

theorem put_self (h : st.session.io.loops = []) : st.put st.session = st := by
  have hio : { st.session.io with loops := [] } =
      st.session.io := by rw [← h]
  unfold put
  rw [hio, h]
  rfl

/-- A unit of input that was taken from the buffer is read and dispatched. -/
theorem ok_of_taken (line : Bytes)
    (htaken : (st.session.handleRead line).Taken) (way : HandlerWay) (text : Bytes) :
    ((st.put (st.session.handleRead line)).processRead env cfg way text).Ok := by
  cases htaken with
  | parsed hpar htasks => exact ok_processRead env cfg htasks rfl hpar way text
  | listens hlistens =>
    rw [processRead_of_not_parsed env cfg hlistens.parsed]
    exact ok_put hlistens

theorem takeLine_eq_some {line : Bytes} {st' : ImapServing} (h : st.takeLine = some (line, st')) :
    st'.session.io.posted = st.session.io.posted ∧ st'.session.io.closed = st.session.io.closed ∧
      st'.session.io.loops = st.session.io.loops ∧
      st'.session.commandParsed = st.session.commandParsed := by
  unfold takeLine at h
  split at h
  · cases h
  · dsimp only at h
    split at h
    · cases h
      exact ⟨rfl, rfl, rfl, rfl⟩
    · cases h

section

variable (h : st.Ok)

include h

/-- **Taking a unit of input** keeps the session listening, unless it is a line that is dropped:
then the session is as it was without the line. -/
theorem consume_cases (i : ServerConfig) (way : HandlerWay) (text : Bytes) :
    KeepsListening st (i, .consume way text) ∧ (st.consume env i way text).Ok ∨
      ¬KeepsListening st (i, .consume way text) ∧ ¬(st.consume env i way text).Listens := by
  unfold KeepsListening consume
  cases htake : st.takeLine with
  | none =>
    refine .inl ⟨?_, h⟩
    intro line st' heq
    cases heq
  | some taken =>
    obtain ⟨line, st'⟩ := taken
    obtain ⟨hpo, hcl, hl, hpar⟩ := takeLine_eq_some htake
    have htasks : st'.session.io.TasksLead := by
      unfold SessionBase.TasksLead
      rw [hpo, hcl]
      exact h.ready.tasks
    have hr : st'.session.Ready := ⟨htasks, hpar.trans h.ready.parsed⟩
    have hnone := hl.trans h.loops
    dsimp only
    rcases hr.handleRead line with ⟨hdrops, hsame⟩ | ⟨hdrops, htaken⟩
    · rw [hsame, put_self hnone, processRead_of_not_parsed env i hr.parsed]
      by_cases hlistens : st'.Listens
      · refine .inl ⟨?_, ⟨hlistens, hr, hnone⟩⟩
        intro line' st'' heq _
        cases heq
        exact hlistens
      · exact .inr ⟨fun hkeeps => hlistens (hkeeps line st' rfl hdrops), hlistens⟩
    · refine .inl ⟨?_, ok_of_taken env i line htaken way text⟩
      intro line' st'' heq hdrops'
      cases heq
      exact absurd hdrops' hdrops

theorem Ok.pop {l : ServingLoop} {ls : List ServingLoop} (hl : st.loops = l :: ls)
    (hrearms : l.rearms = false) (hdrain : l = .drain → st.session.io.pendingWriteBuf = []) :
    { st with loops := ls }.Ok := by
  refine h.withLoops fun l' hmem hl' => ?_
  rw [hl] at hmem
  rcases mem_cons.mp hmem with rfl | hmem
  · rcases hl' with h | h
    · cases hrearms.symm.trans h
    · exact absurd (hdrain h.1) h.2
  · exact hmem

theorem Ok.loopEnd : st.loopEnd.Ok := by
  have hpar := h.ready.parsed
  have htasks := h.ready.tasks
  unfold ImapServing.loopEnd
  cases hl : st.loops with
  | nil => exact h
  | cons l ls =>
    dsimp only
    have hput {io : SessionBase ImapFraming ImapReport} (hio : io.Attentive) :
        ({ st with loops := ls }.putIo io).Ok := ok_put ⟨hio, hpar⟩
    have htrans (hlistens : st.session.io.Listens) : { st with loops := ls }.Ok :=
      ⟨.transport hlistens, h.ready, h.loops⟩
    split
    · exact h
    · cases l with
      | read dispatched =>
        cases dispatched with
        | true => exact h.pop hl rfl nofun
        | false =>
          dsimp only
          by_cases hp : st.session.io.paused = true
          · rw [hp]
            exact htrans (.paused hp)
          · by_cases hcl : st.session.io.closed = true
            · rw [hcl, Bool.not_true, Bool.and_false]
              exact htrans (.closed hcl)
            · rw [eq_false_of_ne_true hp, eq_false_of_ne_true hcl]
              exact hput (attentive_doAsyncRead htasks)
      | settle => exact hput (attentive_settleExit htasks)
      | drain =>
        dsimp only
        split
        · exact hput (attentive_doAsyncWrite htasks [] none)
        · next hflush =>
          by_cases hp : st.session.io.paused = true
          · exact htrans (.paused hp)
          · by_cases hcl : st.session.io.closed = true
            · exact htrans (.closed hcl)
            · by_cases hbuf : st.session.io.hasBufferedInput = true
              · exact htrans (.buffered hbuf)
              · -- nothing is held back
                refine h.pop hl rfl fun _ => ?_
                simpa [hp, hcl, hbuf] using hflush

theorem Ok.queryDone (answer : QueryAnswer) : (st.queryDone answer).Ok := by
  cases answer with
  | reply text target =>
    refine ok_answer_drain ?_ text
    exact { h.ready with }
  | refused text => exact ok_put (h.ready.answer text)
  | fetched text =>
    refine ok_fetchFinalize ?_ ?_ text
    · exact h.ready
    · exact h.loops
  | more => exact ok_putIo h.ready.parsed ⟨.paused rfl, h.ready.tasks⟩

theorem Ok.appendDone (entry : ImapState) (ok : Bool) (reply : Bytes) :
    (st.appendDone entry ok reply).Ok := by
  unfold ImapServing.appendDone
  dsimp only
  split
  · next hcl => exact ⟨.transport (.closed hcl), h.ready, h.loops⟩
  · refine ok_putIo ?_ (attentive_post h.ready.tasks trivial)
    exact h.ready.parsed

theorem Ok.fetchStart : st.fetchStart.Ok := by
  unfold ImapServing.fetchStart
  cases hpo : st.fetchesPosted with
  | nil => exact h
  | cons text rest =>
    dsimp only
    split
    · next hgone => exact ⟨.transport (listens_of_gone hgone), h.ready, h.loops⟩
    · exact ⟨.fetchWriting (Nat.succ_ne_zero _), { h.ready with }, rfl⟩

theorem Ok.fetchDone (ok : Bool) : (st.fetchDone ok).Ok := by
  unfold ImapServing.fetchDone
  split
  · exact h
  · dsimp only
    split
    · next hcl => exact ⟨.transport (.closed hcl), h.ready, h.loops⟩
    · cases ok with
      | false => exact ok_put ⟨attentive_close h.ready.tasks, h.ready.parsed⟩
      | true => exact ok_put ⟨attentive_settle h.ready.tasks none none [], h.ready.parsed⟩

end

theorem putIo_self (h : st.session.io.loops = []) : st.putIo st.session.io = st := put_self h

/-- What the executor and the network do. -/
theorem Ok.putIo_of_eq_or (h : st.Ok) {io : SessionBase ImapFraming ImapReport}
    (hio : io = st.session.io ∨ io.Attentive) : (st.putIo io).Ok := by
  rcases hio with rfl | hio
  · rw [putIo_self h.loops]
    exact h
  · exact ok_putIo h.ready.parsed hio

theorem Ok.ite (h : st.Ok) {p : Prop} [Decidable p] {st' : ImapServing} (h' : p → st'.Ok) :
    (if p then st' else st).Ok := by
  split
  · exact h' ‹_›
  · exact h

/-- **A step that keeps the session listening.** -/
theorem Ok.step (h : st.Ok) {i : ServerConfig × ServingInput} (hkeeps : KeepsListening st i) :
    (servingStep env st i).Ok := by
  have htasks := h.ready.tasks
  have hpar := h.ready.parsed
  obtain ⟨cfg, input⟩ := i
  cases input with
  | consume way text =>
    rcases consume_cases env h cfg way text with ⟨-, hok⟩ | ⟨hnot, -⟩
    · exact hok
    · exact absurd hkeeps hnot
  | readDone data => exact h.ite fun _ => ok_putIo hpar (attentive_readDone htasks data)
  | writeDone index ok =>
    exact h.ite fun _ => h.putIo_of_eq_or (writeDone_eq_or_attentive htasks index ok)
  | runTask => exact h.ite fun _ => h.putIo_of_eq_or (runTask_eq_or_attentive htasks)
  | loopEnd => exact h.loopEnd
  | close => exact ok_putIo hpar (attentive_close htasks)
  | authDone ok userId shard =>
    unfold servingStep
    dsimp only
    split
    · exact h
    · refine ok_put (ImapSession.Ready.authDone cfg ?_ _ ok userId shard)
      exact ⟨htasks, hpar⟩
  | queryDone answer =>
    unfold servingStep
    dsimp only
    split
    · exact h
    · split
      · next hcl => exact ⟨.transport (.closed hcl), h.ready, h.loops⟩
      · exact h.queryDone answer
  | appendDone ok reply =>
    unfold servingStep
    dsimp only
    split
    · exact h
    · exact h.appendDone _ ok reply
  | push text => exact h.ite fun _ => ok_put (h.ready.answer text)
  | fetchStart => exact h.ite fun _ => h.fetchStart
  | fetchDone ok => exact h.ite fun _ => h.fetchDone ok

/-- Any other step leaves it deaf. -/
theorem Ok.not_listens_step (h : st.Ok) {i : ServerConfig × ServingInput}
    (hnot : ¬KeepsListening st i) : ¬(servingStep env st i).Listens := by
  obtain ⟨cfg, input⟩ := i
  cases input with
  | consume way text =>
    rcases consume_cases env h cfg way text with ⟨hkeeps, -⟩ | ⟨-, hdeaf⟩
    · exact absurd hkeeps hnot
    · exact hdeaf
  | _ => exact absurd trivial hnot

/-! ## Runs -/

/-- **A session that listens reads when it rests.** -/
theorem Listens.reading (h : st.Listens) (hl : st.session.io.loops = []) (hrests : st.Rests) :
    st.session.io.readInProgress = true := by
  cases h with
  | transport h =>
    cases h with
    | closed h => cases hrests.isOpen.symm.trans h
    | handedOver h => cases hrests.connected.symm.trans h
    | paused h => cases hrests.unpaused.symm.trans h
    | buffered h => cases hrests.unbuffered.symm.trans h
    | reading h => exact h
    | writing h => exact absurd hrests.writes h
    | posted h => exact absurd hrests.posted h
    | looping hmem =>
      rw [hl] at hmem
      cases hmem
  | fetchPosted h => exact absurd hrests.fetchesPosted h
  | fetchWriting h => exact absurd hrests.fetchesWriting h
  | looping hmem | draining hmem =>
    rw [hrests.loops] at hmem
    cases hmem

theorem ok_start (afterStarttls : Bool) : (ImapServing.start env cfg afterStarttls).Ok := by
  have hfr : fresh.Ready := ⟨nofun, rfl⟩
  have hstarttls : startAfterStarttls.Attentive := by
    refine ⟨attentive_doAsyncRead (s := { fresh.io with state := ⟨.notAuthenticated, false⟩ }) ?_,
      rfl⟩
    exact hfr.tasks
  cases afterStarttls with
  | true => exact ok_put hstarttls
  | false =>
    refine ok_put (hfr.processEvent env cfg ?_ fresh .connect [])
    rintro ⟨-, hlate | hlate⟩
    · cases hlate
    · cases hlate

end ImapServing

/-- **A session goes on listening exactly as long as no line is dropped that it was waiting for**,
for every sequence of reads, completions, handlers' branches and answers.  Whenever it rests in such
a run, a read is pending on its connection. -/
theorem listening_iff (env : ImapEnv) (cfg : ServerConfig) (afterStarttls : Bool)
    (inputs : List (ServerConfig × ServingInput)) :
    (StepsMeet (servingStep env) KeepsListening (.start env cfg afterStarttls) inputs ↔
      ∀ js, js <+: inputs →
        (run (servingStep env) (ImapServing.start env cfg afterStarttls) js).Listens) ∧
    (StepsMeet (servingStep env) KeepsListening (.start env cfg afterStarttls) inputs →
      ∀ js, js <+: inputs →
        (run (servingStep env) (ImapServing.start env cfg afterStarttls) js).Rests →
        (run (servingStep env) (ImapServing.start env cfg afterStarttls)
          js).session.io.readInProgress =
          true) := by
  have hs := ImapServing.ok_start env cfg afterStarttls
  have hstep (st : ImapServing) (i : ServerConfig × ServingInput) (h : st.Ok)
      (hkeeps : KeepsListening st i) : (servingStep env st i).Ok := h.step env hkeeps
  constructor
  · exact stepsMeet_iff_forall_good ImapServing.Ok ImapServing.Listens (fun _ h => h.listens) hstep
      (fun st i h hnot => h.not_listens_step env hnot) hs inputs
  · rintro hmeet js ⟨ks, rfl⟩ hrests
    have hok := run_invariant_of_stepsMeet ImapServing.Ok hstep hs
      ((stepsMeet_append _ js ks).mp hmeet).1
    exact hok.listens.reading hok.loops hrests

/-! ## IDLE and another line -/

/-- Three reads of an IMAP session, each with what it leads to: a login, IDLE, and one more line. -/
def idleDialog (line : Bytes) : List (ServerConfig × ServingInput) :=
  ([.runTask, .runTask, .writeDone 0 true, .runTask, .readDone (some (bytes "a LOGIN u p\r\n")),
      .consume .reply [], .loopEnd, .authDone true 1 0, .runTask, .loopEnd, .runTask, .runTask,
      .writeDone 0 true, .runTask, .readDone (some (bytes "b IDLE\r\n")), .consume .reply [],
        .loopEnd,
      .runTask, .writeDone 0 true, .runTask, .readDone (some line), .consume .reply [],
      .loopEnd] : List ServingInput).map fun i => ({ systemDomain := bytes "example.com" }, i)

/-- The session rests and nothing is read. -/
theorem not_forall_reading :
    ¬∀ (env : ImapEnv) (cfg : ServerConfig) (inputs : List (ServerConfig × ServingInput)),
      (run (servingStep env) (.start env cfg false) inputs).Rests →
        (run (servingStep env) (.start env cfg false) inputs).session.io.readInProgress = true := by
  intro h
  have hread := h ⟨true, true, fun _ => none⟩ { systemDomain := bytes "example.com" }
    (idleDialog (bytes "x\r\n")) ⟨by decide, by decide, by decide,
      by decide, by decide, by decide, by decide, by decide,
      by decide⟩
  exact absurd hread (by decide)

end ProtoRelay
