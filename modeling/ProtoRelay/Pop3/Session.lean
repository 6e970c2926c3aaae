import Mathlib.Data.Finset.Insert
import ProtoRelay.Imap.SafeParse

/-!
# The POP3 session

A POP3 session takes the lock of its user, loads a snapshot of the INBOX, answers commands from it
and applies the deletions at QUIT.  It is embedded as a machine that handles one command at a time:
while it waits for a worker or for the database it is paused, and the input stays in its buffer.
What it waits for is data here (`Pop3Pending`), and the answers are inputs.
-/

namespace ProtoRelay

/-! ## Types -/

inductive Pop3State
  | init | authorization | transaction | update | closed
  deriving DecidableEq

inductive Pop3Event
  | connect | capa | user | pass | stat | list | uidl | retr | dele | noop | rset | quit | error
  | timeout
  deriving DecidableEq

structure Pop3Message where
  mailId : Nat
  bodyPath : Bytes
  size : Nat
  deriving DecidableEq

/-- `Pop3Context`, without the heartbeat timer. -/
structure Pop3Context where
  username : Bytes := []
  isAuthenticated : Bool := false
  userId : Nat := 0
  mailboxId : Nat := 0
  /-- the mailbox as it was when the client logged in -/
  messages : List Pop3Message := []
  /-- the ids of the mails marked by DELE -/
  deleted : Finset Nat := ∅
  /-- QUIT has begun -/
  dropped : Bool := false
  sessionId : Bytes := []

structure Pop3DeletionRequest where
  userId : Nat
  mailboxId : Nat
  mailIds : Finset Nat
  deriving DecidableEq

structure Pop3LockKey where
  userId : Nat
  sessionId : Bytes

inductive Pop3LockStatus
  | owned | notOwned | databaseError
  deriving DecidableEq

/-- What a paused session waits for: the stages of `LoginOperation`, the worker of RETR and the
stages of `QuitOperation`. -/
inductive Pop3Pending
  | authenticate (email password sid : Bytes)
  | loadInbox (key : Pop3LockKey)
  | acquire (key : Pop3LockKey) (inbox : Nat)
  | verify (key : Pop3LockKey) (inbox : Nat)
  | loadMessages (key : Pop3LockKey) (inbox : Nat)
  /-- a login that failed gives back the lock it may hold -/
  | cleanUp (key : Pop3LockKey) (reply : Bytes)
  | readBody (args : Bytes) (target : Pop3Message)
  | lease (request : Pop3DeletionRequest) (key : Pop3LockKey)
  | mark (request : Pop3DeletionRequest) (key : Pop3LockKey)
  | remove (request : Pop3DeletionRequest) (key : Pop3LockKey)
  | release (request : Pop3DeletionRequest) (key : Pop3LockKey) (deleted : Bool)

structure Pop3Answer where
  event : Pop3Event
  args : Bytes
  reply : Bytes

/-- `Pop3Session`, with its answers, newest first. -/
structure Pop3Session where
  state : Pop3State := .init
  ctx : Pop3Context := {}
  pending : Option Pop3Pending := none
  closed : Bool := false
  log : List Pop3Answer := []

/-! ## Commands -/

/-- The events of `parse_pop3_command`, by command name. -/
def pop3Event (cmd : Bytes) : Pop3Event :=
  if cmd = bytes "CAPA" then .capa
  else if cmd = bytes "USER" then .user
  else if cmd = bytes "PASS" then .pass
  else if cmd = bytes "STAT" then .stat
  else if cmd = bytes "LIST" then .list
  else if cmd = bytes "UIDL" then .uidl
  else if cmd = bytes "RETR" then .retr
  else if cmd = bytes "DELE" then .dele
  else if cmd = bytes "NOOP" then .noop
  else if cmd = bytes "RSET" then .rset
  else if cmd = bytes "QUIT" then .quit
  else .error

/-- `parse_pop3_command` on a line with its line feed: the event and the arguments.  Blanks at the
end of the line and in front of the arguments are dropped. -/
def parsePop3Command (data : Bytes) : Pop3Event × Bytes :=
  let isBlank : UInt8 → Bool := fun b => b == 32 || b == 9
  let line := ((stripCr data.dropLast).reverse.dropWhile isBlank).reverse
  if line = [] then (.error, [])
  else
    match findByte 32 line with
    | none => (pop3Event (toUpper line), [])
    | some sp => (pop3Event (toUpper (line.take sp)), (line.drop (sp + 1)).dropWhile isBlank)

/-! ## The snapshot -/

namespace Pop3Context

def remaining (ctx : Pop3Context) : List Pop3Message :=
  ctx.messages.filter fun m => m.mailId ∉ ctx.deleted

/-- The loop by which LIST, UIDL, RETR and DELE find message `n`: they count the messages that are
not marked. -/
def message (ctx : Pop3Context) (n : Nat) : Option Pop3Message :=
  if n < 1 ∨ ctx.messages.length < n then none else ctx.remaining[n - 1]?

/-- The numbers LIST and UIDL give to the messages that are not marked. -/
def entries (ctx : Pop3Context) : List (Nat × Pop3Message) :=
  (ctx.remaining.zipIdx 1).map Prod.swap

end Pop3Context

/-! ## Replies -/

/-- What `send_line` writes: the text, with a line end if it has none. -/
def pop3Line (text : Bytes) : Bytes :=
  if text.getLast? = some 10 then text else text ++ bytes "\r\n"

def noSuchMessage : Bytes := bytes "-ERR no such message"

variable (entries : List (Nat × Pop3Message))

def octets : Nat := (entries.map fun e => e.2.size).sum

def statReply : Bytes :=
  bytes "+OK " ++ decimal entries.length ++ bytes " " ++ decimal (octets entries)

def listReply (n : Nat) : Option Pop3Message → Bytes
  | some m => bytes "+OK " ++ decimal n ++ bytes " " ++ decimal m.size
  | none => noSuchMessage

def listAllReply : Bytes :=
  bytes "+OK " ++ decimal entries.length ++ bytes " messages (" ++ decimal (octets entries) ++
    bytes " octets)\r\n" ++
    entries.flatMap (fun e => decimal e.1 ++ bytes " " ++ decimal e.2.size ++ bytes "\r\n") ++
      bytes ".\r\n"

def uidlReply (n : Nat) : Option Pop3Message → Bytes
  | some m => bytes "+OK " ++ decimal n ++ bytes " " ++ decimal m.mailId
  | none => noSuchMessage

def uidlAllReply : Bytes :=
  bytes "+OK Unique-ID listing follows\r\n" ++
    entries.flatMap (fun e => decimal e.1 ++ bytes " " ++ decimal e.2.mailId ++ bytes "\r\n") ++
      bytes ".\r\n"

def deleReply (n : Nat) : Option Pop3Message → Bytes
  | some _ => bytes "+OK message " ++ decimal n ++ bytes " deleted"
  | none => noSuchMessage

def retrLine (line : Bytes) : Bytes :=
  let line := stripCr line
  (if line.head? = some 46 then 46 :: line else line) ++ bytes "\r\n"

/-- The reply of RETR once the body was read, or could not be. -/
def retrReply (target : Pop3Message) : Option Bytes → Bytes
  | some body =>
    bytes "+OK " ++ decimal target.size ++ bytes " octets\r\n" ++
      (getLines body).flatMap retrLine ++
      bytes ".\r\n"
  | none => bytes "-ERR Failed to read message body"

/-! ## Handlers -/

namespace Pop3Session

variable (s : Pop3Session)

/-- `send_line`, as the answer to a command. -/
def sendLine (event : Pop3Event) (args text : Bytes) : Pop3Session :=
  { s with log := ⟨event, args, pop3Line text⟩ :: s.log }

variable (args : Bytes)

def handleUser : Pop3Session :=
  if args = [] then s.sendLine .user args (bytes "-ERR USER requires a name argument")
  else { s with ctx := { username := args } }.sendLine .user args (bytes "+OK Send PASS")

/-- `handle_pass`; `sid` is what the id generator gives. -/
def handlePass (args sid : Bytes) : Pop3Session :=
  if !s.ctx.isAuthenticated ∧ s.ctx.username = [] then
    s.sendLine .pass [] (bytes "-ERR USER first")
  else if args = [] then s.sendLine .pass [] (bytes "-ERR PASS requires a password")
  else { s with pending := some (.authenticate s.ctx.username args sid) }

def handleCapa : Pop3Session :=
  s.sendLine .capa args
    (bytes "+OK Capability list follows\r\nUSER\r\nUIDL\r\nIMPLEMENTATION ProtoRelay-POP3\r\n.\r\n")

def handleStat : Pop3Session :=
  s.sendLine .stat args (statReply s.ctx.entries)

def handleList : Pop3Session :=
  if args ≠ [] then
    s.sendLine .list args (listReply (safeStoull args) (s.ctx.message (safeStoull args)))
  else s.sendLine .list args (listAllReply s.ctx.entries)

def handleUidl : Pop3Session :=
  if args ≠ [] then
    s.sendLine .uidl args (uidlReply (safeStoull args) (s.ctx.message (safeStoull args)))
  else s.sendLine .uidl args (uidlAllReply s.ctx.entries)

/-- `handle_retr`: the message is read by a worker. -/
def handleRetr : Pop3Session :=
  if args = [] then s.sendLine .retr args (bytes "-ERR RETR requires a message number")
  else
    match s.ctx.message (safeStoull args) with
    | none => s.sendLine .retr args noSuchMessage
    | some target => { s with pending := some (.readBody args target) }

/-- `handle_dele`.  The message it finds is not marked, so the reply for one that is cannot
happen. -/
def handleDele : Pop3Session :=
  if args = [] then s.sendLine .dele args (bytes "-ERR DELE requires a message number")
  else
    match s.ctx.message (safeStoull args) with
    | none => s.sendLine .dele args noSuchMessage
    | some m =>
      if m.mailId ∈ s.ctx.deleted then s.sendLine .dele args (bytes "-ERR message already deleted")
      else
        { s with ctx := { s.ctx with deleted := insert m.mailId s.ctx.deleted } }.sendLine
          .dele args
          (deleReply (safeStoull args) (some m))

def handleRset : Pop3Session :=
  { s with ctx := { s.ctx with deleted := ∅ } }.sendLine .rset args (bytes "+OK")

/-- `handle_quit`: a client that is logged in gets its deletions applied, on a connection to the
database that has to be leased first. -/
def handleQuit : Pop3Session :=
  if s.ctx.isAuthenticated then
    { s with
      ctx := { s.ctx with dropped := true }
      pending := some (.lease ⟨s.ctx.userId, s.ctx.mailboxId, s.ctx.deleted⟩
        ⟨s.ctx.userId, s.ctx.sessionId⟩) }
  else { s.sendLine .quit args (bytes "+OK Bye") with state := .update, closed := true }

/-- The engine: a command that the guard table has for the state goes to its handler. -/
def dispatch (event : Pop3Event) (args sid : Bytes) : Pop3Session :=
  match s.state, event with
  | .authorization, .user => s.handleUser args
  | .authorization, .pass => s.handlePass args sid
  | .authorization, .capa | .transaction, .capa => s.handleCapa args
  | .authorization, .noop | .transaction, .noop => s.sendLine .noop args (bytes "+OK")
  | .authorization, .quit | .transaction, .quit => s.handleQuit args
  | .transaction, .stat => s.handleStat args
  | .transaction, .list => s.handleList args
  | .transaction, .uidl => s.handleUidl args
  | .transaction, .retr => s.handleRetr args
  | .transaction, .dele => s.handleDele args
  | .transaction, .rset => s.handleRset args
  | .init, .error | .authorization, .error | .transaction, .error | .update, .error =>
    s.sendLine .error args (bytes "-ERR Unknown command")
  | .closed, _ => s
  | _, event => s.sendLine event args (bytes "-ERR Command not allowed in current state")

/-! ## Operations -/

/-- `LoginOperation::reply_failure`; `close` when there were too many failures. -/
def replyFailure (reply : Bytes) (close : Bool) : Pop3Session :=
  -- a session that is closed, or that gets no reply, stays paused
  if s.closed ∨ reply = [] then { s with pending := none }
  else if close then
    { s.sendLine .pass [] (bytes "-ERR Too many auth failures, closing connection") with
      pending := none, closed := true }
  else { s.sendLine .pass [] reply with pending := none }

/-- `LoginOperation::fail` once the lock may be held. -/
def failLocked (key : Pop3LockKey) (reply : Bytes) : Pop3Session :=
  { s with pending := some (.cleanUp key (if s.closed then [] else reply)) }

def install (key : Pop3LockKey) (inbox : Nat) (messages : List Pop3Message) : Pop3Session :=
  let s := { s with
    state := .transaction
    pending := none
    ctx := { s.ctx with
      userId := key.userId
      mailboxId := inbox
      messages := messages
      deleted := ∅
      sessionId := key.sessionId
      dropped := false
      isAuthenticated := true } }
  s.sendLine .pass []
    (bytes "+OK Mailbox locked and loaded, " ++ decimal messages.length ++ bytes " messages (" ++
      decimal (messages.map (·.size)).sum ++ bytes " octets)")

/-- `QuitOperation::finish`. -/
def finishQuit (deleted released : Bool) : Pop3Session :=
  if s.closed then { s with pending := none }
  else
    { s.sendLine .quit []
        (if deleted && released then bytes "+OK Bye"
          else bytes "-ERR Unable to complete mailbox update") with
      pending := none, state := .update, closed := true }

/-! ## The machine -/

inductive Input
  /-- a line of the input, and the id a login would get -/
  | command (data sid : Bytes)
  /-- the answer of the authenticator: the user; `close` when the failures are too many -/
  | authenticated (user : Option Nat) (close : Bool)
  /-- the answer of `get_inbox_async`; zero for no INBOX -/
  | inbox (id : Option Nat)
  /-- the INSERT of the lock was executed -/
  | acquired (ok : Bool)
  | verified (status : Pop3LockStatus)
  /-- the rows of the INBOX with the sizes of their objects -/
  | loaded (messages : Option (List Pop3Message))
  | bodyRead (body : Option Bytes)
  /-- QUIT has a connection to the database, or gets none -/
  | leased (ok : Bool)
  | marked (ok : Bool)
  | removed (ok : Bool)
  | released (ok : Bool)
  /-- the answer to a renewal of the lock -/
  | renewed (status : Pop3LockStatus)
  /-- the connection is ready, at a time of the clock -/
  | connected (now : Nat)
  | close

/-- One input.  Answers that nothing waits for do not occur, and change nothing. -/
def step : Input → Pop3Session
  | .connected now =>
    if s.state = .init then
      { s.sendLine .connect [] (bytes "+OK ProtoRelay POP3 server ready <" ++ decimal now ++
          bytes "@pop3>") with state := .authorization }
    else s
  | .command data sid =>
    if s.closed ∨ s.pending.isSome then s
    else s.dispatch (parsePop3Command data).1 (parsePop3Command data).2 sid
  | .authenticated user close =>
    match s.pending, user with
    | some (.authenticate _ _ sid), some user =>
      if s.closed then { s with pending := none }
        else { s with pending := some (.loadInbox ⟨user, sid⟩) }
    | some (.authenticate _ _ _), none => s.replyFailure (bytes "-ERR Authentication failed") close
    | _, _ => s
  | .inbox id =>
    match s.pending, id with
    | some (.loadInbox _), none => s.replyFailure (bytes "-ERR Server database unavailable") false
    | some (.loadInbox _), some 0 => s.replyFailure (bytes "-ERR No INBOX for user") false
    | some (.loadInbox key), some id =>
      if s.closed then { s with pending := none } else { s with pending := some (.acquire key id) }
    | _, _ => s
  | .acquired ok =>
    match s.pending with
    | some (.acquire key inbox) =>
      if ok then { s with pending := some (.verify key inbox) }
      else s.failLocked key (bytes "-ERR Server database unavailable")
    | _ => s
  | .verified status =>
    match s.pending with
    | some (.verify key inbox) =>
      match status with
      | .databaseError => s.failLocked key (bytes "-ERR Server database unavailable")
      | .notOwned => s.replyFailure (bytes "-ERR [IN-USE] Mailbox lock busy, try later") false
      | .owned =>
        if s.closed then s.failLocked key []
          else { s with pending := some (.loadMessages key inbox) }
    | _ => s
  | .loaded messages =>
    match s.pending, messages with
    | some (.loadMessages key _), none => s.failLocked key (bytes "-ERR Cannot load mailbox")
    | some (.loadMessages key inbox), some messages =>
      if s.closed then s.failLocked key [] else s.install key inbox messages
    | _, _ => s
  | .bodyRead body =>
    match s.pending with
    | some (.readBody args target) =>
      if s.closed then { s with pending := none }
      else { s.sendLine .retr args (retrReply target body) with pending := none }
    | _ => s
  | .leased ok =>
    match s.pending with
    | some (.lease request key) =>
      if ok then
        -- without deletions `apply_deletions_async` executes nothing
        { s with
          pending :=
            if request.mailIds = ∅ then some (.release request key true)
              else some (.mark request key) }
      else s.finishQuit false false
    | _ => s
  | .marked ok =>
    match s.pending with
    | some (.mark request key) =>
      { s with
        pending := if ok then some (.remove request key) else some (.release request key false) }
    | _ => s
  | .removed ok =>
    match s.pending with
    | some (.remove request key) => { s with pending := some (.release request key ok) }
    | _ => s
  | .released ok =>
    match s.pending with
    | some (.cleanUp _ reply) => s.replyFailure reply false
    | some (.release _ _ deleted) => s.finishQuit deleted ok
    | _ => s
  | .renewed status =>
    -- the heartbeat closes a session whose lock it cannot confirm
    if s.ctx.isAuthenticated ∧ !s.ctx.dropped ∧
      status ≠ .owned then { s with closed := true } else s
  | .close => { s with closed := true }

def loggedIn (key : Pop3LockKey) (inbox : Nat) (snapshot : List Pop3Message) : Pop3Session :=
  { state := .authorization : Pop3Session }.install key inbox snapshot

end Pop3Session

end ProtoRelay
