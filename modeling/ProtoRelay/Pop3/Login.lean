import ProtoRelay.Pop3.Database

/-!
# Login and the POP3 lock

PASS starts a `LoginOperation`: a chain of continuations on workers, on the database and on the
executor of the connection.  Here every link of the chain is a step of its own, any of them may
throw where the source can throw, and the session may be closed between any two of them.  In
particular `install` and the task by which the engine enters TRANSACTION are two steps.
-/

namespace ProtoRelay

open List

/-! ## The lock table -/

/-- `pop3_session_lock`: a user has one row at most. -/
structure LockTable where
  rows : List LockRow
  unique : (rows.map (·.userId)).Nodup

/-- A heartbeat changes no key. -/
theorem map_userId_touch (p : LockRow → Bool) (now : Nat) (rows : List LockRow) :
    (updateWhere p (fun r => { r with lastHeartbeat := now }) rows).map (·.userId) = rows.map
    (·.userId) :=
  map_updateWhere _ fun _ => rfl

theorem nodup_acquireLock (key : Pop3LockKey) (now : Nat) {rows : List LockRow}
    (h : (rows.map (·.userId)).Nodup) : ((acquireLock key now rows).map (·.userId)).Nodup := by
  unfold acquireLock
  split
  · rw [map_userId_touch]
    exact h
  · rename_i hnone
    rw [map_append, map_singleton, nodup_append]
    refine ⟨h, nodup_singleton _, ?_⟩
    intro user huser user' huser' heq
    obtain ⟨row, hrow, rfl⟩ := mem_map.mp huser
    rw [mem_singleton] at huser'
    exact hnone (any_eq_true.mpr ⟨row, hrow, by simp [heq, huser']⟩)

namespace LockTable

def owns (t : LockTable) (key : Pop3LockKey) : Bool := t.rows.any key.selects

/-- The INSERT of `acquire_async`. -/
def acquire (t : LockTable) (key : Pop3LockKey) (now : Nat) : LockTable where
  rows := acquireLock key now t.rows
  unique := nodup_acquireLock key now t.unique

/-- The UPDATE of `renew_async`. -/
def renew (t : LockTable) (key : Pop3LockKey) (now : Nat) : LockTable where
  rows := renewLock key now t.rows
  unique := by
    unfold renewLock
    rw [map_userId_touch]
    exact t.unique

/-- The DELETE of `release_async`. -/
def release (t : LockTable) (key : Pop3LockKey) : LockTable where
  rows := releaseLock key t.rows
  unique := t.unique.sublist (filter_sublist.map _)

/-- The DELETE of `sweep_expired`. -/
def sweep (t : LockTable) (now : Nat) : LockTable where
  rows := sweepExpired now t.rows
  unique := t.unique.sublist (filter_sublist.map _)

/-- A statement that may fail. -/
def execute (t : LockTable) (o : SqlOutcome) (statement : LockTable → LockTable) : LockTable :=
  if o.executed then statement t else t

end LockTable

/-! ## The operation -/

inductive LoginStage
  /-- the worker task of `start`, and then the answer of the authenticator -/
  | authenticate
  /-- `load_inbox` is queued -/
  | loadInbox
  /-- `get_inbox_async` is under way -/
  | inbox
  /-- the INSERT of `acquire_async` -/
  | acquire
  /-- the SELECT of `verify` -/
  | verify
  /-- `get_messages_async` is under way -/
  | loadMessages
  /-- `measure` is queued, on rows of mail ids and body paths -/
  | measure (rows : List (Nat × Bytes))
  /-- `install` is posted -/
  | install (messages : List Pop3Message)
  /-- `transition.finish(true)` has posted the settling of the engine -/
  | settle
  /-- the release of the lock is posted -/
  | release (reply : Bytes) (authFailure : Bool)
  /-- the task of `reply_failure` is posted -/
  | replyFailure (reply : Bytes) (authFailure : Bool)
  /-- `transition.finish(false)` has posted the settling of the engine -/
  | resume
  /-- nothing of the operation is posted or under way -/
  | over
  deriving DecidableEq

/-- `LoginOperation`, with a record of what it has done. -/
structure LoginOperation where
  /-- the session that has sent PASS -/
  session : Nat
  /-- `user`, zero until it is authenticated, and `sid` -/
  key : Pop3LockKey
  inbox : Nat := 0
  /-- `database` is set -/
  database : Bool := false
  lockAttempted : Bool := false
  stopping : Bool := false
  stage : LoginStage := .authenticate
  /-- the replies, newest first -/
  replies : List Bytes := []
  /-- the acquisition of the lock was started -/
  started : Bool := false
  /-- the lock was found to be another session's -/
  refused : Bool := false
  /-- the release of the lock was requested -/
  released : Bool := false
  /-- the session has entered TRANSACTION, and whether the lock row was there then -/
  entered : Option Bool := none

/-- How far `install` gets. -/
inductive InstallCourse
  | done
  /-- it throws before the reply, with the context of the session filled or not -/
  | early (filled : Bool)
  /-- it throws between the reply and `transition.finish(true)`: the metrics -/
  | late
  deriving DecidableEq

/-- What drives a login.  `throws`: the continuation throws. -/
inductive LoginInput
  /-- the answer of the authenticator -/
  | authenticated (user : Option Nat) (throws : Bool)
  /-- `load_inbox` runs: the pool of the shard, and whether it gives a connection -/
  | loadInbox (pool : Option Bool) (throws : Bool)
  /-- the answer of `get_inbox_async`; zero for no INBOX -/
  | inbox (id : Option Nat) (throws : Bool)
  | acquired (o : SqlOutcome)
  | verified (ok : Bool) (throws : Bool)
  /-- the answer of `get_messages_async` -/
  | loaded (rows : Option (List (Nat × Bytes))) (throws : Bool)
  /-- `measure` runs: the sizes of the objects, or the storage throws -/
  | measured (sizes : Option (List Nat)) (throws : Bool)
  | install (course : InstallCourse)
  | settle
  | released (o : SqlOutcome)
  /-- the task of `reply_failure` runs: whether the failures are too many, and whether the metrics
  throw -/
  | reply (close : Bool) (throws : Bool)
  | resume
  deriving DecidableEq

def databaseUnavailable : Bytes := bytes "-ERR Server database unavailable"

def cannotLoadMailbox : Bytes := bytes "-ERR Cannot load mailbox"

def lockBusy : Bytes := bytes "-ERR [IN-USE] Mailbox lock busy, try later"

def tooManyAuthFailures : Bytes := bytes "-ERR Too many auth failures, closing connection"

def mailboxLoaded (messages : List Pop3Message) : Bytes :=
  bytes "+OK Mailbox locked and loaded, " ++ decimal messages.length ++ bytes " messages (" ++
    decimal (messages.map (·.size)).sum ++ bytes " octets)"

/-- The loop of `measure`: rows without an id are skipped, and an object whose size is not known
counts as empty. -/
def measureRows (rows : List (Nat × Bytes)) (sizes : List Nat) : List Pop3Message :=
  (rows.filter fun r => r.1 ≠ 0).zipIdx.map fun e => ⟨e.1.1, e.1.2, sizes.getD e.2 0⟩

namespace LoginOperation

variable (p : LoginOperation)

def sendLine (text : Bytes) : LoginOperation :=
  { p with replies := pop3Line text :: p.replies }

/-- `fail`: a lock that may be held is given back before the reply. -/
def fail (reply : Bytes) (authFailure : Bool) : LoginOperation :=
  if p.stopping then { p with stage := .over }
  else if !p.lockAttempted || !p.database then
    { p with stopping := true, stage := .replyFailure reply authFailure }
  else { p with stopping := true, stage := .release reply authFailure }

def guard (throws : Bool) (task : LoginOperation → LoginOperation) : LoginOperation :=
  if p.stopping then { p with stage := .over }
  else if throws then p.fail databaseUnavailable false
  else task p

/-- The continuation of `login_async`. -/
def authenticated : Option Nat → LoginOperation
  | none => p.fail (bytes "-ERR Authentication failed") true
  | some user => { p with key := { p.key with userId := user }, stage := .loadInbox }

variable (closed : Bool)

def loadInbox (pool : Option Bool) : LoginOperation :=
  if closed then p.fail [] false
  else
    match pool with
    | none => p.fail (bytes "-ERR Server configuration error") false
    | some false => { p with database := true }.fail databaseUnavailable false
    | some true => { p with database := true, stage := .inbox }

/-- The continuation of `get_inbox_async`. -/
def inboxFound : Option Nat → LoginOperation
  | none => p.fail databaseUnavailable false
  | some 0 => p.fail (bytes "-ERR No INBOX for user") false
  | some (id + 1) =>
    if closed then p.fail [] false
    else { p with inbox := id + 1, lockAttempted := true, started := true, stage := .acquire }

def lockReady (closed throws : Bool) : Pop3LockStatus → LoginOperation
  | .databaseError => p.fail databaseUnavailable false
  | .notOwned =>
    { p with lockAttempted := false, refused := true }.fail
      (if throws then databaseUnavailable else lockBusy) false
  | .owned =>
    if closed then p.fail [] false
    else if throws then p.fail databaseUnavailable false
    else { p with stage := .loadMessages }

/-- The continuation of `get_messages_async`. -/
def messagesLoaded : Option (List (Nat × Bytes)) → LoginOperation
  | none => p.fail cannotLoadMailbox false
  | some rows => if closed then p.fail [] false else { p with stage := .measure rows }

def measure (rows : List (Nat × Bytes)) : Option (List Nat) → LoginOperation
  | none => p.fail cannotLoadMailbox false
  | some sizes => { p with stage := .install (measureRows rows sizes) }

/-- `install`, on the operation. -/
def install (messages : List Pop3Message) : InstallCourse → LoginOperation
  | .done =>
    if closed then p.fail [] false
    else { p.sendLine (mailboxLoaded messages) with stopping := true, stage := .settle }
  | .early _ => if closed then p.fail [] false else p.fail databaseUnavailable false
  | .late =>
    if closed then p.fail [] false
    -- the guard catches the exception, and finds that the operation has stopped
    else { p.sendLine (mailboxLoaded messages) with stopping := true }.fail
      databaseUnavailable false

/-- The task of `reply_failure`. -/
def replied (reply : Bytes) (close throws : Bool) : LoginOperation :=
  if closed ∨ reply = [] then { p with stage := .over }
  else
    { p.sendLine (if close then tooManyAuthFailures else reply) with
      stage := if throws || close then .over else .resume }

/-- One continuation, for the state of the session and of its lock row.  What the operation does not
wait for does not happen. -/
def step (closed owned : Bool) (i : LoginInput) : LoginOperation :=
  match p.stage, i with
  | .authenticate, .authenticated user throws => p.guard throws (·.authenticated user)
  | .loadInbox, .loadInbox pool throws => p.guard throws (·.loadInbox closed pool)
  | .inbox, .inbox id throws => p.guard throws (·.inboxFound closed id)
  | .acquire, .acquired o =>
    if o.reported then { p with stage := .verify }
    else p.guard false (·.lockReady closed false .databaseError)
  | .verify, .verified ok throws =>
    p.guard false (·.lockReady closed throws
      (if !ok then .databaseError else if owned then .owned else .notOwned))
  | .loadMessages, .loaded rows throws => p.guard throws (·.messagesLoaded closed rows)
  | .measure rows, .measured sizes throws => p.guard throws (·.measure rows sizes)
  | .install messages, .install course => p.guard false (·.install closed messages course)
  | .settle, .settle => { p with stage := .over, entered := if closed then none else some owned }
  | .release reply authFailure, .released _ =>
    { p with released := true, stage := .replyFailure reply authFailure }
  | .replyFailure reply authFailure, .reply close throws =>
    p.replied closed reply (authFailure && close) throws
  | .resume, .resume => { p with stage := .over }
  | _, _ => p

end LoginOperation

/-- What a continuation does to the lock table. -/
def LockTable.login (t : LockTable) (now : Nat) (p : LoginOperation) (i : LoginInput) : LockTable :=
  match p.stage, i with
  | .acquire, .acquired o => t.execute o (·.acquire p.key now)
  | .release _ _, .released o => t.execute o (·.release p.key)
  | _, _ => t

/-! ## Sessions -/

/-- A POP3 session that has sent its banner, as far as login and lock are concerned. -/
structure LoginSession where
  state : Pop3State := .authorization
  ctx : Pop3Context := {}
  paused : Bool := false
  closed : Bool := false
  /-- QUIT has yet to release the lock -/
  quitting : Bool := false

namespace LoginSession

variable (t : LoginSession)

def key : Pop3LockKey := { t.ctx with }

/-- `install`, on the context of the session. -/
def install (p : LoginOperation) (messages : List Pop3Message) : LoginSession :=
  { t with
    ctx := { t.ctx with
      userId := p.key.userId
      mailboxId := p.inbox
      messages := messages
      deleted := ∅
      sessionId := p.key.sessionId
      dropped := false
      isAuthenticated := true } }

/-- What a continuation does to its session. -/
def login (p : LoginOperation) (i : LoginInput) : LoginSession :=
  match p.stage, i with
  | .install messages, .install course =>
    if p.stopping || t.closed || course == .early false then t else t.install p messages
  | .settle, .settle => if t.closed then t else { t with state := .transaction, paused := false }
  | .replyFailure reply authFailure, .reply close throws =>
    if t.closed ∨ reply = [] ∨ throws then t else { t with closed := authFailure && close }
  | .resume, .resume => if t.closed then t else { t with paused := false }
  | _, _ => t

def Ready : Prop := t.closed = false ∧ t.paused = false

instance (t : LoginSession) : Decidable t.Ready := inferInstanceAs (Decidable (_ ∧ _))

/-- USER: `handle_user` in AUTHORIZATION. -/
def handleUser (args : Bytes) : LoginSession :=
  if t.Ready ∧ t.state = .authorization ∧ args ≠
    [] then { t with ctx := { username := args } } else t

/-- QUIT: `handle_quit` in AUTHORIZATION and TRANSACTION. -/
def handleQuit : LoginSession :=
  if t.Ready ∧ (t.state = .authorization ∨ t.state = .transaction) then
    if t.ctx.isAuthenticated then
      { t with ctx := { t.ctx with dropped := true }, paused := true, quitting := true }
    else { t with state := .update, closed := true }
  else t

/-- QUIT has released the lock, or has failed to. -/
def quitReleased : LoginSession :=
  if t.closed then { t with quitting := false }
  else { t with quitting := false, state := .update, closed := true }

end LoginSession

/-! ## The system -/

/-- The sessions and their logins, with the lock table. -/
structure LoginSystem where
  locks : LockTable
  now : Nat := 0
  /-- the last id of the generator, which never gives one that is not greater -/
  lastId : Nat := 0
  sessions : List LoginSession := []
  logins : List LoginOperation := []
  /-- PASS commands that were answered without an operation: the session, and the reply -/
  refusals : List (Nat × Bytes) := []

namespace LoginSystem

inductive Input
  /-- a client connects -/
  | connect
  | user (k : Nat) (args : Bytes)
  /-- PASS; `gap` is how far the next id is from the last one, if the generator gives one -/
  | pass (k : Nat) (args : Bytes) (gap : Option Nat)
  /-- a continuation of a login -/
  | login (j : Nat) (i : LoginInput)
  | quit (k : Nat)
  /-- the DELETE of QUIT -/
  | quitRelease (k : Nat) (o : SqlOutcome)
  /-- the UPDATE of a heartbeat, which may have been under way when the session was closed -/
  | renew (k : Nat) (o : SqlOutcome)
  /-- the peer disconnects, or the session is closed for another reason -/
  | close (k : Nat)
  | sweep
  | tick (seconds : Nat)

/-- A session that is not there counts as closed. -/
def isClosed (s : LoginSystem) (k : Nat) : Bool := s.sessions[k]?.all (·.closed)

def refuse (s : LoginSystem) (k : Nat) (reply : Bytes) : LoginSystem :=
  { s with refusals := (k, pop3Line reply) :: s.refusals }

/-- The engine and `handle_pass`, for a session that is open and not paused. -/
def handlePass (s : LoginSystem) (k : Nat) (t : LoginSession) (args : Bytes) (gap : Option Nat) :
    LoginSystem :=
  match t.state with
  | .authorization =>
    if !t.ctx.isAuthenticated ∧ t.ctx.username = [] then s.refuse k (bytes "-ERR USER first")
    else if args = [] then s.refuse k (bytes "-ERR PASS requires a password")
    else
      match gap with
      -- the clock went back: `next_id` throws, and the engine answers
      | none => s.refuse k (bytes "-ERR Internal: handler failed")
      | some gap =>
        { s with
          lastId := s.lastId + gap + 1
          sessions := s.sessions.modify k fun t => { t with paused := true }
          logins := s.logins ++ [{ session := k, key := ⟨0, decimal (s.lastId + gap + 1)⟩ }] }
  | .closed => { s with sessions := s.sessions.modify k fun t => { t with closed := true } }
  | .init | .transaction | .update => s.refuse k (bytes "-ERR Command not allowed in current state")

def step (s : LoginSystem) : Input → LoginSystem
  | .connect => { s with sessions := s.sessions ++ [{}] }
  | .user k args => { s with sessions := s.sessions.modify k (·.handleUser args) }
  | .pass k args gap =>
    match s.sessions[k]? with
    | some t => if t.Ready then s.handlePass k t args gap else s
    | none => s
  | .login j i =>
    match s.logins[j]? with
    | some p =>
      { s with
        locks := s.locks.login s.now p i
        sessions := s.sessions.modify p.session (·.login p i)
        logins := s.logins.set j (p.step (s.isClosed p.session) (s.locks.owns p.key) i) }
    | none => s
  | .quit k => { s with sessions := s.sessions.modify k (·.handleQuit) }
  | .quitRelease k o =>
    match s.sessions[k]? with
    | some t =>
      if t.quitting then
        { s with
          locks := s.locks.execute o (·.release t.key)
          sessions := s.sessions.modify k (·.quitReleased) }
      else s
    | none => s
  | .renew k o =>
    match s.sessions[k]? with
    | some t =>
      if t.ctx.isAuthenticated then { s with locks := s.locks.execute o (·.renew t.key s.now) }
        else s
    | none => s
  | .close k => { s with sessions := s.sessions.modify k fun t => { t with closed := true } }
  | .sweep => { s with locks := s.locks.sweep s.now }
  | .tick seconds => { s with now := s.now + seconds }

def start (locks : LockTable) (now lastId : Nat) : LoginSystem :=
  { locks := locks, now := now, lastId := lastId }

end LoginSystem

end ProtoRelay
