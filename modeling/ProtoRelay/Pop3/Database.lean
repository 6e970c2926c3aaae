import ProtoRelay.Base.Tables
import ProtoRelay.Pop3.Session

/-!
# POP3 sessions on a database

All POP3 sessions of the system work on two tables: `mail_mailbox`, which IMAP sessions and
deliveries change as well, and `pop3_session_lock`.  A step is one statement on them, or something
that happens to one session; any order of steps is a run.  A statement is executed or not, and a
session may be told that it failed although it was executed.
-/

namespace ProtoRelay

/-- A row of `mail_mailbox`. -/
structure MailboxRow where
  userId : Nat
  mailboxId : Nat
  mailId : Nat
  isDeleted : Bool
  deriving DecidableEq

/-- A row of `pop3_session_lock`; its key is the user. -/
structure LockRow where
  userId : Nat
  sessionId : Bytes
  lastHeartbeat : Nat

/-! ## Statements -/

variable (key : Pop3LockKey)

/-- The WHERE clause of the lock statements. -/
def Pop3LockKey.selects (r : LockRow) : Bool :=
  decide (r.userId = key.userId ∧ r.sessionId = key.sessionId)

/-- `INSERT … ON DUPLICATE KEY UPDATE` of `acquire_async`: a lock that another session has is left
alone. -/
def acquireLock (now : Nat) (locks : List LockRow) : List LockRow :=
  if locks.any fun r => r.userId = key.userId then
    updateWhere key.selects (fun r => { r with lastHeartbeat := now }) locks
  else locks ++ [⟨key.userId, key.sessionId, now⟩]

/-- The UPDATE of `renew_async`. -/
def renewLock (now : Nat) (locks : List LockRow) : List LockRow :=
  updateWhere key.selects (fun r => { r with lastHeartbeat := now }) locks

/-- The DELETE of `release_async`. -/
def releaseLock (locks : List LockRow) : List LockRow :=
  locks.filter fun r => !key.selects r

/-- The DELETE of `sweep_expired`: locks without a heartbeat for five minutes. -/
def sweepExpired (now : Nat) (locks : List LockRow) : List LockRow :=
  locks.filter fun r => !decide (r.lastHeartbeat + 300 < now)

/-- The rows a request is about: those of its user and mailbox whose mail is to be deleted. -/
def Pop3DeletionRequest.selects (request : Pop3DeletionRequest) (r : MailboxRow) : Bool :=
  decide (r.userId = request.userId ∧ r.mailboxId = request.mailboxId ∧
    r.mailId ∈ request.mailIds)

/-- The first statement of `apply_deletions_async`. -/
def markRows (request : Pop3DeletionRequest) (rows : List MailboxRow) : List MailboxRow :=
  updateWhere request.selects (fun r => { r with isDeleted := true }) rows

/-- `build_imap_expunge_delete_mailbox`. -/
def expungeDelete (mailboxId userId : Nat) (rows : List MailboxRow) : List MailboxRow :=
  rows.filter fun r =>
    !decide (r.mailboxId = mailboxId ∧ r.userId = userId ∧ r.isDeleted = true)

/-! ## The system -/

/-- What QUIT has done to the tables. -/
inductive Pop3DbEvent
  /-- the removal of a session was executed: the rows before and after, whether the session had its
  lock then, and whether it was told that it succeeded -/
  | removed (k : Nat) (request : Pop3DeletionRequest) (before after : List MailboxRow)
      (owned : Bool) (ok : Bool)
  /-- the lock of a session was released -/
  | released (k : Nat)
  deriving DecidableEq

/-- The tables, the sessions and what they have done, newest first. -/
structure Pop3System where
  mailbox : List MailboxRow
  locks : List LockRow
  now : Nat := 0
  sessions : List Pop3Session := []
  log : List Pop3DbEvent := []

namespace Pop3System

inductive Input
  /-- a client connects -/
  | connect
  /-- something happens to a session that does not concern the tables -/
  | session (k : Nat) (i : Pop3Session.Input)
  | acquire (k : Nat) (o : SqlOutcome)
  /-- the SELECT of `verify`, in a login -/
  | verify (k : Nat) (ok : Bool)
  /-- the UPDATE of a heartbeat, which may have been under way when the session was closed -/
  | renew (k : Nat) (o : SqlOutcome)
  /-- the SELECT of `verify`, in a heartbeat -/
  | confirm (k : Nat) (ok : Bool)
  | mark (k : Nat) (o : SqlOutcome)
  | remove (k : Nat) (o : SqlOutcome)
  | release (k : Nat) (o : SqlOutcome)
  /-- `handle_timeout` releases the lock; that the session is closed comes later -/
  | timeout (k : Nat) (o : SqlOutcome)
  | sweep
  | tick (seconds : Nat)
  /-- an IMAP session sets or clears the flag of a row -/
  | store (userId mailboxId mailId : Nat) (isDeleted : Bool)
  /-- an IMAP session expunges a mailbox -/
  | expunge (userId mailboxId : Nat)
  /-- a delivery, or a copy by an IMAP session -/
  | insert (row : MailboxRow)

/-- The answers of the database come from the steps that are statements. -/
def isLocal : Pop3Session.Input → Bool
  | .command .. | .connected _ | .authenticated .. | .inbox _ | .loaded _ | .bodyRead _ | .leased _
  | .close => true
  | .acquired _ | .verified _ | .marked _ | .removed _ | .released _ | .renewed _ => false

variable (s : Pop3System)

def pendingOf (k : Nat) : Option Pop3Pending := s.sessions[k]?.bind (·.pending)

/-- The lock of session `k` once it is logged in. -/
def keyOf (k : Nat) : Option Pop3LockKey :=
  match s.sessions[k]? with
  | some t => if t.ctx.isAuthenticated then some { t.ctx with } else none
  | none => none

def owns (key : Pop3LockKey) : Bool := s.locks.any key.selects

/-- The status that `verify` gives. -/
def verifyStatus (key : Pop3LockKey) (ok : Bool) : Pop3LockStatus :=
  if !ok then .databaseError else if s.owns key then .owned else .notOwned

def advance (k : Nat) (i : Pop3Session.Input) : Pop3System :=
  { s with sessions := s.sessions.modify k fun t => t.step i }

def onLocks (o : SqlOutcome) (f : List LockRow → List LockRow) : Pop3System :=
  if o.executed then { s with locks := f s.locks } else s

def step : Input → Pop3System
  | .connect => { s with sessions := s.sessions ++ [{}] }
  | .session k i => if isLocal i then s.advance k i else s
  | .acquire k o =>
    match s.pendingOf k with
    | some (.acquire key _) =>
      (s.onLocks o (acquireLock key s.now)).advance k (.acquired o.reported)
    | _ => s
  | .verify k ok =>
    match s.pendingOf k with
    | some (.verify key _) => s.advance k (.verified (s.verifyStatus key ok))
    | _ => s
  | .renew k o =>
    match s.keyOf k with
    | some key =>
      let s := s.onLocks o (renewLock key s.now)
      if o.reported then s else s.advance k (.renewed .databaseError)
    | none => s
  | .confirm k ok =>
    match s.keyOf k with
    | some key => s.advance k (.renewed (s.verifyStatus key ok))
    | none => s
  | .mark k o =>
    match s.pendingOf k with
    | some (.mark request _) =>
      let s := if o.executed then { s with mailbox := markRows request s.mailbox } else s
      s.advance k (.marked o.reported)
    | _ => s
  | .remove k o =>
    match s.pendingOf k with
    | some (.remove request key) =>
      let after := expungeDelete request.mailboxId request.userId s.mailbox
      let s :=
        if o.executed then
          { s with
            mailbox := after
            log := .removed k request s.mailbox after (s.owns key) o.reported :: s.log }
        else s
      s.advance k (.removed o.reported)
    | _ => s
  | .release k o =>
    match s.pendingOf k with
    | some (.release _ key _) =>
      let s := s.onLocks o (releaseLock key)
      let s := if o.reported then { s with log := .released k :: s.log } else s
      s.advance k (.released o.reported)
    | some (.cleanUp key _) => (s.onLocks o (releaseLock key)).advance k (.released o.reported)
    | _ => s
  | .timeout k o =>
    match s.keyOf k with
    | some key => s.onLocks o (releaseLock key)
    | none => s
  | .sweep => { s with locks := sweepExpired s.now s.locks }
  | .tick seconds => { s with now := s.now + seconds }
  | .store userId mailboxId mailId isDeleted =>
    { s with
      mailbox := updateWhere
        (fun r => decide (r.userId = userId ∧ r.mailboxId = mailboxId ∧ r.mailId = mailId))
        (fun r => { r with isDeleted := isDeleted }) s.mailbox }
  | .expunge userId mailboxId => { s with mailbox := expungeDelete mailboxId userId s.mailbox }
  | .insert row => { s with mailbox := s.mailbox ++ [row] }

end Pop3System

end ProtoRelay
