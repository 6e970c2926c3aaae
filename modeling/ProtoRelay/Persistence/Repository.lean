import ProtoRelay.Smtp.Policy

/-!
# Persisting a mail

`PrimaryOperation` of the SQL persistence repository: one mail is written in one database
transaction.  The operation is a chain of driver calls, each with a continuation.  A continuation
does nothing once the operation is done or rolls back, and every exception of a driver call is
turned into a failure by the continuation that made the call.

The operation is embedded as a machine.  Its state holds the calls that the driver has not resolved
yet; an event resolves one of them, by its callback or by an exception, or lets a call throw that
has called back before.  No task does anything behind its driver call, so a callback that comes
before the call returns is the next event.
-/

namespace ProtoRelay

/-! ## Requests and results -/

/-- `mail`, with the fields only the persistence path reads. -/
structure StoredMail extends Mail where
  id : Nat
  ids : List Nat
  saveSentCopy : Bool := false

structure PersistenceOptions where
  localDomain : Bytes := bytes "example.com"
  maxAttempts : Nat := 8
  reserveOwner : Bytes := []
  reserveLeaseSeconds : Int := 0

structure PersistenceRequest where
  message : Option StoredMail
  options : PersistenceOptions := {}

inductive PersistenceDisposition
  | failed
  | committed
  | fileOnly
  | deduplicated
  deriving DecidableEq

inductive PersistenceTransaction
  | notStarted
  | committed
  | rolledBack
  | rollbackFailed
  deriving DecidableEq

structure PersistedOutboxRecord where
  id : Nat
  mailId : Nat
  sender : Bytes
  recipient : Bytes
  bodyPath : Bytes
  attemptCount : Int
  maxAttempts : Int
  deriving DecidableEq

structure PersistenceResult where
  disposition : PersistenceDisposition := .failed
  transaction : PersistenceTransaction := .notStarted
  sourceShard : Int := 0
  error : Bytes := []
  outboxRecords : List PersistedOutboxRecord := []
  deriving DecidableEq

def PersistenceResult.success (r : PersistenceResult) : Bool := r.disposition ≠ .failed

/-! ## Local and remote recipients -/

/-- `domain` of the repository and `extract_domain_lower` of the SQL builder: the text behind the
first `@`, in lower case. -/
def domainAfterFirstAt (address : Bytes) : Bytes :=
  match findByte 64 address with
  | none => []
  | some pos => toLower (address.drop (pos + 1))

namespace PersistenceOptions

/-- The recipients for whom `local_mailboxes_next` creates a mailbox relation. -/
def isLocal (options : PersistenceOptions) (recipient : Bytes) : Bool :=
  !(domainAfterFirstAt recipient).isEmpty && domainAfterFirstAt recipient ==
    toLower options.localDomain

/-- The recipients for whom `outbox_next` creates an outbox row. -/
def isRemote (options : PersistenceOptions) (recipient : Bytes) : Bool :=
  !(domainAfterFirstAt recipient).isEmpty &&
    domainAfterFirstAt recipient != toLower options.localDomain

/-- Outbox rows are inserted as reserved by this server. -/
def reserved (options : PersistenceOptions) : Bool :=
  !options.reserveOwner.isEmpty && decide (0 < options.reserveLeaseSeconds)

/-- The status `build_insert_recipients` gives a recipient. -/
def recipientStatus (options : PersistenceOptions) (recipient : Bytes) : Nat :=
  if options.isLocal recipient then 1 else 2

end PersistenceOptions

/-! ## The driver -/

/-- A row of a query result. -/
abbrev Row := List (Bytes × Bytes)

def getValue (rows : List Row) (column : Bytes) : Bytes :=
  ((rows.head?.getD []).lookup column).getD []

/-- The calls to the database driver, with what their statements contain. -/
inductive Call
  | dedup (sender recipient messageId : Bytes)
  | begin
  | insertMail (id : Nat) (subject bodyPath : Bytes)
  | insertRecipients (rows : List (Nat × Bytes × Nat))
  | sentMailbox (sender : Bytes)
  | insertSent (id : Nat) (mailboxId userId : Bytes)
  | insertAttachments (attachments : List Attachment)
  | insertOutbox (recipient : Bytes) (reserved : Bool)
  | lastInsertId (recipient : Bytes) (reserved : Bool)
  | commit
  /-- the error is what the operation fails with once it is rolled back -/
  | rollback (error : Bytes)
  deriving DecidableEq

/-- What a callback gets: `ok` of a statement, or the rows of a query, which may be null or throw
when they are read. -/
structure Answer where
  ok : Bool := false
  rows : Option (List Row) := none
  unreadable : Option Bytes := none
  deriving DecidableEq

def Answer.found (a : Answer) : Bool := (a.rows.getD []) ≠ []

/-- How the synchronous insertion of a mailbox relation ends: with a row, without one, or by an
exception. -/
inductive MailboxInsert
  | created
  | nothing
  | threw (what : Bytes)
  deriving DecidableEq

/-- What is recorded of an operation. -/
inductive DbEvent
  | called (c : Call)
  | answered (c : Call) (a : Answer)
  | threw (c : Call)
  | mailbox (recipient : Bytes) (outcome : MailboxInsert)
  | disconnected
  deriving DecidableEq

/-- A connection pool: a connection is acquired, which may throw or give an invalid one. -/
abbrev DbPool := Except Bytes Bool

/-- `IShardRouter`, as far as the repository uses it. -/
structure ShardRouter where
  route : Bytes → Except Bytes Int
  getDbPool : Nat → Except Bytes (Option DbPool)

/-! ## The operation -/

/-- `PrimaryOperation`.  `completed` are the results reported, with the record up to then, and `log`
is newest first. -/
structure PrimaryOperation where
  done : Bool := false
  rollingBack : Bool := false
  transaction : Bool := false
  dedupIndex : Nat := 0
  outboxIndex : Nat := 0
  result : PersistenceResult := {}
  calls : List Call := []
  log : List DbEvent := []
  completed : List (PersistenceResult × List DbEvent) := []

namespace PrimaryOperation

def record (s : PrimaryOperation) (e : DbEvent) : PrimaryOperation := { s with log := e :: s.log }

def issue (s : PrimaryOperation) (c : Call) : PrimaryOperation :=
  { s with calls := s.calls ++ [c], log := .called c :: s.log }

/-- `guard`, without its exception handlers. -/
def guard (s : PrimaryOperation) (task : PrimaryOperation → PrimaryOperation) : PrimaryOperation :=
  if s.done || s.rollingBack then s else task s

def finish (s : PrimaryOperation) (disposition : PersistenceDisposition) (error : Bytes) :
    PrimaryOperation :=
  if s.done then s
  else
    let result := { s.result with
      disposition
      error
      outboxRecords := if disposition = .committed then s.result.outboxRecords else [] }
    { s with done := true, result, completed := (result, s.log) :: s.completed }

def fail (s : PrimaryOperation) (error : Bytes) : PrimaryOperation :=
  if s.done || s.rollingBack then s
  else if !s.transaction then { s with rollingBack := true }.finish .failed error
  else { s with rollingBack := true, transaction := false }.issue (.rollback error)

/-- The callback of the rollback; a connection that could not roll back is closed. -/
def rollbackDone (s : PrimaryOperation) (error : Bytes) (ok : Bool) : PrimaryOperation :=
  if s.done then s
  else
    let s := if ok then s else s.record .disconnected
    { s with
      result := { s.result with transaction := if ok then .rolledBack else .rollbackFailed }
        }.finish
        .failed error

variable (m : StoredMail) (options : PersistenceOptions)

/-- `begin`; the transaction is open from here on, since a call that throws may have begun it. -/
def begin (s : PrimaryOperation) : PrimaryOperation := { s with transaction := true }.issue .begin

def deduplicateNext (s : PrimaryOperation) : PrimaryOperation :=
  if m.sourceMessageId = [] ∨ m.recipients = [] then s.begin
  else
    match m.recipients[s.dedupIndex]? with
    | none => s.finish .deduplicated []
    | some recipient =>
      { s with dedupIndex := s.dedupIndex + 1 }.issue (.dedup m.sender recipient m.sourceMessageId)

def insertMetadata (s : PrimaryOperation) : PrimaryOperation :=
  if m.recipients = [] ∨ m.ids.length < m.recipients.length then
    s.fail (bytes "Invalid mail recipient metadata")
  else s.issue (.insertMail m.id m.subject m.bodyPath)

def recipientRows : List (Nat × Bytes × Nat) :=
  List.zipWith (fun id recipient => (id, recipient, options.recipientStatus recipient))
    m.ids m.recipients

/-- The loop of `outbox_next` over the recipients that are left. -/
def outboxLoop : List Bytes → PrimaryOperation → PrimaryOperation
  | [], s => s.issue .commit
  | recipient :: rest, s =>
    let s := { s with outboxIndex := s.outboxIndex + 1 }
    if options.isRemote recipient then s.issue (.insertOutbox recipient options.reserved)
    else outboxLoop rest s

def outboxNext (s : PrimaryOperation) : PrimaryOperation :=
  outboxLoop options (m.recipients.drop s.outboxIndex) s

def insertAttachments (s : PrimaryOperation) : PrimaryOperation :=
  if m.attachments = [] then s.outboxNext m options else s.issue (.insertAttachments m.attachments)

/-- `local_mailboxes_next`: the insertions are made one after the other, and their results are
ignored unless one throws; `inserts` is how the one for the `i`-th recipient ends. -/
def localMailboxesLoop (inserts : Nat → MailboxInsert) :
    List Bytes → Nat → PrimaryOperation → PrimaryOperation
  | [], _, s => s.insertAttachments m options
  | recipient :: rest, i, s =>
    if options.isLocal recipient then
      let s := s.record (.mailbox recipient (inserts i))
      match inserts i with
      | .threw what => s.fail what
      | _ => localMailboxesLoop inserts rest (i + 1) s
    else localMailboxesLoop inserts rest (i + 1) s

variable (inserts : Nat → MailboxInsert)

def localMailboxesNext (s : PrimaryOperation) : PrimaryOperation :=
  localMailboxesLoop m options inserts m.recipients 0 s

def sentCopy (s : PrimaryOperation) : PrimaryOperation :=
  if !m.saveSentCopy then s.localMailboxesNext m options inserts
  else s.issue (.sentMailbox m.sender)

def insertedId (a : Answer) : Option Nat :=
  if a.found then
    match parseUint (getValue (a.rows.getD []) (bytes "id")) with
    | some id => if id = 0 then none else some id
    | none => none
  else none

/-- `static_cast<int>` of a `size_t`. -/
def staticCastInt (n : Nat) : Int := (BitVec.ofNat 32 n).toInt

/-- The record `outbox_next` keeps of an inserted row. -/
def outboxRecord (id : Nat) (recipient : Bytes) (reserved : Bool) : PersistedOutboxRecord where
  id := id
  mailId := m.id
  sender := m.sender
  recipient := recipient
  bodyPath := m.bodyPath
  attemptCount := if reserved then 1 else 0
  maxAttempts := if reserved then 8 else staticCastInt options.maxAttempts

/-- A query's callback, which may throw when it reads the rows. -/
def readRows (a : Answer) (task : PrimaryOperation → PrimaryOperation) (s : PrimaryOperation) :
    PrimaryOperation :=
  match a.unreadable with
  | some what => s.fail what
  | none => task s

/-- The task of a statement's callback: the operation goes on, or fails with `error`. -/
def unlessFailed (a : Answer) (error : Bytes) (task : PrimaryOperation → PrimaryOperation)
    (s : PrimaryOperation) : PrimaryOperation :=
  if !a.ok then s.fail error else task s

/-- The callback of a call, inside its guard; the rollback has no guard. -/
def callback (a : Answer) (s : PrimaryOperation) : Call → PrimaryOperation
  | .dedup .. => s.guard (readRows a fun s => if a.found then s.deduplicateNext m else s.begin)
  | .begin =>
    s.guard fun s =>
      if !a.ok then { s with transaction := false }.fail (bytes "Failed to begin transaction")
      else s.insertMetadata m
  | .insertMail .. =>
    s.guard (unlessFailed a (bytes "Failed to insert mail metadata") fun s =>
      s.issue (.insertRecipients (recipientRows m options)))
  | .insertRecipients _ =>
    s.guard (unlessFailed a (bytes "Failed to insert mail recipients") (sentCopy m options inserts))
  | .sentMailbox _ =>
    s.guard (readRows a fun s =>
      if a.found then
        s.issue (.insertSent m.id (getValue (a.rows.getD []) (bytes "mailbox_id"))
          (getValue (a.rows.getD []) (bytes "user_id")))
      else s.fail (bytes "Sent mailbox unavailable"))
  | .insertSent .. =>
    s.guard (unlessFailed a (bytes "Sent relation insert failed")
      (localMailboxesNext m options inserts))
  | .insertAttachments _ =>
    s.guard (unlessFailed a (bytes "Failed to insert attachment metadata") (outboxNext m options))
  | .insertOutbox recipient reserved =>
    s.guard (unlessFailed a (bytes "Failed to insert outbox row") fun s =>
      s.issue (.lastInsertId recipient reserved))
  | .lastInsertId recipient reserved =>
    s.guard (readRows a fun s =>
      match insertedId a with
      | none => s.fail (bytes "Failed to fetch LAST_INSERT_ID")
      | some id =>
        { s with
          result := { s.result with
            outboxRecords :=
              s.result.outboxRecords ++ [outboxRecord m options id recipient reserved] }
                }.outboxNext
          m options)
  | .commit =>
    s.guard (unlessFailed a (bytes "Failed to commit transaction") fun s =>
      { s with
        transaction := false
        result := { s.result with transaction := .committed } }.finish .committed [])
  | .rollback error => s.rollbackDone error a.ok

/-! ## The machine -/

inductive Event
  /-- the callback of the `index`-th unresolved call runs -/
  | answer (index : Nat) (a : Answer) (inserts : Nat → MailboxInsert)
  /-- the `index`-th unresolved call throws and does not call back -/
  | throws (index : Nat) (what : Bytes)
  /-- a call throws that has called back -/
  | throwsAfter (what : Bytes)

def resolve (s : PrimaryOperation) (index : Nat) (e : DbEvent) : PrimaryOperation :=
  { s with calls := s.calls.eraseIdx index, log := e :: s.log }

/-- An exception of a call: the rollback has its own handler. -/
def threw (s : PrimaryOperation) (what : Bytes) : Call → PrimaryOperation
  | .rollback error => s.rollbackDone error false
  | _ => s.fail what

def step (s : PrimaryOperation) : Event → PrimaryOperation
  | .answer index a inserts =>
    match s.calls[index]? with
    | none => s
    | some c => (s.resolve index (.answered c a)).callback m options inserts a c
  | .throws index what =>
    match s.calls[index]? with
    | none => s
    | some c => (s.resolve index (.threw c)).threw what c
  | .throwsAfter what => s.fail what

variable (router : Option ShardRouter)

def sourceShard : Except Bytes Int :=
  let key := if m.sender ≠ [] then m.sender else m.recipients.head?.getD []
  match router with
  | none => .ok 0
  | some router => if key = [] then .ok 0 else (router.route key).map (max 0)

def start (request : PersistenceRequest) : PrimaryOperation :=
  match request.message with
  | none => fail {} (bytes "Mail data is null")
  | some m =>
    match sourceShard m router with
    | .error what => fail {} what
    | .ok shard =>
      let s : PrimaryOperation := { result := { sourceShard := shard } }
      match router with
      | none => s.finish .fileOnly []
      | some router =>
        match router.getDbPool shard.toNat with
        | .error what => s.fail what
        | .ok none => s.finish .fileOnly []
        | .ok (some (.error what)) => s.fail what
        | .ok (some (.ok valid)) =>
          if !valid then s.fail (bytes "Failed to get database connection")
          else s.deduplicateNext m

end PrimaryOperation

end ProtoRelay
