import ProtoRelay.Base.Bytes
import ProtoRelay.Base.Runs
import ProtoRelay.Base.Slots
import ProtoRelay.Base.Tables
import Mathlib.Data.List.Sort

/-!
# The outbox

The table `mail_outbox` holds a row for every external recipient of an accepted mail.  Outbound
servers, the workers, select rows and claim them by leases, deliver the mails, and write the outcome
back.  Every statement is atomic; between two statements of one worker any number of others may run.
-/

namespace ProtoRelay

inductive OutboxStatus
  | pending
  | sending
  | sent
  | retry
  | dead
  deriving DecidableEq

/-- A row of `mail_outbox`, with times in seconds. -/
structure OutboxRow where
  id : Nat
  mailId : Nat
  sender : Bytes
  recipient : Bytes
  status : OutboxStatus
  priority : Int := 0
  attemptCount : Int
  maxAttempts : Int
  nextAttemptAt : Nat
  leaseOwner : Option Bytes := none
  leaseUntil : Option Nat := none
  lastErrorMessage : Option Bytes := none
  smtpResponse : Option Bytes := none
  sentAt : Option Nat := none

namespace OutboxRow

variable (now : Nat) (r : OutboxRow)

/-- `lease_until IS NULL OR lease_until <= NOW()`. -/
def unleased : Bool :=
  match r.leaseUntil with
  | none => true
  | some leaseUntil => decide (leaseUntil ≤ now)

/-- The rows the claim's UPDATE changes: PENDING or RETRY, and not leased. -/
def isClaimable : Bool :=
  (r.status = .pending || r.status = .retry) && r.unleased now

/-- The rows the claim's SELECT finds. -/
def isSelected : Bool :=
  r.isClaimable now && decide (r.nextAttemptAt ≤ now)

/-- The rows whose lease has expired: SENDING, with `lease_until` in the past. -/
def isExpired : Bool :=
  r.status = .sending && r.leaseUntil.any (· ≤ now)

/-- The row as the claim's UPDATE leaves it. -/
def claimed (worker : Bytes) (leaseSeconds : Nat) (r : OutboxRow) : OutboxRow :=
  { r with
    status := .sending
    leaseOwner := some worker
    leaseUntil := some (now + leaseSeconds)
    attemptCount := r.attemptCount + 1 }

end OutboxRow

/-! ## The statements -/

abbrev OutboxTable := List OutboxRow

namespace OutboxTable

/-- `build_insert_outbox_pending`. -/
def insertPending (now id mailId : Nat) (sender recipient : Bytes) (maxAttempts : Int)
    (rows : OutboxTable) : OutboxTable :=
  rows ++ [{ id, mailId, sender, recipient, status := .pending, attemptCount := 0, maxAttempts,
             nextAttemptAt := now }]

/-- `build_insert_outbox_reserved`. -/
def insertReserved (now id mailId : Nat) (sender recipient owner : Bytes) (leaseSeconds : Int)
    (rows : OutboxTable) : OutboxTable :=
  rows ++ [{ id, mailId, sender, recipient, status := .sending, attemptCount := 1, maxAttempts := 8,
             nextAttemptAt := now, leaseOwner := some owner
             leaseUntil := some (now + (max 1 leaseSeconds).toNat) }]

/-- `ORDER BY o.priority DESC, o.id ASC`. -/
def claimOrder (r r' : OutboxRow) : Bool :=
  decide (r'.priority < r.priority ∨ r.priority = r'.priority ∧ r.id ≤ r'.id)

/-- `build_outbox_claim_select`. -/
def claimSelect (now limit : Nat) (rows : OutboxTable) : List OutboxRow :=
  ((rows.filter (·.isSelected now)).mergeSort claimOrder).take limit

/-- `build_outbox_claim_update`. -/
def claimUpdate (now id : Nat) (worker : Bytes) (leaseSeconds : Nat) : OutboxTable → OutboxTable :=
  updateWhere (fun r => r.id = id && r.isClaimable now) (·.claimed now worker leaseSeconds)

/-- `build_outbox_release_reservations`. -/
def releaseReservations (ids : List Nat) : OutboxTable → OutboxTable :=
  updateWhere (fun r => decide (r.id ∈ ids) && r.status = .sending) fun r =>
    { r with
      status := .pending
      attemptCount := max (r.attemptCount - 1) 0
      leaseOwner := none
      leaseUntil := none }

/-- `build_outbox_mark_sent`. -/
def markSent (now id : Nat) (smtpResponse : Bytes) : OutboxTable → OutboxTable :=
  updateWhere (·.id = id) fun r =>
    { r with
      status := .sent
      sentAt := some now
      smtpResponse := some smtpResponse
      leaseOwner := none
      leaseUntil := none }

/-- `build_outbox_mark_retry_or_dead`. -/
def markRetryOrDead (now id : Nat) (status : OutboxStatus) (error : Bytes)
    (retryDelaySeconds : Int) :
    OutboxTable → OutboxTable :=
  updateWhere (·.id = id) fun r =>
    { r with
      status
      lastErrorMessage := some error
      leaseOwner := none
      leaseUntil := none
      nextAttemptAt := now + (max 1 retryDelaySeconds).toNat }

/-- `build_outbox_mark_dead`. -/
def markDead (id : Nat) (error : Bytes) : OutboxTable → OutboxTable :=
  updateWhere (·.id = id) fun r =>
    { r with
      status := .dead
      lastErrorMessage := some error
      leaseOwner := none
      leaseUntil := none }

/-- `build_outbox_requeue_expired_leases`. -/
def requeueExpiredLeases (now : Nat) : OutboxTable → OutboxTable :=
  updateWhere (·.isExpired now) fun r =>
    { r with status := .retry, leaseOwner := none, leaseUntil := none, nextAttemptAt := now }

/-- What `mark_retry` decides from `build_outbox_select_attempts`: a row that has no attempts left
is DEAD, and one that is not found is given RETRY, which changes nothing. -/
def retryStatus (id : Nat) (rows : OutboxTable) : OutboxStatus :=
  match rows.find? (·.id = id) with
  | none => .retry
  | some r => if r.maxAttempts ≤ r.attemptCount then .dead else .retry

end OutboxTable

/-! ## Workers -/

/-- A row in the hands of a worker: until when it has a lease, if it has one, and what `mark_retry`
has decided.  `isDone` says that its outcome was written back, or that it was lost: by a closed
session, a stopped server or a crash. -/
structure Delivery where
  worker : Bytes
  id : Nat
  leaseUntil : Option Nat
  decided : Option OutboxStatus := none
  isDone : Bool := false

/-- The table, the clock, the rows that claim cycles have selected and not yet tried to claim, and
the deliveries. -/
structure Outbox where
  now : Nat := 0
  nextId : Nat := 1
  rows : OutboxTable := []
  selected : List (Bytes × Nat) := []
  deliveries : List Delivery := []

namespace Outbox

/-- `DEFAULT_BATCH_SIZE`. -/
def batchSize : Nat := 32

/-- The lease of `do_claim_batch`, in seconds. -/
def claimLease : Nat := 120

/-- The delay of `on_delivery_complete`, in seconds. -/
def retryDelay : Int := 30

inductive Input
  | tick (seconds : Nat)
  | insertPending (mailId : Nat) (sender recipient : Bytes) (maxAttempts : Int)
  | insertReserved (mailId : Nat) (sender recipient owner : Bytes) (leaseSeconds : Int)
  /-- a persisted record is handed to the server's `submit` -/
  | submit (worker : Bytes) (id : Nat)
  /-- a claim cycle begins with its SELECT -/
  | claimSelect (worker : Bytes)
  /-- a claim cycle tries to claim a row it has selected; `reported` says whether the worker learns
  of a row it has claimed -/
  | claimUpdate (worker : Bytes) (id : Nat) (reported : Bool)
  /-- the outcome of the `k`-th delivery is written back -/
  | markSent (k : Nat) (smtpResponse : Bytes)
  | markDead (k : Nat) (error : Bytes)
  /-- the first statement of `mark_retry`, which may fail, and its second -/
  | selectAttempts (k : Nat) (answered : Bool)
  | markRetry (k : Nat) (error : Bytes)
  /-- the `k`-th delivery is lost -/
  | lose (k : Nat)
  | release (worker : Bytes) (ids : List Nat)
  | requeueExpiredLeases

/-- The lease under which a worker is handed a record: it has one only if the row was reserved. -/
def leaseOf (s : Outbox) (worker : Bytes) (id : Nat) : Option Nat :=
  match s.rows.find? (·.id = id) with
  | some r => if r.status = .sending ∧ r.leaseOwner = some worker then r.leaseUntil else none
  | none => none

/-- The delivery's outcome is written back, if it is not done. -/
def writeBack (s : Outbox) (k : Nat) (statement : Delivery → OutboxTable → OutboxTable) : Outbox :=
  match s.deliveries[k]? with
  | none => s
  | some d =>
    if d.isDone then s
    else
      { s with
        rows := statement d s.rows
        deliveries := s.deliveries.modify k fun d => { d with isDone := true } }

def step (s : Outbox) : Input → Outbox
  | .tick seconds => { s with now := s.now + seconds }
  | .insertPending mailId sender recipient maxAttempts =>
    { s with
      nextId := s.nextId + 1
      rows := s.rows.insertPending s.now s.nextId mailId sender recipient maxAttempts }
  | .insertReserved mailId sender recipient owner leaseSeconds =>
    { s with
      nextId := s.nextId + 1
      rows := s.rows.insertReserved s.now s.nextId mailId sender recipient owner leaseSeconds }
  | .submit worker id =>
    if s.rows.any (·.id = id) then
      { s with deliveries := s.deliveries ++ [{ worker, id, leaseUntil := s.leaseOf worker id }] }
    else s
  | .claimSelect worker =>
    let found := (s.rows.claimSelect s.now batchSize).map fun r => (worker, r.id)
    { s with selected := s.selected ++ found }
  | .claimUpdate worker id reported =>
    if (worker, id) ∈ s.selected then
      -- the worker learns of the row by the number of rows affected
      let affected := s.rows.any fun r => r.id = id && r.isClaimable s.now
      { s with
        selected := s.selected.erase (worker, id)
        rows := s.rows.claimUpdate s.now id worker claimLease
        deliveries :=
          if affected && reported then
            s.deliveries ++ [{ worker, id, leaseUntil := some (s.now + claimLease) }]
          else s.deliveries }
    else s
  | .markSent k smtpResponse => s.writeBack k fun d => OutboxTable.markSent s.now d.id smtpResponse
  | .markDead k error => s.writeBack k fun d => OutboxTable.markDead d.id error
  | .selectAttempts k answered =>
    { s with
      deliveries := s.deliveries.modify k fun d =>
        { d with decided := if answered then s.rows.retryStatus d.id else some .retry } }
  | .markRetry k error =>
    match (s.deliveries[k]?).bind (·.decided) with
    | none => s
    | some status =>
      s.writeBack k fun d => OutboxTable.markRetryOrDead s.now d.id status error retryDelay
  | .lose k => { s with deliveries := s.deliveries.modify k fun d => { d with isDone := true } }
  | .release _ ids => { s with rows := s.rows.releaseReservations ids }
  | .requeueExpiredLeases => { s with rows := s.rows.requeueExpiredLeases s.now }

end Outbox

end ProtoRelay
