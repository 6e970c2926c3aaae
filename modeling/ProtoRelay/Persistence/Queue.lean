import ProtoRelay.Base.Runs
import ProtoRelay.Persistence.Repository

/-!
# The persistence queue

`PersistentQueue` admits mails, a worker thread takes them off the queue one by one and posts a task
for each to the worker pool, the task hands the mail to the repository, and the callback of the
repository posts a second task that finalizes the mail.  Every mail has a `PersistTask`, which says
how far its threads have come; the critical sections of `submission_mutex_` are single steps, and so
is the completion of a ticket, which has a mutex of its own.
-/

namespace ProtoRelay

/-! ## Backpressure -/

/-- `PersistentQueuePressureConfig`. -/
structure PressureConfig where
  maxInflightMails : Nat := 2048
  minAvailableMemoryMb : Nat := 256
  minDbAvailableConnections : Nat := 1

/-- What the pressure checks read: the available connections of the database pool, if there is one,
and the available memory, if it can be asked for. -/
structure Pressure where
  availableConnections : Option Nat := none
  availableBytes : Option Nat := none

variable (config : PressureConfig)

def PressureConfig.isDbUnderPressure (p : Pressure) : Bool :=
  match p.availableConnections with
  | none => false
  | some available => decide (available < config.minDbAvailableConnections)

def PressureConfig.isMemoryUnderPressure (p : Pressure) : Bool :=
  match p.availableBytes with
  | none => false
  | some available => decide (available < config.minAvailableMemoryMb * 1024 * 1024)

/-- `should_reject_submission`: the reason, empty if there is none. -/
def PressureConfig.shouldRejectSubmission (inflight : Int) (p : Pressure) : Bytes :=
  if 0 < config.maxInflightMails ∧ (config.maxInflightMails : Int) ≤ inflight then
    bytes "persist inflight limit reached"
  else if config.isDbUnderPressure p then bytes "database available connections below threshold"
  else if config.isMemoryUnderPressure p then bytes "available memory below threshold"
  else []

/-! ## Mails in the queue -/

/-- `PersistResult`, without the mail's id; this one is never a timeout. -/
structure PersistResult where
  status : PersistStatus
  error : Bytes := []
  deduplicated : Bool := false

/-- How far a mail has come.  `onWorker` says that the thread is the queue's own, in `process_task`,
and not one of the pool. -/
inductive Phase
  /-- in the queue -/
  | queued
  /-- taken off the queue -/
  | popped
  /-- about to be posted to the pool -/
  | posting
  /-- its task waits in the pool -/
  | posted
  /-- its task is about to hand it to the repository -/
  | starting
  /-- with the repository -/
  | persisting
  /-- `complete` has been called, and is about to post the second task -/
  | received (r : PersistenceResult)
  /-- its second task waits in the pool -/
  | finalizing (r : PersistenceResult)
  /-- its files are about to be removed -/
  | removing (onWorker : Bool) (status : PersistStatus) (error : Bytes)
  /-- `finish` is about to be called -/
  | finishing (onWorker : Bool) (status : PersistStatus) (error : Bytes)
  /-- its ticket is complete, and `finish_task` is about to be called -/
  | completed (onWorker : Bool)
  /-- `finish_task` has returned -/
  | finished
  deriving DecidableEq

def Phase.onWorker : Phase → Bool
  | .popped | .posting => true
  | .removing onWorker .. | .finishing onWorker .. | .completed onWorker => onWorker
  | _ => false

/-- What the threads of a mail share: its status, the ticket's flag and result, the flags `received`
and `once` of `process_task`, whether the removal of its files was asked for, whether
`persist_async` was called, and what the repository has reported so far. -/
structure PersistRecord where
  status : PersistStatus := .pending
  cancelRequested : Bool := false
  result : Option PersistResult := none
  received : Bool := false
  once : Bool := false
  deduplicatedInbound : Bool := false
  removed : Bool := false
  called : Bool := false
  reports : List PersistenceDisposition := []

/-- A mail that was admitted. -/
structure PersistTask extends PersistRecord where
  phase : Phase := .queued

namespace PersistTask

variable (t : PersistTask)

/-- `complete`: only the first call counts. -/
def complete (r : PersistenceResult) : PersistTask :=
  if t.received then t
  else
    { t with
      received := true
      deduplicatedInbound := decide (r.disposition = .deduplicated)
      phase := .received r }

def callback (r : PersistenceResult) : PersistTask :=
  if t.called then { t with reports := t.reports ++ [r.disposition] }.complete r else t

def threw (what : Bytes) : PersistTask :=
  if t.called then t.complete { error := what } else t

/-- `finish`, up to `finish_task`: the ticket is completed, unless it has a result. -/
def finish (onWorker : Bool) (status : PersistStatus) (error : Bytes) : PersistTask :=
  if t.once then { t with phase := .finished }
  else
    let t := { t with once := true, phase := .completed onWorker }
    if t.result.isSome then t
    else
      { t with
        status
        result := some { status, error, deduplicated := t.deduplicatedInbound } }

/-- The next step of the thread that has the mail, up to `finish_task`; `posts` says whether a
post in it succeeds.  A mail in the queue waits for the queue's thread, one with the repository
for it. -/
def advance (shutdown posts : Bool) : PersistTask :=
  match t.phase with
  | .popped =>
    if shutdown then
      let error := bytes "queue shutdown before persistence started"
      { t with phase := .removing true .cancelled error }
    else { t with phase := .posting }
  | .posting =>
    if posts then { t with phase := .posted }
    else { t with phase := .removing true .failed (bytes "Cannot schedule persistence") }
  | .posted =>
    if t.cancelRequested || shutdown then
      { t with phase := .removing false .cancelled (bytes "cancelled before persistence started") }
    else { t with phase := .starting }
  | .starting => { t with status := .processing, called := true, phase := .persisting }
  | .received r =>
    if posts then { t with phase := .finalizing r }
    else if r.disposition = .failed then
      { t with phase := .removing false .failed (bytes "Cannot schedule persistence cleanup") }
    else if r.disposition = .deduplicated then { t with phase := .removing false .success [] }
    else { t with phase := .finishing false .success [] }
  | .finalizing r =>
    -- `cleanup_failed_mail` asks for the removal whatever the erasure of the metadata does
    if r.disposition = .failed then { t with phase := .removing false .failed r.error }
    else if r.disposition = .deduplicated then { t with phase := .removing false .success [] }
    else { t with phase := .finishing false .success [] }
  | .removing onWorker status error =>
    { t with removed := true, phase := .finishing onWorker status error }
  | .finishing onWorker status error => t.finish onWorker status error
  | .completed _ => { t with phase := .finished }
  | .queued | .persisting | .finished => t

end PersistTask

/-! ## The queue -/

inductive Worker
  | waiting
  | processing (index : Nat)
  | exited
  deriving DecidableEq

/-- `PersistentQueue`.  `mails` are all that were admitted, and `taskQueue` the indices of those in
the queue; the counters are integers, so that one that fell below zero would show. -/
structure PersistentQueue where
  shutdown : Bool := false
  worker : Worker := .waiting
  taskQueue : List Nat := []
  queuedTaskCount : Int := 0
  inflightMailCount : Int := 0
  mails : List PersistTask := []

namespace PersistentQueue

def capacity : Nat := 16384

/-- `submit_owned_mail` of a mail with this status: the queue, and the reason if it is rejected. -/
def submitOwnedMail (config : PressureConfig) (s : PersistentQueue) (status : Option PersistStatus)
    (p : Pressure) : PersistentQueue × Option Bytes :=
  match status with
  | none => (s, some (bytes "mail is null"))
  | some status =>
    let reason := config.shouldRejectSubmission s.inflightMailCount p
    if s.shutdown then (s, some (bytes "persistent queue is shutdown"))
    else if status ≠ .pending then (s, some (bytes "mail is not pending"))
    else if reason ≠ [] then (s, some reason)
    else
      -- both counters are increased first, and decreased again if the queue is full
      let s' := { s with
        queuedTaskCount := s.queuedTaskCount + 1
        inflightMailCount := s.inflightMailCount + 1 }
      if capacity ≤ s.taskQueue.length then
        ({ s' with
            queuedTaskCount := s'.queuedTaskCount - 1
            inflightMailCount := s'.inflightMailCount - 1 },
          some (bytes "persistent queue is full"))
      else
        let t : PersistTask := {}
        ({ s' with taskQueue := s'.taskQueue ++ [s'.mails.length], mails := s'.mails ++ [t] }, none)

/-- `process_task`, up to the first thing it does with the mail: the thread waits until there is a
mail or the queue is shut down, and exits if it then finds none. -/
def processTask (s : PersistentQueue) : PersistentQueue :=
  if s.worker ≠ .waiting then s
  else if s.shutdown ∨ 0 < s.queuedTaskCount then
    match s.taskQueue with
    | [] => { s with worker := .exited }
    | i :: rest =>
      { s with
        taskQueue := rest
        queuedTaskCount := s.queuedTaskCount - 1
        worker := .processing i
        mails := s.mails.modify i fun t => { t with phase := .popped } }
  else s

/-- The next step of the thread that has the mail; `finish_task` is the last one, and the queue's
thread goes back to waiting when it no longer has it. -/
def advance (s : PersistentQueue) (i : Nat) (posts : Bool) : PersistentQueue :=
  match s.mails[i]? with
  | none => s
  | some t =>
    let t' := t.advance s.shutdown posts
    { s with
      mails := s.mails.modify i (·.advance s.shutdown posts)
      inflightMailCount :=
        match t.phase with
        | .completed _ => s.inflightMailCount - 1
        | _ => s.inflightMailCount
      worker := if t.phase.onWorker && !t'.phase.onWorker then .waiting else s.worker }

inductive Input
  /-- a mail is submitted -/
  | submit (status : Option PersistStatus) (p : Pressure)
  /-- `request_cancel` on its ticket -/
  | cancel (i : Nat)
  | shutdown
  /-- the queue's thread goes on -/
  | processTask
  /-- the thread that has the mail goes on -/
  | advance (i : Nat) (posts : Bool)
  /-- the repository calls back for the mail -/
  | callback (i : Nat) (r : PersistenceResult)
  /-- `persist_async` throws for the mail -/
  | throws (i : Nat) (what : Bytes)

def step (config : PressureConfig) (s : PersistentQueue) : Input → PersistentQueue
  | .submit status p => (s.submitOwnedMail config status p).1
  | .cancel i => { s with mails := s.mails.modify i fun t => { t with cancelRequested := true } }
  | .shutdown => { s with shutdown := true }
  | .processTask => s.processTask
  | .advance i posts => s.advance i posts
  | .callback i r => { s with mails := s.mails.modify i (·.callback r) }
  | .throws i what => { s with mails := s.mails.modify i (·.threw what) }

end PersistentQueue

end ProtoRelay
