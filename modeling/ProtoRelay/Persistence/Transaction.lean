import ProtoRelay.Base.Runs
import ProtoRelay.Persistence.Repository

/-!
# The primary transaction

What the database makes of an operation is read off the record of its calls (`observe`): rows are
collected in the open transaction, become durable when its COMMIT is reported successful, and are
dropped when a rollback is asked for.  Against this, the module proves what an operation reports:
it completes exactly once, `committed` only with all its rows durable, `failed` only with nothing
left open, and `deduplicated` only if every recipient was found.
-/

namespace ProtoRelay

open List PrimaryOperation

/-! ## The database -/

/-- A row that concerns one recipient. -/
inductive DbRow
  | outbox (recipient : Bytes)
  | mailbox (recipient : Bytes)
  deriving DecidableEq

def DbRow.outbox? : DbRow → Option Bytes
  | .outbox recipient => some recipient
  | .mailbox _ => none

/-- What the database holds: the rows of the open transaction, the durable ones, and those inserted
outside of a transaction. -/
structure DbView where
  isOpen : Bool := false
  rows : List DbRow := []
  durable : List DbRow := []
  outside : List DbRow := []

def DbView.insert (v : DbView) (row : DbRow) : DbView :=
  if v.isOpen then { v with rows := v.rows ++ [row] } else { v with outside := v.outside ++ [row] }

/-- What an event does to the database. -/
def DbView.after (v : DbView) : DbEvent → DbView
  | .answered .begin a => if a.ok then { v with isOpen := true, rows := [] } else v
  | .answered (.insertOutbox recipient _) a => if a.ok then v.insert (.outbox recipient) else v
  | .answered .commit a =>
    if a.ok then { v with isOpen := false, rows := [], durable := v.durable ++ v.rows } else v
  | .mailbox recipient .created => v.insert (.mailbox recipient)
  | .called (.rollback _) => { v with isOpen := false, rows := [] }
  | _ => v

variable (log : List DbEvent)

/-- The database after a record, which is newest first. -/
def observe : DbView := log.foldr (fun e v => v.after e) {}

@[simp] theorem observe_cons (e : DbEvent) (log : List DbEvent) :
    observe (e :: log) = (observe log).after e := rfl

/-- The database does not change with the event, and it is not about a mailbox. -/
def DbEvent.silent : DbEvent → Bool
  | .called (.rollback _) => false
  | .answered .begin _ | .answered (.insertOutbox ..) _ | .answered .commit _ => false
  | .mailbox .. => false
  | _ => true

/-- A lookup that is made or answered. -/
def DbEvent.isLookup : DbEvent → Bool
  | .called (.dedup ..) | .answered (.dedup ..) _ => true
  | _ => false

variable {e : DbEvent}

theorem DbView.after_of_silent (v : DbView) (h : e.silent = true) : v.after e = v := by
  unfold DbEvent.silent at h
  split at h
  case h_6 => unfold DbView.after; split <;> simp_all
  all_goals cases h

theorem DbEvent.ne_mailbox_of_silent (h : e.silent = true) (recipient : Bytes)
    (outcome : MailboxInsert) : DbEvent.mailbox recipient outcome ≠ e := by
  rintro rfl
  cases h

def callCount : Nat :=
  log.countP fun | .called _ => true | _ => false

theorem callCount_called (c : Call) (log : List DbEvent) :
    callCount (.called c :: log) = callCount log + 1 := by simp [callCount]

/-! ## What a result promises -/

/-- No transaction was begun: BEGIN was not called, or it was reported to have failed. -/
def NotBegun : Prop :=
  (.called .begin ∈ log → ∃ a : Answer, .answered .begin a ∈ log) ∧
    ∀ a : Answer, .answered .begin a ∈ log → a.ok = false

/-- A rollback was asked for, and it was reported successful or the connection was closed. -/
def RolledBack : Prop :=
  ∃ error, .called (.rollback error) ∈ log ∧
    ((∃ a : Answer, a.ok = true ∧ .answered (.rollback error) a ∈ log) ∨ .disconnected ∈ log)

section

variable (m : StoredMail) (options : PersistenceOptions)

def remoteRecipients : List Bytes := m.recipients.filter options.isRemote

/-- The records are those of rows for these recipients. -/
structure RecordsOf (recipients : List Bytes) (records : List PersistedOutboxRecord) : Prop where
  recipients : records.map (·.recipient) = recipients
  records : ∀ r ∈ records, r.id ≠ 0 ∧
    r = outboxRecord m options r.id r.recipient options.reserved

/-- The mailbox relations of the local recipients were inserted, and no others. -/
structure MailboxesInserted (log : List DbEvent) : Prop where
  all : ∀ recipient ∈ m.recipients, options.isLocal recipient = true →
    ∃ outcome, .mailbox recipient outcome ∈ log
  only : ∀ recipient outcome, .mailbox recipient outcome ∈ log →
    recipient ∈ m.recipients ∧ options.isLocal recipient = true

/-- What `committed` promises: COMMIT was reported successful, the durable rows are the outbox rows
of the remote recipients, in order, with the mailbox relations that were created, nothing was
inserted outside of the transaction, and the records are those of the outbox rows. -/
structure Committed (r : PersistenceResult) (log : List DbEvent) : Prop where
  commit : ∃ (a : Answer) (log' : List DbEvent), log = .answered .commit a :: log' ∧ a.ok = true
  outbox : (observe log).durable.filterMap DbRow.outbox? = remoteRecipients m options
  mailboxes : ∀ recipient, .mailbox recipient ∈ (observe log).durable ↔
    .mailbox recipient .created ∈ log
  outside : (observe log).outside = []
  records : RecordsOf m options (remoteRecipients m options) r.outboxRecords
  inserted : MailboxesInserted m options log
  transaction : r.transaction = .committed

/-- What `deduplicated` promises: every recipient has a row with this sender and Message-ID. -/
structure Deduplicated (log : List DbEvent) : Prop where
  recipients : m.recipients ≠ []
  messageId : m.sourceMessageId ≠ []
  found : ∀ recipient ∈ m.recipients, ∃ a : Answer, a.found = true ∧
    .answered (.dedup m.sender recipient m.sourceMessageId) a ∈ log

/-- What a result promises that is reported with the record `log`. -/
def Reported (r : PersistenceResult) (log : List DbEvent) : Prop :=
  match r.disposition with
  | .committed => Committed m options r log
  | .failed => r.outboxRecords = [] ∧ (NotBegun log ∨ RolledBack log)
  | .deduplicated => r.outboxRecords = [] ∧ Deduplicated m log ∧ NotBegun log
  | .fileOnly => r.outboxRecords = [] ∧ log = []

end

section

variable {m : StoredMail} {options : PersistenceOptions} {log : List DbEvent}
  (h : MailboxesInserted m options log)

include h

theorem MailboxesInserted.cons (he : ∀ recipient outcome, DbEvent.mailbox recipient outcome ≠ e) :
    MailboxesInserted m options (e :: log) where
  all recipient hmem hlocal :=
    (h.all recipient hmem hlocal).imp fun _ hlog => mem_cons_of_mem _ hlog
  only recipient outcome hmem := by
    rcases mem_cons.mp hmem with heq | hmem
    · exact absurd heq (he recipient outcome)
    · exact h.only recipient outcome hmem

theorem MailboxesInserted.called (c : Call) : MailboxesInserted m options (.called c :: log) :=
  h.cons nofun

theorem MailboxesInserted.answered (c : Call) (a : Answer) :
    MailboxesInserted m options (.answered c a :: log) := h.cons nofun

end

namespace PrimaryOperation

/-! ## Where an operation is -/

section

variable (m : StoredMail) (options : PersistenceOptions)

/-- The transaction is open, with outbox rows for `inserted` and records for `recorded`, and nothing
else was written. -/
structure InTransaction (inserted recorded : List Bytes) (s : PrimaryOperation) : Prop where
  transaction : s.transaction = true
  view : observe s.log = { isOpen := true, rows := (observe s.log).rows }
  outbox : (observe s.log).rows.filterMap DbRow.outbox? = inserted
  mailboxes : ∀ recipient, .mailbox recipient ∈ (observe s.log).rows ↔
    .mailbox recipient .created ∈ s.log
  records : RecordsOf m options recorded s.result.outboxRecords

/-- The transaction is open and nothing was inserted for the recipients yet. -/
structure Early (s : PrimaryOperation) : Prop extends InTransaction m options [] [] s where
  noMailbox : ∀ recipient outcome, .mailbox recipient outcome ∉ s.log
  outboxIndex : s.outboxIndex = 0

/-- The outbox rows of the first `k` recipients are inserted and recorded. -/
structure OutboxUpTo (k : Nat) (s : PrimaryOperation) : Prop extends
    InTransaction m options ((m.recipients.take k).filter options.isRemote)
      ((m.recipients.take k).filter options.isRemote) s where
  mailboxesInserted : MailboxesInserted m options s.log
  outboxIndex : s.outboxIndex = k

/-- Nothing but lookups was done so far, and those of the first `k` recipients have found
something. -/
structure Before (k : Nat) (s : PrimaryOperation) : Prop where
  transaction : s.transaction = false
  records : s.result.outboxRecords = []
  outboxIndex : s.outboxIndex = 0
  log : ∀ e ∈ s.log, e.isLookup = true
  found : ∀ recipient ∈ m.recipients.take k, ∃ a : Answer, a.found = true ∧
    .answered (.dedup m.sender recipient m.sourceMessageId) a ∈ s.log

/-- Where the operation is while it waits for a call. -/
def Live (s : PrimaryOperation) : Call → Prop
  | .dedup sender recipient messageId => ∃ k, s.dedupIndex = k + 1 ∧
      m.recipients[k]? = some recipient ∧ Before m k s ∧ m.sourceMessageId ≠ [] ∧
      sender = m.sender ∧ messageId = m.sourceMessageId
  | .begin => s.transaction = true ∧ s.result.outboxRecords = [] ∧ s.outboxIndex = 0 ∧
      observe s.log = {} ∧ (∀ a, .answered .begin a ∉ s.log) ∧
      ∀ recipient outcome, .mailbox recipient outcome ∉ s.log
  | .insertMail .. | .insertRecipients _ | .sentMailbox _ | .insertSent .. => Early m options s
  | .insertAttachments _ => OutboxUpTo m options 0 s
  | .insertOutbox recipient reserved => ∃ k, m.recipients[k]? = some recipient ∧
      options.isRemote recipient = true ∧ reserved = options.reserved ∧ s.outboxIndex = k + 1 ∧
      MailboxesInserted m options s.log ∧
      InTransaction m options ((m.recipients.take k).filter options.isRemote)
        ((m.recipients.take k).filter options.isRemote) s
  | .lastInsertId recipient reserved => ∃ k, m.recipients[k]? = some recipient ∧
      options.isRemote recipient = true ∧ reserved = options.reserved ∧ s.outboxIndex = k + 1 ∧
      MailboxesInserted m options s.log ∧
      InTransaction m options ((m.recipients.take (k + 1)).filter options.isRemote)
        ((m.recipients.take k).filter options.isRemote) s
  | .commit => MailboxesInserted m options s.log ∧
      InTransaction m options (remoteRecipients m options) (remoteRecipients m options) s
  | .rollback _ => False

/-- How many calls were made when the operation waits for a call. -/
def callBound (s : PrimaryOperation) : Call → Nat
  | .dedup .. => s.dedupIndex
  | .begin => m.recipients.length + 1
  | .insertMail .. => m.recipients.length + 2
  | .insertRecipients _ => m.recipients.length + 3
  | .sentMailbox _ => m.recipients.length + 4
  | .insertSent .. => m.recipients.length + 5
  | .insertAttachments _ => m.recipients.length + 6
  | .insertOutbox .. => m.recipients.length + 5 + 2 * s.outboxIndex
  | .lastInsertId .. => m.recipients.length + 6 + 2 * s.outboxIndex
  | .commit => 3 * m.recipients.length + 7
  | .rollback _ => 0

/-- It waits for its one call. -/
structure Running (s : PrimaryOperation) (c : Call) : Prop where
  done : s.done = false
  rollingBack : s.rollingBack = false
  completed : s.completed = []
  calls : s.calls = [c]
  live : Live m options s c
  count : callCount s.log ≤ callBound m s c

/-- It waits for its rollback; the call it had made before may still be unresolved. -/
structure Rolling (s : PrimaryOperation) (error : Bytes) : Prop where
  done : s.done = false
  rollingBack : s.rollingBack = true
  completed : s.completed = []
  call : .rollback error ∈ s.calls
  called : ∀ error, .rollback error ∈ s.calls → .called (.rollback error) ∈ s.log
  count : callCount s.log ≤ 3 * m.recipients.length + 8

/-- It is done. -/
structure Finished (s : PrimaryOperation) (r : PersistenceResult) (log : List DbEvent) : Prop where
  done : s.done = true
  completed : s.completed = [(r, log)]
  reported : Reported m options r log
  count : callCount s.log ≤ 3 * m.recipients.length + 8

inductive Phase (s : PrimaryOperation) : Prop
  | running (c : Call) (h : Running m options s c)
  | rolling (error : Bytes) (h : Rolling m s error)
  | finished (r : PersistenceResult) (log : List DbEvent) (h : Finished m options s r log)

end

variable {m : StoredMail} {options : PersistenceOptions} {s : PrimaryOperation}

/-! ## What carries over -/

variable {inserted noted : List Bytes} {c : Call} {error recipient : Bytes} {k n : Nat}
  {t : PrimaryOperation} {a : Answer}

theorem InTransaction.isOpen (h : InTransaction m options inserted noted s) :
    (observe s.log).isOpen = true := by rw [h.view]

/-- The operation goes on with more rows. -/
theorem InTransaction.insert (h : InTransaction m options inserted noted s) (rows : List DbRow)
    (hview : observe t.log = { observe s.log with rows := (observe s.log).rows ++ rows })
    (hboxes : ∀ r, .mailbox r .created ∈ t.log ↔ .mailbox r .created ∈ s.log ∨ .mailbox r ∈ rows)
    (htx : t.transaction = s.transaction) (hres : t.result.outboxRecords = s.result.outboxRecords) :
    InTransaction m options (inserted ++ rows.filterMap DbRow.outbox?) noted t := by
  refine ⟨htx.trans h.transaction, ?_, ?_, fun r => ?_, hres ▸ h.records⟩
  · rw [hview, h.view]
  · rw [hview, filterMap_append, h.outbox]
  · rw [hview, mem_append, h.mailboxes, hboxes]

/-- The operation goes on with a silent event on record. -/
theorem InTransaction.cons (h : InTransaction m options inserted noted s) (he : e.silent = true)
    (hlog : t.log = e :: s.log) (htx : t.transaction = s.transaction)
    (hres : t.result.outboxRecords = s.result.outboxRecords) :
    InTransaction m options inserted noted t := by
  rw [← append_nil inserted]
  refine h.insert [] ?_ (fun r => ?_) htx hres
  · rw [hlog, observe_cons, DbView.after_of_silent _ he, append_nil]
  · simp [hlog, DbEvent.ne_mailbox_of_silent he]

theorem Early.cons (h : Early m options s) (he : e.silent = true) (hlog : t.log = e :: s.log)
    (htx : t.transaction = s.transaction) (hres : t.result.outboxRecords = s.result.outboxRecords)
    (hidx : t.outboxIndex = s.outboxIndex) : Early m options t where
  toInTransaction := h.toInTransaction.cons he hlog htx hres
  noMailbox recipient outcome := by
    simp [hlog, DbEvent.ne_mailbox_of_silent he, h.noMailbox]
  outboxIndex := hidx.trans h.outboxIndex

/-- A continuation runs: it has not made its call yet, and at most `n` were made before. -/
structure Ready (n : Nat) (s : PrimaryOperation) : Prop where
  done : s.done = false
  rollingBack : s.rollingBack = false
  completed : s.completed = []
  calls : s.calls = []
  count : callCount s.log ≤ n

/-! ## Ways on -/

theorem Ready.issue (h : Ready n s) (hlive : Live m options (s.issue c) c)
    (hn : n < callBound m (s.issue c) c) : Phase m options (s.issue c) := by
  refine .running c ⟨h.done, h.rollingBack, h.completed, ?_, hlive, ?_⟩
  · simp [PrimaryOperation.issue, h.calls]
  · exact (callCount_called c s.log).trans_le ((Nat.succ_le_succ h.count).trans hn)

theorem phase_finish (hdone : s.done = false) (hcompleted : s.completed = [])
    {disposition : PersistenceDisposition} (hreported : Reported m options
      { s.result with
        disposition
        error
        outboxRecords := if disposition = .committed then s.result.outboxRecords else [] } s.log)
    (hcount : callCount s.log ≤ 3 * m.recipients.length + 8) :
    Phase m options (s.finish disposition error) := by
  unfold finish
  rw [if_neg (by simp [hdone])]
  exact .finished _ s.log ⟨rfl, by simp [hcompleted], hreported, hcount⟩

/-- A failure, whatever else is outstanding: without a transaction it is reported at once, otherwise
a rollback is asked for. -/
theorem phase_fail (hdone : s.done = false) (hrolling : s.rollingBack = false)
    (hcompleted : s.completed = []) (hcalls : ∀ error, .rollback error ∉ s.calls)
    (hbegun : s.transaction = false → NotBegun s.log)
    (hcount : callCount s.log ≤ 3 * m.recipients.length + 7) (error : Bytes) :
    Phase m options (s.fail error) := by
  unfold fail
  rw [if_neg (by simp [hdone, hrolling])]
  split
  · rename_i htx
    refine phase_finish (s := { s with rollingBack := true }) hdone hcompleted ?_
      (Nat.le_succ_of_le hcount)
    exact ⟨rfl, .inl (hbegun (by simpa using htx))⟩
  · refine .rolling error ⟨hdone, rfl, hcompleted, by simp [issue], fun error' hmem => ?_, ?_⟩
    · rcases mem_append.mp hmem with hmem | hmem
      · exact absurd hmem (hcalls error')
      · rw [mem_singleton.mp hmem]
        exact mem_cons_self
    · exact (callCount_called (.rollback error) s.log).trans_le (Nat.succ_le_succ hcount)

theorem notBegun_of_open (h : s.transaction = true) (hnone : s.transaction = false) :
    NotBegun s.log :=
  nomatch h.symm.trans hnone

theorem Ready.fail (h : Ready n s) (hbegun : s.transaction = false → NotBegun s.log)
    (hn : n ≤ 3 * m.recipients.length + 7) (error : Bytes) : Phase m options (s.fail error) :=
  phase_fail h.done h.rollingBack h.completed (by simp [h.calls]) hbegun (h.count.trans hn) error

/-! ## Lookups -/

theorem Before.observe_log (h : Before m k s) : observe s.log = {} := by
  have hlog := h.log
  generalize s.log = log at hlog
  induction log with
  | nil => rfl
  | cons e log ih =>
    have hsilent : e.silent = true := by
      have he := hlog e mem_cons_self
      unfold DbEvent.isLookup at he
      split at he
      · rfl
      · rfl
      · cases he
    rw [observe_cons, ih fun e' he' => hlog e' (mem_cons_of_mem _ he'),
      DbView.after_of_silent _ hsilent]

theorem Before.notBegun (h : Before m k s) : NotBegun s.log :=
  ⟨fun hmem => (nomatch h.log _ hmem), fun _ hmem => (nomatch h.log _ hmem)⟩

theorem Before.phase_begin (h : Before m k s) (hrd : Ready m.recipients.length s) :
    Phase m options s.begin := by
  have hrd' : Ready m.recipients.length { s with transaction := true } := { hrd with }
  refine hrd'.issue ⟨rfl, h.records, h.outboxIndex, ?_, fun a hmem => ?_, fun r outcome hmem => ?_⟩
    (Nat.lt_succ_self _)
  · change observe (.called .begin :: s.log) = {}
    rw [observe_cons, h.observe_log]
    rfl
  · rcases mem_cons.mp hmem with heq | hmem
    · cases heq
    · cases h.log _ hmem
  · rcases mem_cons.mp hmem with heq | hmem
    · cases heq
    · cases h.log _ hmem

/-- `deduplicate_next`, when the recipients up to the index have been found. -/
theorem Before.phase_deduplicateNext (h : Before m s.dedupIndex s) (hrd : Ready s.dedupIndex s)
    (hidx : s.dedupIndex ≤ m.recipients.length) : Phase m options (s.deduplicateNext m) := by
  unfold deduplicateNext
  split
  · exact h.phase_begin { hrd with count := hrd.count.trans hidx }
  · rename_i hne
    rw [not_or] at hne
    split
    · rename_i hnone
      -- every recipient was found
      have hfound := h.found
      rw [take_of_length_le (List.getElem?_eq_none_iff.mp hnone)] at hfound
      refine phase_finish hrd.done hrd.completed ?_ (hrd.count.trans (by omega))
      exact ⟨rfl, ⟨hne.2, hne.1, hfound⟩, h.notBegun⟩
    · rename_i recipient hsome
      have hrd' : Ready s.dedupIndex { s with dedupIndex := s.dedupIndex + 1 } := { hrd with }
      refine hrd'.issue ⟨s.dedupIndex, rfl, hsome, ?_, hne.1, rfl, rfl⟩ (Nat.lt_succ_self _)
      refine { h with log := forall_mem_cons.mpr ⟨rfl, h.log⟩, found := fun r hr => ?_ }
      obtain ⟨a, ha, hmem⟩ := h.found r hr
      exact ⟨a, ha, mem_cons_of_mem _ hmem⟩

/-! ## Inside the transaction -/

/-- A call in front of the insertions for the recipients. -/
theorem Early.phase_issue (h : Early m options s) (hrd : Ready n s)
    (hlive : Early m options (s.issue c) → Live m options (s.issue c) c)
    (hc : (DbEvent.called c).silent = true) (hn : n < callBound m (s.issue c) c) :
    Phase m options (s.issue c) :=
  hrd.issue (hlive (h.cons hc rfl rfl rfl rfl)) hn

theorem InTransaction.fail (h : InTransaction m options inserted noted s) (hrd : Ready n s)
    (hn : n ≤ 3 * m.recipients.length + 7) (error : Bytes) : Phase m options (s.fail error) :=
  hrd.fail (notBegun_of_open h.transaction) hn error

theorem Early.phase_insertMetadata (h : Early m options s)
    (hrd : Ready (m.recipients.length + 1) s) : Phase m options (s.insertMetadata m) := by
  unfold insertMetadata
  split
  · exact h.fail hrd (by omega) _
  · exact h.phase_issue hrd id rfl (Nat.lt_succ_self _)

theorem filter_take_succ {p : Bytes → Bool} {l : List Bytes} {x : Bytes} (h : l[k]? = some x) :
    (l.take (k + 1)).filter p = (l.take k).filter p ++ if p x then [x] else [] := by
  rw [take_add_one, h]
  cases hp : p x <;> simp [hp]

/-- The loop of `outbox_next`, when the rows of the first `k` recipients are inserted. -/
theorem OutboxUpTo.phase_outboxLoop (h : OutboxUpTo m options k s)
    (hrd : Ready (m.recipients.length + 6 + 2 * k) s) {rest : List Bytes}
    (hrest : m.recipients.drop k = rest) (hk : k ≤ m.recipients.length) :
    Phase m options (outboxLoop options rest s) := by
  induction rest generalizing s k with
  | nil =>
    -- all recipients are treated
    have hin := h.toInTransaction
    rw [take_of_length_le (drop_eq_nil_iff.mp hrest)] at hin
    refine hrd.issue ⟨h.mailboxesInserted.called _, hin.cons rfl rfl rfl rfl⟩ ?_
    simp only [callBound]
    omega
  | cons recipient rest ih =>
    have hget : m.recipients[k]? = some recipient := by
      rw [← head?_drop, hrest]
      rfl
    obtain ⟨hlt, -⟩ := List.getElem?_eq_some_iff.mp hget
    have hidx : s.outboxIndex + 1 = k + 1 := by rw [h.outboxIndex]
    simp only [outboxLoop]
    split
    · rename_i hrem
      have hrd' : Ready (m.recipients.length + 6 + 2 * k)
          { s with outboxIndex := s.outboxIndex + 1 } := { hrd with }
      refine hrd'.issue ⟨k, hget, hrem, rfl, hidx, h.mailboxesInserted.called _,
        h.toInTransaction.cons rfl rfl rfl rfl⟩ ?_
      simp only [callBound, issue, h.outboxIndex]
      omega
    · rename_i hrem
      have hfilt := filter_take_succ (p := options.isRemote) hget
      rw [if_neg hrem, append_nil] at hfilt
      have hin := h.toInTransaction
      rw [← hfilt] at hin
      refine ih
        ⟨{ hin with }, h.mailboxesInserted, hidx⟩
          { hrd with count := hrd.count.trans (by omega) } ?_ hlt
      rw [← tail_drop, hrest]
      rfl

theorem OutboxUpTo.phase_outboxNext (h : OutboxUpTo m options k s)
    (hrd : Ready (m.recipients.length + 6 + 2 * k) s) (hk : k ≤ m.recipients.length) :
    Phase m options (s.outboxNext m options) :=
  h.phase_outboxLoop hrd (by rw [h.outboxIndex]) hk

theorem OutboxUpTo.phase_insertAttachments (h : OutboxUpTo m options 0 s)
    (hrd : Ready (m.recipients.length + 5) s) :
    Phase m options (s.insertAttachments m options) := by
  unfold insertAttachments
  split
  · exact h.phase_outboxNext { hrd with count := hrd.count.trans (by omega) } (Nat.zero_le _)
  · exact hrd.issue ⟨h.toInTransaction.cons rfl rfl rfl rfl, h.mailboxesInserted.called _,
      h.outboxIndex⟩ (Nat.lt_succ_self _)

/-- A mailbox relation is inserted, or not. -/
theorem InTransaction.mailbox (h : InTransaction m options inserted noted s) (recipient : Bytes)
    (outcome : MailboxInsert) :
    InTransaction m options inserted noted (s.record (.mailbox recipient outcome)) := by
  rw [← append_nil inserted]
  cases outcome with
  | created =>
    refine h.insert [.mailbox recipient] ?_ (fun r => ?_) rfl rfl
    · simp [record, DbView.after, DbView.insert, h.isOpen]
    · simp [record, or_comm]
  | nothing | threw what =>
    refine h.insert [] ?_ (fun r => ?_) rfl rfl
    · simp [record, DbView.after]
    · simp [record]

/-- The loop of `local_mailboxes_next` over `rest`, when `before` are treated. -/
theorem InTransaction.phase_localMailboxesLoop (inserts : Nat → MailboxInsert)
    {before rest : List Bytes} (hs : before ++ rest = m.recipients) (i : Nat)
    (h : InTransaction m options [] [] s) (hidx : s.outboxIndex = 0)
    (hall : ∀ r ∈ before, options.isLocal r = true → ∃ outcome, .mailbox r outcome ∈ s.log)
    (honly : ∀ r outcome, .mailbox r outcome ∈ s.log →
      r ∈ m.recipients ∧ options.isLocal r = true) (hrd : Ready (m.recipients.length + 5) s) :
    Phase m options (localMailboxesLoop m options inserts rest i s) := by
  induction rest generalizing s before i with
  | nil =>
    rw [append_nil] at hs
    subst hs
    have hupTo : OutboxUpTo m options 0 s := ⟨by simpa using h, ⟨hall, honly⟩, hidx⟩
    exact hupTo.phase_insertAttachments hrd
  | cons recipient rest ih =>
    have hsplit' : (before ++ [recipient]) ++ rest = m.recipients := by simpa using hs
    simp only [localMailboxesLoop]
    split
    · rename_i hlocal
      -- the insertion is on record, whatever its outcome
      have h' := h.mailbox recipient (inserts i)
      have hrd' : Ready (m.recipients.length + 5) (s.record (.mailbox recipient (inserts i))) :=
        { hrd with }
      have hnext : Phase m options (localMailboxesLoop m options inserts rest (i + 1)
          (s.record (.mailbox recipient (inserts i)))) := by
        refine ih hsplit' (i + 1) h' hidx ?_ ?_ hrd'
        · intro r hr hloc
          rcases mem_append.mp hr with hr | hr
          · obtain ⟨outcome, hlog⟩ := hall r hr hloc
            exact ⟨outcome, mem_cons_of_mem _ hlog⟩
          · rw [mem_singleton.mp hr]
            exact ⟨inserts i, mem_cons_self⟩
        · intro r outcome hlog
          rcases mem_cons.mp hlog with heq | hlog
          · cases heq
            exact ⟨by simp [← hs], hlocal⟩
          · exact honly r outcome hlog
      cases hinsert : inserts i with
      | threw what =>
        rw [hinsert] at h' hrd'
        exact h'.fail hrd' (by omega) what
      | created | nothing =>
        rw [hinsert] at hnext
        exact hnext
    · rename_i hlocal
      refine ih hsplit' (i + 1) h hidx (fun r hr hloc => ?_) honly hrd
      rcases mem_append.mp hr with hr | hr
      · exact hall r hr hloc
      · rw [mem_singleton.mp hr] at hloc
        exact absurd hloc hlocal

theorem Early.phase_localMailboxesNext (h : Early m options s) (inserts : Nat → MailboxInsert)
    (hrd : Ready (m.recipients.length + 5) s) :
    Phase m options (s.localMailboxesNext m options inserts) :=
  h.toInTransaction.phase_localMailboxesLoop inserts (nil_append _) 0 h.outboxIndex (by simp)
    (fun r outcome hlog => absurd hlog (h.noMailbox r outcome)) hrd

theorem Early.phase_sentCopy (h : Early m options s) (inserts : Nat → MailboxInsert)
    (hrd : Ready (m.recipients.length + 3) s) : Phase m options (s.sentCopy m options inserts) := by
  unfold sentCopy
  split
  · exact h.phase_localMailboxesNext inserts { hrd with count := hrd.count.trans (by omega) }
  · exact h.phase_issue hrd id rfl (Nat.lt_succ_self _)

/-! ## Callbacks -/

theorem Ready.guard_eq (h : Ready n s) (task : PrimaryOperation → PrimaryOperation) :
    s.guard task = task s := by
  simp [guard, h.done, h.rollingBack]

section

variable (h : Ready n s) (hn : n ≤ 3 * m.recipients.length + 7) (a : Answer)
  {task : PrimaryOperation → PrimaryOperation}

include h hn

/-- A statement's callback: the operation fails, or goes on. -/
theorem Ready.phase_unlessFailed (htx : s.transaction = true) (error : Bytes)
    (htask : a.ok = true → Phase m options (task s)) :
    Phase m options (s.guard (unlessFailed a error task)) := by
  rw [h.guard_eq]
  unfold unlessFailed
  split
  · exact h.fail (notBegun_of_open htx) hn error
  · rename_i hok
    exact htask (by simpa using hok)

/-- A query's callback: the operation fails when the rows cannot be read, or goes on. -/
theorem Ready.phase_readRows (hbegun : s.transaction = false → NotBegun s.log)
    (htask : Phase m options (task s)) : Phase m options (s.guard (readRows a task)) := by
  rw [h.guard_eq]
  unfold readRows
  split
  · exact h.fail hbegun hn _
  · exact htask

end

/-- The lookup of a recipient is answered. -/
theorem phase_dedupDone (hidx : s.dedupIndex = k + 1) (hget : m.recipients[k]? = some recipient)
    (hpre : Before m k s)
    (ht : t = s.resolve 0 (.answered (.dedup m.sender recipient m.sourceMessageId) a))
    (hrd : Ready s.dedupIndex t) : Phase m options
      (t.guard (readRows a fun s => if a.found then s.deduplicateNext m else s.begin)) := by
  subst ht
  obtain ⟨hlt, -⟩ := List.getElem?_eq_some_iff.mp hget
  have hpre' : Before m k
      (s.resolve 0 (.answered (.dedup m.sender recipient m.sourceMessageId) a)) := by
    refine { hpre with log := forall_mem_cons.mpr ⟨rfl, hpre.log⟩, found := fun r hr => ?_ }
    obtain ⟨a', ha', hmem⟩ := hpre.found r hr
    exact ⟨a', ha', mem_cons_of_mem _ hmem⟩
  refine hrd.phase_readRows (by omega) a (fun _ => hpre'.notBegun) ?_
  split
  · rename_i hfound
    refine Before.phase_deduplicateNext { hpre' with found := fun r hr => ?_ } hrd
      (hidx.trans_le hlt)
    rw [resolve, hidx, take_add_one, hget] at hr
    rcases mem_append.mp hr with hr | hr
    · exact hpre'.found r hr
    · obtain rfl : r = recipient := by simpa using hr
      exact ⟨a, hfound, mem_cons_self⟩
  · exact hpre'.phase_begin { hrd with count := hrd.count.trans (by omega) }

/-- BEGIN is answered positively. -/
theorem early_of_begun (hlive : Live m options s .begin) (hok : a.ok = true) :
    Early m options (s.resolve 0 (.answered .begin a)) := by
  obtain ⟨htx, hrecs, houtbox, hview, -, hbox⟩ := hlive
  have hview' : observe (s.resolve 0 (.answered .begin a)).log = { isOpen := true } := by
    rw [resolve, observe_cons, hview]
    simp [DbView.after, hok]
  have hnone (r : Bytes) (outcome : MailboxInsert) :
      .mailbox r outcome ∉ (s.resolve 0 (.answered .begin a)).log := by simp [resolve, hbox]
  refine ⟨⟨htx, by rw [hview'], by rw [hview']; rfl, fun r => ?_, ?_⟩, hnone, houtbox⟩
  · rw [hview']
    exact iff_of_false not_mem_nil (hnone r .created)
  · exact hrecs.symm ▸ ⟨rfl, by simp⟩

/-- The insertion of an outbox row is answered positively. -/
theorem InTransaction.outbox_inserted (h : InTransaction m options inserted noted s)
    (hok : a.ok = true) (recipient : Bytes) (reserved : Bool) :
    InTransaction m options (inserted ++ [recipient]) noted
      (s.resolve 0 (.answered (.insertOutbox recipient reserved) a)) := by
  refine h.insert [.outbox recipient] ?_ (fun r => ?_) rfl rfl
  · simp [resolve, DbView.after, DbView.insert, h.isOpen, hok]
  · simp [resolve]

theorem insertedId_ne_zero {rowId : Nat} (h : insertedId a = some rowId) : rowId ≠ 0 := by
  unfold insertedId at h
  split at h
  · split at h
    · split at h
      · cases h
      · cases h
        assumption
    · cases h
  · cases h

/-- The id of an inserted row is fetched and recorded. -/
theorem InTransaction.recorded {rowId : Nat}
    (h : InTransaction m options ((m.recipients.take (k + 1)).filter options.isRemote)
      ((m.recipients.take k).filter options.isRemote) s) (hget : m.recipients[k]? = some recipient)
    (hrem : options.isRemote recipient = true) (hid : rowId ≠ 0) (hidx : s.outboxIndex = k + 1)
    (hboxes : MailboxesInserted m options s.log) : OutboxUpTo m options (k + 1)
      { s with
        result := { s.result with
          outboxRecords :=
            s.result.outboxRecords ++ [outboxRecord m options rowId recipient options.reserved] }
              } := by
  refine ⟨{ h with records := ⟨?_, fun r hr => ?_⟩ }, hboxes, hidx⟩
  · rw [filter_take_succ hget, if_pos hrem, map_append, h.records.recipients]
    rfl
  · rcases mem_append.mp hr with hr | hr
    · exact h.records.records r hr
    · rw [mem_singleton.mp hr]
      exact ⟨hid, rfl⟩

theorem InTransaction.committed
    (h : InTransaction m options (remoteRecipients m options) (remoteRecipients m options) s)
    (hboxes : MailboxesInserted m options s.log) (hok : a.ok = true) {r : PersistenceResult}
    (hrecs : r.outboxRecords = s.result.outboxRecords) (hr : r.transaction = .committed) :
    Committed m options r (.answered .commit a :: s.log) := by
  have hview : observe (.answered .commit a :: s.log) = { durable := (observe s.log).rows } := by
    rw [observe_cons, h.view]
    simp [DbView.after, hok]
  refine ⟨⟨a, s.log, rfl, hok⟩, ?_, fun recipient => ?_, ?_, hrecs ▸ h.records,
    hboxes.cons nofun, hr⟩
  · rw [hview]; exact h.outbox
  · rw [hview, h.mailboxes]
    simp
  · rw [hview]

/-- **The callback of the call an operation waits for.** -/
theorem Running.callback (h : Running m options s c) (a : Answer) (inserts : Nat → MailboxInsert) :
    Phase m options ((s.resolve 0 (.answered c a)).callback m options inserts a c) := by
  have hrd : Ready (callBound m s c) (s.resolve 0 (.answered c a)) :=
    ⟨h.done, h.rollingBack, h.completed, by simp [resolve, h.calls], h.count⟩
  have hearly (hs : Early m options s) (hsilent : (DbEvent.answered c a).silent = true) :
      Early m options (s.resolve 0 (.answered c a)) := hs.cons hsilent rfl rfl rfl rfl
  have hlive := h.live
  cases c with
  | dedup sender recipient messageId =>
    obtain ⟨k, hidx, hget, hpre, -, rfl, rfl⟩ := hlive
    exact phase_dedupDone hidx hget hpre rfl hrd
  | begin =>
    simp only [PrimaryOperation.callback]
    rw [hrd.guard_eq]
    split
    · rename_i hok
      -- the transaction was not begun, so there is nothing to roll back
      have hrd' : Ready (m.recipients.length + 1)
          { s.resolve 0 (.answered .begin a) with transaction := false } := { hrd with }
      refine hrd'.fail (fun _ => ⟨fun _ => ⟨a, mem_cons_self⟩, fun a' hmem => ?_⟩) (by omega) _
      rcases mem_cons.mp hmem with heq | hmem
      · cases heq
        simpa using hok
      · exact absurd hmem (hlive.2.2.2.2.1 a')
    · rename_i hok
      exact (early_of_begun hlive (by simpa using hok)).phase_insertMetadata hrd
  | insertMail mailId subject bodyPath =>
    have hearly' := hearly hlive rfl
    refine hrd.phase_unlessFailed (by simp only [callBound]; omega) a hearly'.transaction _ fun _ =>
      ?_
    exact hearly'.phase_issue hrd id rfl (Nat.lt_succ_self _)
  | insertRecipients rows =>
    have hearly' := hearly hlive rfl
    refine hrd.phase_unlessFailed (by simp only [callBound]; omega) a hearly'.transaction _ fun _ =>
      ?_
    exact hearly'.phase_sentCopy inserts hrd
  | sentMailbox sender =>
    have hearly' := hearly hlive rfl
    refine hrd.phase_readRows (by simp only [callBound]; omega) a
      (notBegun_of_open hearly'.transaction) ?_
    split
    · exact hearly'.phase_issue hrd id rfl (Nat.lt_succ_self _)
    · exact hearly'.fail hrd (by simp only [callBound]; omega) _
  | insertSent mailId mailboxId userId =>
    have hearly' := hearly hlive rfl
    refine hrd.phase_unlessFailed (by simp only [callBound]; omega) a hearly'.transaction _ fun _ =>
      ?_
    exact hearly'.phase_localMailboxesNext inserts hrd
  | insertAttachments attachments =>
    have hupTo : OutboxUpTo m options 0 s := hlive
    refine hrd.phase_unlessFailed (by simp only [callBound]; omega) a hupTo.transaction _ fun _ =>
      ?_
    refine OutboxUpTo.phase_outboxNext ⟨hupTo.toInTransaction.cons rfl rfl rfl rfl, ?_,
      hupTo.outboxIndex⟩ hrd (Nat.zero_le _)
    exact hupTo.mailboxesInserted.answered _ a
  | insertOutbox recipient reserved =>
    obtain ⟨k, hget, hrem, rfl, hidx, hboxes, hin⟩ := hlive
    obtain ⟨hlt, -⟩ := List.getElem?_eq_some_iff.mp hget
    simp only [callBound, hidx] at hrd
    refine hrd.phase_unlessFailed (by omega) a hin.transaction _ fun hok => ?_
    have hin' := hin.outbox_inserted hok recipient options.reserved
    have hfilt := filter_take_succ (p := options.isRemote) hget
    rw [if_pos hrem] at hfilt
    rw [← hfilt] at hin'
    refine hrd.issue ⟨k, hget, hrem, rfl, hidx, (hboxes.answered _ a).called _,
      hin'.cons rfl rfl rfl rfl⟩ ?_
    simp only [callBound, issue, resolve, hidx]
    omega
  | lastInsertId recipient reserved =>
    obtain ⟨k, hget, hrem, rfl, hidx, hboxes, hin⟩ := hlive
    obtain ⟨hlt, -⟩ := List.getElem?_eq_some_iff.mp hget
    simp only [callBound, hidx] at hrd
    have hin' := hin.cons
      (t := s.resolve 0 (.answered (.lastInsertId recipient options.reserved) a))
      rfl rfl rfl rfl
    refine hrd.phase_readRows (by omega) a (notBegun_of_open hin'.transaction) ?_
    split
    · exact hin'.fail hrd (by omega) _
    · rename_i rowId hid
      have hupTo := hin'.recorded hget hrem (insertedId_ne_zero hid) hidx (hboxes.answered _ a)
      exact hupTo.phase_outboxNext { hrd with } hlt
  | commit =>
    obtain ⟨hboxes, hin⟩ := hlive
    refine hrd.phase_unlessFailed le_rfl a hin.transaction _ fun hok => ?_
    exact phase_finish (s := { s.resolve 0 (.answered .commit a) with
        transaction := false
        result := { s.result with transaction := .committed } })
      h.done h.completed (hin.committed hboxes hok rfl rfl) (Nat.le_succ_of_le hrd.count)
  | rollback error => exact hlive.elim

/-! ## Steps -/

theorem Live.ne_rollback (h : Live m options s c) (error : Bytes) : c ≠ .rollback error := by
  rintro rfl
  exact h

/-- Where no transaction is open, none was begun. -/
theorem Live.notBegun (h : Live m options s c) (hnone : s.transaction = false) :
    NotBegun s.log := by
  have htx (hopen : s.transaction = true) : NotBegun s.log := notBegun_of_open hopen hnone
  cases c with
  | dedup sender recipient messageId =>
    obtain ⟨k, -, -, hpre, -⟩ := h
    exact hpre.notBegun
  | begin => exact htx h.1
  | insertMail | insertRecipients | sentMailbox | insertSent =>
    exact htx (Early.toInTransaction h).transaction
  | insertAttachments => exact htx (OutboxUpTo.toInTransaction h).transaction
  | insertOutbox recipient reserved | lastInsertId recipient reserved =>
    obtain ⟨k, -, -, -, -, -, hin⟩ := h
    exact htx hin.transaction
  | commit => exact htx h.2.transaction
  | rollback error => exact h.elim

theorem Live.callBound_le (h : Live m options s c) :
    callBound m s c ≤ 3 * m.recipients.length + 7 := by
  cases c with
  | dedup sender recipient messageId =>
    obtain ⟨k, hidx, hget, -⟩ := h
    obtain ⟨hlt, -⟩ := List.getElem?_eq_some_iff.mp hget
    simp only [callBound]
    omega
  | insertOutbox recipient reserved | lastInsertId recipient reserved =>
    obtain ⟨k, hget, -, -, hidx, -⟩ := h
    obtain ⟨hlt, -⟩ := List.getElem?_eq_some_iff.mp hget
    simp only [callBound]
    omega
  | _ =>
    simp only [callBound]
    omega

theorem notBegun_threw {log : List DbEvent} (h : NotBegun log) (c : Call) :
    NotBegun (.threw c :: log) := by
  constructor
  · intro hmem
    obtain ⟨a, ha⟩ := h.1 (by simpa using hmem)
    exact ⟨a, mem_cons_of_mem _ ha⟩
  · intro a hmem
    exact h.2 a (by simpa using hmem)

/-- An operation that is done ignores the callbacks of its calls, one that rolls back those of its
other calls. -/
def Ignores (s : PrimaryOperation) (c : Call) : Prop :=
  s.done = true ∨ s.rollingBack = true ∧ ∀ error, c ≠ .rollback error

theorem Ignores.stopped (h : s.Ignores c) : (s.done || s.rollingBack) = true :=
  Bool.or_eq_true_iff.mpr (h.imp_right And.left)

theorem Ignores.done (h : s.Ignores (.rollback error)) : s.done = true :=
  h.resolve_right fun hrolling => hrolling.2 error rfl

theorem Ignores.callback (h : s.Ignores c) (inserts : Nat → MailboxInsert) (a : Answer) :
    s.callback m options inserts a c = s := by
  cases c with
  | rollback error => exact if_pos h.done
  | _ => exact if_pos h.stopped

theorem Ignores.threw (h : s.Ignores c) (what : Bytes) : s.threw what c = s := by
  cases c with
  | rollback error => exact if_pos h.done
  | _ => exact if_pos h.stopped

theorem mem_eraseIdx_of_ne {α : Type*} {l : List α} {i : Nat} {x y : α} (hx : x ∈ l)
    (hy : l[i]? = some y) (hne : x ≠ y) : x ∈ l.eraseIdx i := by
  induction l generalizing i with
  | nil => cases hx
  | cons z l ih =>
    cases i with
    | zero =>
      obtain rfl : z = y := by simpa using hy
      exact (mem_cons.mp hx).resolve_left hne
    | succ i =>
      rcases mem_cons.mp hx with rfl | hx
      · exact mem_cons_self
      · exact mem_cons_of_mem _ (ih hx (by simpa using hy))

theorem phase_rollbackDone {ok : Bool} (hdone : s.done = false) (hcompleted : s.completed = [])
    (hcalled : .called (.rollback error) ∈ s.log)
    (hok : ok = true → ∃ a : Answer, a.ok = true ∧ .answered (.rollback error) a ∈ s.log)
    (hcount : callCount s.log ≤ 3 * m.recipients.length + 8) :
    Phase m options (s.rollbackDone error ok) := by
  unfold rollbackDone
  rw [if_neg (by simp [hdone])]
  cases ok with
  | true =>
    refine phase_finish (s := { s with result := { s.result with transaction := .rolledBack } })
      hdone hcompleted ?_ hcount
    exact ⟨rfl, .inr ⟨error, hcalled, .inl (hok rfl)⟩⟩
  | false =>
    refine phase_finish (s := { s.record .disconnected with
        result := { s.result with transaction := .rollbackFailed } })
      hdone hcompleted ?_ hcount
    exact ⟨rfl, .inr ⟨error, mem_cons_of_mem _ hcalled, .inr mem_cons_self⟩⟩

/-- A step while the operation waits for its one call. -/
theorem Running.step (h : Running m options s c) (e : Event) :
    Phase m options (s.step m options e) := by
  have hbound := h.count.trans h.live.callBound_le
  -- the one call is at index 0
  have hidx {index : Nat} {c' : Call} (hget : s.calls[index]? = some c') : index = 0 ∧ c' = c := by
    rw [h.calls] at hget
    cases index with
    | zero => exact ⟨rfl, (Option.some.inj hget).symm⟩
    | succ index => simp at hget
  cases e with
  | answer index a inserts =>
    simp only [PrimaryOperation.step]
    split
    · exact .running c h
    · rename_i c' hget
      obtain ⟨rfl, rfl⟩ := hidx hget
      exact h.callback a inserts
  | throws index what =>
    simp only [PrimaryOperation.step]
    split
    · exact .running c h
    · rename_i c' hget
      obtain ⟨rfl, rfl⟩ := hidx hget
      have hthrew : (s.resolve 0 (.threw c')).threw what c' =
          (s.resolve 0 (.threw c')).fail what := by
        cases c' with
        | rollback error => exact h.live.elim
        | _ => rfl
      rw [hthrew]
      refine phase_fail (s := s.resolve 0 (.threw c')) h.done h.rollingBack h.completed
        ?_ ?_ hbound what
      · simp [resolve, h.calls]
      · exact fun hnone => notBegun_threw (h.live.notBegun hnone) c'
  | throwsAfter what =>
    refine phase_fail h.done h.rollingBack h.completed
      (fun error hmem => ?_) h.live.notBegun hbound what
    rw [h.calls, mem_singleton] at hmem
    exact h.live.ne_rollback error hmem.symm

/-- A step while it waits for its rollback. -/
theorem Rolling.step (h : Rolling m s error) (e : Event) :
    Phase m options (s.step m options e) := by
  -- resolving another call leaves the rollback unresolved
  have hoth {index : Nat} {c : Call} (hget : s.calls[index]? = some c) {e : DbEvent}
      (hcount : callCount (e :: s.log) = callCount s.log)
      (hc : ∀ error, c ≠ .rollback error) : Phase m options (s.resolve index e) :=
    .rolling error { h with
      call := mem_eraseIdx_of_ne h.call hget (hc error).symm
      called := fun error' hmem => mem_cons_of_mem _ (h.called error' (mem_of_mem_eraseIdx hmem))
      count := hcount.le.trans h.count }
  cases e with
  | answer index a inserts =>
    simp only [PrimaryOperation.step]
    split
    · exact .rolling error h
    · rename_i c hget
      by_cases hc : ∃ error, c = .rollback error
      · obtain ⟨error', rfl⟩ := hc
        exact phase_rollbackDone h.done h.completed
          (mem_cons_of_mem _ (h.called error' (mem_of_getElem? hget)))
          (fun hok => ⟨a, hok, mem_cons_self⟩) h.count
      · rw [not_exists] at hc
        rw [Ignores.callback (s := s.resolve index _) (.inr ⟨h.rollingBack, hc⟩) inserts a]
        exact hoth hget rfl hc
  | throws index what =>
    simp only [PrimaryOperation.step]
    split
    · exact .rolling error h
    · rename_i c hget
      by_cases hc : ∃ error, c = .rollback error
      · obtain ⟨error', rfl⟩ := hc
        exact phase_rollbackDone (s := s.resolve index _) h.done h.completed
          (mem_cons_of_mem _ (h.called error' (mem_of_getElem? hget))) nofun h.count
      · rw [not_exists] at hc
        rw [Ignores.threw (s := s.resolve index _) (.inr ⟨h.rollingBack, hc⟩) what]
        exact hoth hget rfl hc
  | throwsAfter what =>
    simp only [PrimaryOperation.step, fail, h.rollingBack, Bool.or_true, if_true]
    exact .rolling error h

theorem Finished.step {r : PersistenceResult} {log : List DbEvent} (h : Finished m options s r log)
    (e : Event) : Phase m options (s.step m options e) := by
  have hoth {index : Nat} {e : DbEvent} (hcount : callCount (e :: s.log) = callCount s.log) :
      Phase m options (s.resolve index e) :=
    .finished r log { h with count := hcount.le.trans h.count }
  cases e with
  | answer index a inserts =>
    simp only [PrimaryOperation.step]
    split
    · exact .finished r log h
    · rw [Ignores.callback (s := s.resolve index _) (.inl h.done) inserts a]
      exact hoth rfl
  | throws index what =>
    simp only [PrimaryOperation.step]
    split
    · exact .finished r log h
    · rw [Ignores.threw (s := s.resolve index _) (.inl h.done) what]
      exact hoth rfl
  | throwsAfter what =>
    simp only [PrimaryOperation.step, fail, h.done, Bool.true_or, if_true]
    exact .finished r log h

/-- **A step keeps the invariant.** -/
theorem Phase.step (h : Phase m options s) (e : Event) : Phase m options (s.step m options e) := by
  cases h with
  | running c h | rolling error h | finished r log h => exact h.step e

/-- **The operation starts with the invariant.** -/
theorem phase_start (router : Option ShardRouter) (m : StoredMail) (options : PersistenceOptions) :
    Phase m options (start router ⟨some m, options⟩) := by
  have hfail (result : PersistenceResult) (what : Bytes) :
      Phase m options (({ result } : PrimaryOperation).fail what) :=
    phase_fail rfl rfl rfl (by simp) (fun _ => ⟨by simp, by simp⟩) (Nat.zero_le _) what
  have hfile (result : PersistenceResult) :
      Phase m options (({ result } : PrimaryOperation).finish .fileOnly []) :=
    phase_finish rfl rfl ⟨rfl, rfl⟩ (Nat.zero_le _)
  have hdedup (result : PersistenceResult) (hres : result.outboxRecords = []) :
      Phase m options (({ result } : PrimaryOperation).deduplicateNext m) := by
    have hpre : Before m 0 { result } :=
      ⟨rfl, hres, rfl, by simp, by simp⟩
    exact hpre.phase_deduplicateNext ⟨rfl, rfl, rfl, rfl, Nat.zero_le _⟩ (Nat.zero_le _)
  unfold start
  dsimp only
  split
  · exact hfail {} _
  · split
    · exact hfile _
    · split
      · exact hfail _ _
      · exact hfile _
      · exact hfail _ _
      · split
        · exact hfail _ _
        · exact hdedup _ rfl

end PrimaryOperation

/-! ## Runs -/

/-- `persist_async`, with what the driver does afterwards. -/
def persistAsync (router : Option ShardRouter) (request : PersistenceRequest)
    (events : List PrimaryOperation.Event) : PrimaryOperation :=
  match request.message with
  | none => .start router request
  | some m => run (step m request.options) (.start router request) events

/-- **What persisting a mail reports**, for every router and request and everything the driver does:
one result at most, and one when no call is unresolved; never more than `3 n + 8` calls for `n`
recipients; and the result keeps its promise. -/
theorem persistAsync_reported (router : Option ShardRouter) (request : PersistenceRequest)
    (events : List PrimaryOperation.Event) :
    (persistAsync router request events).completed.length ≤ 1 ∧
      ((persistAsync router request events).calls = [] →
        (persistAsync router request events).completed.length = 1) ∧
      callCount (persistAsync router request events).log ≤
        3 * (request.message.elim 0 (·.recipients.length)) + 8 ∧
      ∀ r log, (r, log) ∈ (persistAsync router request events).completed →
        match request.message with
        | none => r.disposition = .failed ∧ log = []
        | some m => Reported m request.options r log := by
  obtain ⟨message, options⟩ := request
  cases message with
  | none =>
    simp [persistAsync, start, fail, finish, callCount]
  | some m =>
    have hph : PrimaryOperation.Phase m options (persistAsync router ⟨some m, options⟩ events) :=
      run_invariant (PrimaryOperation.Phase m options) (fun _ e h => h.step e)
        (phase_start router m options) events
    generalize persistAsync router ⟨some m, options⟩ events = s at hph
    cases hph with
    | running c h =>
      have hbound := h.count.trans h.live.callBound_le
      exact ⟨by simp [h.completed], by simp [h.calls],
        Nat.le_succ_of_le hbound, by simp [h.completed]⟩
    | rolling error h =>
      refine ⟨by simp [h.completed], fun hnone => ?_, h.count, by simp [h.completed]⟩
      exact absurd h.call (hnone ▸ not_mem_nil)
    | finished r log h =>
      refine ⟨by simp [h.completed], by simp [h.completed], h.count, fun r' log' hmem => ?_⟩
      rw [h.completed, mem_singleton] at hmem
      cases hmem
      exact h.reported

end ProtoRelay
