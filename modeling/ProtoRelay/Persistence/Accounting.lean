import ProtoRelay.Base.Slots
import ProtoRelay.Persistence.Queue

/-!
# What the persistence queue conserves

A mail's flags and status are those its phase allows (`PersistTask.Valid`), and the counters of the
queue count the phases (`PersistentQueue.Accounted`).  Both are kept by every step, so that in every
run a mail ends once, is counted until it has ended, and has its files removed unless they are kept
for the rows the repository committed.
-/

namespace ProtoRelay

open List PersistStatus

/-- The statuses a mail ends in. -/
def PersistStatus.isTerminal : PersistStatus → Bool
  | .success | .failed | .cancelled => true
  | .pending | .processing => false

namespace PersistRecord

/-! ## One mail -/

/-- The removal of the files was asked for exactly if the mail is not to end in success or is a
duplicate. -/
def RemovedFor (t : PersistRecord) (status : PersistStatus) : Prop :=
  t.removed = true ↔ status ≠ .success ∨ t.deduplicatedInbound = true

/-- The mail may end in `status`: in success only if that is what the repository reported first. -/
structure MayEnd (t : PersistRecord) (status : PersistStatus) : Prop where
  terminal : status.isTerminal = true
  success : status = .success → ∃ d, t.reports.head? = some d ∧ d ≠ .failed ∧
    (t.deduplicatedInbound = true ↔ d = .deduplicated)

structure Fresh (t : PersistRecord) : Prop where
  status : t.status = .pending
  result : t.result = none
  received : t.received = false
  once : t.once = false
  removed : t.removed = false
  called : t.called = false
  reports : t.reports = []

structure Running (t : PersistRecord) : Prop where
  status : t.status = .processing
  result : t.result = none
  once : t.once = false
  removed : t.removed = false
  called : t.called = true

structure Decided (t : PersistRecord) (r : PersistenceResult) : Prop where
  running : t.Running
  received : t.received = true
  reported : r.disposition ≠ .failed → t.reports.head? = some r.disposition
  deduplicated : t.deduplicatedInbound = decide (r.disposition = .deduplicated)

structure Ending (t : PersistRecord) (status : PersistStatus) : Prop where
  open' : t.status.isTerminal = false
  result : t.result = none
  once : t.once = false
  received : t.called = true → t.received = true
  mayEnd : t.MayEnd status

/-- The mail has ended: its ticket has its status, which it may end in, and its files are removed
unless they are kept. -/
structure Settled (t : PersistRecord) : Prop where
  result : ∃ r, t.result = some r ∧ r.status = t.status ∧ r.deduplicated = t.deduplicatedInbound
  mayEnd : t.MayEnd t.status
  removed : t.RemovedFor t.status

section

variable {t : PersistRecord}

variable {r : PersistenceResult} {status : PersistStatus}

theorem Decided.mayEnd (h : t.Decided r) (hsucc : r.disposition ≠ .failed) : t.MayEnd .success where
  terminal := rfl
  success _ := ⟨_, h.reported hsucc, hsucc, by simp [h.deduplicated]⟩

theorem Decided.ending (h : t.Decided r) (hend : t.MayEnd status) : t.Ending status where
  open' := by simp [h.running.status, isTerminal]
  result := h.running.result
  once := h.running.once
  received _ := h.received
  mayEnd := hend

theorem mayEnd_of_ne_success (t : PersistRecord) (status : PersistStatus)
    (hterminal : status.isTerminal = true) (hne : status ≠ .success) : t.MayEnd status :=
  ⟨hterminal, fun h => absurd h hne⟩

theorem Fresh.ending (h : t.Fresh) (status : PersistStatus) (hterminal : status.isTerminal = true)
    (hne : status ≠ .success) : t.Ending status where
  open' := by simp [h.status, isTerminal]
  result := h.result
  once := h.once
  received hcalled := by
    rw [h.called] at hcalled
    cases hcalled
  mayEnd := t.mayEnd_of_ne_success status hterminal hne

/-- What the repository reports later does not matter. -/
theorem MayEnd.report (h : t.MayEnd status) (d : PersistenceDisposition) :
    MayEnd { t with reports := t.reports ++ [d] } status := by
  refine ⟨h.terminal, fun hsucc => ?_⟩
  obtain ⟨first, hfst, hne, hdedup⟩ := h.success hsucc
  refine ⟨first, ?_, hne, hdedup⟩
  simp [head?_append, hfst]

theorem Decided.report (h : t.Decided r) (d : PersistenceDisposition) :
    Decided { t with reports := t.reports ++ [d] } r :=
  { h with
    running := { h.running with }
    reported := fun hne => by simp [head?_append, h.reported hne] }

theorem Ending.report (h : t.Ending status) (d : PersistenceDisposition) :
    Ending { t with reports := t.reports ++ [d] } status :=
  { h with mayEnd := h.mayEnd.report d }

theorem Ending.remove (h : t.Ending status) : Ending { t with removed := true } status :=
  { h with mayEnd := { h.mayEnd with } }

theorem Settled.report (h : t.Settled) (d : PersistenceDisposition) :
    Settled { t with reports := t.reports ++ [d] } :=
  ⟨h.result, h.mayEnd.report d, h.removed⟩

end

end PersistRecord

namespace PersistTask

open PersistRecord

/-- The flags and the status are those of the phase. -/
def Valid (t : PersistTask) : Prop :=
  match t.phase with
  | .queued | .popped | .posting | .posted | .starting => t.Fresh
  | .persisting => t.Running ∧ t.received = false ∧ t.reports = []
  | .received r | .finalizing r => t.Decided r
  | .removing _ status _ =>
    t.Ending status ∧ t.removed = false ∧ (status ≠ .success ∨ t.deduplicatedInbound = true)
  | .finishing _ status _ => t.Ending status ∧ t.RemovedFor status
  | .completed _ | .finished => t.Settled ∧ t.once = true ∧ (t.called = true → t.received = true)

section

variable {t : PersistTask}

/-! ### The steps of one mail -/

theorem valid_finish (onWorker : Bool) {status : PersistStatus} (error : Bytes)
    (h : t.Ending status) (hrem : t.RemovedFor status) :
    Valid (t.finish onWorker status error) := by
  have hfinish : t.finish onWorker status error =
      { t with
        once := true
        phase := .completed onWorker
        status
        result := some { status, error, deduplicated := t.deduplicatedInbound } } := by
    simp [finish, h.once, h.result]
  rw [hfinish]
  exact ⟨⟨⟨_, rfl, rfl, rfl⟩, { h.mayEnd with }, hrem⟩, rfl, h.received⟩

/-- The end of a mail whose result is known. -/
theorem valid_finalized {r : PersistenceResult} (h : t.Decided r) (error : Bytes) :
    Valid (if r.disposition = .failed then { t with phase := .removing false .failed error }
      else if r.disposition = .deduplicated then { t with phase := .removing false .success [] }
      else { t with phase := .finishing false .success [] }) := by
  split
  · have hend : t.Ending .failed := h.ending (t.mayEnd_of_ne_success .failed rfl nofun)
    exact ⟨hend, h.running.removed, .inl nofun⟩
  · rename_i hsucc
    have hend : t.Ending .success := h.ending (h.mayEnd hsucc)
    split
    · rename_i hdedup
      exact ⟨hend, h.running.removed, .inr (by simp [h.deduplicated, hdedup])⟩
    · rename_i hdedup
      exact ⟨hend, by simp [RemovedFor, h.running.removed, h.deduplicated, hdedup]⟩

/-- Every step of a mail's thread keeps the flags valid. -/
theorem Valid.advance (h : t.Valid) (shutdown posts : Bool) : (t.advance shutdown posts).Valid := by
  unfold PersistTask.advance
  unfold Valid at h
  -- one case for every phase
  split <;> rename_i hph <;> rw [hph] at h
  case h_1 =>
    split
    · exact ⟨Fresh.ending h .cancelled rfl nofun, h.removed, .inl nofun⟩
    · exact h
  case h_2 =>
    split
    · exact h
    · exact ⟨Fresh.ending h .failed rfl nofun, h.removed, .inl nofun⟩
  case h_3 =>
    split
    · exact ⟨Fresh.ending h .cancelled rfl nofun, h.removed, .inl nofun⟩
    · exact h
  case h_4 => exact ⟨⟨rfl, h.result, h.once, h.removed, rfl⟩, h.received, h.reports⟩
  case h_5 r =>
    split
    · exact h
    · exact valid_finalized h _
  case h_6 r => exact valid_finalized h _
  case h_7 => exact ⟨h.1.remove, by simpa [RemovedFor] using h.2.2⟩
  case h_8 onWorker status error => exact valid_finish onWorker error h.1 h.2
  case h_9 => exact h
  all_goals
    unfold Valid
    rw [hph]
    exact h

/-- `complete` was called, or the mail is with the repository, or it never was. -/
theorem Valid.waits (h : t.Valid) (hcalled : t.called = true) (hrecv : t.received = false) :
    t.phase = .persisting := by
  unfold Valid at h
  split at h <;> rename_i hph
  case h_6 => exact hph
  case h_7 | h_8 =>
    have := h.received
    simp_all
  case h_9 | h_10 =>
    have := h.1.received hcalled
    simp_all
  case h_11 | h_12 =>
    have := h.2.2 hcalled
    simp_all
  all_goals
    have := h.called
    simp_all

/-- What the repository reports when the mail has its result changes nothing. -/
theorem Valid.report (h : t.Valid) (hrecv : t.received = true) (d : PersistenceDisposition) :
    Valid { t with reports := t.reports ++ [d] } := by
  unfold Valid at h ⊢
  split at h <;> rename_i hph
  case h_6 => simp_all
  case h_7 | h_8 => simpa only [hph] using h.report d
  case h_9 | h_10 | h_11 | h_12 => simpa only [hph] using ⟨h.1.report d, h.2⟩
  all_goals
    have := h.received
    simp_all

/-- A call of `complete` for a mail that is with the repository. -/
theorem valid_complete (h : t.Running) (hrecv : t.received = false) (r : PersistenceResult)
    (hrep : r.disposition ≠ .failed → t.reports.head? = some r.disposition) :
    Valid (t.complete r) := by
  have hcomplete : t.complete r =
      { t with
        received := true
        deduplicatedInbound := decide (r.disposition = .deduplicated)
        phase := .received r } := by
    simp [complete, hrecv]
  rw [hcomplete]
  exact ⟨{ h with }, rfl, hrep, rfl⟩

/-- A mail whose status is terminal is past `finish`. -/
theorem Valid.past_finish (h : t.Valid) (hterminal : t.status.isTerminal = true) :
    (∃ onWorker, t.phase = .completed onWorker) ∨ t.phase = .finished := by
  unfold Valid at h
  split at h <;> rename_i hph
  case h_11 onWorker => exact .inl ⟨onWorker, hph⟩
  case h_12 => exact .inr hph
  case h_6 =>
    have := h.1.status
    simp_all [isTerminal]
  case h_7 | h_8 =>
    have := h.running.status
    simp_all [isTerminal]
  case h_9 | h_10 =>
    have := h.1.open'
    simp_all
  all_goals
    have := h.status
    simp_all [isTerminal]

theorem Valid.settled (h : t.Valid) (hpast : (∃ onWorker, t.phase = .completed onWorker) ∨
    t.phase = .finished) : t.Settled := by
  unfold Valid at h
  rcases hpast with ⟨onWorker, hph⟩ | hph
  all_goals
    rw [hph] at h
    exact h.1

end

/-! ### What steps of other threads leave alone -/

def rank (t : PersistTask) : Nat :=
  match t.phase with
  | .queued => 11
  | .popped => 10
  | .posting => 9
  | .posted => 8
  | .starting => 7
  | .persisting => 6
  | .received _ => 5
  | .finalizing _ => 4
  | .removing .. => 3
  | .finishing .. => 2
  | .completed _ => 1
  | .finished => 0

def outcome (t : PersistTask) : PersistStatus × Option PersistResult × Bool × Bool :=
  (t.status, t.result, t.deduplicatedInbound, t.removed)

/-- A step leads nowhere back, and does not change how a mail has ended. -/
structure Onward (t t' : PersistTask) : Prop where
  rank : t'.rank ≤ t.rank
  outcome : t.status.isTerminal = true → t'.outcome = t.outcome

/-- It keeps the flags valid and takes no mail off the queue. -/
structure Steps (t t' : PersistTask) : Prop extends Onward t t' where
  valid : t'.Valid
  queued : t'.phase = .queued ↔ t.phase = .queued

/-- A step that does not move the mail, as far as the queue counts it. -/
structure Stays (t t' : PersistTask) : Prop extends Steps t t' where
  finished : t'.phase = .finished ↔ t.phase = .finished
  onWorker : t'.phase.onWorker = t.phase.onWorker

section

variable {t : PersistTask}

theorem Valid.stays_self (h : t.Valid) : Stays t t :=
  ⟨⟨⟨le_rfl, fun _ => rfl⟩, h, Iff.rfl⟩, Iff.rfl, rfl⟩

theorem Valid.stays_cancel (h : t.Valid) : Stays t { t with cancelRequested := true } := by
  refine ⟨⟨⟨le_rfl, fun _ => rfl⟩, ?_, Iff.rfl⟩, Iff.rfl, rfl⟩
  unfold Valid at h ⊢
  split at h <;> rename_i hph <;> simp only [hph]
  case h_6 => exact ⟨{ h.1 with }, h.2⟩
  case h_7 | h_8 => exact ⟨{ h.running with }, h.received, h.reported, h.deduplicated⟩
  case h_9 | h_10 | h_11 | h_12 => exact ⟨{ h.1 with mayEnd := { h.1.mayEnd with } }, h.2⟩
  all_goals exact { h with }

theorem complete_of_received (h : t.received = true) (r : PersistenceResult) :
    t.complete r = t := by
  rw [complete, if_pos h]

/-- A call of `complete` takes a mail that is with the repository on, and no other. -/
theorem stays_complete (hph : t.phase = .persisting) (hrecv : t.received = false)
    (hstatus : t.status = .processing) (r : PersistenceResult) (hval : (t.complete r).Valid) :
    Stays t (t.complete r) := by
  have hcomplete : (t.complete r).phase = .received r := by simp [complete, hrecv]
  refine ⟨⟨⟨by simp [rank, hcomplete, hph], ?_⟩, hval, by simp [hcomplete, hph]⟩,
    by simp [hcomplete, hph], by simp [hcomplete, hph, Phase.onWorker]⟩
  simp [hstatus, isTerminal]

theorem Valid.stays_callback (h : t.Valid) (r : PersistenceResult) : Stays t (t.callback r) := by
  unfold callback
  split
  · rename_i hcalled
    rcases Bool.eq_false_or_eq_true t.received with hrecv | hrecv
    · -- a second call
      rw [complete_of_received (t := { t with reports := t.reports ++ [r.disposition] }) hrecv]
      exact ⟨⟨⟨le_rfl, fun _ => rfl⟩, h.report hrecv _, Iff.rfl⟩, Iff.rfl, rfl⟩
    · have hph := h.waits hcalled hrecv
      unfold Valid at h
      rw [hph] at h
      obtain ⟨hrunning, -, hreports⟩ := h
      have hrunning' : Running { t.toPersistRecord with reports := t.reports ++ [r.disposition] } :=
        { hrunning with }
      have hval := valid_complete (t := { t with reports := t.reports ++ [r.disposition] })
        hrunning' hrecv r (fun _ => by simp [hreports])
      have hs := stays_complete (t := { t with reports := t.reports ++ [r.disposition] })
        hph hrecv hrunning.status r hval
      exact ⟨{ hs with valid := hval }, hs.finished, hs.onWorker⟩
  · exact h.stays_self

theorem Valid.stays_threw (h : t.Valid) (what : Bytes) : Stays t (t.threw what) := by
  unfold threw
  split
  · rename_i hcalled
    rcases Bool.eq_false_or_eq_true t.received with hrecv | hrecv
    · -- it throws after it has called back
      rw [complete_of_received hrecv]
      exact h.stays_self
    · have hph := h.waits hcalled hrecv
      unfold Valid at h
      rw [hph] at h
      have hval := valid_complete h.1 hrecv { error := what } (fun hne => absurd rfl hne)
      exact stays_complete hph hrecv h.1.status _ hval
  · exact h.stays_self

/-- The thread that has the mail is running: it neither waits for the queue's thread nor for the
repository, and has not ended. -/
def isMoving (t : PersistTask) : Bool :=
  match t.phase with
  | .queued | .persisting | .finished => false
  | _ => true

theorem advance_of_not_isMoving (h : t.isMoving = false) (shutdown posts : Bool) :
    t.advance shutdown posts = t := by
  unfold isMoving at h
  unfold PersistTask.advance
  split <;> simp_all

/-- Where the thread that has a mail takes it. -/
theorem Valid.advance_phase (h : t.Valid) (hm : t.isMoving = true) (shutdown posts : Bool) :
    (t.advance shutdown posts).rank < t.rank ∧
      ((t.advance shutdown posts).phase.onWorker = true → t.phase.onWorker = true) ∧
      ((t.advance shutdown posts).phase = .finished ↔ ∃ onWorker, t.phase = .completed onWorker) ∧
      (t.status.isTerminal = true → (t.advance shutdown posts).outcome = t.outcome) := by
  have hpast := h.past_finish
  unfold isMoving at hm
  unfold Valid at h
  unfold PersistTask.advance
  split <;> rename_i hph
  case h_8 onWorker status error =>
    rw [hph] at h
    simp [finish, h.1.once, h.1.result, rank, hph, Phase.onWorker, h.1.open']
  case h_9 => simp [rank, hph, Phase.onWorker, outcome]
  case h_10 | h_11 | h_12 => simp [hph] at hm
  all_goals
    -- the status is not terminal before `finish`
    have hopen : t.status.isTerminal = false := by
      by_contra hterminal
      rcases hpast (by simpa using hterminal) with ⟨_, hpast⟩ | hpast <;> simp [hph] at hpast
    repeat' split
    all_goals simp [rank, hph, Phase.onWorker, hopen]

theorem Valid.steps_advance (h : t.Valid) (shutdown posts : Bool) :
    Steps t (t.advance shutdown posts) := by
  rcases Bool.eq_false_or_eq_true t.isMoving with hm | hm
  · obtain ⟨hrank, -, -, hout⟩ := h.advance_phase hm shutdown posts
    refine ⟨⟨hrank.le, hout⟩, h.advance shutdown posts, ?_⟩
    have hne : t.phase ≠ .queued := by
      rintro hph
      simp [isMoving, hph] at hm
    -- nothing goes back to the queue, which has the highest rank
    have hle : t.rank ≤ 11 := by
      unfold rank
      split <;> omega
    refine ⟨fun hph => ?_, fun hph => absurd hph hne⟩
    have hqueued : (t.advance shutdown posts).rank = 11 := by rw [rank, hph]
    omega
  · rw [advance_of_not_isMoving hm]
    exact h.stays_self.toSteps

end

def isQueued (t : PersistTask) : Bool := decide (t.phase = .queued)

/-- `finish_task` has not returned. -/
def isInflight (t : PersistTask) : Bool := decide (t.phase ≠ .finished)

end PersistTask

/-! ## The queue -/

namespace PersistentQueue

open PersistTask

/-- The mails are valid, the counters count the phases, the task queue holds the mails in it, and
the queue's thread has the mails it works on. -/
structure Accounted (s : PersistentQueue) : Prop where
  valid : ∀ t ∈ s.mails, t.Valid
  queued : s.queuedTaskCount = (s.mails.countP isQueued : Nat)
  inflight : s.inflightMailCount = (s.mails.countP isInflight : Nat)
  length : s.taskQueue.length = s.mails.countP isQueued
  members : ∀ i ∈ s.taskQueue, ∃ t, s.mails[i]? = some t ∧ t.phase = .queued
  nodup : s.taskQueue.Nodup
  worker : ∀ i t, s.mails[i]? = some t → (t.phase.onWorker = true ↔ s.worker = .processing i)
  processing : ∀ i, s.worker = .processing i → i < s.mails.length
  exited : s.worker = .exited → s.shutdown = true ∧ s.taskQueue = []

theorem accounted_empty : Accounted {} := by
  constructor <;> simp

section

variable {s : PersistentQueue} {i : Nat} {t : PersistTask} {f : PersistTask → PersistTask}

theorem Accounted.valid_of_getElem? (h : s.Accounted) (ht : s.mails[i]? = some t) : t.Valid :=
  h.valid t (mem_of_getElem? ht)

theorem Steps.countP_isQueued (h : Steps t (f t)) (ht : s.mails[i]? = some t) :
    (s.mails.modify i f).countP isQueued = s.mails.countP isQueued := by
  have hcnt := countP_modify_add (f := f) isQueued ht
  have hsame : isQueued (f t) = isQueued t := by simp [isQueued, h.queued]
  rw [hsame] at hcnt
  omega

theorem Stays.countP_isInflight (h : Stays t (f t)) (ht : s.mails[i]? = some t) :
    (s.mails.modify i f).countP isInflight = s.mails.countP isInflight := by
  have hcnt := countP_modify_add (f := f) isInflight ht
  have hsame : isInflight (f t) = isInflight t := by simp [isInflight, h.finished]
  rw [hsame] at hcnt
  omega

section

variable (h : s.Accounted)

include h

theorem Accounted.members_modify (ht : s.mails[i]? = some t) (hf : Steps t (f t)) :
    ∀ j ∈ s.taskQueue, ∃ t', (s.mails.modify i f)[j]? = some t' ∧ t'.phase = .queued := by
  intro j hj
  obtain ⟨t', ht', hph⟩ := h.members j hj
  by_cases hij : i = j
  · subst hij
    cases ht.symm.trans ht'
    exact ⟨f t, getElem?_modify_self ht, hf.queued.mpr hph⟩
  · exact ⟨t', by rwa [getElem?_modify_of_ne hij], hph⟩

theorem Accounted.valid_modify (ht : s.mails[i]? = some t) (hf : (f t).Valid) :
    ∀ t' ∈ s.mails.modify i f, t'.Valid := by
  intro t' hmem
  obtain ⟨j, hj⟩ := mem_iff_getElem?.mp hmem
  obtain ⟨-, rfl⟩ | ⟨-, hj⟩ := getElem?_modify_cases ht hj
  · exact hf
  · exact h.valid_of_getElem? hj

/-- A mail is moved, and uncounted if it is finished; the queue's thread has it until it waits
again. -/
theorem Accounted.modify (ht : s.mails[i]? = some t) (hs : Steps t (f t))
    (hwork : (f t).phase.onWorker = true → t.phase.onWorker = true) {count : Int}
    (hcount : count = ((s.mails.modify i f).countP isInflight : Nat)) : Accounted
      { s with
        mails := s.mails.modify i f
        inflightMailCount := count
        worker := if t.phase.onWorker && !(f t).phase.onWorker then .waiting else s.worker } := by
  have hcnt := Steps.countP_isQueued hs ht
  refine ⟨h.valid_modify ht hs.valid, ?_, hcount, ?_, h.members_modify ht hs, h.nodup, ?_, ?_, ?_⟩
  · rw [hcnt]
    exact h.queued
  · rw [hcnt]
    exact h.length
  · intro j t' hj
    have hold := h.worker i t ht
    obtain ⟨rfl, rfl⟩ | ⟨hij, hj⟩ := getElem?_modify_cases ht hj
    · rcases Bool.eq_false_or_eq_true (f t).phase.onWorker with hafter | hafter
      · simp [hafter, hold.mp (hwork hafter)]
      · rcases Bool.eq_false_or_eq_true t.phase.onWorker with hpre | hpre
        · simp [hafter, hpre]
        · simpa [hafter, hpre] using hold
    · have hoth := h.worker j t' hj
      split
      · -- the thread had the mail `i`, and so no other
        rename_i hleft
        rw [hold.mp (Bool.and_eq_true_iff.mp hleft).1] at hoth
        simp only [Worker.processing.injEq, hij, iff_false] at hoth
        simp [hoth]
      · exact hoth
  · intro j hj
    rw [length_modify]
    split_ifs at hj
    exact h.processing j hj
  · intro hexited
    split_ifs at hexited
    exact h.exited hexited

theorem Accounted.modify_of_stays (hf : ∀ t, s.mails[i]? = some t → Stays t (f t)) :
    Accounted { s with mails := s.mails.modify i f } := by
  cases ht : s.mails[i]? with
  | none =>
    rw [modify_of_getElem?_eq_none ht]
    exact h
  | some t =>
    have hs := hf t ht
    have hcount := h.inflight
    rw [← Stays.countP_isInflight hs ht] at hcount
    have hmod := h.modify ht hs.toSteps (fun hwork => hs.onWorker ▸ hwork) hcount
    simpa [hs.onWorker] using hmod

/-- A mail that is taken is counted as queued and in flight. -/
theorem Accounted.append_queued (hshut : s.shutdown = false) : Accounted
      { s with
        queuedTaskCount := s.queuedTaskCount + 1
        inflightMailCount := s.inflightMailCount + 1
        taskQueue := s.taskQueue ++ [s.mails.length]
        mails := s.mails ++ [{}] } := by
  have hnew : s.mails.length ∉ s.taskQueue := by
    intro hmem
    obtain ⟨t, ht, -⟩ := h.members _ hmem
    simp at ht
  refine ⟨?_, ?_, ?_, ?_, ?_, ?_, ?_, ?_, ?_⟩
  · intro t ht
    rcases mem_append.mp ht with ht | ht
    · exact h.valid t ht
    · rw [mem_singleton.mp ht]
      exact ⟨rfl, rfl, rfl, rfl, rfl, rfl, rfl⟩
  · have hqueued := h.queued
    simp [isQueued, hqueued]
  · have hinflight := h.inflight
    simp [isInflight, hinflight]
  · simp [isQueued, h.length]
  · intro i hi
    rcases mem_append.mp hi with hi | hi
    · obtain ⟨t, ht, hph⟩ := h.members i hi
      exact ⟨t, by rw [getElem?_append_left (List.getElem?_eq_some_iff.mp ht).1]; exact ht, hph⟩
    · rw [mem_singleton.mp hi]
      exact ⟨{}, by simp, rfl⟩
  · simp [nodup_append, h.nodup]
    exact fun i hi heq => hnew (heq ▸ hi)
  · intro i t ht
    rw [getElem?_append] at ht
    split at ht
    · exact h.worker i t ht
    · -- the new mail is in the queue, and its index was not in use
      have ht' : t = {} := by
        have := mem_of_getElem? ht
        simpa using this
      subst ht'
      refine ⟨nofun, fun hwork => ?_⟩
      have := h.processing i hwork
      omega
  · intro i hi
    have := h.processing i hi
    simp only [length_append, length_singleton]
    omega
  · intro hexited
    have := (h.exited hexited).1
    rw [hshut] at this
    cases this

end

variable (config : PressureConfig)

theorem accounted_submit (h : s.Accounted) (status : Option PersistStatus)
    (p : Pressure) : (s.submitOwnedMail config status p).1.Accounted := by
  unfold submitOwnedMail
  cases status with
  | none => exact h
  | some status =>
    dsimp only
    split_ifs with hshut hstatus hreason hfull
    · exact h
    · exact h
    · exact h
    · -- the counters are as they were
      simpa only [Int.add_sub_cancel] using h
    · exact h.append_queued (by simpa using hshut)

/-- The queue's thread takes a mail off the queue. -/
theorem Accounted.pop (h : s.Accounted) (hwork : s.worker = .waiting) {rest : List Nat}
    (hq : s.taskQueue = i :: rest) : Accounted
      { s with
        taskQueue := rest
        queuedTaskCount := s.queuedTaskCount - 1
        worker := .processing i
        mails := s.mails.modify i fun t => { t with phase := .popped } } := by
  obtain ⟨t, ht, hph⟩ := h.members i (by rw [hq]; exact mem_cons_self)
  obtain ⟨hnot, hnd⟩ := nodup_cons.mp (hq ▸ h.nodup)
  have hfr : t.Fresh := by
    have hval := h.valid_of_getElem? ht
    unfold Valid at hval
    rwa [hph] at hval
  have hcnt := countP_modify_add (f := fun t => { t with phase := .popped }) isQueued ht
  simp only [isQueued, hph, decide_true, if_true, reduceCtorEq, decide_false, Bool.false_eq_true,
    if_false, add_zero] at hcnt
  have hinflight := countP_modify_add (f := fun t => { t with phase := .popped }) isInflight ht
  simp only [isInflight, hph, ne_eq, reduceCtorEq, not_false_eq_true, decide_true, if_true,
    Nat.add_right_cancel_iff] at hinflight
  have hlen := h.length
  rw [hq, length_cons] at hlen
  have hqueued := h.queued
  refine ⟨h.valid_modify ht hfr, ?_, ?_, ?_, ?_, hnd, ?_, ?_, nofun⟩
  · dsimp only
    omega
  · have hold := h.inflight
    dsimp only
    omega
  · dsimp only
    omega
  · intro j hj
    obtain ⟨t', ht', hphase'⟩ := h.members j (by rw [hq]; exact mem_cons_of_mem _ hj)
    have hij : i ≠ j := fun heq => hnot (heq ▸ hj)
    exact ⟨t', by rwa [getElem?_modify_of_ne hij], hphase'⟩
  · intro j t' hj
    obtain ⟨rfl, rfl⟩ | ⟨hij, hj⟩ := getElem?_modify_cases ht hj
    · simp [Phase.onWorker]
    · -- the thread waited, so that it had no mail
      have hoth := h.worker j t' hj
      rw [hwork] at hoth
      simp [hoth, hij]
  · intro j hj
    cases hj
    rw [length_modify]
    exact (List.getElem?_eq_some_iff.mp ht).1

theorem accounted_processTask (h : s.Accounted) : s.processTask.Accounted := by
  unfold processTask
  split_ifs with hwork hwake
  · exact h
  · simp only [ne_eq, not_not] at hwork
    split
    · -- the thread exits, which it only does after the shutdown
      rename_i hq
      have hcnt : s.queuedTaskCount = 0 := by
        have hlen := h.length
        rw [hq, length_nil] at hlen
        rw [h.queued, ← hlen, Int.natCast_zero]
      have hshut : s.shutdown = true := by
        rcases hwake with hshut | hpositive
        · exact hshut
        · omega
      refine { h with worker := ?_, processing := nofun, exited := fun _ => ⟨hshut, hq⟩ }
      intro i t ht
      have hoth := h.worker i t ht
      rw [hwork] at hoth
      simpa using hoth
    · rename_i i rest hq
      exact h.pop hwork hq
  · exact h

theorem advance_of_not_isMoving (ht : s.mails[i]? = some t) (h : t.isMoving = false)
    (posts : Bool) :
    s.advance i posts = s := by
  have hsame := PersistTask.advance_of_not_isMoving h s.shutdown posts
  have hmails : s.mails.modify i (·.advance s.shutdown posts) = s.mails := by
    apply ext_getElem?
    intro j
    by_cases hij : i = j
    · subst hij
      rw [getElem?_modify_self ht, hsame, ht]
    · rw [getElem?_modify_of_ne hij]
  have hph : t.phase = .queued ∨ t.phase = .persisting ∨ t.phase = .finished := by
    unfold isMoving at h
    split at h <;> simp_all
  rcases hph with hph | hph | hph <;>
    simp only [PersistentQueue.advance, ht, hsame, hmails, hph, Bool.and_not_self,
      Bool.false_eq_true, if_false]

/-- `finish_task` uncounts the mail. -/
theorem Accounted.inflight_advance (h : s.Accounted) (ht : s.mails[i]? = some t)
    (hm : t.isMoving = true)
    (hf : (f t).phase = .finished ↔ ∃ onWorker, t.phase = .completed onWorker) : (match t.phase with
      | .completed _ => s.inflightMailCount - 1
      | _ => s.inflightMailCount : Int) = ((s.mails.modify i f).countP isInflight : Nat) := by
  have hcnt := countP_modify_add (f := f) isInflight ht
  have hinflight := h.inflight
  have hpre : isInflight t = true := by
    simp only [isInflight, ne_eq, decide_not, Bool.not_eq_true', decide_eq_false_iff_not]
    rintro hph
    simp [isMoving, hph] at hm
  rw [hpre, if_pos rfl] at hcnt
  split
  · rename_i onWorker hph
    have hafter : isInflight (f t) = false := by simp [isInflight, hf, hph]
    rw [hafter] at hcnt
    simp only [Bool.false_eq_true, if_false] at hcnt
    omega
  · rename_i hph
    have hafter : isInflight (f t) = true := by
      simp only [isInflight, hf, ne_eq, decide_eq_true_eq]
      rintro ⟨onWorker, heq⟩
      exact hph onWorker heq
    rw [hafter, if_pos rfl] at hcnt
    omega

theorem accounted_advance (h : s.Accounted) (i : Nat) (posts : Bool) :
    (s.advance i posts).Accounted := by
  cases ht : s.mails[i]? with
  | none =>
    have hsame : s.advance i posts = s := by simp [PersistentQueue.advance, ht]
    rwa [hsame]
  | some t =>
    rcases Bool.eq_false_or_eq_true t.isMoving with hm | hm
    · have hval := h.valid_of_getElem? ht
      have hsteps := hval.steps_advance s.shutdown posts
      obtain ⟨-, honWorker, hfinished, -⟩ := hval.advance_phase hm s.shutdown posts
      simp only [PersistentQueue.advance, ht]
      exact h.modify ht hsteps honWorker
        (h.inflight_advance (f := (·.advance s.shutdown posts)) ht hm hfinished)
    · rwa [advance_of_not_isMoving ht hm]

theorem accounted_step (h : s.Accounted) (input : Input) : (s.step config input).Accounted := by
  cases input with
  | submit status p => exact accounted_submit config h status p
  | cancel i => exact h.modify_of_stays fun _ ht => (h.valid_of_getElem? ht).stays_cancel
  | shutdown => exact { h with exited := fun hexited => ⟨rfl, (h.exited hexited).2⟩ }
  | processTask => exact accounted_processTask h
  | advance i posts => exact accounted_advance h i posts
  | callback i r => exact h.modify_of_stays fun _ ht => (h.valid_of_getElem? ht).stays_callback r
  | throws i what => exact h.modify_of_stays fun _ ht => (h.valid_of_getElem? ht).stays_threw what

/-! ### Progress -/

def work (s : PersistentQueue) : Nat := (s.mails.map rank).sum

/-- The steps the threads and the repository owe: the queue's thread has a mail to take, a thread
has a mail, or the repository has it. -/
def Outstanding (s : PersistentQueue) : Input → Prop
  | .processTask => s.worker = .waiting ∧ s.taskQueue ≠ []
  | .advance i _ => ∃ t, s.mails[i]? = some t ∧ t.isMoving = true
  | .callback i _ | .throws i _ => ∃ t, s.mails[i]? = some t ∧ t.phase = .persisting
  | .submit .. | .cancel _ | .shutdown => False

theorem isMoving_of_onWorker (h : t.phase.onWorker = true) : t.isMoving = true := by
  unfold Phase.onWorker at h
  unfold isMoving
  split <;> simp_all

/-- A mail that has not ended waits for a step. -/
theorem Accounted.exists_outstanding (h : s.Accounted) (ht : s.mails[i]? = some t)
    (hph : t.phase ≠ .finished) : ∃ input, s.Outstanding input := by
  rcases Bool.eq_false_or_eq_true t.isMoving with hm | hm
  · exact ⟨.advance i true, t, ht, hm⟩
  · have hwaits : t.phase = .queued ∨ t.phase = .persisting := by
      unfold isMoving at hm
      split at hm <;> simp_all
    rcases hwaits with hqueued | hpersisting
    · -- the queue is not empty, so that its thread has not exited
      have hne : s.taskQueue ≠ [] := by
        intro hnil
        have hlen := h.length
        rw [hnil, length_nil, eq_comm, countP_eq_zero] at hlen
        exact hlen t (mem_of_getElem? ht) (by simp [isQueued, hqueued])
      cases hwork : s.worker with
      | waiting => exact ⟨.processTask, hwork, hne⟩
      | processing j =>
        have hlt := h.processing j hwork
        have hj : s.mails[j]? = some s.mails[j] := getElem?_eq_getElem hlt
        exact ⟨.advance j true, _, hj, isMoving_of_onWorker ((h.worker j _ hj).mpr hwork)⟩
      | exited => exact absurd (h.exited hwork).2 hne
    · exact ⟨.throws i [], t, ht, hpersisting⟩

theorem work_modify_lt (ht : s.mails[i]? = some t) (hf : (f t).rank < t.rank) :
    ((s.mails.modify i f).map rank).sum < s.work := by
  have hsum := sum_map_modify_add (f := f) rank ht
  unfold work
  omega

theorem work_modify_le (hf : ∀ t, s.mails[i]? = some t → (f t).rank ≤ t.rank) :
    ((s.mails.modify i f).map rank).sum ≤ s.work := by
  cases ht : s.mails[i]? with
  | none =>
    rw [modify_of_getElem?_eq_none ht]
    exact le_rfl
  | some t =>
    have hsum := sum_map_modify_add (f := f) rank ht
    have hle := hf t ht
    unfold work
    omega

theorem mails_advance (s : PersistentQueue) (i : Nat) (posts : Bool) :
    (s.advance i posts).mails = s.mails.modify i (·.advance s.shutdown posts) := by
  unfold PersistentQueue.advance
  split
  · rename_i hnone
    rw [modify_of_getElem?_eq_none hnone]
  · rfl

theorem mails_processTask (hwork : s.worker = .waiting) {rest : List Nat} (h : s.Accounted)
    (hq : s.taskQueue = i :: rest) :
    s.processTask.mails = s.mails.modify i fun t => { t with phase := .popped } := by
  have hpositive : 0 < s.queuedTaskCount := by
    have hlen := h.length
    rw [hq, length_cons] at hlen
    rw [h.queued]
    omega
  simp [processTask, hwork, hpositive, hq]

/-- A call of `complete` for a mail that is with the repository takes it on. -/
theorem rank_complete_lt (hph : t.phase = .persisting) (hrecv : t.received = false)
    (r : PersistenceResult) : (t.complete r).rank < t.rank := by
  simp [complete, hrecv, rank, hph]

/-- A step that is owed leaves fewer steps. -/
theorem Accounted.work_lt (h : s.Accounted) {input : Input}
    (houtstanding : s.Outstanding input) : (s.step config input).work < s.work := by
  cases input with
  | processTask =>
    obtain ⟨hwork, hne⟩ := houtstanding
    obtain ⟨i, rest, hq⟩ := exists_cons_of_ne_nil hne
    obtain ⟨t, ht, hph⟩ := h.members i (by rw [hq]; exact mem_cons_self)
    change (s.processTask.mails.map rank).sum < s.work
    rw [mails_processTask hwork h hq]
    exact work_modify_lt ht (by simp [rank, hph])
  | advance i posts =>
    obtain ⟨t, ht, hm⟩ := houtstanding
    change ((s.advance i posts).mails.map rank).sum < s.work
    rw [mails_advance]
    exact work_modify_lt ht ((h.valid_of_getElem? ht).advance_phase hm _ posts).1
  | callback i r =>
    obtain ⟨t, ht, hph⟩ := houtstanding
    have hval := h.valid_of_getElem? ht
    unfold Valid at hval
    rw [hph] at hval
    refine work_modify_lt ht ?_
    rw [callback, if_pos hval.1.called]
    exact rank_complete_lt (t := { t with reports := t.reports ++ [r.disposition] }) hph hval.2.1 r
  | throws i what =>
    obtain ⟨t, ht, hph⟩ := houtstanding
    have hval := h.valid_of_getElem? ht
    unfold Valid at hval
    rw [hph] at hval
    refine work_modify_lt ht ?_
    rw [threw, if_pos hval.1.called]
    exact rank_complete_lt hph hval.2.1 _
  | submit | cancel | shutdown => exact houtstanding.elim

section

variable (h : s.Accounted) {input : Input} (hsubmit : ∀ status p, input ≠ .submit status p)

include h hsubmit

/-- A step that admits no mail moves one at most, and that onward. -/
theorem Accounted.mails_step :
    ∃ i f, (s.step config input).mails = s.mails.modify i f ∧
      ∀ t, s.mails[i]? = some t → Onward t (f t) := by
  have hsame : ∃ i f, s.mails = s.mails.modify i f ∧ ∀ t, s.mails[i]? = some t → Onward t (f t) :=
    ⟨0, id, (modify_id ..).symm, fun t _ => ⟨le_rfl, fun _ => rfl⟩⟩
  cases input with
  | submit status p => exact absurd rfl (hsubmit status p)
  | cancel i => exact ⟨i, _, rfl, fun t ht => (h.valid_of_getElem? ht).stays_cancel.toOnward⟩
  | shutdown => exact hsame
  | processTask =>
    simp only [step, processTask]
    split_ifs
    · exact hsame
    · split
      · exact hsame
      · rename_i i rest hq
        refine ⟨i, _, rfl, fun t ht => ⟨?_, fun _ => rfl⟩⟩
        obtain ⟨t', ht', hph⟩ := h.members i (by rw [hq]; exact mem_cons_self)
        cases ht.symm.trans ht'
        simp [rank, hph]
    · exact hsame
  | advance i posts =>
    exact ⟨i, _, mails_advance s i posts, fun t ht =>
      ((h.valid_of_getElem? ht).steps_advance _ posts).toOnward⟩
  | callback i r =>
    exact ⟨i, _, rfl, fun t ht => ((h.valid_of_getElem? ht).stays_callback r).toOnward⟩
  | throws i what =>
    exact ⟨i, _, rfl, fun t ht => ((h.valid_of_getElem? ht).stays_threw what).toOnward⟩

/-- A step that admits no mail leaves no more steps. -/
theorem Accounted.work_le : (s.step config input).work ≤ s.work := by
  obtain ⟨i, f, hmails, hf⟩ := h.mails_step config hsubmit
  rw [work, hmails]
  exact work_modify_le fun t ht => (hf t ht).rank

end

/-! ### Ends are final -/

/-- The mail is still there, and ended as before. -/
def KeepsOutcome (t : PersistTask) (i : Nat) (mails : List PersistTask) : Prop :=
  ∃ t', mails[i]? = some t' ∧ t'.outcome = t.outcome

section

variable (h : s.Accounted) (ht : s.mails[i]? = some t) (hterminal : t.status.isTerminal = true)

include h ht hterminal

theorem Accounted.keepsOutcome_step (input : Input) :
    KeepsOutcome t i (s.step config input).mails := by
  by_cases hsubmit : ∀ status p, input ≠ .submit status p
  · obtain ⟨j, f, hmails, hf⟩ := h.mails_step config hsubmit
    rw [hmails]
    by_cases hij : j = i
    · subst hij
      exact ⟨f t, getElem?_modify_self ht, (hf t ht).outcome hterminal⟩
    · exact ⟨t, by rwa [getElem?_modify_of_ne hij], rfl⟩
  · push Not at hsubmit
    obtain ⟨status, p, rfl⟩ := hsubmit
    simp only [step, submitOwnedMail]
    cases status with
    | none => exact ⟨t, ht, rfl⟩
    | some status =>
      dsimp only
      split_ifs
      case neg =>
        refine ⟨t, ?_, rfl⟩
        rw [getElem?_append_left (List.getElem?_eq_some_iff.mp ht).1]
        exact ht
      all_goals exact ⟨t, ht, rfl⟩

theorem Accounted.keepsOutcome_run (inputs : List Input) :
    KeepsOutcome t i (run (step config) s inputs).mails := by
  induction inputs generalizing s t with
  | nil => exact ⟨t, ht, rfl⟩
  | cons input inputs ih =>
    obtain ⟨t', ht', hout⟩ := h.keepsOutcome_step config ht hterminal input
    have hstatus : t'.status = t.status := congrArg Prod.fst hout
    obtain ⟨t'', ht'', hlater⟩ := ih (accounted_step config h input) ht' (by rwa [hstatus])
    exact ⟨t'', ht'', hlater.trans hout⟩

end

end

/-! ## Conservation -/

/-- What the queue conserves in a state: how a mail has ended is final and the way it may; the
counters are the numbers of mails in the queue and of mails for which `finish_task` has not
returned; and every mail ends, since the steps owed are finitely many, and none is owed only when
all have. -/
structure Conserves (config : PressureConfig) (s : PersistentQueue) : Prop where
  settled : ∀ t ∈ s.mails, t.status.isTerminal = true → t.Settled
  final : ∀ i t, s.mails[i]? = some t → t.status.isTerminal = true → ∀ inputs,
    KeepsOutcome t i (run (step config) s inputs).mails
  queued : s.queuedTaskCount = (s.mails.countP isQueued : Nat)
  inflight : s.inflightMailCount = (s.mails.countP isInflight : Nat)
  zero : (∀ t ∈ s.mails, t.phase = .finished) → s.queuedTaskCount = 0 ∧ s.inflightMailCount = 0
  ends : (∀ input, ¬ s.Outstanding input) →
    ∀ t ∈ s.mails, t.phase = .finished ∧ t.status.isTerminal = true
  owed : ∀ input, s.Outstanding input → (s.step config input).work < s.work
  others : ∀ input, (∀ status p, input ≠ .submit status p) → (s.step config input).work ≤ s.work

theorem Accounted.conserves (config : PressureConfig) {s : PersistentQueue} (h : s.Accounted) :
    Conserves config s where
  settled t ht hterminal := (h.valid t ht).settled ((h.valid t ht).past_finish hterminal)
  final i t ht hterminal inputs := h.keepsOutcome_run config ht hterminal inputs
  queued := h.queued
  inflight := h.inflight
  zero hall := by
    have hqueued : s.mails.countP isQueued = 0 := by
      rw [countP_eq_zero]
      intro t ht
      simp [isQueued, hall t ht]
    have hinflight : s.mails.countP isInflight = 0 := by
      rw [countP_eq_zero]
      intro t ht
      simp [isInflight, hall t ht]
    rw [h.queued, h.inflight, hqueued, hinflight]
    exact ⟨rfl, rfl⟩
  ends hnone t ht := by
    obtain ⟨i, hi⟩ := mem_iff_getElem?.mp ht
    have hph : t.phase = .finished := by
      by_contra hph
      obtain ⟨input, houtstanding⟩ := h.exists_outstanding hi hph
      exact hnone input houtstanding
    exact ⟨hph, ((h.valid t ht).settled (.inr hph)).mayEnd.terminal⟩
  owed input houtstanding := h.work_lt config houtstanding
  others input hsubmit := h.work_le config hsubmit

/-- **Conservation**: in every run, whatever the interleaving of submissions, cancellations,
threads, callbacks, failures and the shutdown. -/
theorem conserves_run (config : PressureConfig) (inputs : List Input) :
    Conserves config (run (step config) {} inputs) :=
  (run_invariant Accounted (fun _ input h => accounted_step config h input) accounted_empty
    inputs).conserves config

/-- One mail is admitted, committed by the repository, and its ticket is completed. -/
def oneCommitted : List Input :=
  [.submit (some .pending) {}, .processTask, .advance 0 true, .advance 0 true, .advance 0 true,
    .advance 0 true, .callback 0 { disposition := .committed }, .advance 0 true, .advance 0 true,
    .advance 0 true]

/-- **A mail is counted when its ticket is complete**: when every status is terminal, the in-flight
counter need not be zero yet, since `finish_task` comes after the completion of the ticket. -/
theorem not_forall_inflight_eq_zero :
    ¬ ∀ (config : PressureConfig) (inputs : List Input),
      (∀ t ∈ (run (step config) {} inputs).mails, t.status.isTerminal = true) →
      (run (step config) {} inputs).inflightMailCount = 0 := by
  intro h
  have hzero := h {} oneCommitted (by decide)
  have hone : (run (step {}) {} oneCommitted).inflightMailCount = 1 := by decide
  cases hzero

end PersistentQueue

end ProtoRelay
