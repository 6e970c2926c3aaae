import ProtoRelay.Outbound.Outbox

/-!
# The leases of the outbox

Claims are guarded by the status and the lease of a row, but the outcome of a delivery is written to
the row with its id, whoever has it by then.  The status protocol is kept exactly by the runs in
which only the worker that has a row writes to it, and no row is claimed that is in the hands of a
worker already.
-/

namespace ProtoRelay

open List Outbox

def OutboxStatus.isFinal : OutboxStatus → Bool
  | .sent | .dead => true
  | .pending | .sending | .retry => false

namespace OutboxRow

/-- The row is SENDING under a lease that is valid. -/
def isLeased (now : Nat) (r : OutboxRow) : Bool := r.status = .sending && !r.unleased now

/-- The row is SENDING, claimed by another worker. -/
def isForeign (worker : Bytes) (r : OutboxRow) : Bool :=
  r.status = .sending && r.leaseOwner.any (· ≠ worker)

variable {now : Nat} {r : OutboxRow}

theorem isLeased_of_le {later : Nat} (h : now ≤ later) (hr : r.isLeased later = true) :
    r.isLeased now = true := by
  unfold isLeased unleased at hr ⊢
  cases hlease : r.leaseUntil with
  | none => simp [hlease] at hr
  | some leaseUntil =>
    simp only [hlease, Bool.and_eq_true, decide_eq_true_eq, Bool.not_eq_true',
      decide_eq_false_iff_not, not_le] at hr ⊢
    exact ⟨hr.1, by omega⟩

theorem isLeased_of_not_sending (h : r.status ≠ .sending) :
    r.isLeased now = false := by simp [isLeased, h]

theorem sending_of_isForeign {worker : Bytes} (h : r.isForeign worker = true) :
    r.status = .sending := by
  simp only [isForeign, Bool.and_eq_true, decide_eq_true_eq] at h
  exact h.1

end OutboxRow

/-- The worker is at it, and its lease has not expired. -/
def Delivery.isLive (now : Nat) (d : Delivery) : Bool :=
  !d.isDone && d.leaseUntil.all (now < ·)

namespace Outbox

/-- The number of deliveries that have the row, whichever worker they are of. -/
def liveCount (s : Outbox) (id : Nat) : Nat :=
  s.deliveries.countP fun d => d.id = id && d.isLive s.now

/-- A row that is leased is in the hands of one delivery at most. -/
def Exclusive (s : Outbox) : Prop :=
  ∀ r ∈ s.rows, r.isLeased s.now = true → s.liveCount r.id ≤ 1

/-- Rows have their own ids, only rows that exist are delivered, and RETRY or DEAD is decided for
them. -/
structure WellFormed (s : Outbox) : Prop where
  nodup : (s.rows.map (·.id)).Nodup
  bound : ∀ r ∈ s.rows, r.id < s.nextId
  deliveries : ∀ d ∈ s.deliveries, d.id < s.nextId ∧
    ∀ status ∈ d.decided, status = .retry ∨ status = .dead

def pending? (s : Outbox) (k : Nat) : Option Delivery := s.deliveries[k]?.filter (!·.isDone)

/-- The worker that acts on the rows in its hands. -/
def actor? (s : Outbox) : Input → Option Bytes
  | .claimUpdate worker .. | .release worker _ => some worker
  | .markSent k _ | .markDead k _ | .markRetry k _ => (s.pending? k).map (·.worker)
  | _ => none

/-- What the status protocol asks of a step: a row that is SENT or DEAD stays so; a row that another
worker has claimed is left alone; and then no leased row is in the hands of two deliveries. -/
structure SafeStep (s : Outbox) (i : Input) : Prop where
  final : ∀ r ∈ s.rows, r.status.isFinal = true → ∀ r' ∈ (s.step i).rows, r'.id = r.id →
    r'.status.isFinal = true
  foreign : ∀ worker ∈ s.actor? i, ∀ r ∈ s.rows, r.isForeign worker = true → r ∈ (s.step i).rows
  exclusive : (s.step i).Exclusive

/-- Only the worker that has a row writes to it: nobody is handed a row that a delivery still has,
no outcome is written to a row that another worker has claimed, and RETRY is not written to a row
that is SENT or DEAD. -/
def HolderActs (s : Outbox) : Input → Prop
  | .submit _ id => ∀ r ∈ s.rows, r.id = id → r.isLeased s.now = true → s.liveCount id = 0
  | .claimUpdate worker id reported =>
    (worker, id) ∈ s.selected → ∀ r ∈ s.rows, r.id = id → r.isClaimable s.now = true →
      s.liveCount id + (if reported then 1 else 0) ≤ 1
  | .markSent k _ | .markDead k _ =>
    ∀ d ∈ s.pending? k, ∀ r ∈ s.rows, r.id = d.id → r.isForeign d.worker = false
  | .markRetry k _ =>
    ∀ d ∈ s.pending? k, ∀ status ∈ d.decided, ∀ r ∈ s.rows, r.id = d.id →
      r.isForeign d.worker = false ∧ (status = .retry → r.status.isFinal = false)
  | .release worker ids => ∀ r ∈ s.rows, r.id ∈ ids → r.isForeign worker = false
  | _ => True

/-! ## Well-formedness -/

section

variable {s : Outbox}

/-- A statement that updates rows keeps their ids. -/
theorem WellFormed.update (h : s.WellFormed) (p : OutboxRow → Bool) (f : OutboxRow → OutboxRow)
    (hf : ∀ r, (f r).id = r.id) : WellFormed { s with rows := updateWhere p f s.rows } :=
  { h with
    nodup := by
      rw [map_updateWhere _ hf]
      exact h.nodup
    bound := forall_mem_updateWhere h.bound fun r _ _ hr => by rwa [hf] }

theorem WellFormed.modify (h : s.WellFormed) (k : Nat) (f : Delivery → Delivery)
    (hf : ∀ d, (f d).id = d.id)
    (hdecided : ∀ d, (∀ status ∈ d.decided, status = .retry ∨ status = .dead) →
      ∀ status ∈ (f d).decided, status = .retry ∨ status = .dead) :
    WellFormed { s with deliveries := s.deliveries.modify k f } :=
  { h with
    deliveries := forall_mem_modify h.deliveries fun d _ hd =>
      ⟨by rw [hf]; exact hd.1, hdecided d hd.2⟩ }

variable {r r' : OutboxRow} {d : Delivery} {worker : Bytes} {id : Nat} {i : Input}

theorem WellFormed.insert (h : s.WellFormed) (hr : r.id = s.nextId) :
    WellFormed { s with nextId := s.nextId + 1, rows := s.rows ++ [r] } where
  nodup := by
    rw [map_append, map_singleton, nodup_append]
    refine ⟨h.nodup, nodup_singleton _, ?_⟩
    intro id hid id' hid' heq
    obtain ⟨r', hr', rfl⟩ := mem_map.mp hid
    have hlt := h.bound r' hr'
    rw [mem_singleton] at hid'
    omega
  bound := by
    intro r' hr'
    rcases mem_append.mp hr' with hr' | hr'
    · exact Nat.lt_succ_of_lt (h.bound r' hr')
    · rw [mem_singleton.mp hr', hr]
      exact Nat.lt_succ_self _
  deliveries d hd := ⟨Nat.lt_succ_of_lt (h.deliveries d hd).1, (h.deliveries d hd).2⟩

theorem WellFormed.handOut (h : s.WellFormed) (hd : ∃ r ∈ s.rows, r.id = d.id)
    (hdecided : d.decided = none) : WellFormed { s with deliveries := s.deliveries ++ [d] } :=
  { h with
    deliveries := by
      intro d' hd'
      rcases mem_append.mp hd' with hd' | hd'
      · exact h.deliveries d' hd'
      · obtain ⟨r, hr, hid⟩ := hd
        rw [mem_singleton.mp hd', ← hid]
        exact ⟨h.bound r hr, by simp [hdecided]⟩ }

/-! ### Writing back -/

variable {k : Nat} {statement : Delivery → OutboxTable → OutboxTable} {f : OutboxRow → OutboxRow}
  {p : OutboxRow → Bool}

theorem getElem?_of_pending (h : s.pending? k = some d) :
    s.deliveries[k]? = some d ∧ d.isDone = false := by
  simpa [pending?, Option.filter_eq_some_iff] using h

theorem writeBack_of_pending (h : s.pending? k = some d) : s.writeBack k statement = { s with
        rows := statement d s.rows
        deliveries := s.deliveries.modify k fun d => { d with isDone := true } } := by
  obtain ⟨hd, hdone⟩ := getElem?_of_pending h
  simp [writeBack, hd, hdone]

theorem writeBack_of_not_pending (h : s.pending? k = none) : s.writeBack k statement = s := by
  unfold writeBack
  split
  · rfl
  · rename_i d hd
    have hdone : d.isDone = true := by simpa [pending?, hd] using h
    rw [if_pos hdone]

/-- The step writes an outcome to the row of a delivery, and the worker is done. -/
structure Writes (s : Outbox) (i : Input) (d : Delivery) (f : OutboxRow → OutboxRow) : Prop where
  step : ∃ k, s.step i = { s with
      rows := updateWhere (·.id = d.id) f s.rows
      deliveries := s.deliveries.modify k fun d => { d with isDone := true } }
  id : ∀ r, (f r).id = r.id
  status : ∀ r, (f r).status ≠ .sending
  actor : s.actor? i = some d.worker
  holder : s.HolderActs i ↔ ∀ r ∈ s.rows, r.id = d.id → r.isForeign d.worker = false ∧
    ((f r).status.isFinal = false → r.status.isFinal = false)

/-- The outcome of a delivery is written back, or nothing is done. -/
inductive WritesBack (s : Outbox) (i : Input) : Prop
  | same (hstep : s.step i = s) (hholder : s.HolderActs i)
  | writes (d : Delivery) (f : OutboxRow → OutboxRow) (hwrites : s.Writes i d f)

def Input.isMark : Input → Bool
  | .markSent .. | .markDead .. | .markRetry .. => true
  | _ => false

/-- SENT and DEAD are written to any row. -/
theorem writesBack_of_final (hstep : s.step i = s.writeBack k fun d => updateWhere (·.id = d.id) f)
    (hid : ∀ r, (f r).id = r.id) (hfinal : ∀ r, (f r).status.isFinal = true)
    (hactor : s.actor? i = (s.pending? k).map (·.worker))
    (hholder : s.HolderActs i ↔ ∀ d ∈ s.pending? k, ∀ r ∈ s.rows, r.id = d.id →
      r.isForeign d.worker = false) : s.WritesBack i := by
  cases hpend : s.pending? k with
  | none => exact .same (hstep.trans (writeBack_of_not_pending hpend)) (by simp [hholder, hpend])
  | some d =>
    refine .writes d f ⟨⟨k, hstep.trans (writeBack_of_pending hpend)⟩, hid, fun r hr => ?_, ?_, ?_⟩
    · have hnot := hfinal r
      rw [hr] at hnot
      cases hnot
    · rw [hactor, hpend, Option.map_some]
    · simp [hholder, hpend, hfinal]

theorem WellFormed.writesBack_markRetry (h : s.WellFormed) (k : Nat) (error : Bytes) :
    s.WritesBack (.markRetry k error) := by
  cases hpend : s.pending? k with
  | none =>
    refine .same ?_ (by simp [HolderActs, hpend])
    simp only [Outbox.step]
    split
    · rfl
    · exact writeBack_of_not_pending hpend
  | some d =>
    obtain ⟨hd, -⟩ := getElem?_of_pending hpend
    cases hdecided : d.decided with
    | none =>
      exact .same (by simp [Outbox.step, hd, hdecided]) (by simp [HolderActs, hpend, hdecided])
    | some status =>
      have hstatus := (h.deliveries d (mem_of_getElem? hd)).2 status hdecided
      have hstep : s.step (.markRetry k error) = s.writeBack k fun d =>
          OutboxTable.markRetryOrDead s.now d.id status error retryDelay := by
        simp only [Outbox.step, hd, Option.bind_some, hdecided]
      refine .writes d _ ⟨⟨k, hstep.trans (writeBack_of_pending hpend)⟩, fun _ => rfl,
        fun _ => ?_, ?_, ?_⟩
      · rcases hstatus with rfl | rfl <;> nofun
      · rw [actor?, hpend, Option.map_some]
      · rcases hstatus with rfl | rfl <;> simp [HolderActs, hpend, hdecided, OutboxStatus.isFinal]

theorem WellFormed.writesBack_of_isMark (h : s.WellFormed) (hi : i.isMark = true) :
    s.WritesBack i := by
  cases i with
  | markSent | markDead => exact writesBack_of_final rfl (fun _ => rfl) (fun _ => rfl) rfl Iff.rfl
  | markRetry k error => exact h.writesBack_markRetry k error
  | _ => cases hi

theorem WellFormed.writesBack (h : s.WellFormed) (hi : s.WritesBack i) : (s.step i).WellFormed := by
  cases hi with
  | same hstep =>
    rw [hstep]
    exact h
  | writes d f hwrites =>
    obtain ⟨k, hstep⟩ := hwrites.step
    rw [hstep]
    exact (h.update _ f hwrites.id).modify k (fun d => { d with isDone := true }) (fun _ => rfl)
      fun _ hd => hd

theorem retryStatus_eq (rows : OutboxTable) (id : Nat) :
    rows.retryStatus id = .retry ∨ rows.retryStatus id = .dead := by
  unfold OutboxTable.retryStatus
  split
  · exact .inl rfl
  · split
    · exact .inr rfl
    · exact .inl rfl

/-- Every step keeps the outbox well formed. -/
theorem WellFormed.step (h : s.WellFormed) (i : Input) : (s.step i).WellFormed := by
  cases i with
  | tick | claimSelect => exact { h with }
  | insertPending | insertReserved => exact h.insert rfl
  | submit worker id =>
    simp only [Outbox.step]
    split
    · rename_i hany
      obtain ⟨r, hr, hid⟩ := any_eq_true.mp hany
      exact h.handOut ⟨r, hr, by simpa using hid⟩ rfl
    · exact h
  | claimUpdate worker id reported =>
    simp only [Outbox.step]
    split
    · have hupdate := h.update (fun r => r.id = id && r.isClaimable s.now)
        (·.claimed s.now worker claimLease) fun _ => rfl
      split
      · rename_i haff
        obtain ⟨r, hr, hid⟩ := any_eq_true.mp (Bool.and_eq_true_iff.mp haff).1
        simp only [Bool.and_eq_true, decide_eq_true_eq] at hid
        have hnew := mem_updateWhere_of_pos (p := fun r => r.id = id && r.isClaimable s.now)
          (f := (·.claimed s.now worker claimLease)) hr (by simpa using hid)
        have hout := hupdate.handOut (d := { worker, id, leaseUntil := some (s.now + claimLease) })
          ⟨_, hnew, hid.1⟩ rfl
        exact { hout with }
      · exact { hupdate with }
    · exact h
  | markSent | markDead | markRetry => exact h.writesBack (h.writesBack_of_isMark rfl)
  | selectAttempts k answered =>
    refine h.modify k _ (fun _ => rfl) fun d _ status hstatus => ?_
    split at hstatus
    · rw [Option.mem_def, Option.some.injEq] at hstatus
      rw [← hstatus]
      exact retryStatus_eq s.rows d.id
    · rw [Option.mem_def, Option.some.injEq] at hstatus
      exact .inl hstatus.symm
  | lose k => exact h.modify k _ (fun _ => rfl) fun _ hd => hd
  | release | requeueExpiredLeases => exact h.update _ _ fun _ => rfl

/-! ## Exclusive leases -/

/-- Fewer leases and fewer workers. -/
theorem Exclusive.of_le {s' : Outbox} (h : s.Exclusive)
    (hrows : ∀ r' ∈ s'.rows, r'.isLeased s'.now = true →
      ∃ r ∈ s.rows, r.id = r'.id ∧ r.isLeased s.now = true)
    (hcnt : ∀ id, s'.liveCount id ≤ s.liveCount id) : s'.Exclusive := by
  intro r' hr' hl
  obtain ⟨r, hr, hid, hold⟩ := hrows r' hr' hl
  have hle := h r hr hold
  rw [hid] at hle
  exact (hcnt r'.id).trans hle

/-- An update that leaves no row SENDING gives no leases. -/
theorem isLeased_of_update (hf : ∀ r, p r = true → (f r).status ≠ .sending) {rows : OutboxTable}
    {now : Nat} :
    ∀ r' ∈ updateWhere p f rows, r'.isLeased now = true →
      ∃ r ∈ rows, r.id = r'.id ∧ r.isLeased now = true := by
  intro r' hr' hl
  obtain ⟨r, hr, rfl⟩ := mem_updateWhere.mp hr'
  split at hl
  · rename_i hp
    rw [OutboxRow.isLeased_of_not_sending (hf r hp)] at hl
    cases hl
  · rename_i hp
    refine ⟨r, hr, ?_, hl⟩
    rw [if_neg hp]

theorem liveCount_modify_le (k : Nat) {f : Delivery → Delivery} (hid : ∀ d, (f d).id = d.id)
    (hlive : ∀ d, (f d).isLive s.now = true → d.isLive s.now = true) (id : Nat) :
    liveCount { s with deliveries := s.deliveries.modify k f } id ≤ s.liveCount id := by
  unfold liveCount
  dsimp only
  cases hd : s.deliveries[k]? with
  | none =>
    rw [modify_of_getElem?_eq_none hd]
  | some d =>
    have hcnt := countP_modify_add (f := f) (fun d => d.id = id && d.isLive s.now) hd
    by_cases hnew : (f d).id = id ∧ (f d).isLive s.now = true
    · have hold : d.id = id ∧ d.isLive s.now = true := ⟨by rw [← hid]; exact hnew.1, hlive d hnew.2⟩
      simp only [hnew, hold, decide_true, Bool.and_self, if_true] at hcnt
      omega
    · have hfalse : (decide ((f d).id = id) && (f d).isLive s.now) = false := by
        simpa [and_comm] using hnew
      simp only [hfalse, Bool.false_eq_true, if_false] at hcnt
      omega

theorem liveCount_done_le (s : Outbox) (k id : Nat) :
    liveCount { s with deliveries := s.deliveries.modify k fun d => { d with isDone := true } } id ≤
      s.liveCount id := by
  refine liveCount_modify_le (f := fun d => { d with isDone := true }) k (fun _ => rfl)
    (fun d h => ?_) id
  simp [Delivery.isLive] at h

/-- Writing back an outcome gives no lease, and the worker is done. -/
theorem Exclusive.writesBack (h : s.Exclusive) (hi : s.WritesBack i) : (s.step i).Exclusive := by
  cases hi with
  | same hstep =>
    rw [hstep]
    exact h
  | writes d f hwrites =>
    obtain ⟨k, hstep⟩ := hwrites.step
    rw [hstep]
    exact h.of_le (isLeased_of_update fun r _ => hwrites.status r) (liveCount_done_le s k)

theorem liveCount_append (d : Delivery) (id : Nat) :
    liveCount { s with deliveries := s.deliveries ++ [d] } id =
      s.liveCount id + if d.id = id ∧ d.isLive s.now = true then 1 else 0 := by
  simp [liveCount, countP_append, countP_cons]

/-- No worker has a row that does not exist yet. -/
theorem WellFormed.liveCount_nextId (h : s.WellFormed) : s.liveCount s.nextId = 0 := by
  rw [liveCount, countP_eq_zero]
  intro d hd
  have hlt := (h.deliveries d hd).1
  have hne : d.id ≠ s.nextId := by omega
  simp [hne]

theorem liveCount_tick_le (seconds id : Nat) :
    liveCount { s with now := s.now + seconds } id ≤ s.liveCount id := by
  refine countP_mono_left fun d _ hlive => ?_
  simp only [Bool.and_eq_true, decide_eq_true_eq, Delivery.isLive, Bool.not_eq_true'] at hlive ⊢
  refine ⟨hlive.1, hlive.2.1, ?_⟩
  cases hlease : d.leaseUntil with
  | none => rfl
  | some leaseUntil =>
    have hlater := hlive.2.2
    simp only [hlease, Option.all_some, decide_eq_true_eq] at hlater ⊢
    omega

theorem Exclusive.insert (h : s.Exclusive) (hw : s.WellFormed) (hr : r.id = s.nextId) :
    Exclusive { s with nextId := s.nextId + 1, rows := s.rows ++ [r] } := by
  intro r' hr' hl
  rcases mem_append.mp hr' with hr' | hr'
  · exact h r' hr' hl
  · -- no worker has the new row
    rw [mem_singleton.mp hr', hr]
    exact hw.liveCount_nextId.le.trans (Nat.zero_le 1)

/-- The workers that have a row after a claim. -/
theorem liveCount_claimUpdate (hsel : (worker, id) ∈ s.selected) (reported : Bool) (id' : Nat) :
    (s.step (.claimUpdate worker id reported)).liveCount id' = s.liveCount id' +
      if ((∃ r ∈ s.rows, r.id = id ∧ r.isClaimable s.now = true) ∧ reported = true) ∧
        id = id' then 1
      else 0 := by
  have hany : (s.rows.any fun r => r.id = id && r.isClaimable s.now) = true ↔
      ∃ r ∈ s.rows, r.id = id ∧ r.isClaimable s.now = true := by simp
  simp only [step, hsel, if_true, Bool.and_eq_true, hany]
  by_cases hout : (∃ r ∈ s.rows, r.id = id ∧ r.isClaimable s.now = true) ∧ reported = true
  · have happ := liveCount_append (s := s)
      { worker, id, leaseUntil := some (s.now + claimLease) } id'
    have hlive : Delivery.isLive s.now { worker, id, leaseUntil := some (s.now + claimLease) } =
        true := by
      simp [Delivery.isLive, claimLease]
    simp only [hlive, and_true] at happ
    simp only [hout, true_and]
    exact happ
  · simp only [hout, false_and, if_false]
    rfl

theorem exclusive_claimUpdate (h : s.Exclusive) {reported : Bool}
    (hcond : s.HolderActs (.claimUpdate worker id reported)) :
    (s.step (.claimUpdate worker id reported)).Exclusive := by
  by_cases hsel : (worker, id) ∈ s.selected
  · intro r' hr' hl
    rw [liveCount_claimUpdate hsel]
    simp only [step, hsel, if_true] at hr' hl
    split
    · rename_i hout
      obtain ⟨⟨⟨r, hr, hid, hclaim⟩, rfl⟩, rfl⟩ := hout
      exact hcond hsel r hr hid hclaim
    · obtain ⟨r, hr, rfl⟩ := mem_updateWhere.mp hr'
      split at hl
      · -- the row was claimed, and nobody was told
        rename_i hp
        simp only [Bool.and_eq_true, decide_eq_true_eq] at hp
        rw [if_pos (by simpa using hp)]
        exact (Nat.le_add_right ..).trans (hp.1 ▸ hcond hsel r hr hp.1 hp.2)
      · rename_i hp
        rw [if_neg hp]
        exact h r hr hl
  · have hsame : s.step (.claimUpdate worker id reported) = s := by
      simp [step, hsel]
    rw [hsame]
    exact h

theorem isLive_submitted (worker : Bytes) (h : s.WellFormed) (hr : r ∈ s.rows)
    (hl : r.isLeased s.now = true) :
    Delivery.isLive s.now { worker, id := r.id, leaseUntil := s.leaseOf worker r.id } = true := by
  have hfind : s.rows.find? (·.id = r.id) = some r := by
    cases hfound : s.rows.find? (·.id = r.id) with
    | none =>
      have hother := find?_eq_none.mp hfound r hr
      simp at hother
    | some r' =>
      have hid : r'.id = r.id := by simpa using find?_some hfound
      rw [eq_of_key_eq h.nodup (mem_of_find?_eq_some hfound) hr hid]
  simp only [Delivery.isLive, leaseOf, hfind, Bool.not_false, Bool.true_and]
  split
  · cases hlease : r.leaseUntil with
    | none => rfl
    | some leaseUntil =>
      simp only [OutboxRow.isLeased, OutboxRow.unleased, hlease, Bool.and_eq_true,
        decide_eq_true_eq, Bool.not_eq_true', decide_eq_false_iff_not, not_le] at hl
      simpa using hl.2
  · rfl

theorem exclusive_submit (h : s.Exclusive) (hcond : s.HolderActs (.submit worker id)) :
    (s.step (.submit worker id)).Exclusive := by
  simp only [step]
  split
  · intro r hr hl
    rw [liveCount_append]
    by_cases hid : id = r.id
    · have hzero := hcond r hr hid.symm hl
      rw [← hid, hzero]
      split <;> simp
    · rw [if_neg (fun heq => hid heq.1)]
      exact h r hr hl
  · exact h

/-- Steps of the workers that have the rows keep the leases exclusive. -/
theorem Exclusive.step (h : s.Exclusive) (hw : s.WellFormed) (hcond : s.HolderActs i) :
    (s.step i).Exclusive := by
  cases i with
  | tick seconds =>
    refine h.of_le (fun r hr hl => ⟨r, hr, rfl, ?_⟩) (liveCount_tick_le seconds)
    exact OutboxRow.isLeased_of_le (Nat.le_add_right s.now seconds) hl
  | insertPending | insertReserved => exact h.insert hw rfl
  | submit worker id => exact exclusive_submit h hcond
  | claimSelect worker => exact h
  | claimUpdate worker id reported => exact exclusive_claimUpdate h hcond
  | markSent | markDead | markRetry => exact h.writesBack (hw.writesBack_of_isMark rfl)
  | selectAttempts k answered =>
    exact h.of_le (fun r hr hl => ⟨r, hr, rfl, hl⟩)
      (liveCount_modify_le k (fun _ => rfl) fun _ hlive => hlive)
  | lose k => exact h.of_le (fun r hr hl => ⟨r, hr, rfl, hl⟩) (liveCount_done_le s k)
  | release | requeueExpiredLeases =>
    refine h.of_le (isLeased_of_update fun r _ => ?_) fun _ => le_rfl
    nofun

/-! ## Safe steps -/

/-- Rows with their own ids: the row with the id of a final row is final. -/
theorem WellFormed.final_of_mem (h : s.WellFormed) (hr : r ∈ s.rows)
    (hfin : r.status.isFinal = true) (hr' : r' ∈ s.rows) (hid : r'.id = r.id) :
    r'.status.isFinal = true := by
  rw [eq_of_key_eq h.nodup hr' hr hid]
  exact hfin

/-- What a step does to the rows: one is inserted, or some are updated, and those in no way that is
not safe if only the worker that has a row writes to it. -/
inductive RowsStep (s : Outbox) (i : Input) : Prop
  | inserted (new : OutboxRow) (hid : new.id = s.nextId) (hrows : (s.step i).rows = s.rows ++ [new])
      (hactor : s.actor? i = none)
  | updated (p : OutboxRow → Bool) (f : OutboxRow → OutboxRow)
      (hrows : (s.step i).rows = updateWhere p f s.rows) (hid : ∀ r, (f r).id = r.id)
      (hsafe : s.HolderActs i → ∀ r ∈ s.rows, p r = true →
        (r.status.isFinal = true → (f r).status.isFinal = true) ∧
          ∀ worker ∈ s.actor? i, r.isForeign worker = false)

theorem RowsStep.kept (h : (s.step i).rows = s.rows) : s.RowsStep i :=
  .updated (fun _ => false) id (h.trans (by simp [updateWhere])) (fun _ => rfl)
    fun _ _ _ hp => nomatch hp

theorem RowsStep.of_writesBack (hi : s.WritesBack i) : s.RowsStep i := by
  cases hi with
  | same hstep => exact .kept (congrArg rows hstep)
  | writes d f hwrites =>
    obtain ⟨k, hstep⟩ := hwrites.step
    refine .updated (·.id = d.id) f (congrArg rows hstep) hwrites.id fun hcond r hr hp => ?_
    obtain ⟨hforeign, hopen⟩ := hwrites.holder.mp hcond r hr (of_decide_eq_true hp)
    refine ⟨fun hfin => ?_, fun worker hwork => ?_⟩
    · by_contra hnot
      rw [hopen (eq_false_of_ne_true hnot)] at hfin
      cases hfin
    · obtain rfl : d.worker = worker := Option.some.inj (hwrites.actor.symm.trans hwork)
      exact hforeign

theorem WellFormed.rowsStep (h : s.WellFormed) (i : Input) : s.RowsStep i := by
  cases i with
  | tick | claimSelect | selectAttempts | lose => exact .kept rfl
  | insertPending | insertReserved => exact .inserted _ rfl rfl rfl
  | submit worker id =>
    apply RowsStep.kept
    simp only [Outbox.step]
    split <;> rfl
  | claimUpdate worker id reported =>
    by_cases hsel : (worker, id) ∈ s.selected
    · refine .updated (fun r => r.id = id && r.isClaimable s.now)
        (·.claimed s.now worker claimLease)
        (by simp only [Outbox.step, hsel, if_true]; rfl) (fun _ => rfl) fun _ r _ hp => ?_
      -- a claimable row is neither final nor claimed
      simp only [Bool.and_eq_true, OutboxRow.isClaimable, Bool.or_eq_true, decide_eq_true_eq] at hp
      rcases hp.2.1 with hstatus | hstatus
      · simp [hstatus, OutboxStatus.isFinal, OutboxRow.isForeign]
      · simp [hstatus, OutboxStatus.isFinal, OutboxRow.isForeign]
    · exact .kept (by simp [Outbox.step, hsel])
  | markSent | markDead | markRetry =>
    exact .of_writesBack (h.writesBack_of_isMark rfl)
  | release worker ids =>
    refine .updated _ _ rfl (fun _ => rfl) fun hcond r hr hp => ?_
    simp only [Bool.and_eq_true, decide_eq_true_eq] at hp
    refine ⟨by simp [hp.2, OutboxStatus.isFinal], ?_⟩
    rintro _ ⟨⟩
    exact hcond r hr hp.1
  | requeueExpiredLeases =>
    refine .updated _ _ rfl (fun _ => rfl) fun _ r _ hp => ⟨?_, nofun⟩
    simp only [OutboxRow.isExpired, Bool.and_eq_true, decide_eq_true_eq] at hp
    simp [hp.1, OutboxStatus.isFinal]

/-- Rows that are SENT or DEAD stay so. -/
theorem WellFormed.final_step (h : s.WellFormed) (hcond : s.HolderActs i) :
    ∀ r ∈ s.rows, r.status.isFinal = true → ∀ r' ∈ (s.step i).rows, r'.id = r.id →
      r'.status.isFinal = true := by
  intro r hr hfin r' hr' hsame
  cases h.rowsStep i with
  | inserted new hid hrows =>
    rw [hrows] at hr'
    rcases mem_append.mp hr' with hr' | hr'
    · exact h.final_of_mem hr hfin hr' hsame
    · have hlt := h.bound r hr
      rw [mem_singleton.mp hr'] at hsame
      omega
  | updated p f hrows hid hsafe =>
    rw [hrows] at hr'
    obtain ⟨q, hq, rfl⟩ := mem_updateWhere.mp hr'
    split at hsame <;> rename_i hp
    · rw [if_pos hp]
      rw [hid] at hsame
      exact (hsafe hcond q hq hp).1 (h.final_of_mem hr hfin hq hsame)
    · rw [if_neg hp]
      exact h.final_of_mem hr hfin hq hsame

/-- Rows that another worker has claimed are left alone. -/
theorem WellFormed.foreign_step (h : s.WellFormed) (hcond : s.HolderActs i) :
    ∀ worker ∈ s.actor? i, ∀ r ∈ s.rows, r.isForeign worker = true → r ∈ (s.step i).rows := by
  intro worker hwork r hr hforeign
  cases h.rowsStep i with
  | inserted new hid hrows hactor =>
    rw [hactor] at hwork
    cases hwork
  | updated p f hrows hid hsafe =>
    rw [hrows]
    refine mem_updateWhere_of_not hr (eq_false_of_ne_true fun hp => ?_)
    rw [(hsafe hcond r hr hp).2 worker hwork] at hforeign
    cases hforeign

/-- A row that an update changes is not a row of the table any more. -/
theorem WellFormed.not_mem_of_update (h : s.WellFormed) (hid : ∀ r, (f r).id = r.id)
    (hr : r ∈ s.rows) (hp : p r = true)
    (hne : (f r).status ≠ r.status) : r ∉ updateWhere p f s.rows := by
  intro hmem
  have hnew := mem_updateWhere_of_pos (f := f) hr hp
  have heq := eq_of_key_eq (h.update p f hid).nodup hnew hmem (hid r)
  exact hne (congrArg OutboxRow.status heq)

/-- Writing to a row that another worker has claimed is not safe. -/
theorem SafeStep.not_isForeign (h : s.SafeStep i) (hw : s.WellFormed)
    (hactor : s.actor? i = some worker)
    (hrows : (s.step i).rows = updateWhere p f s.rows) (hid : ∀ r, (f r).id = r.id)
    (hr : r ∈ s.rows) (hp : r.status = .sending → p r = true) (hne : (f r).status ≠ .sending) :
    r.isForeign worker = false := by
  by_contra hforeign
  rw [Bool.not_eq_false] at hforeign
  have hsending := OutboxRow.sending_of_isForeign hforeign
  have hmem := h.foreign worker hactor r hr hforeign
  rw [hrows] at hmem
  exact hw.not_mem_of_update hid hr (hp hsending) (by rwa [hsending]) hmem

theorem SafeStep.writesBack (h : s.SafeStep i) (hw : s.WellFormed) (hi : s.WritesBack i) :
    s.HolderActs i := by
  cases hi with
  | same _ hholder => exact hholder
  | writes d f hwrites =>
    obtain ⟨k, hstep⟩ := hwrites.step
    have hrows := congrArg Outbox.rows hstep
    refine hwrites.holder.mpr fun r hr hid => ⟨?_, fun hnot => ?_⟩
    · exact h.not_isForeign hw hwrites.actor hrows hwrites.id hr (fun _ => decide_eq_true hid)
        (hwrites.status r)
    · by_contra hfin
      rw [Bool.not_eq_false] at hfin
      have hmem : f r ∈ (s.step i).rows := hrows ▸ mem_updateWhere_of_pos hr (decide_eq_true hid)
      rw [h.final r hr hfin _ hmem (hwrites.id r)] at hnot
      cases hnot

/-- Safe steps are those of the workers that have the rows. -/
theorem holderActs_of_safeStep (hw : s.WellFormed) (h : s.SafeStep i) : s.HolderActs i := by
  cases i with
  | submit worker id =>
    rintro r hr rfl hl
    have hany : s.rows.any (·.id = r.id) = true := any_eq_true.mpr ⟨r, hr, by simp⟩
    have hexclusive := h.exclusive
    simp only [step, hany, if_true] at hexclusive
    have hle := hexclusive r hr hl
    rw [liveCount_append, if_pos ⟨rfl, isLive_submitted worker hw hr hl⟩] at hle
    omega
  | claimUpdate worker id reported =>
    intro hsel r hr hid hclaim
    have hmem : r.claimed s.now worker claimLease ∈
        (s.step (.claimUpdate worker id reported)).rows := by
      simp only [step, hsel, if_true]
      exact mem_updateWhere_of_pos hr (by simp [hid, hclaim])
    have hl : (r.claimed s.now worker claimLease).isLeased
        (s.step (.claimUpdate worker id reported)).now = true := by
      simp only [step, hsel, if_true]
      simp [OutboxRow.claimed, OutboxRow.isLeased, OutboxRow.unleased, claimLease]
    have hle := h.exclusive _ hmem hl
    rw [show (r.claimed s.now worker claimLease).id = id from hid,
      liveCount_claimUpdate hsel] at hle
    have hout : ∃ r ∈ s.rows, r.id = id ∧ r.isClaimable s.now = true := ⟨r, hr, hid, hclaim⟩
    simpa [hout] using hle
  | markSent | markDead | markRetry => exact h.writesBack hw (hw.writesBack_of_isMark rfl)
  | release worker ids =>
    intro r hr hid
    refine h.not_isForeign hw rfl (f := fun r =>
        { r with
          status := .pending
          attemptCount := max (r.attemptCount - 1) 0
          leaseOwner := none
          leaseUntil := none }) rfl (fun _ => rfl) hr
            (fun hsending => by simp [hid, hsending]) nofun
  | _ => trivial

/-- **Safe steps** are exactly those of the workers that have the rows. -/
theorem safeStep_iff (hw : s.WellFormed) (hx : s.Exclusive) (i : Input) :
    s.HolderActs i ↔ s.SafeStep i :=
  ⟨fun hcond => ⟨hw.final_step hcond, hw.foreign_step hcond, hx.step hw hcond⟩,
    holderActs_of_safeStep hw⟩

end

theorem wellFormed_empty : WellFormed {} :=
  ⟨nodup_nil, fun _ hr => absurd hr not_mem_nil, fun _ hd => absurd hd not_mem_nil⟩

/-- A worker claims a row and is slow; its lease expires, the row is requeued, and a second worker
claims it and delivers the mail. -/
def slowWorker : List Input :=
  [.insertPending 1 (bytes "alice@example.com") (bytes "eve@elsewhere.org") 8,
    .claimSelect (bytes "ob-1"), .claimUpdate (bytes "ob-1") 1 true, .tick 120,
    .requeueExpiredLeases, .claimSelect (bytes "ob-2"), .claimUpdate (bytes "ob-2") 1 true,
    .markSent 1 (bytes "250 data "), .selectAttempts 0 true]

end Outbox

end ProtoRelay
