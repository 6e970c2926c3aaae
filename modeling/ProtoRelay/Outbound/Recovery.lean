import ProtoRelay.Outbound.Outbox

/-!
# Recovery of the outbox

A delivery that is lost, by a closed session, a stopped server or a crash, leaves its row SENDING
until the lease expires.  No step of the servers makes such a row claimable again: claim cycles
select PENDING and RETRY rows only, and nothing calls `requeue_expired_leases`.  Claims do not look
at the number of attempts either.
-/

namespace ProtoRelay

open List

namespace Outbox

/-- Every row whose lease has expired is among those the SELECT of a claim cycle finds, and no row
has more attempts than it may have. -/
def Recoverable (s : Outbox) : Prop :=
  (∀ r ∈ s.rows, r.isExpired s.now = true → r ∈ s.rows.claimSelect s.now s.rows.length) ∧
    ∀ r ∈ s.rows, r.attemptCount ≤ r.maxAttempts

/-- No lease expires, the rows inserted may be tried, and the rows claimed have attempts left. -/
def InTime (s : Outbox) : Input → Prop
  | .tick seconds => ∀ r ∈ s.rows, r.isExpired (s.now + seconds) = false
  | .insertPending _ _ _ maxAttempts => 0 ≤ maxAttempts
  | .claimUpdate worker id _ =>
    (worker, id) ∈ s.selected → ∀ r ∈ s.rows, r.id = id → r.isClaimable s.now = true →
      r.attemptCount < r.maxAttempts
  | _ => True

/-! ## Stranded rows -/

section

variable {s : Outbox} {r : OutboxRow}

/-- **Claim cycles never select a row that is SENDING**, whatever its lease. -/
theorem not_mem_claimSelect_of_sending (rows : OutboxTable) (now limit : Nat)
    (h : r.status = .sending) : r ∉ rows.claimSelect now limit := by
  intro hmem
  have hfound := mem_of_mem_take hmem
  simp [OutboxRow.isSelected, OutboxRow.isClaimable, h] at hfound

/-! ## Recoverable runs -/

/-- No lease has expired, and the attempts are in their range. -/
def Fresh (now : Nat) (r : OutboxRow) : Prop :=
  r.isExpired now = false ∧ 0 ≤ r.attemptCount ∧ r.attemptCount ≤ r.maxAttempts

theorem recoverable_of_fresh (h : ∀ r ∈ s.rows, Fresh s.now r) : s.Recoverable := by
  refine ⟨fun r hr hexp => ?_, fun r hr => (h r hr).2.2⟩
  rw [(h r hr).1] at hexp
  cases hexp

theorem sending_of_isExpired {now : Nat} (h : r.isExpired now = true) : r.status = .sending := by
  simp only [OutboxRow.isExpired, Bool.and_eq_true, decide_eq_true_eq] at h
  exact h.1

theorem fresh_writeBack {k : Nat} {p : Delivery → OutboxRow → Bool}
    {f : Delivery → OutboxRow → OutboxRow} (h : ∀ r ∈ s.rows, Fresh s.now r)
    (hf : ∀ d r, Fresh s.now r → Fresh s.now (f d r)) :
    ∀ r ∈ (s.writeBack k fun d => updateWhere (p d) (f d)).rows, Fresh s.now r := by
  unfold Outbox.writeBack
  split
  · exact h
  · split
    · exact h
    · exact forall_mem_updateWhere h fun r _ _ hr => hf _ r hr

theorem now_writeBack (k : Nat) (statement : Delivery → OutboxTable → OutboxTable) :
    (s.writeBack k statement).now = s.now := by
  unfold Outbox.writeBack
  split
  · rfl
  · split <;> rfl

theorem fresh_insert {rows : OutboxTable} {now : Nat} (h : ∀ r ∈ rows, Fresh now r)
    (hr : Fresh now r) : ∀ r' ∈ rows ++ [r], Fresh now r' := by
  intro r' hr'
  rcases mem_append.mp hr' with hr' | hr'
  · exact h r' hr'
  · rw [mem_singleton.mp hr']
    exact hr

theorem isExpired_of_unleased {now : Nat} (h : r.leaseUntil = none) : r.isExpired now = false := by
  simp [OutboxRow.isExpired, h]

/-- Steps in time keep all rows fresh. -/
theorem fresh_step (h : ∀ r ∈ s.rows, Fresh s.now r) {i : Input} (hi : s.InTime i) :
    ∀ r ∈ (s.step i).rows, Fresh (s.step i).now r := by
  cases i with
  | tick seconds => exact fun r hr => ⟨hi r hr, (h r hr).2⟩
  | insertPending mailId sender recipient maxAttempts =>
    exact fresh_insert h ⟨rfl, le_rfl, hi⟩
  | insertReserved mailId sender recipient owner leaseSeconds =>
    have hattempts : (1 : Int) ≤ 8 := by decide
    refine fresh_insert h ⟨?_, Int.zero_le_ofNat 1, hattempts⟩
    -- a reservation is for a second at least
    have hpos : 0 < (max 1 leaseSeconds).toNat := by omega
    have hlater : ¬ s.now + (max 1 leaseSeconds).toNat ≤ s.now := by omega
    exact decide_eq_false hlater
  | submit =>
    simp only [Outbox.step]
    split
    · exact h
    · exact h
  | claimSelect | selectAttempts | lose => exact h
  | claimUpdate worker id reported =>
    simp only [Outbox.step]
    split
    · rename_i hsel
      refine forall_mem_updateWhere h fun r hr hp hfr => ?_
      simp only [Bool.and_eq_true, decide_eq_true_eq] at hp
      have hlt := hi hsel r hr hp.1 hp.2
      have hnonneg := hfr.2.1
      refine ⟨?_, ?_, ?_⟩
      · simp [OutboxRow.claimed, OutboxRow.isExpired, claimLease]
      · change 0 ≤ r.attemptCount + 1
        omega
      · change r.attemptCount + 1 ≤ r.maxAttempts
        omega
    · exact h
  | markSent k smtpResponse =>
    simp only [Outbox.step, OutboxTable.markSent, now_writeBack]
    exact fresh_writeBack h fun _ _ hr => ⟨isExpired_of_unleased rfl, hr.2⟩
  | markDead k error =>
    simp only [Outbox.step, OutboxTable.markDead, now_writeBack]
    exact fresh_writeBack h fun _ _ hr => ⟨isExpired_of_unleased rfl, hr.2⟩
  | markRetry k error =>
    simp only [Outbox.step, OutboxTable.markRetryOrDead]
    split
    · exact h
    · rw [now_writeBack]
      exact fresh_writeBack h fun _ _ hr => ⟨isExpired_of_unleased rfl, hr.2⟩
  | release worker ids =>
    refine forall_mem_updateWhere h fun r _ _ hr => ⟨isExpired_of_unleased rfl, ?_, ?_⟩
    · exact le_max_right _ _
    · -- `GREATEST(attempt_count - 1, 0)`
      obtain ⟨-, hnonneg, hle⟩ := hr
      change max (r.attemptCount - 1) 0 ≤ r.maxAttempts
      omega
  | requeueExpiredLeases =>
    exact forall_mem_updateWhere h fun r _ _ hr => ⟨isExpired_of_unleased rfl, hr.2⟩

/-- Any other step leaves a row that is stranded, or that was tried too often. -/
theorem not_recoverable_step {i : Input} (hi : ¬ s.InTime i) : ¬ (s.step i).Recoverable := by
  cases i with
  | tick seconds =>
    simp only [InTime, not_forall, Bool.not_eq_false] at hi
    obtain ⟨r, hr, hexp⟩ := hi
    intro h
    exact not_mem_claimSelect_of_sending _ _ _ (sending_of_isExpired hexp) (h.1 r hr hexp)
  | insertPending mailId sender recipient maxAttempts =>
    intro h
    have hle := h.2 _ (mem_append_right s.rows (mem_singleton_self _))
    exact hi hle
  | claimUpdate worker id reported =>
    simp only [InTime, not_forall, not_lt] at hi
    obtain ⟨hsel, r, hr, hid, hclaim, hle⟩ := hi
    have hmem : r.claimed s.now worker claimLease ∈
        (s.step (.claimUpdate worker id reported)).rows := by
      simp only [Outbox.step, hsel, if_true]
      exact mem_updateWhere_of_pos hr (by simp [hid, hclaim])
    intro h
    have hnew : r.attemptCount + 1 ≤ r.maxAttempts := h.2 _ hmem
    omega
  | _ => exact absurd trivial hi

end

/-- **Recovery of the outbox**: every row whose lease has expired is selected by the next claim
cycle, and no row is tried too often, in all states of a run if and only if no lease expires in it
and no row is claimed that has no attempts left. -/
theorem stepsMeet_inTime_iff (is : List Input) :
    StepsMeet step InTime {} is ↔ ∀ js, js <+: is → (run step {} js).Recoverable :=
  stepsMeet_iff_forall_good (fun s => ∀ r ∈ s.rows, Fresh s.now r) Recoverable
    (fun _ h => recoverable_of_fresh h) (fun _ _ h hi => fresh_step h hi)
    (fun _ _ _ hi => not_recoverable_step hi) (fun _ hr => absurd hr not_mem_nil) is

/-- A worker claims a row, the delivery is lost, and the lease expires. -/
def lostDelivery : List Input :=
  [.insertPending 1 (bytes "alice@example.com") (bytes "eve@elsewhere.org") 8,
    .claimSelect (bytes "ob-1"), .claimUpdate (bytes "ob-1") 1 true, .lose 0, .tick 121]

/-- **Not every row is recoverable**: the one whose delivery was lost is not selected again. -/
theorem not_forall_recoverable : ¬ ∀ is, (run step {} is).Recoverable := by
  intro h
  have hexp : ∃ r ∈ (run step {} lostDelivery).rows,
      r.isExpired (run step {} lostDelivery).now = true := by decide +kernel
  obtain ⟨r, hr, hrow⟩ := hexp
  exact not_mem_claimSelect_of_sending _ _ _ (sending_of_isExpired hrow)
    ((h lostDelivery).1 r hr hrow)

end Outbox

end ProtoRelay
