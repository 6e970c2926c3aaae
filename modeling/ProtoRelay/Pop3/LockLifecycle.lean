import ProtoRelay.Base.Slots
import ProtoRelay.Pop3.Login

/-!
# The outcome of a login

A PASS command gets one reply at most, and no two sessions of a user ever hold the lock row, in
every run.  A login should also either enter TRANSACTION with its lock or ask for the release of a
lock it may hold.  It does so unless something happens to it once `install` has sent the reply: when
the session is closed before the engine has entered TRANSACTION, or when the metrics throw, nobody
gives the lock back; and the lock row may have been swept by then.
-/

namespace ProtoRelay

open List LoginSession LoginOperation

namespace LoginOperation

/-- The acquisition of the lock was started, and not refused. -/
def MayHold (p : LoginOperation) : Prop := p.started = true ∧ p.refused = false

/-- **The outcome of a login**: at most one reply, and once it is over exactly one of two: the
session has entered TRANSACTION with its lock row, or it has not entered TRANSACTION and the release
of a lock that it may hold was requested. -/
structure Sound (p : LoginOperation) : Prop where
  replies : p.replies.length ≤ 1
  outcome : p.stage = .over →
    Xor (p.entered = some true) (p.entered = none ∧ (p.MayHold → p.released = true))

/-- Once `install` has sent its reply nothing throws, and when the engine comes to enter TRANSACTION
the session is open and its lock row is there. -/
def Undisturbed (p : LoginOperation) (closed owned : Bool) : LoginInput → Prop
  | .install course => ∀ messages, p.stage = .install messages → closed = false → course ≠ .late
  | .settle => p.stage = .settle → closed = false ∧ owned = true
  | _ => True

/-! ## What is true at every stage -/

/-- The session of a login, and the id it was given. -/
def owner (p : LoginOperation) : Nat × Bytes := (p.session, p.key.sessionId)

/-- The session was not answered, and has not entered TRANSACTION. -/
structure Silent (w : Nat × Bytes) (p : LoginOperation) : Prop where
  owner : p.owner = w
  replies : p.replies = []
  entered : p.entered = none

/-- The lock is not yet asked for. -/
structure Before (w : Nat × Bytes) (p : LoginOperation) : Prop extends Silent w p where
  stopping : p.stopping = false
  started : p.started = false
  refused : p.refused = false
  released : p.released = false
  lockAttempted : p.lockAttempted = false

/-- The lock is asked for, or held. -/
structure Locking (w : Nat × Bytes) (p : LoginOperation) : Prop extends Silent w p where
  stopping : p.stopping = false
  mayHold : p.MayHold
  lockAttempted : p.lockAttempted = true
  database : p.database = true
  released : p.released = false

/-- A lock that may be held was asked to be released. -/
def Cleaned (p : LoginOperation) : Prop := p.MayHold → p.released = true

/-- The login of `w` is in order. -/
def Ok (w : Nat × Bytes) (p : LoginOperation) : Prop :=
  match p.stage with
  | .authenticate | .loadInbox => p.Before w
  | .inbox => p.Before w ∧ p.database = true
  | .acquire | .verify | .loadMessages | .measure _ | .install _ => p.Locking w
  | .settle => p.owner = w ∧ p.replies.length = 1 ∧ p.entered = none ∧ p.MayHold ∧
    p.released = false
  | .release _ _ => p.Silent w
  | .replyFailure _ _ => p.Silent w ∧ p.Cleaned
  | .resume => p.owner = w ∧ p.replies.length = 1 ∧ p.entered = none ∧ p.Cleaned
  | .over => p.owner = w ∧ p.Sound

section

variable {p : LoginOperation} {w : Nat × Bytes} {closed owned : Bool}

theorem Before.cleaned (h : p.Before w) : p.Cleaned := by
  intro hhold
  cases h.started.symm.trans hhold.1

theorem sound_of_cleaned (hreplies : p.replies.length ≤ 1) (hent : p.entered = none)
    (h : p.Cleaned) : p.Sound := by
  refine ⟨hreplies, fun _ => .inr ⟨⟨hent, h⟩, fun hsome => ?_⟩⟩
  cases hent.symm.trans hsome

theorem Silent.length_sendLine (h : p.Silent w) (text : Bytes) :
    (p.sendLine text).replies.length = 1 := by
  simp [sendLine, h.replies]

/-- What is true at all stages. -/
structure Common (w : Nat × Bytes) (p : LoginOperation) : Prop where
  owner : p.owner = w
  replies : p.replies.length ≤ 1
  entered : p.entered ≠ none → p.stage = .over

theorem Silent.common (h : p.Silent w) : p.Common w :=
  ⟨h.owner, by simp [h.replies], fun hent => absurd h.entered hent⟩

theorem Ok.common (h : p.Ok w) : p.Common w := by
  unfold Ok at h
  split at h
  case h_3 | h_11 => exact h.1.common
  case h_9 | h_12 => exact ⟨h.1, h.2.1.le, fun hent => absurd h.2.2.1 hent⟩
  case h_13 hs => exact ⟨h.1, h.2.replies, fun _ => hs⟩
  case h_10 => exact h.common
  all_goals exact h.toSilent.common

theorem Ok.sound (h : p.Ok w) : p.Sound := by
  refine ⟨h.common.replies, fun hover => ?_⟩
  unfold Ok at h
  rw [hover] at h
  exact h.2.outcome hover

/-! ## Failure -/

theorem Before.fail (h : p.Before w) (reply : Bytes) (authFailure : Bool) :
    (p.fail reply authFailure).Ok w := by
  unfold LoginOperation.fail
  rw [if_neg (by simp [h.stopping]), if_pos (by simp [h.lockAttempted])]
  exact ⟨{ h with }, h.cleaned⟩

theorem Locking.fail (h : p.Locking w) (reply : Bytes) (authFailure : Bool) :
    (p.fail reply authFailure).Ok w := by
  unfold LoginOperation.fail
  rw [if_neg (by simp [h.stopping]), if_neg (by simp [h.lockAttempted, h.database])]
  exact { h with }

theorem ok_guard {task : LoginOperation → LoginOperation} (hstop : p.stopping = false)
    (hfail : (p.fail databaseUnavailable false).Ok w) (throws : Bool) (htask : (task p).Ok w) :
    (p.guard throws task).Ok w := by
  unfold LoginOperation.guard
  rw [hstop, if_neg Bool.false_ne_true]
  split
  · exact hfail
  · exact htask

/-! ## Continuations -/

theorem Before.authenticated (h : p.Before w) (user : Option Nat) :
    (p.authenticated user).Ok w := by
  cases user with
  | none => exact h.fail _ _
  | some user => exact { h with }

theorem Before.loadInbox (h : p.Before w) (closed : Bool) (pool : Option Bool) :
    (p.loadInbox closed pool).Ok w := by
  have hdb : Before w { p with database := true } := { h with }
  unfold LoginOperation.loadInbox
  split
  · exact h.fail _ _
  · split
    · exact h.fail _ _
    · exact hdb.fail _ _
    · exact ⟨{ h with }, rfl⟩

theorem Before.inboxFound (h : p.Before w) (hdb : p.database = true) (closed : Bool)
    (id : Option Nat) : (p.inboxFound closed id).Ok w := by
  unfold LoginOperation.inboxFound
  split
  · exact h.fail _ _
  · exact h.fail _ _
  · split
    · exact h.fail _ _
    · exact ⟨{ h with }, h.stopping, ⟨rfl, h.refused⟩, rfl, hdb, h.released⟩

theorem Locking.lockReady (h : p.Locking w) (closed throws : Bool) (status : Pop3LockStatus) :
    (p.lockReady closed throws status).Ok w := by
  cases status with
  | databaseError => exact h.fail _ _
  | notOwned =>
    -- nothing is to be released
    unfold LoginOperation.lockReady LoginOperation.fail
    dsimp only
    rw [if_neg (by simp [h.stopping])]
    exact ⟨{ h with }, fun hhold => nomatch hhold.2⟩
  | owned =>
    simp only [LoginOperation.lockReady]
    split
    · exact h.fail _ _
    · split
      · exact h.fail _ _
      · exact { h with }

theorem Locking.messagesLoaded (h : p.Locking w) (closed : Bool)
    (rows : Option (List (Nat × Bytes))) :
    (p.messagesLoaded closed rows).Ok w := by
  unfold LoginOperation.messagesLoaded
  split
  · exact h.fail _ _
  · split
    · exact h.fail _ _
    · exact { h with }

theorem Locking.measure (h : p.Locking w) (rows : List (Nat × Bytes)) (sizes : Option (List Nat)) :
    (p.measure rows sizes).Ok w := by
  unfold LoginOperation.measure
  split
  · exact h.fail _ _
  · exact { h with }

theorem Locking.install (h : p.Locking w) {course : InstallCourse}
    (hcourse : closed = false → course ≠ .late) (messages : List Pop3Message) :
    (p.install closed messages course).Ok w := by
  cases closed with
  | true => cases course <;> exact h.fail _ _
  | false =>
    cases course with
    | done => exact ⟨h.owner, h.length_sendLine _, h.entered, h.mayHold, h.released⟩
    | early filled => exact h.fail _ _
    | late => exact absurd rfl (hcourse rfl)

/-- The reply to a login that failed. -/
theorem Silent.replied (h : p.Silent w) (hclean : p.Cleaned) (closed : Bool) (reply : Bytes)
    (close throws : Bool) : (p.replied closed reply close throws).Ok w := by
  unfold LoginOperation.replied
  split
  · exact ⟨h.owner, sound_of_cleaned (by simp [h.replies]) h.entered hclean⟩
  · have hone := h.length_sendLine (if close then tooManyAuthFailures else reply)
    cases hend : (throws || close) with
    | true => exact ⟨h.owner, sound_of_cleaned hone.le h.entered hclean⟩
    | false => exact ⟨h.owner, hone, h.entered, hclean⟩

/-- **One continuation** of a login that is not disturbed. -/
theorem Ok.step (h : p.Ok w) {i : LoginInput} (hi : p.Undisturbed closed owned i) :
    (p.step closed owned i).Ok w := by
  unfold LoginOperation.step
  unfold Ok at h
  split <;> rename_i hs
  · rw [hs] at h
    exact ok_guard h.stopping (h.fail _ _) _ (h.authenticated _)
  · rw [hs] at h
    exact ok_guard h.stopping (h.fail _ _) _ (h.loadInbox _ _)
  · rw [hs] at h
    exact ok_guard h.1.stopping (h.1.fail _ _) _ (h.1.inboxFound h.2 _ _)
  · rw [hs] at h
    split
    · exact { h with }
    · exact ok_guard h.stopping (h.fail _ _) _ (h.lockReady _ _ _)
  · rw [hs] at h
    exact ok_guard h.stopping (h.fail _ _) _ (h.lockReady _ _ _)
  · rw [hs] at h
    exact ok_guard h.stopping (h.fail _ _) _ (h.messagesLoaded _ _)
  · rw [hs] at h
    exact ok_guard h.stopping (h.fail _ _) _ (h.measure _ _)
  · rw [hs] at h
    exact ok_guard h.stopping (h.fail _ _) _ (h.install (hi _ hs) _)
  · -- the engine enters TRANSACTION
    rw [hs] at h
    obtain ⟨hcl, howned⟩ := hi hs
    rw [hcl, howned]
    exact ⟨h.1, h.2.1.le, fun _ => .inl ⟨rfl, fun hnone => nomatch hnone.1⟩⟩
  · rw [hs] at h
    exact ⟨{ h with }, fun _ => rfl⟩
  · rw [hs] at h
    exact h.1.replied h.2 _ _ _ _
  · rw [hs] at h
    exact ⟨h.1, sound_of_cleaned h.2.1.le h.2.2.1 h.2.2.2⟩
  · exact h

/-- **A login that is disturbed** keeps a lock that nobody releases, or enters TRANSACTION without
one. -/
theorem Ok.not_sound_step (h : p.Ok w) {i : LoginInput} (hi : ¬ p.Undisturbed closed owned i) :
    ¬ (p.step closed owned i).Sound := by
  intro hsound
  cases i with
  | install course =>
    simp only [Undisturbed, not_forall, not_not] at hi
    obtain ⟨messages, hs, rfl, rfl⟩ := hi
    have hlocking : p.Locking w := by
      unfold Ok at h
      rw [hs] at h
      exact h
    -- the reply is sent, and the guard does nothing
    have hstep : p.step false owned (.install .late) =
        { p.sendLine (mailboxLoaded messages) with stopping := true, stage := .over } := by
      simp only [LoginOperation.step, hs, LoginOperation.guard, LoginOperation.install,
        LoginOperation.fail, hlocking.stopping, if_true, Bool.false_eq_true, if_false]
    rw [hstep] at hsound
    rcases hsound.outcome rfl with ⟨hent, -⟩ | ⟨⟨-, hrel⟩, -⟩
    · cases hlocking.entered.symm.trans hent
    · cases hlocking.released.symm.trans (hrel hlocking.mayHold)
  | settle =>
    simp only [Undisturbed, not_forall] at hi
    obtain ⟨hs, hnot⟩ := hi
    unfold Ok at h
    rw [hs] at h
    obtain ⟨-, -, -, hhold, hrel⟩ := h
    have hstep : p.step closed owned .settle =
        { p with stage := .over, entered := if closed then none else some owned } := by
      simp only [LoginOperation.step, hs]
    rw [hstep] at hsound
    rcases hsound.outcome rfl with ⟨hent, -⟩ | ⟨⟨-, hrel'⟩, -⟩
    · -- it has entered TRANSACTION, so the session was open and the row was there
      cases closed with
      | true => cases hent
      | false => exact hnot ⟨rfl, Option.some.inj hent⟩
    · cases hrel.symm.trans (hrel' hhold)
  | _ => exact hi trivial

theorem step_of_over (h : p.stage = .over) (i : LoginInput) : p.step closed owned i = p := by
  unfold step
  rw [h]

end

end LoginOperation

/-! ## All sessions -/

variable {t : LoginSession}

/-- A session in TRANSACTION was there before the continuation, or has entered it now. -/
theorem LoginSession.state_login {p : LoginOperation} {i : LoginInput}
    (h : (t.login p i).state = .transaction) :
    t.state = .transaction ∨ (p.stage = .settle ∧ i = .settle ∧ t.closed = false) := by
  unfold login at h
  split at h
  · split at h <;> exact .inl h
  · rename_i hs
    split at h
    · exact .inl h
    · rename_i hopen
      exact .inr ⟨hs, rfl, eq_false_of_ne_true hopen⟩
  · split at h <;> exact .inl h
  · split at h <;> exact .inl h
  · exact .inl h

theorem LoginSession.state_handleUser {args : Bytes}
    (h : (t.handleUser args).state = .transaction) :
    t.state = .transaction := by
  unfold handleUser at h
  split at h <;> exact h

theorem LoginSession.state_handleQuit (h : t.handleQuit.state = .transaction) :
    t.state = .transaction := by
  unfold handleQuit at h
  split at h
  · split at h
    · exact h
    · cases h
  · exact h

theorem LoginSession.state_quitReleased (h : t.quitReleased.state = .transaction) :
    t.state = .transaction := by
  unfold quitReleased at h
  split at h
  · exact h
  · cases h

namespace LoginSystem

/-- Session `k` holds the lock row of a user. -/
def Holds (s : LoginSystem) (k user : Nat) : Prop :=
  ∃ p ∈ s.logins, p.session = k ∧ p.key.userId = user ∧ s.locks.owns p.key = true

/-- **Logins are sound**: each has one of the two outcomes, the lock row of a user is held by one
session at most, and sessions are in TRANSACTION by a login. -/
structure LoginsSound (s : LoginSystem) : Prop where
  logins : ∀ p ∈ s.logins, p.Sound
  exclusive : ∀ user k k', s.Holds k user → s.Holds k' user → k = k'
  recorded : ∀ k t, s.sessions[k]? = some t → t.state = .transaction →
    ∃ p ∈ s.logins, p.session = k ∧ p.entered ≠ none

def Undisturbed (s : LoginSystem) : Input → Prop
  | .login j i => ∀ p, s.logins[j]? = some p →
    p.Undisturbed (s.isClosed p.session) (s.locks.owns p.key) i
  | _ => True

/-- The invariant: the ids of the logins are those the generator has given. -/
structure Ok (s : LoginSystem) : Prop where
  logins : ∀ p ∈ s.logins, p.Ok p.owner
  ids : (s.logins.map (·.key.sessionId)).Nodup
  issued : ∀ p ∈ s.logins, ∃ n, 1 ≤ n ∧ n ≤ s.lastId ∧ p.key.sessionId = decimal n
  recorded : ∀ k t, s.sessions[k]? = some t → t.state = .transaction →
    ∃ p ∈ s.logins, p.session = k ∧ p.entered ≠ none

variable {s : LoginSystem}

variable {k j : Nat}

/-- **The lock is exclusive**: a user has one row, and its session id was given to one login. -/
theorem exclusive_of_ok (h : s.Ok) {user k' : Nat} (hk : s.Holds k user) (hk' : s.Holds k' user) :
    k = k' := by
  obtain ⟨p, hp, rfl, rfl, howns⟩ := hk
  obtain ⟨q, hq, rfl, huser, howns'⟩ := hk'
  obtain ⟨row, hrow, hselects⟩ := any_eq_true.mp howns
  obtain ⟨row', hrow', hselects'⟩ := any_eq_true.mp howns'
  simp only [Pop3LockKey.selects, decide_eq_true_eq] at hselects hselects'
  have hrows : row = row' :=
    eq_of_key_eq s.locks.unique hrow hrow' (by rw [hselects.1, hselects'.1, huser])
  have hid : p.key.sessionId = q.key.sessionId := by rw [← hselects.2, ← hselects'.2, hrows]
  have hlogin : p = q := eq_of_key_eq h.ids hp hq hid
  rw [hlogin]

theorem Ok.loginsSound (h : s.Ok) : s.LoginsSound :=
  ⟨fun p hp => (h.logins p hp).sound, fun _ _ _ hk hk' => exclusive_of_ok h hk hk', h.recorded⟩

/-- A session that is changed without entering TRANSACTION. -/
theorem transaction_of_modify {sessions : List LoginSession} {f : LoginSession → LoginSession}
    (hf : ∀ t, (f t).state = .transaction → t.state = .transaction) {t' : LoginSession}
    (ht' : (sessions.modify j f)[k]? = some t') (hst : t'.state = .transaction) :
    ∃ t, sessions[k]? = some t ∧ t.state = .transaction := by
  rw [getElem?_modify] at ht'
  obtain ⟨t, ht, rfl⟩ := Option.map_eq_some_iff.mp ht'
  refine ⟨t, ht, ?_⟩
  split at hst
  · exact hf t hst
  · exact hst

section

variable (h : s.Ok)

include h

theorem Ok.modify {f : LoginSession → LoginSession}
    (hf : ∀ t, (f t).state = .transaction → t.state = .transaction) (k : Nat) (locks : LockTable) :
    Ok { s with sessions := s.sessions.modify k f, locks := locks } := by
  refine { h with recorded := fun j t' ht' hst => ?_ }
  obtain ⟨t, ht, hst⟩ := transaction_of_modify hf ht' hst
  exact h.recorded j t ht hst

theorem Ok.close (k : Nat) :
    Ok { s with sessions := s.sessions.modify k fun t => { t with closed := true } } :=
  h.modify (f := fun t => { t with closed := true }) (fun _ hst => hst) k s.locks

theorem Ok.begin (k gap : Nat) : Ok { s with
      lastId := s.lastId + gap + 1
      sessions := s.sessions.modify k fun t => { t with paused := true }
      logins := s.logins ++ [{ session := k, key := ⟨0, decimal (s.lastId + gap + 1)⟩ }] } := by
  refine ⟨fun p hp => ?_, ?_, fun p hp => ?_, fun j t' ht' hst => ?_⟩
  · rcases mem_append.mp hp with hp | hp
    · exact h.logins p hp
    · rw [mem_singleton.mp hp]
      exact ⟨⟨rfl, rfl, rfl⟩, rfl, rfl, rfl, rfl, rfl⟩
  · rw [map_append, nodup_append]
    refine ⟨h.ids, nodup_singleton _, ?_⟩
    intro sid hsid sid' hsid' heq
    obtain ⟨p, hp, rfl⟩ := mem_map.mp hsid
    obtain ⟨n, hpos, hle, hn⟩ := h.issued p hp
    rw [mem_singleton.mp hsid', hn] at heq
    -- the numeral of an id has the id as its value
    have hval := congrArg numeralValue heq
    rw [(isNumeral_decimal hpos).2, (isNumeral_decimal (Nat.le_add_left 1 _)).2] at hval
    omega
  · rcases mem_append.mp hp with hp | hp
    · obtain ⟨n, hpos, hle, hn⟩ := h.issued p hp
      exact ⟨n, hpos, by dsimp only; omega, hn⟩
    · rw [mem_singleton.mp hp]
      exact ⟨_, Nat.le_add_left 1 _, le_rfl, rfl⟩
  · have hkeep : ∀ t : LoginSession, { t with paused := true }.state = .transaction →
        t.state = .transaction := fun _ hst => hst
    obtain ⟨t, ht, hst⟩ := transaction_of_modify hkeep ht' hst
    obtain ⟨p, hp, hrec⟩ := h.recorded j t ht hst
    exact ⟨p, mem_append_left _ hp, hrec⟩

/-- A session that is in TRANSACTION after a continuation has a login that has entered it. -/
theorem Ok.recorded_login {p : LoginOperation} (hp : s.logins[j]? = some p) {i : LoginInput}
    {t' : LoginSession} (ht' : (s.sessions.modify p.session (·.login p i))[k]? = some t')
    (hst : t'.state = .transaction) :
    ∃ r ∈ s.logins.set j (p.step (s.isClosed p.session) (s.locks.owns p.key) i),
      r.session = k ∧ r.entered ≠ none := by
  -- a login that has entered TRANSACTION is over, and stays as it is
  have hkept : ∀ t : LoginSession, s.sessions[k]? = some t → t.state = .transaction →
      ∃ r ∈ s.logins.set j (p.step (s.isClosed p.session) (s.locks.owns p.key) i),
        r.session = k ∧ r.entered ≠ none := by
    intro t ht hst
    obtain ⟨r, hr, hsession, hent⟩ := h.recorded k t ht hst
    rcases mem_set_of_mem hp hr with rfl | hr
    · rw [step_of_over ((h.logins r hr).common.entered hent)]
      exact ⟨r, mem_set_self hp, hsession, hent⟩
    · exact ⟨r, hr, hsession, hent⟩
  rw [getElem?_modify] at ht'
  obtain ⟨t, ht, rfl⟩ := Option.map_eq_some_iff.mp ht'
  split at hst
  · rename_i hk
    rcases state_login hst with hst | ⟨hs, rfl, hopen⟩
    · exact hkept t ht hst
    · have hcl : s.isClosed p.session = false := by simp [isClosed, hk, ht, hopen]
      exact ⟨_, mem_set_self hp, by simp [LoginOperation.step, hs, hk],
        by simp [LoginOperation.step, hs, hcl]⟩
  · exact hkept t ht hst

/-- A continuation of a login that is not disturbed. -/
theorem Ok.login {p : LoginOperation} (hp : s.logins[j]? = some p) {i : LoginInput}
    (hi : p.Undisturbed (s.isClosed p.session) (s.locks.owns p.key) i) :
    (s.step (.login j i)).Ok := by
  have hmem := mem_of_getElem? hp
  have hok := (h.logins p hmem).step hi
  have howner := hok.common.owner
  have hsid : (p.step (s.isClosed p.session) (s.locks.owns p.key) i).key.sessionId =
    p.key.sessionId :=
    congrArg Prod.snd howner
  simp only [step, hp]
  refine ⟨fun r hr => ?_, ?_, fun r hr => ?_, fun k t' ht' hst => ?_⟩
  · rcases mem_or_eq_of_mem_set hr with hr | rfl
    · exact h.logins r hr
    · exact howner ▸ hok
  · rw [map_set_of_eq hp hsid]
    exact h.ids
  · rcases mem_or_eq_of_mem_set hr with hr | rfl
    · exact h.issued r hr
    · rw [hsid]
      exact h.issued p hmem
  · exact h.recorded_login hp ht' hst

/-- **One step** keeps logins sound if none is disturbed. -/
theorem Ok.step {i : Input} (hi : s.Undisturbed i) : (s.step i).Ok := by
  cases i with
  | connect =>
    refine { h with recorded := fun k t' ht' hst => ?_ }
    change (s.sessions ++ [({} : LoginSession)])[k]? = some t' at ht'
    rw [getElem?_append] at ht'
    split at ht'
    · exact h.recorded k t' ht' hst
    · -- the new session is in AUTHORIZATION
      rw [mem_singleton.mp (mem_of_getElem? ht')] at hst
      cases hst
  | user k args => exact h.modify (fun _ => state_handleUser) k s.locks
  | pass k args gap =>
    simp only [LoginSystem.step]
    split
    · split
      · unfold handlePass
        split
        · split
          · exact { h with }
          · split
            · exact { h with }
            · split
              · exact { h with }
              · exact h.begin k _
        · exact h.close k
        · exact { h with }
        · exact { h with }
        · exact { h with }
      · exact h
    · exact h
  | login j i =>
    by_cases hnone : s.logins[j]? = none
    · simp only [LoginSystem.step, hnone]
      exact h
    · obtain ⟨p, hp⟩ := Option.ne_none_iff_exists'.mp hnone
      exact h.login hp (hi p hp)
  | quit k => exact h.modify (fun _ => state_handleQuit) k s.locks
  | quitRelease k o =>
    simp only [LoginSystem.step]
    split
    · split
      · exact h.modify (fun _ => state_quitReleased) k _
      · exact h
    · exact h
  | renew k o =>
    simp only [LoginSystem.step]
    split
    · split
      · exact { h with }
      · exact h
    · exact h
  | close k => exact h.close k
  | sweep | tick => exact { h with }

/-- **A step that disturbs a login** leaves it without a sound outcome. -/
theorem Ok.not_loginsSound_step {i : Input} (hi : ¬ s.Undisturbed i) :
    ¬ (s.step i).LoginsSound := by
  intro hsound
  cases i with
  | login j i =>
    simp only [Undisturbed, not_forall] at hi
    obtain ⟨p, hp, hi⟩ := hi
    refine (h.logins p (mem_of_getElem? hp)).not_sound_step hi (hsound.logins _ ?_)
    simp only [LoginSystem.step, hp]
    exact mem_set_self hp
  | _ => exact hi trivial

end

theorem ok_start (locks : LockTable) (now lastId : Nat) : (start locks now lastId).Ok := by
  refine ⟨fun p hp => absurd hp not_mem_nil, nodup_nil, fun p hp => absurd hp not_mem_nil,
    fun k t ht => ?_⟩
  cases ht

/-- **The outcome of logins**: from any lock table, in any interleaving of sessions,
continuations that succeed, fail or throw, closings, heartbeats and sweeps, logins are sound in
all states of a run if and only if in each step nothing throws between the reply of `install`
and the request to enter TRANSACTION, and the session is open and its lock row is there when the
engine comes to enter it. -/
theorem loginsSound_iff (locks : LockTable) (now lastId : Nat) (is : List Input) :
    StepsMeet step Undisturbed (start locks now lastId) is ↔
      ∀ js, js <+: is → (run step (start locks now lastId) js).LoginsSound :=
  stepsMeet_iff_forall_good Ok LoginsSound (fun _ h => h.loginsSound) (fun _ _ h hi => h.step hi)
    (fun _ _ h hi => h.not_loginsSound_step hi) (ok_start locks now lastId) is

/-- A client logs in, and is gone when the engine comes to enter TRANSACTION. -/
def lostAfterReply : List Input :=
  [.connect, .user 0 (bytes "alice"), .pass 0 (bytes "secret") (some 0),
    .login 0 (.authenticated (some 7) false), .login 0 (.loadInbox (some true) false),
    .login 0 (.inbox (some 70) false), .login 0 (.acquired .done), .login 0 (.verified true false),
    .login 0 (.loaded (some []) false), .login 0 (.measured (some []) false),
    .login 0 (.install .done), .close 0, .login 0 .settle]

/-- **Not every login is sound**: the lock of a client that leaves after the reply stays. -/
theorem not_forall_loginsSound : ¬ ∀ (locks : LockTable) (now lastId : Nat) (is : List Input),
    (run step (start locks now lastId) is).LoginsSound := by
  intro h
  have hsound := h ⟨[], nodup_nil⟩ 0 0 lostAfterReply
  have hlost : ∃ p ∈ (run step (start ⟨[], nodup_nil⟩ 0 0) lostAfterReply).logins,
      p.stage = .over ∧ p.entered = none ∧ p.started = true ∧ p.refused = false ∧
        p.released = false := by
    decide
  obtain ⟨p, hp, hover, hent, hsta, href, hrel⟩ := hlost
  rcases (hsound.logins p hp).outcome hover with ⟨hsome, -⟩ | ⟨⟨-, hreq⟩, -⟩
  · rw [hent] at hsome
    cases hsome
  · rw [hrel] at hreq
    cases hreq ⟨hsta, href⟩

end LoginSystem

end ProtoRelay
