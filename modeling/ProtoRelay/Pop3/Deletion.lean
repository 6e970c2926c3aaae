import ProtoRelay.Base.Slots
import ProtoRelay.Pop3.Database
import ProtoRelay.Pop3.Numbering

/-!
# The deletions of QUIT

QUIT marks the rows of the mails to be deleted and then removes all rows of the INBOX that are
marked, whoever marked them, and it does not ask whether the session still has its lock.  So it does
what it should whenever the marks are the right ones and the lock is there at the moment of the
removal, and only then.  The reply is `+OK` only after the removal and the release of the lock have
succeeded, in every run.
-/

namespace ProtoRelay

open List Pop3DbEvent

/-- A removal took the rows of its request and no others, and the session had its lock. -/
def Pop3DbEvent.Exact : Pop3DbEvent → Prop
  | .removed _ request before after owned _ =>
    after = before.filter (fun r => !request.selects r) ∧ owned = true
  | .released _ => True

/-- The removal of session `k` has succeeded. -/
def RemovalDone (log : List Pop3DbEvent) (k : Nat) : Prop :=
  ∃ request before after owned, removed k request before after owned true ∈ log

/-- All that QUIT of session `k` has to do is done: the rows of the mails are removed, if there are
any to remove, and the lock is released. -/
def QuitDone (log : List Pop3DbEvent) (k : Nat) (mailIds : Finset Nat) : Prop :=
  (mailIds = ∅ ∨ RemovalDone log k) ∧ released k ∈ log

namespace Pop3System

/-- **Deletions are safe**: every removal took exactly the rows of the mails marked in its session,
under the session's lock, and a session that was told `+OK` by QUIT has seen the removal and the
release succeed. -/
structure DeletionsSafe (s : Pop3System) : Prop where
  exact : ∀ e ∈ s.log, e.Exact
  replies : ∀ k t, s.sessions[k]? = some t → ∀ a ∈ t.log, a.event = .quit → a.isOk = true →
    t.ctx.isAuthenticated = true → QuitDone s.log k t.ctx.deleted

/-- When the removal of a session is executed, the rows of its INBOX that are flagged are those of
the mails it has marked, and its lock row is there. -/
def Undisturbed (s : Pop3System) : Input → Prop
  | .remove k o =>
    ∀ request key, s.pendingOf k = some (.remove request key) → o.executed = true →
      (∀ r ∈ s.mailbox, r.userId = request.userId → r.mailboxId = request.mailboxId →
        (r.isDeleted = true ↔ r.mailId ∈ request.mailIds)) ∧ s.owns key = true
  | _ => True

end Pop3System

/-! ## Replies to QUIT -/

namespace Pop3Session

/-- What the log of the system says for session `k`. -/
structure QuitOk (es : List Pop3DbEvent) (k : Nat) (t : Pop3Session) : Prop where
  answered : ∀ a ∈ t.log, a.event = .quit → a.isOk = true →
    t.closed = true ∧ t.pending = none ∧
      (t.ctx.isAuthenticated = true → QuitDone es k t.ctx.deleted)
  request : ∀ p r, t.pending = some p → p.request = some r → r.mailIds = t.ctx.deleted
  removed : ∀ r key, t.pending = some (.release r key true) → r.mailIds = ∅ ∨ RemovalDone es k

/-- QUIT was not answered by `+OK`. -/
def NoQuit (log : List Pop3Answer) : Prop := ∀ a ∈ log, a.event = .quit → a.isOk = false

/-- The answers of the database that the log of the system has to confirm: that rows were removed,
and that QUIT has released the lock. -/
def Backed (es : List Pop3DbEvent) (k : Nat) (t : Pop3Session) : Input → Prop
  | .removed true => RemovalDone es k
  | .released true =>
    ∀ r key deleted, t.pending = some (.release r key deleted) → released k ∈ es
  | _ => True

section

variable {es es' : List Pop3DbEvent} {k : Nat} {t : Pop3Session}

theorem QuitDone.mono (hsub : ∀ e ∈ es, e ∈ es') {mailIds : Finset Nat}
    (h : QuitDone es k mailIds) : QuitDone es' k mailIds := by
  obtain ⟨hrem, hrel⟩ := h
  refine ⟨hrem.imp_right ?_, hsub _ hrel⟩
  rintro ⟨request, before, after, owned, hmem⟩
  exact ⟨request, before, after, owned, hsub _ hmem⟩

theorem QuitOk.mono (hsub : ∀ e ∈ es, e ∈ es') (h : QuitOk es k t) : QuitOk es' k t := by
  refine ⟨fun a ha hquit hok => ?_, h.request, fun r key hp => ?_⟩
  · obtain ⟨hcl, hpend, hdone⟩ := h.answered a ha hquit hok
    exact ⟨hcl, hpend, fun hauth => QuitDone.mono hsub (hdone hauth)⟩
  · refine (h.removed r key hp).imp_right ?_
    rintro ⟨request, before, after, owned, hmem⟩
    exact ⟨request, before, after, owned, hsub _ hmem⟩

/-- A session whose QUIT was not answered. -/
theorem NoQuit.quitOk (hlog : NoQuit t.log)
    (hrequest : ∀ p r, t.pending = some p → p.request = some r → r.mailIds = t.ctx.deleted)
    (hrem : ∀ r key, t.pending = some (.release r key true) →
      r.mailIds = ∅ ∨ RemovalDone es k) : QuitOk es k t := by
  refine ⟨fun a ha hquit hok => ?_, hrequest, hrem⟩
  rw [hlog a ha hquit] at hok
  cases hok

/-- One that does not wait for the database either. -/
theorem quitOk_of_noQuit (hlog : NoQuit t.log)
    (hpend : ∀ p, t.pending = some p → p.request = none) : QuitOk es k t := by
  refine hlog.quitOk (fun p r hp hr => ?_) (fun r key hp => ?_)
  · rw [hpend p hp] at hr
    cases hr
  · cases hpend _ hp

theorem quitOk_waiting (hlog : NoQuit t.log) {p : Pop3Pending} (hp : p.request = none) :
    QuitOk es k { t with pending := some p } := by
  refine quitOk_of_noQuit hlog fun p' hp' => ?_
  cases hp'
  exact hp

theorem quitOk_of_pending_none (hlog : NoQuit t.log) (hpend : t.pending = none) :
    QuitOk es k t := by
  refine quitOk_of_noQuit hlog fun p hp => ?_
  rw [hpend] at hp
  cases hp

theorem NoQuit.cons {a : Pop3Answer} {log : List Pop3Answer} (h : NoQuit log)
    (ha : a.event = .quit → a.isOk = false) : NoQuit (a :: log) := by
  intro a' ha'
  rcases mem_cons.mp ha' with rfl | ha'
  · exact ha
  · exact h a' ha'

theorem isOk_of_text {event : Pop3Event} {args text : Bytes}
    (h : (bytes "+OK").isPrefixOf (pop3Line text) = false) :
    Pop3Answer.isOk ⟨event, args, pop3Line text⟩ = false := h

theorem noQuit_sendLine (h : NoQuit t.log) (event : Pop3Event) (hne : event ≠ .quit)
    (args text : Bytes) : NoQuit (t.sendLine event args text).log :=
  h.cons fun hquit => absurd hquit hne

/-- A command that waits for nothing. -/
theorem quitOk_sendLine (hlog : NoQuit t.log) (hpend : t.pending = none) (event : Pop3Event)
    (hne : event ≠ .quit) (args text : Bytes) : QuitOk es k (t.sendLine event args text) := by
  exact quitOk_of_pending_none (noQuit_sendLine hlog event hne args text) hpend

theorem Ready.noQuit (hrd : t.Ready) (h : QuitOk es k t) : NoQuit t.log := by
  intro a ha hquit
  by_contra hok
  have hcl := (h.answered a ha hquit (by simpa using hok)).1
  rw [hrd.1] at hcl
  cases hcl

section

variable (hlog : NoQuit t.log)

include hlog

section

variable (hpend : t.pending = none)

include hpend

theorem quitOk_handleUser (args : Bytes) : QuitOk es k (t.handleUser args) := by
  unfold handleUser
  split
  · exact quitOk_sendLine hlog hpend .user nofun _ _
  · exact quitOk_sendLine (t := { t with ctx := { username := args } }) hlog hpend .user nofun _ _

theorem quitOk_handlePass (args sid : Bytes) : QuitOk es k (t.handlePass args sid) := by
  unfold handlePass
  split
  · exact quitOk_sendLine hlog hpend .pass nofun _ _
  · split
    · exact quitOk_sendLine hlog hpend .pass nofun _ _
    · exact quitOk_waiting hlog rfl

theorem quitOk_handleRetr (args : Bytes) : QuitOk es k (t.handleRetr args) := by
  unfold handleRetr
  split
  · exact quitOk_sendLine hlog hpend .retr nofun _ _
  · split
    · exact quitOk_sendLine hlog hpend .retr nofun _ _
    · exact quitOk_waiting hlog rfl

theorem quitOk_handleDele (args : Bytes) : QuitOk es k (t.handleDele args) := by
  unfold handleDele
  split
  · exact quitOk_sendLine hlog hpend .dele nofun _ _
  · split
    · exact quitOk_sendLine hlog hpend .dele nofun _ _
    · split
      · exact quitOk_sendLine hlog hpend .dele nofun _ _
      · refine quitOk_sendLine ?_ ?_ .dele nofun _ _
        · exact hlog
        · exact hpend

end

/-- QUIT: a client that is not logged in has nothing to delete. -/
theorem quitOk_handleQuit (args : Bytes) (hpend : t.pending = none) :
    QuitOk es k (t.handleQuit args) := by
  unfold handleQuit
  split
  · refine NoQuit.quitOk hlog (fun p r hp hr => ?_) (fun r key hp => ?_)
    · cases hp
      cases hr
      rfl
    · cases hp
  · rename_i hauth
    have hq : QuitOk es k t := quitOk_of_pending_none hlog hpend
    exact ⟨fun a ha hquit hok => ⟨rfl, hpend, fun h => absurd h hauth⟩, hq.request, hq.removed⟩

end

theorem quitOk_dispatch (h : QuitOk es k t) (hrd : t.Ready) (event : Pop3Event)
    (args sid : Bytes) : QuitOk es k (t.dispatch event args sid) := by
  have hlog := hrd.noQuit h
  have hpend := hrd.2
  unfold dispatch
  split
  -- most commands are only answered
  all_goals try exact quitOk_sendLine hlog hpend _ (by decide) _ _
  · exact quitOk_handleUser hlog hpend args
  · exact quitOk_handlePass hlog hpend args sid
  · exact quitOk_handleQuit hlog args hpend
  · exact quitOk_handleQuit hlog args hpend
  · -- LIST
    unfold handleList
    split <;> exact quitOk_sendLine hlog hpend .list nofun _ _
  · -- UIDL
    unfold handleUidl
    split <;> exact quitOk_sendLine hlog hpend .uidl nofun _ _
  · exact quitOk_handleRetr hlog hpend args
  · exact quitOk_handleDele hlog hpend args
  · exact quitOk_sendLine (t := { t with ctx := { t.ctx with deleted := ∅ } }) hlog hpend
      .rset nofun _ _
  · exact h
  · -- refused by the guard table, QUIT included
    refine quitOk_of_pending_none (hlog.cons fun _ => ?_) hpend
    exact isOk_of_text (by decide)

/-- What is left of a login that failed. -/
theorem quitOk_replyFailure (hlog : NoQuit t.log) (reply : Bytes) (close : Bool) :
    QuitOk es k (t.replyFailure reply close) := by
  unfold replyFailure
  split
  · exact quitOk_of_noQuit hlog nofun
  · split <;> exact quitOk_of_noQuit (noQuit_sendLine hlog .pass nofun _ _) nofun

/-- **The reply to QUIT**: `+OK` only if all was done. -/
theorem quitOk_finishQuit (hlog : NoQuit t.log) {deleted released : Bool}
    (hdone : deleted = true → released = true → QuitDone es k t.ctx.deleted) :
    QuitOk es k (t.finishQuit deleted released) := by
  unfold finishQuit
  split
  · exact quitOk_of_noQuit hlog nofun
  · by_cases hall : (deleted && released) = true
    · rw [Bool.and_eq_true] at hall
      exact ⟨fun a ha hquit hok => ⟨rfl, rfl, fun _ => hdone hall.1 hall.2⟩, nofun, nofun⟩
    · rw [if_neg hall]
      refine quitOk_of_noQuit (hlog.cons fun _ => ?_) nofun
      exact isOk_of_text (by decide)

/-- A session that was told `+OK` takes nothing any more. -/
theorem step_of_done (hcl : t.closed = true) (hpend : t.pending = none) (i : Input) :
    (t.step i).ctx = t.ctx ∧ (t.step i).closed = true ∧ (t.step i).pending = none ∧
      ((t.step i).log = t.log ∨ ∃ a, a.event = .connect ∧ (t.step i).log = a :: t.log) := by
  cases i with
  | connected now =>
    simp only [step]
    split
    · exact ⟨rfl, hcl, hpend, .inr ⟨_, rfl, rfl⟩⟩
    · exact ⟨rfl, hcl, hpend, .inl rfl⟩
  | renewed status =>
    simp only [step]
    split
    · exact ⟨rfl, rfl, hpend, .inl rfl⟩
    · exact ⟨rfl, hcl, hpend, .inl rfl⟩
  | close => exact ⟨rfl, rfl, hpend, .inl rfl⟩
  | _ =>
    refine ⟨?_, ?_, ?_, .inl ?_⟩ <;> simp only [step, hpend, hcl, true_or, if_true]

/-- Steps before QUIT is answered. -/
theorem quitOk_step_of_noQuit (h : QuitOk es k t) (hlog : NoQuit t.log) {i : Input}
    (hi : Backed es k t i) : QuitOk es k (t.step i) := by
  cases i with
  | connected now =>
    simp only [step]
    split
    · exact NoQuit.quitOk (noQuit_sendLine hlog .connect (by decide) _ _) h.request h.removed
    · exact h
  | command data sid =>
    simp only [step]
    split
    · exact h
    · rename_i hnot
      exact quitOk_dispatch h (by simpa [Ready, not_or] using hnot) _ _ sid
  | authenticated user close =>
    simp only [step]
    split
    · split
      · exact quitOk_of_pending_none hlog rfl
      · exact quitOk_waiting hlog rfl
    · exact quitOk_replyFailure hlog _ _
    · exact h
  | inbox id =>
    simp only [step]
    split
    · exact quitOk_replyFailure hlog _ _
    · exact quitOk_replyFailure hlog _ _
    · split
      · exact quitOk_of_pending_none hlog rfl
      · exact quitOk_waiting hlog rfl
    · exact h
  | acquired ok =>
    simp only [step]
    split
    · split
      · exact quitOk_waiting hlog rfl
      · exact quitOk_waiting hlog rfl
    · exact h
  | verified status =>
    simp only [step]
    split
    · split
      · exact quitOk_waiting hlog rfl
      · exact quitOk_replyFailure hlog _ _
      · split
        · exact quitOk_waiting hlog rfl
        · exact quitOk_waiting hlog rfl
    · exact h
  | loaded messages =>
    simp only [step]
    split
    · exact quitOk_waiting hlog rfl
    · split
      · exact quitOk_waiting hlog rfl
      · exact quitOk_of_pending_none (hlog.cons fun h => by cases h) rfl
    · exact h
  | bodyRead body =>
    simp only [step]
    split
    · split
      · exact quitOk_of_pending_none hlog rfl
      · exact quitOk_of_pending_none (noQuit_sendLine hlog .retr (by decide) _ _) rfl
    · exact h
  | leased ok =>
    simp only [step]
    split
    · rename_i request key hpend
      have hids := h.request _ _ hpend rfl
      split
      · refine NoQuit.quitOk hlog (fun p r hp hr => ?_) (fun r key hp => ?_)
        · split at hp <;> cases hp <;> cases hr <;> exact hids
        · split at hp
          · rename_i hempty
            cases hp
            exact .inl hempty
          · cases hp
      · exact quitOk_finishQuit hlog fun h => by cases h
    · exact h
  | marked ok =>
    simp only [step]
    split
    · rename_i request key hpend
      have hids := h.request _ _ hpend rfl
      refine NoQuit.quitOk hlog (fun p r hp hr => ?_) (fun r key hp => ?_)
      · split at hp <;> cases hp <;> cases hr <;> exact hids
      · split at hp <;> cases hp
    · exact h
  | removed ok =>
    simp only [step]
    split
    · rename_i request key hpend
      have hids := h.request _ _ hpend rfl
      refine NoQuit.quitOk hlog (fun p r hp hr => ?_) (fun r key hp => ?_)
      · cases hp
        cases hr
        exact hids
      · cases hp
        exact .inr hi
    · exact h
  | released ok =>
    simp only [step]
    split
    · exact quitOk_replyFailure hlog _ _
    · rename_i request key deleted hpend
      have hids := h.request _ _ hpend rfl
      refine quitOk_finishQuit hlog fun hdel hrel => ?_
      subst hdel hrel
      rw [← hids]
      exact ⟨h.removed _ _ hpend, hi _ _ _ hpend⟩
    · exact h
  | renewed status =>
    simp only [step]
    split
    · exact NoQuit.quitOk hlog h.request h.removed
    · exact h
  | close => exact NoQuit.quitOk hlog h.request h.removed

/-- **One step of a session**: the reply to QUIT is backed by the log of the system. -/
theorem QuitOk.step (h : QuitOk es k t) {i : Input} (hi : Backed es k t i) :
    QuitOk es k (t.step i) := by
  by_cases hlog : NoQuit t.log
  · exact quitOk_step_of_noQuit h hlog hi
  · simp only [NoQuit, not_forall, Bool.not_eq_false] at hlog
    obtain ⟨a, ha, hquit, hok⟩ := hlog
    obtain ⟨hcl, hpend, hdone⟩ := h.answered a ha hquit hok
    obtain ⟨hctx, hclosed', hpend', hlog'⟩ := step_of_done hcl hpend i
    refine ⟨fun a' ha' hquit' hok' => ⟨hclosed', hpend', ?_⟩, ?_, ?_⟩
    · rw [hctx]
      exact hdone
    · intro p r hp
      cases hpend'.symm.trans hp
    · intro r key hp
      cases hpend'.symm.trans hp

end

end Pop3Session

/-! ## Removals -/

namespace Pop3System

variable {s : Pop3System}

def SessionsOk (es : List Pop3DbEvent) (sessions : List Pop3Session) : Prop :=
  ∀ k t, sessions[k]? = some t → Pop3Session.QuitOk es k t

theorem SessionsOk.advance {es : List Pop3DbEvent} (h : SessionsOk es s.sessions) {k : Nat}
    {i : Pop3Session.Input} (hi : ∀ t, s.sessions[k]? = some t → Pop3Session.Backed es k t i) :
    SessionsOk es (s.advance k i).sessions := by
  intro k' t ht
  change (s.sessions.modify k fun t => t.step i)[k']? = some t at ht
  by_cases hk : k = k'
  · subst hk
    cases hget : s.sessions[k]? with
    | none =>
      rw [modify_of_getElem?_eq_none hget, hget] at ht
      cases ht
    | some t' =>
      rw [getElem?_modify_self hget] at ht
      obtain rfl := Option.some.inj ht
      exact (h k t' hget).step (hi t' hget)
  · rw [getElem?_modify_of_ne hk] at ht
    exact h k' t ht

theorem backed_of_isLocal {i : Pop3Session.Input} (hi : isLocal i = true) (es : List Pop3DbEvent)
    (k : Nat) (t : Pop3Session) : Pop3Session.Backed es k t i := by
  cases i with
  | removed | released => cases hi
  | _ => trivial

@[simp] theorem sessions_onLocks (o : SqlOutcome) (f : List LockRow → List LockRow) :
    (s.onLocks o f).sessions = s.sessions := by
  unfold onLocks
  split <;> rfl

/-- **The removal is exact** if the rows of the INBOX that are flagged are those that were
marked. -/
theorem expungeDelete_eq_iff (request : Pop3DeletionRequest) (rows : List MailboxRow) :
    expungeDelete request.mailboxId request.userId rows =
      rows.filter (fun r => !request.selects r) ↔
      ∀ r ∈ rows, r.userId = request.userId → r.mailboxId = request.mailboxId →
        (r.isDeleted = true ↔ r.mailId ∈ request.mailIds) := by
  rw [expungeDelete, filter_eq_filter_iff]
  refine forall_congr' fun r => forall_congr' fun _ => ?_
  rw [Bool.not_inj_iff, Pop3DeletionRequest.selects, decide_eq_decide]
  constructor
  · intro h huser hbox
    simpa [huser, hbox] using h
  · intro h
    constructor
    · rintro ⟨hbox, huser, hflag⟩
      exact ⟨huser, hbox, (h huser hbox).mp hflag⟩
    · rintro ⟨huser, hbox, hmem⟩
      exact ⟨hbox, huser, (h huser hbox).mpr hmem⟩

/-- The invariant: exact removals, and sessions with honest replies. -/
structure Ok (s : Pop3System) : Prop where
  exact : ∀ e ∈ s.log, e.Exact
  sessions : SessionsOk s.log s.sessions

theorem deletionsSafe_of_ok (h : s.Ok) : s.DeletionsSafe :=
  ⟨h.exact, fun k t ht a ha hquit hok hauth =>
    ((h.sessions k t ht).answered a ha hquit hok).2.2 hauth⟩

theorem Ok.advance (h : s.Ok) {k : Nat} {i : Pop3Session.Input}
    (hi : ∀ t, s.sessions[k]? = some t → Pop3Session.Backed s.log k t i) : (s.advance k i).Ok :=
  ⟨h.exact, h.sessions.advance hi⟩

theorem Ok.onLocks (h : s.Ok) (o : SqlOutcome) (f : List LockRow → List LockRow) :
    (s.onLocks o f).Ok := by
  unfold Pop3System.onLocks
  split
  · exact { h with }
  · exact h

theorem Ok.logged (h : s.Ok) {e : Pop3DbEvent} (he : e.Exact) (mailbox : List MailboxRow) :
    Ok { s with mailbox := mailbox, log := e :: s.log } := by
  refine ⟨fun e' he' => ?_, fun k t ht => (h.sessions k t ht).mono fun e' => mem_cons_of_mem e⟩
  rcases mem_cons.mp he' with rfl | he'
  · exact he
  · exact h.exact e' he'

/-- **One step** keeps deletions safe if removals are undisturbed. -/
theorem ok_step (h : s.Ok) {i : Input} (hi : s.Undisturbed i) : (s.step i).Ok := by
  cases i with
  | connect =>
    refine ⟨h.exact, fun k t ht => ?_⟩
    change (s.sessions ++ [({} : Pop3Session)])[k]? = some t at ht
    rw [getElem?_append] at ht
    split at ht
    · exact h.sessions k t ht
    · -- the new session has answered nothing
      have hnew := mem_singleton.mp (mem_of_getElem? ht)
      subst hnew
      exact ⟨nofun, nofun, nofun⟩
  | session k i =>
    simp only [step]
    split
    · rename_i hloc
      exact h.advance fun t _ => backed_of_isLocal hloc _ _ t
    · exact h
  | acquire k o =>
    simp only [step]
    split
    · exact (h.onLocks o _).advance fun _ _ => trivial
    · exact h
  | verify | confirm =>
    simp only [step]
    split
    · exact h.advance fun _ _ => trivial
    · exact h
  | renew k o =>
    simp only [step]
    split
    · split
      · exact h.onLocks o _
      · exact (h.onLocks o _).advance fun _ _ => trivial
    · exact h
  | mark k o =>
    simp only [step]
    split
    · refine Ok.advance ?_ fun _ _ => trivial
      split
      · exact { h with }
      · exact h
    · exact h
  | remove k o =>
    simp only [step]
    split
    · rename_i request key hpend
      by_cases hexec : o.executed = true
      · obtain ⟨hrows, howns⟩ := hi request key hpend hexec
        rw [if_pos hexec]
        have hexact : (removed k request s.mailbox
            (expungeDelete request.mailboxId request.userId s.mailbox) (s.owns key)
            o.reported).Exact := ⟨(expungeDelete_eq_iff request s.mailbox).mpr hrows, howns⟩
        refine (h.logged hexact _).advance fun t _ => ?_
        cases o.reported with
        | false => trivial
        | true => exact ⟨request, _, _, _, mem_cons_self⟩
      · rw [if_neg hexec]
        -- what was not executed is not reported as done
        have hfalse : o.reported = false := by
          cases o with
          | done => exact absurd rfl hexec
          | failed | lost => rfl
        rw [hfalse]
        exact h.advance fun _ _ => trivial
    · exact h
  | release k o =>
    simp only [step]
    split
    · cases hrep : o.reported with
      | false => exact (h.onLocks o _).advance fun _ _ => trivial
      | true =>
        have hexact : (released k).Exact := trivial
        exact ((h.onLocks o _).logged hexact _).advance fun _ _ _ _ _ _ => mem_cons_self
    · -- a login that failed gives back its lock, and answers no QUIT
      rename_i key reply hpend
      refine (h.onLocks o _).advance fun t ht => ?_
      cases o.reported with
      | false => trivial
      | true =>
        intro r key' deleted hrelease
        rw [sessions_onLocks] at ht
        rw [pendingOf, ht, Option.bind_some, hrelease] at hpend
        cases hpend
    · exact h
  | timeout k o =>
    simp only [step]
    split
    · exact h.onLocks o _
    · exact h
  | _ => exact { h with }

/-- **Any other removal** takes other rows, or is made without the lock. -/
theorem not_deletionsSafe_step {i : Input} (hi : ¬ s.Undisturbed i) :
    ¬ (s.step i).DeletionsSafe := by
  cases i with
  | remove k o =>
    simp only [Undisturbed, not_forall] at hi
    obtain ⟨request, key, hpend, hexec, hnot⟩ := hi
    intro hsafe
    have hmem : removed k request s.mailbox
        (expungeDelete request.mailboxId request.userId s.mailbox) (s.owns key) o.reported ∈
        (s.step (.remove k o)).log := by
      simp only [step, hpend, if_pos hexec]
      exact mem_cons_self
    obtain ⟨hrows, howns⟩ := hsafe.exact _ hmem
    exact hnot ⟨(expungeDelete_eq_iff request s.mailbox).mp hrows, howns⟩
  | _ => exact absurd trivial hi

variable (mailbox : List MailboxRow) (locks : List LockRow)

def start (now : Nat) : Pop3System :=
  { mailbox := mailbox, locks := locks, now := now }

theorem ok_start (now : Nat) : (start mailbox locks now).Ok := by
  refine ⟨fun e he => absurd he not_mem_nil, fun k t ht => ?_⟩
  cases ht

/-- **The deletions of QUIT**: from any tables, in any interleaving of sessions, deletions are safe
in all states of a run if and only if, whenever the removal of a session is executed, the rows of
its INBOX that are flagged are those of the mails it has marked and its lock row is there. -/
theorem stepsMeet_undisturbed_iff (now : Nat) (is : List Input) :
    StepsMeet step Undisturbed (start mailbox locks now) is ↔
      ∀ js, js <+: is → (run step (start mailbox locks now) js).DeletionsSafe :=
  stepsMeet_iff_forall_good Ok DeletionsSafe (fun _ h => deletionsSafe_of_ok h)
    (fun _ _ h hi => ok_step h hi) (fun _ _ _ hi => not_deletionsSafe_step hi)
    (ok_start mailbox locks now) is

/-- A client logs in, marks the first of two mails and leaves. -/
def deleteFirst : List Input :=
  [.connect, .session 0 (.connected 0), .session 0 (.command (bytes "USER alice\r\n") []),
    .session 0 (.command (bytes "PASS secret\r\n") (bytes "1")),
    .session 0 (.authenticated (some 7) false), .session 0 (.inbox (some 70)), .acquire 0 .done,
    .verify 0 true,
      .session 0 (.loaded (some [⟨101, bytes "101.eml", 10⟩, ⟨102, bytes "102.eml", 20⟩])),
    .session 0 (.command (bytes "DELE 1\r\n") []), .session 0 (.command (bytes "QUIT\r\n") []),
    .session 0 (.leased true), .mark 0 .done, .remove 0 .done, .release 0 .done]

/-- **Not every deletion is safe**: a mail that an IMAP session has flagged goes with the one that
was marked. -/
theorem not_forall_deletionsSafe :
    ¬ ∀ (mailbox : List MailboxRow) (locks : List LockRow) (now : Nat)
    (is : List Input), (run step (start mailbox locks now) is).DeletionsSafe := by
  intro h
  have hsafe := h [⟨7, 70, 101, false⟩, ⟨7, 70, 102, true⟩] [] 0 deleteFirst
  have hmem : removed 0 ⟨7, 70, {101}⟩ [⟨7, 70, 101, true⟩, ⟨7, 70, 102, true⟩] [] true
      true ∈ (run step (start [⟨7, 70, 101, false⟩, ⟨7, 70, 102, true⟩] [] 0) deleteFirst).log := by
    decide
  -- the row of the mail 102 should have stayed
  have hexact := (hsafe.exact _ hmem).1
  exact absurd hexact (by decide)

end Pop3System

end ProtoRelay
