import ProtoRelay.Imap.ListOrder
import ProtoRelay.Imap.Selection

/-!
# Read-only selection

EXAMINE selects a mailbox for reading only.  It sets a flag that SELECT and CLOSE take back and that
no other handler looks at: STORE, EXPUNGE, MOVE and CLOSE change the mailbox as they do after
SELECT, and answer that they did.
-/

namespace ProtoRelay

open List MailboxChange

/-! ## The property -/

/-- **No row of the mailbox was changed or removed**: its links, and the rows that have the status
of its mails. -/
structure RowsKept (scope : MailboxScope) (before after : ImapDb) : Prop where
  links : ∀ l ∈ before.links, scope.selects l = true → l ∈ after.links
  recipients : ∀ r ∈ before.recipients, r.mailId ∈ before.linkedIds scope → r ∈ after.recipients

/-- The commands that change a mailbox. -/
def MailboxCommand.changes : MailboxCommand → Bool
  | store | uidStore | expunge | move => true
  | _ => false

/-- A statement of these commands or of CLOSE keeps the rows of the examined mailbox, and the
commands are refused. -/
def SelectionEntry.Kept : SelectionEntry → Prop
  | executed examined command before after =>
    (command.changes || command == .close) = true → ∀ scope ∈ examined, RowsKept scope before after
  | answered examined command status _ =>
    command.changes = true → examined.isSome = true → status ≠ .ok

/-- **Examined mailboxes stay as they are**, as far as the commands of the session are concerned. -/
def ReadOnlyKept (st : SelectionState) : Prop := ∀ e ∈ st.log, e.Kept

/-! ## The condition -/

/-- **The statements that find nothing to do in a mailbox.** -/
def MailboxChange.Idle (scope : MailboxScope) (db : ImapDb) : MailboxChange → Prop
  | insertMail _ | insertRecipient _ | insertLink _ | copyLinks _ _ _ => True
  | storeSeen mailIds recipient seen =>
    ∀ r ∈ db.recipients, r.mailId ∈ db.linkedIds scope → r.mailId ∈ mailIds →
      r.recipient = recipient → r.status = if seen then 0 else 1
  | storeStarred scope' mailIds starred =>
    ∀ l ∈ db.links, scope.selects l = true → ImapDb.linkOf scope' mailIds l = true →
      l.isStarred = starred
  | storeDeleted scope' mailIds deleted =>
    ∀ l ∈ db.links, scope.selects l = true → ImapDb.linkOf scope' mailIds l = true →
      l.isDeleted = deleted
  | expunge scope' =>
    ∀ l ∈ db.links, scope.selects l = true → ¬(scope'.selects l && l.isDeleted) = true
  | deleteLinksOf mailId => ∀ l ∈ db.links, scope.selects l = true → l.mailId ≠ mailId
  | deleteRecipientsOf mailId =>
    ∀ r ∈ db.recipients, r.mailId ∈ db.linkedIds scope → r.mailId ≠ mailId
  | deleteMail mailId => ∀ l ∈ db.links, scope.selects l = true → l.mailId ≠ mailId
  | deleteMessages scope' => ∀ l ∈ db.links, scope.selects l = true → ¬scope'.selects l = true

/-- **The steps by which an examined mailbox stays as it is.**  STORE reads no empty list, its set
has messages, it names a flag, each of its statements fails or finds nothing to do, and one of them
fails.  The statements of EXPUNGE and MOVE fail, unless the client is gone and they find nothing to
do; that of CLOSE fails or finds nothing to do.  MOVE has messages, and UID STORE finds a list that
is not empty. -/
def StaysReadOnly (st : SelectionState) (i : SelectionInput) : Prop :=
  ∀ scope ∈ st.examined,
    match i, st.pending with
    | .listed mails _, some (.storeList command args) =>
      command.changes = true → st.closed = false →
        ∀ ms, mails = some ms → ms ≠ [] ∧ expandSeqSet args.seqSet ms.length ≠ []
    | .listed mails _, some (.copyList command seqSet _) =>
      command.changes = true → st.closed = false →
        ∀ ms, mails = some ms → copyIds (ms.map (·.mailId)) seqSet ≠ some []
    | .listed mails _, some (.uidList command _) =>
      command.changes = true → st.closed = false → mails ≠ none ∧ mails ≠ some []
    | .address _, some (.storeAddress command args _) =>
      command.changes = true → st.closed = false →
        args.seen = true ∨ args.flagged = true ∨ args.deleted = true
    | .executed ok, some (.storing command (c :: statements) allOk) =>
      ((command.changes || command == .close) = true → ok = true → c.Idle scope st.db) ∧
        (command.changes = true → statements = [] → st.closed = false → (allOk && ok) = false)
    | .executed ok, some .expunging =>
      ok = true → st.closed = true ∧ (expunge st.scope).Idle scope st.db
    | .executed ok, some .closing => ok = true → (expunge st.scope).Idle scope st.db
    | .executed ok, some (.marking mailIds) =>
      ok = true → st.closed = true ∧
        (storeDeleted st.scope mailIds true).Idle scope st.db
    | .rowCount ok, some (.counting command _) =>
      command.changes = true → command ≠ .move → st.closed = false → ok = false
    | _, _ => True

/-! ## Statements -/

section Statements

variable {scope : MailboxScope} {db : ImapDb}

theorem RowsKept.refl : RowsKept scope db db := ⟨fun _ hl _ => hl, fun _ hr _ => hr⟩

theorem rowsKept_links_iff {links : List LinkRow} : RowsKept scope db { db with links } ↔
    ∀ l ∈ db.links, scope.selects l = true → l ∈ links :=
  ⟨RowsKept.links, fun h => ⟨h, fun _ hr _ => hr⟩⟩

theorem rowsKept_recipients_iff {recipients : List RecipientRow} :
    RowsKept scope db { db with recipients } ↔
      ∀ r ∈ db.recipients, r.mailId ∈ db.linkedIds scope → r ∈ recipients :=
  ⟨RowsKept.recipients, fun h => ⟨fun _ hl _ => hl, h⟩⟩

theorem rowsKept_deleteLinks_iff (q : LinkRow → Bool) :
    RowsKept scope db (db.deleteLinks q) ↔ ∀ l ∈ db.links, scope.selects l = true →
      ¬q l = true := by
  refine rowsKept_links_iff.trans (forall₂_congr fun l hl => imp_congr_right fun _ => ?_)
  rw [mem_filter, Bool.not_eq_true', Bool.not_eq_true]
  exact and_iff_right hl

theorem rowsKept_updateLinks_iff {p : LinkRow → Bool} {f : LinkRow → LinkRow}
    (hf : ∀ l, f (f l) = f l) :
    RowsKept scope db { db with links := updateWhere p f db.links } ↔
      ∀ l ∈ db.links, scope.selects l = true → p l = true → f l = l :=
  rowsKept_links_iff.trans (forall₂_congr fun _ hl => imp_congr_right
    fun _ => mem_updateWhere_self_iff hf hl)

/-- **The statements that keep the rows of a mailbox.** -/
theorem rowsKept_apply_iff (c : MailboxChange) :
    RowsKept scope db (c.apply db) ↔ c.Idle scope db := by
  cases c with
  | insertMail row | insertRecipient row | insertLink row =>
    refine iff_of_true ?_ trivial
    rw [apply]
    split
    all_goals exact ⟨fun _ hl _ => by simp [hl], fun _ hr _ => by simp [hr]⟩
  | copyLinks userId targetId mailIds =>
    refine iff_of_true ?_ trivial
    refine ImapDb.copyLinks_induction (fun id hid => (mem_filter.mp hid).2) ?_ .refl
    intro links row h _ _ _ _
    exact ⟨fun l hl hs => mem_append_left _ (h.links l hl hs), h.recipients⟩
  | storeSeen mailIds recipient seen =>
    refine rowsKept_recipients_iff.trans (forall₂_congr fun r hr => imp_congr_right fun _ => ?_)
    refine (mem_updateWhere_self_iff (f := fun r : RecipientRow =>
      { r with status := if seen then 0 else 1 })
      (fun _ => rfl) hr).trans ?_
    rw [decide_eq_true_eq, and_imp]
    refine imp_congr_right fun _ => imp_congr_right fun _ => ?_
    cases r
    simp [eq_comm]
  | storeStarred scope' mailIds flag | storeDeleted scope' mailIds flag =>
    refine Iff.trans (rowsKept_updateLinks_iff fun _ => rfl) ?_
    refine forall_congr' fun l => imp_congr_right fun _ => imp_congr_right fun _ =>
      imp_congr_right fun _ => ?_
    cases l
    simp [eq_comm]
  | expunge | deleteMessages => exact rowsKept_deleteLinks_iff _
  | deleteLinksOf mailId =>
    refine (rowsKept_deleteLinks_iff _).trans ?_
    simp only [decide_eq_true_eq]
    rfl
  | deleteRecipientsOf mailId =>
    refine rowsKept_recipients_iff.trans (forall₂_congr fun r hr => imp_congr_right fun _ => ?_)
    rw [mem_filter, decide_eq_true_eq]
    exact and_iff_right hr
  | deleteMail mailId =>
    have hlink := @rowsKept_deleteLinks_iff scope db fun l => l.mailId = mailId
    simp only [decide_eq_true_eq] at hlink
    refine ⟨fun h => hlink.mp ⟨h.links, fun r hr _ => hr⟩, fun h => ⟨(hlink.mpr h).links, ?_⟩⟩
    -- a mail of the mailbox is not the one that is deleted
    intro r hr hlinked
    obtain ⟨l, hl, hs, hid⟩ := ImapDb.mem_linkedIds.mp hlinked
    exact mem_filter.mpr ⟨hr, decide_eq_true (hid ▸ h l hl hs)⟩

end Statements

/-! ## Steps -/

namespace SelectionState

variable (st : SelectionState) (command : MailboxCommand)

/-- A step to `st'` that keeps the examined mailbox if and only if the condition `Q` is met. -/
def KeptIff (Q : MailboxScope → Prop) (st' : SelectionState) : Prop :=
  ReadOnlyKept st' ↔ ReadOnlyKept st ∧ ∀ scope ∈ st.examined, Q scope

/-- A condition for a command that changes the mailbox while the client is there. -/
def IfOpen (P : Prop) (_ : MailboxScope) : Prop := command.changes = true → st.closed = false → P

variable {st command} {st' : SelectionState} {Q : MailboxScope → Prop} {P : Prop}

/-- **Rule for two actions in a row.** -/
theorem KeptIff.trans {Q₁ R : MailboxScope → Prop} {st₁ : SelectionState} (h : st.KeptIff Q st₁)
    (h₁ : st₁.KeptIff Q₁ st') (hexamined : st₁.examined = st.examined)
    (hR : ∀ scope, R scope ↔ Q scope ∧ Q₁ scope) : st.KeptIff R st' := by
  unfold KeptIff at h h₁ ⊢
  rw [h₁, h, hexamined, and_assoc]
  simp only [hR, forall_and]

theorem keptIff_accepted (message : Bytes) (hP : ¬P) :
    st.KeptIff (st.IfOpen command P) (st.answer command .ok message) := by
  unfold KeptIff IfOpen ReadOnlyKept answer SelectionEntry.Kept
  cases st.examined <;> cases st.closed <;> simp [hP, and_comm]

theorem keptIff_execute (c : MailboxChange) (ok : Bool) :
    st.KeptIff (fun scope => (command.changes || command == .close) = true → ok = true →
      c.Idle scope st.db) (st.execute command c ok) := by
  unfold KeptIff execute
  cases ok with
  | false => simp
  | true =>
    unfold ReadOnlyKept
    rw [if_pos rfl, forall_mem_cons, and_comm]
    refine and_congr_right fun _ => ⟨fun h scope hscope hcmd _ => ?_, fun h hcmd scope hscope => ?_⟩
    · exact (rowsKept_apply_iff c).mp (h hcmd scope hscope)
    · exact (rowsKept_apply_iff c).mpr (h scope hscope hcmd rfl)

@[simp] theorem execute_closed (c : MailboxChange) (ok : Bool) :
    (st.execute command c ok).closed = st.closed := by
  unfold execute
  split <;> rfl

@[simp] theorem execute_examined (c : MailboxChange) (ok : Bool) :
    (st.execute command c ok).examined = st.examined := by
  unfold execute
  split <;> rfl

/-! Where the condition is met, it is enough that the log is kept or the answer is no OK to a
changing command. -/

section Quiet

variable (hQ : ∀ scope, Q scope)
include hQ

theorem keptIff_of_log (h : st'.log = st.log) : st.KeptIff Q st' := by
  unfold KeptIff ReadOnlyKept
  rw [h]
  exact (and_iff_left fun scope _ => hQ scope).symm

theorem keptIff_answer (hlog : st'.log = st.log) {status : TaggedStatus} (message : Bytes)
    (h : command.changes = true → status ≠ .ok) :
    st.KeptIff Q (st'.answer command status message) := by
  refine Iff.trans ?_ (keptIff_of_log hQ hlog)
  unfold ReadOnlyKept answer
  split
  · exact Iff.rfl
  · exact forall_mem_cons.trans (and_iff_right fun hchanges _ => h hchanges)

theorem keptIff_refuse {status : TaggedStatus} (message : Bytes) (h : status ≠ .ok) :
    st.KeptIff Q (st.answer command status message) :=
  keptIff_answer hQ rfl message fun _ => h

/-- A query for which the answer, if there is one, is a refusal. -/
theorem keptIff_query (hlog : st'.log = st.log) (p : Prop) [Decidable p] {status : TaggedStatus}
    (message : Bytes) (h : status ≠ .ok) :
    st.KeptIff Q (if p then st' else st.answer command status message) := by
  split
  · exact keptIff_of_log hQ hlog
  · exact keptIff_refuse hQ message h

theorem keptIff_handleStore (args : Bytes) (connected : Bool) :
    st.KeptIff Q (st.handleStore command args connected) := by
  unfold handleStore
  split
  · split
    · exact keptIff_refuse hQ _ nofun
    · exact keptIff_query hQ rfl _ _ nofun
  · exact keptIff_refuse hQ _ nofun

theorem keptIff_handleCopyMove (args : Bytes) (connected : Bool) :
    st.KeptIff Q (st.handleCopyMove command args connected) := by
  unfold handleCopyMove
  split
  · split
    · exact keptIff_query hQ rfl _ _ nofun
    · exact keptIff_refuse hQ _ nofun
  · exact keptIff_refuse hQ _ nofun

theorem keptIff_finishClose : st.KeptIff Q st.finishClose :=
  keptIff_answer hQ (by rfl) _ (by decide)

theorem keptIff_handleUid (args : Bytes) (connected : Bool) :
    st.KeptIff Q (st.handleUid args connected) := by
  unfold handleUid
  split
  · split
    · exact keptIff_refuse hQ _ nofun
    · dsimp only
      split
      · exact keptIff_query hQ rfl _ _ nofun
      · split
        · exact keptIff_of_log hQ rfl
        · exact keptIff_refuse hQ _ nofun
  · exact keptIff_refuse hQ _ nofun

/-- A command that comes in changes nothing yet, and none of the changing ones is answered
with OK. -/
theorem keptIff_dispatch (event : ImapEvent) (args : Bytes) (connected : Bool) :
    st.KeptIff Q (st.dispatch event args connected) := by
  unfold dispatch
  dsimp only
  split
  · exact keptIff_of_log hQ rfl
  · split
    · exact keptIff_refuse hQ _ nofun
    · split
      · exact keptIff_query hQ rfl _ _ nofun
      · exact keptIff_query hQ rfl _ _ nofun
      · exact keptIff_handleStore hQ args connected
      · unfold handleExpunge
        split
        · exact keptIff_query hQ rfl _ _ nofun
        · exact keptIff_refuse hQ _ nofun
      · unfold handleClose
        split
        · exact keptIff_query hQ rfl _ _ nofun
        · exact keptIff_finishClose hQ
      · exact keptIff_handleCopyMove hQ args connected
      · exact keptIff_handleCopyMove hQ args connected
      · exact keptIff_handleUid hQ args connected
      · exact keptIff_of_log hQ rfl
      · exact keptIff_of_log hQ rfl

theorem keptIff_onFound (p : SelectionPending) (ok : Bool) : st.KeptIff Q (st.onFound p ok) := by
  unfold onFound
  split
  case h_3 => exact keptIff_of_log hQ rfl
  all_goals
    dsimp only
    split
    · exact keptIff_of_log hQ rfl
    · split
      · exact keptIff_refuse hQ _ nofun
      · exact keptIff_of_log hQ rfl

theorem keptIff_onCounted (p : SelectionPending) : st.KeptIff Q (st.onCounted p) := by
  unfold onCounted
  split
  · split
    · exact keptIff_of_log hQ rfl
    · dsimp only
      split <;> exact keptIff_answer hQ rfl _ nofun
  · exact keptIff_of_log hQ rfl

theorem keptIff_expungeList (mails : Option (List MailboxMailInfo)) (connected : Bool) :
    st.KeptIff Q (st.onListed .expungeList mails connected) := by
  unfold onListed
  dsimp only
  split
  · exact keptIff_of_log hQ rfl
  · split
    · exact keptIff_refuse hQ _ nofun
    · exact keptIff_of_log hQ rfl

end Quiet

/-- What comes in for a client that is gone is dropped. -/
theorem KeptIff.unless_closed (h : st.KeptIff (st.IfOpen command P) st') :
    st.KeptIff (st.IfOpen command P) (if st.closed then st.drop else st') := by
  split
  · next hclosed =>
    refine keptIff_of_log (fun _ _ hopen => ?_) rfl
    rw [hclosed] at hopen
    cases hopen
  · exact h

theorem keptIff_storeNext (statements : List MailboxChange) (ok : Bool) :
    st.KeptIff (st.IfOpen command (statements = [] → ok = false))
      (st.storeNext command statements ok) := by
  cases statements with
  | nil =>
    cases ok with
    | true => exact keptIff_accepted _ (by simp)
    | false => exact keptIff_refuse (fun _ _ _ _ => rfl) _ nofun
  | cons c statements => exact keptIff_of_log (fun _ _ _ => nofun) rfl

section

variable (mails : Option (List MailboxMailInfo)) (connected : Bool)

include mails connected

theorem keptIff_storeList (args : StoreArgs) :
    st.KeptIff (st.IfOpen command (∀ ms, mails = some ms →
      ms ≠ [] ∧ expandSeqSet args.seqSet ms.length ≠ []))
      (st.onListed (.storeList command args) mails connected) := by
  refine KeptIff.unless_closed ?_
  cases mails with
  | none => exact keptIff_refuse (fun _ _ _ => nofun) _ nofun
  | some ms =>
    dsimp only
    split
    · next hnone =>
      refine keptIff_accepted _ fun h => ?_
      obtain ⟨hlist, hranges⟩ := h ms rfl
      exact hnone.elim hlist hranges
    · next hsome =>
      refine keptIff_of_log ?_ rfl
      rintro _ _ _ _ ⟨⟩
      exact not_or.mp hsome

theorem keptIff_copyList (seqSet : Bytes) (targetId : Nat) : st.KeptIff (st.IfOpen command
        (∀ ms, mails = some ms → copyIds (ms.map (·.mailId)) seqSet ≠ some []))
      (st.onListed (.copyList command seqSet targetId) mails connected) := by
  refine KeptIff.unless_closed ?_
  cases mails with
  | none => exact keptIff_refuse (fun _ _ _ => nofun) _ nofun
  | some ms =>
    have hstays {ids : Option (List Nat)} (hids : copyIds (ms.map (·.mailId)) seqSet = ids)
        (hne : ids ≠ some []) (scope : MailboxScope) : st.IfOpen command
          (∀ ms', some ms = some ms' → copyIds (ms'.map (·.mailId)) seqSet ≠ some []) scope := by
      rintro _ _ _ ⟨⟩
      exact hids ▸ hne
    dsimp only
    split
    · next hids => exact keptIff_of_log (hstays hids nofun) rfl
    · next hids => exact keptIff_accepted _ fun h => h ms rfl hids
    · next mailIds hne hids =>
      have hsome := hstays hids fun h => hne (Option.some.inj h)
      split
      · exact keptIff_refuse hsome _ nofun
      · exact keptIff_of_log hsome rfl

theorem keptIff_uidList (subargs : Bytes) :
    st.KeptIff (st.IfOpen command (mails ≠ none ∧ mails ≠ some []))
      (st.onListed (.uidList command subargs) mails connected) := by
  refine KeptIff.unless_closed ?_
  split
  · exact keptIff_accepted _ fun h => h.1 rfl
  · exact keptIff_accepted _ fun h => h.2 rfl
  · next ms hne =>
    have hstays (scope : MailboxScope) :
      st.IfOpen command (some ms ≠ none ∧ some ms ≠ some []) scope :=
      fun _ _ => ⟨nofun, fun h => hne (Option.some.inj h)⟩
    split
    · exact keptIff_handleStore hstays _ connected
    · exact keptIff_handleCopyMove hstays _ connected
    · exact keptIff_of_log hstays rfl

end

theorem keptIff_storing (c : MailboxChange) (statements : List MailboxChange) (allOk ok : Bool) :
    st.KeptIff (fun scope =>
        ((command.changes || command == .close) = true → ok = true → c.Idle scope st.db) ∧
        (command.changes = true → statements = [] → st.closed = false → (allOk && ok) = false))
      (st.onExecuted (.storing command (c :: statements) allOk) ok) := by
  refine (keptIff_execute c ok).trans (keptIff_storeNext statements (allOk && ok))
    (execute_examined c ok) fun scope => and_congr_right fun _ => ?_
  unfold IfOpen
  rw [execute_closed]
  exact imp_congr_right fun _ => forall_comm

/-- A statement that is answered with its own result. -/
theorem keptIff_execute_answer (hcmd : command.changes = true) (c : MailboxChange) (ok : Bool)
    (yes no : Bytes) : st.KeptIff (fun scope => ok = true → st.closed = true ∧ c.Idle scope st.db)
      (if ok then (st.execute command c ok).answer command .ok yes
        else (st.execute command c ok).answer command .no no) := by
  cases ok with
  | true =>
    refine (keptIff_execute c true).trans (keptIff_accepted yes not_false) (execute_examined c true)
      fun scope => ?_
    simp [IfOpen, hcmd, and_comm]
  | false => exact keptIff_refuse (fun _ => nofun) _ nofun

/-- A statement, and an action after it that keeps the mailbox. -/
theorem keptIff_execute_then {R : MailboxScope → Prop} (command : MailboxCommand)
    (c : MailboxChange) (ok : Bool) (h : (st.execute command c ok).KeptIff (fun _ => True) st')
    (hR : ∀ scope, R scope ↔ ((command.changes || command == .close) = true → ok = true →
      c.Idle scope st.db)) : st.KeptIff R st' :=
  (keptIff_execute c ok).trans h (execute_examined c ok) fun scope =>
    (hR scope).trans (and_iff_left trivial).symm

theorem keptIff_closing (ok : Bool) :
    st.KeptIff (fun scope => ok = true → (expunge st.scope).Idle scope st.db)
      (st.onExecuted .closing ok) := by
  refine keptIff_execute_then .close (.expunge st.scope) ok ?_ fun _ =>
    ⟨fun h _ => h, fun h => h rfl⟩
  change KeptIff _ _ (if ok then _ else _)
  split
  · exact keptIff_finishClose fun _ => trivial
  · exact keptIff_refuse (fun _ => trivial) _ nofun

theorem keptIff_copying (mailIds : List Nat) (targetId : Nat) (ok : Bool) :
    st.KeptIff (fun _ => True) (st.onExecuted (.copying command mailIds targetId) ok) := by
  refine keptIff_execute_then command (.copyLinks st.userId targetId mailIds) ok ?_
    fun _ => iff_of_true trivial fun _ _ => trivial
  change KeptIff _ _ (if ok then _ else _)
  split
  · exact keptIff_of_log (fun _ => trivial) rfl
  · exact keptIff_refuse (fun _ => trivial) _ nofun

theorem keptIff_counting (mailIds : List Nat) (ok : Bool) :
    st.KeptIff (fun _ => command.changes = true → command ≠ .move → st.closed = false → ok = false)
      (st.onRowCount (.counting command mailIds) ok) := by
  change st.KeptIff _ (if ok then if command = .move then _ else _ else _)
  cases ok with
  | false => exact keptIff_refuse (fun _ _ _ _ => rfl) _ nofun
  | true =>
    rw [if_pos rfl]
    split
    · next hmove => exact keptIff_of_log (fun _ _ hcopy => absurd hmove hcopy) rfl
    · next hcopy =>
      simp only [hcopy, ne_eq, not_false_eq_true, true_imp_iff]
      exact keptIff_accepted _ (by decide)

theorem keptIff_storeAddress (args : StoreArgs) (mailIds : List Nat) (mailAddress : Bytes) :
    st.KeptIff (st.IfOpen command (args.seen = true ∨ args.flagged = true ∨ args.deleted = true))
      (st.onAddress (.storeAddress command args mailIds) mailAddress) := by
  have hnil (recipient : Bytes) : (args.seen = true ∨ args.flagged = true ∨ args.deleted = true) =
      (args.statements st.scope mailIds recipient = [] → true = false) := by
    unfold StoreArgs.statements
    cases args.seen <;> cases args.flagged <;> cases args.deleted <;> simp
  rw [hnil]
  exact keptIff_storeNext _ true

end SelectionState

open SelectionState

/-- **The steps by which examined mailboxes stay as they are.** -/
theorem readOnlyKept_step_iff (st : SelectionState) (i : SelectionInput) :
    ReadOnlyKept (selectionStep st i) ↔ ReadOnlyKept st ∧ StaysReadOnly st i := by
  have hno : ∀ scope : MailboxScope, (fun _ => True) scope := fun _ => trivial
  unfold selectionStep StaysReadOnly
  cases st.pending with
  | none =>
    cases i with
    | command event args connected =>
      change st.KeptIff (fun _ => True) (if _ then _ else _)
      split
      · exact keptIff_of_log hno rfl
      · exact keptIff_dispatch hno event args connected
    | _ => exact keptIff_of_log hno rfl
  | some p =>
    -- only the answer to what the handler waits for does something
    cases i with
    | found ok => exact keptIff_onFound hno p ok
    | counted => exact keptIff_onCounted hno p
    | listed mails connected =>
      cases p with
      | storeList command args => exact keptIff_storeList mails connected args
      | copyList command seqSet targetId => exact keptIff_copyList mails connected seqSet targetId
      | uidList command subargs => exact keptIff_uidList mails connected subargs
      | expungeList => exact keptIff_expungeList hno mails connected
      | _ => exact keptIff_of_log hno rfl
    | address mailAddress =>
      cases p with
      | storeAddress command args mailIds => exact keptIff_storeAddress args mailIds mailAddress
      | _ => exact keptIff_of_log hno rfl
    | executed ok =>
      cases p with
      | storing command statements allOk =>
        cases statements with
        | nil => exact keptIff_of_log hno rfl
        | cons c statements => exact keptIff_storing c statements allOk ok
      | expunging => exact keptIff_execute_answer rfl (.expunge st.scope) ok _ _
      | closing => exact keptIff_closing ok
      | copying command mailIds targetId => exact keptIff_copying mailIds targetId ok
      | marking mailIds =>
        exact keptIff_execute_answer rfl (.storeDeleted st.scope mailIds true) ok _ _
      | _ => exact keptIff_of_log hno rfl
    | rowCount ok =>
      cases p with
      | counting command mailIds => exact keptIff_counting mailIds ok
      | _ => exact keptIff_of_log hno rfl
    | _ => exact keptIff_of_log hno rfl

/-! ## Runs -/

/-- A session after the login. -/
def SelectionState.start (db : ImapDb) (userId : Nat) (username : Bytes) : SelectionState :=
  { db, userId, username }

/-- **Examined mailboxes stay as they are, and the commands are refused, in exactly those runs whose
steps keep them so**: the flag that EXAMINE sets plays no part. -/
theorem readOnlyKept_iff (db : ImapDb) (userId : Nat) (username : Bytes)
    (inputs : List SelectionInput) :
    StepsMeet selectionStep StaysReadOnly (SelectionState.start db userId username) inputs ↔
      ∀ js, js <+: inputs →
        ReadOnlyKept (run selectionStep (SelectionState.start db userId username) js) := by
  refine stepsMeet_iff_forall_good ReadOnlyKept ReadOnlyKept (fun _ h => h) ?_ ?_ ?_ inputs
  · exact fun st i h hi => (readOnlyKept_step_iff st i).mpr ⟨h, hi⟩
  · exact fun st i _ hi h => hi ((readOnlyKept_step_iff st i).mp h).2
  · exact fun e he => nomatch he

/-- A mailbox with one mail that is marked for deletion. -/
def markedMail : ImapDb :=
  { links := [{ mailId := 1, mailboxId := 5, userId := 1, isDeleted := true }]
    mails := [{ id := 1, sendTime := 10 }]
    mailboxes := [{ id := 5, userId := 1, name := bytes "Archive" }] }

/-- EXAMINE of a mailbox and EXPUNGE. -/
def examineExpunge : List SelectionInput :=
  [.command .examine (bytes "Archive") true, .found true, .counted, .command .expunge [] true,
    .listed (some [{ mailId := 1, isDeleted := true, sendTime := 10 }]) true, .executed true]

/-- After EXAMINE an EXPUNGE removes the marked mail and is answered with OK. -/
theorem not_forall_readOnlyKept :
    ¬∀ (db : ImapDb) (userId : Nat) (username : Bytes) (inputs : List SelectionInput),
      ReadOnlyKept (run selectionStep (SelectionState.start db userId username) inputs) := by
  intro h
  have hexecuted :
    SelectionEntry.executed (some { userId := 1, mailboxId := 5 }) .expunge markedMail
      { markedMail with links := [] } ∈
        (run selectionStep (SelectionState.start markedMail 1 (bytes "u@example"))
          examineExpunge).log := by
    decide
  have hrows := h markedMail 1 (bytes "u@example") examineExpunge _ hexecuted rfl _ rfl
  exact absurd (hrows.links _ mem_cons_self rfl) not_mem_nil

end ProtoRelay
