import ProtoRelay.Base.Bytes
import ProtoRelay.Base.Tables

/-!
# The mailbox tables

The tables an IMAP session works on and the statements of its repositories.  `mail_mailbox` links a
mail to a mailbox of a user; the message list of a mailbox joins it with `mails` and with *all* rows
of `mail_recipients` that the mail has, so a mail with two recipients is in the list twice.  The
list is ordered by the time of sending, newest first; the order of mails with equal times is the
database's.
-/

namespace ProtoRelay

/-- A row of `mail_mailbox`. -/
structure LinkRow where
  mailId : Nat
  mailboxId : Nat
  userId : Nat
  isStarred : Bool := false
  isImportant : Bool := false
  isDeleted : Bool := false
  deriving DecidableEq

/-- The unique key of `mail_mailbox`. -/
def LinkRow.key (link : LinkRow) : Nat × Nat × Nat := (link.mailId, link.mailboxId, link.userId)

/-- A row of `mails`. -/
structure MailRow where
  id : Nat
  sendTime : Nat
  deriving DecidableEq

/-- A row of `mail_recipients`; status 1 is a mail that has not been read. -/
structure RecipientRow where
  mailId : Nat
  recipient : Bytes
  status : Nat
  deriving DecidableEq

/-- A row of `mailboxes`; box type 1 is the INBOX. -/
structure FolderRow where
  id : Nat
  userId : Nat
  name : Bytes
  boxType : Nat := 0
  deriving DecidableEq

structure ImapDb where
  links : List LinkRow := []
  mails : List MailRow := []
  recipients : List RecipientRow := []
  mailboxes : List FolderRow := []
  deriving DecidableEq

structure MailboxMailInfo where
  mailId : Nat
  isStarred : Bool := false
  isDeleted : Bool := false
  isImportant : Bool := false
  status : Nat := 0
  sendTime : Nat := 0
  deriving DecidableEq

/-- `ImapMailboxScope`. -/
structure MailboxScope where
  userId : Nat
  mailboxId : Nat
  deriving DecidableEq

def MailboxScope.selects (scope : MailboxScope) (link : LinkRow) : Bool :=
  decide (link.mailboxId = scope.mailboxId ∧ link.userId = scope.userId)

namespace ImapDb

/-! ## Queries -/

/-- The entries of a list for one link, one mail and the status of one recipient. -/
def mailInfo (link : LinkRow) (mail : MailRow) (status : Nat) : MailboxMailInfo :=
  { mailId := mail.id, isStarred := link.isStarred, isDeleted := link.isDeleted
    isImportant := link.isImportant, status, sendTime := mail.sendTime }

/-- The rows that a link and a mail give: one for each recipient of the mail, or one without. -/
def joinRecipients (db : ImapDb) (link : LinkRow) (mail : MailRow) : List MailboxMailInfo :=
  match db.recipients.filter fun r => r.mailId = mail.id with
  | [] => [mailInfo link mail 0]
  | rs => rs.map fun r => mailInfo link mail r.status

/-- The rows of `build_imap_get_mailbox_mails`, before they are ordered. -/
def mailboxJoin (db : ImapDb) (scope : MailboxScope) : List MailboxMailInfo :=
  (db.links.filter scope.selects).flatMap fun link =>
    (db.mails.filter fun m => m.id = link.mailId).flatMap (db.joinRecipients link)

/-- **A result of `build_imap_get_mailbox_mails`**: the rows, newest first. -/
structure IsMailboxList (db : ImapDb) (scope : MailboxScope) (mails : List MailboxMailInfo) :
    Prop where
  perm : mails.Perm (db.mailboxJoin scope)
  newestFirst : mails.Pairwise fun a b => b.sendTime ≤ a.sendTime

/-- `build_imap_select_status_total`, the number SELECT announces. -/
def existsCount (db : ImapDb) (scope : MailboxScope) : Nat := (db.links.filter scope.selects).length

/-! ## Statements -/

def storeSeen (db : ImapDb) (mailIds : List Nat) (recipient : Bytes) (seen : Bool) : ImapDb :=
  { db with
    recipients := updateWhere (fun r => decide (r.mailId ∈ mailIds ∧ r.recipient = recipient))
      (fun r => { r with status := if seen then 0 else 1 }) db.recipients }

/-- The links of a mailbox with these mails. -/
def linkOf (scope : MailboxScope) (mailIds : List Nat) (link : LinkRow) : Bool :=
  scope.selects link && decide (link.mailId ∈ mailIds)

def storeStarred (db : ImapDb) (scope : MailboxScope) (mailIds : List Nat) (starred : Bool) :
    ImapDb :=
  { db with
    links := updateWhere (linkOf scope mailIds)
      (fun l => { l with isStarred := starred }) db.links }

/-- The third statement of STORE, and the mark that MOVE sets. -/
def storeDeleted (db : ImapDb) (scope : MailboxScope) (mailIds : List Nat) (deleted : Bool) :
    ImapDb :=
  { db with
    links := updateWhere (linkOf scope mailIds)
      (fun l => { l with isDeleted := deleted }) db.links }

/-- The statement of EXPUNGE and CLOSE. -/
def expunge (db : ImapDb) (scope : MailboxScope) : ImapDb :=
  { db with links := db.links.filter fun l => !(scope.selects l && l.isDeleted) }

/-- One row of the `INSERT IGNORE` of COPY. -/
def copyLink (userId targetId : Nat) (links : List LinkRow) (mailId : Nat) : List LinkRow :=
  if links.any fun l => l.mailId = mailId ∧ l.mailboxId = targetId ∧ l.userId = userId then links
  else links ++ [{ mailId, mailboxId := targetId, userId }]

/-- The `INSERT IGNORE` of COPY. -/
def copyLinks (db : ImapDb) (userId targetId : Nat) (mailIds : List Nat) : ImapDb :=
  { db with links := mailIds.foldl (copyLink userId targetId) db.links }

/-! ## Keys -/

/-- The keys of the tables, and that links are to mails. -/
structure Keyed (db : ImapDb) : Prop where
  links : (db.links.map LinkRow.key).Nodup
  mails : (db.mails.map MailRow.id).Nodup
  linked : ∀ l ∈ db.links, ∃ m ∈ db.mails, m.id = l.mailId

variable {db : ImapDb} {scope : MailboxScope} {mails : List MailboxMailInfo}

theorem mailId_of_mem_joinRecipients {link : LinkRow} {mail : MailRow} {info : MailboxMailInfo}
    (h : info ∈ db.joinRecipients link mail) : ∃ status, info = mailInfo link mail status := by
  unfold joinRecipients at h
  split at h
  · exact ⟨0, List.mem_singleton.mp h⟩
  · obtain ⟨r, -, rfl⟩ := List.mem_map.mp h
    exact ⟨r.status, rfl⟩

/-- An entry of a list comes from a link of the mailbox to that mail. -/
theorem IsMailboxList.exists_link (h : db.IsMailboxList scope mails) {info : MailboxMailInfo}
    (hinfo : info ∈ mails) : ∃ link ∈ db.links, scope.selects link = true ∧
      link.mailId = info.mailId ∧
      link.isDeleted = info.isDeleted := by
  obtain ⟨link, hlink, hjoin⟩ := List.mem_flatMap.mp (h.perm.mem_iff.mp hinfo)
  obtain ⟨mail, hmail, hrow⟩ := List.mem_flatMap.mp hjoin
  obtain ⟨status, rfl⟩ := mailId_of_mem_joinRecipients hrow
  rw [List.mem_filter] at hlink hmail
  exact ⟨link, hlink.1, hlink.2, (of_decide_eq_true hmail.2).symm, rfl⟩

/-- A mail has one link to a mailbox. -/
theorem Keyed.link_unique (h : db.Keyed) {l l' : LinkRow} (hl : l ∈ db.links) (hl' : l' ∈ db.links)
    (hs : scope.selects l = true) (hs' : scope.selects l' = true) (hmail : l.mailId = l'.mailId) :
    l = l' := by
  apply List.inj_on_of_nodup_map h.links hl hl'
  obtain ⟨hbox, huser⟩ := of_decide_eq_true hs
  obtain ⟨hbox', huser'⟩ := of_decide_eq_true hs'
  unfold LinkRow.key
  rw [hmail, hbox, hbox', huser, huser']

/-- Entries of the same mail have the same mark for deletion. -/
theorem IsMailboxList.isDeleted_eq (h : db.IsMailboxList scope mails) (hkeys : db.Keyed)
    {a b : MailboxMailInfo} (ha : a ∈ mails) (hb : b ∈ mails) (hmail : a.mailId = b.mailId) :
    a.isDeleted = b.isDeleted := by
  obtain ⟨l, hl, hs, hla, hda⟩ := h.exists_link ha
  obtain ⟨l', hl', hs', hlb, hdb⟩ := h.exists_link hb
  rw [← hda, ← hdb, hkeys.link_unique hl hl' hs hs' (by rw [hla, hlb, hmail])]

end ImapDb

end ProtoRelay
