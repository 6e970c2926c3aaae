import ProtoRelay.Imap.Mailbox

/-!
# Changes of the mailbox tables

The statements by which the IMAP handlers, deliveries and POP3 change the tables of a mailbox, as
data, and that all of them keep the keys.
-/

namespace ProtoRelay

open List LinkRow

/-- A statement by which the tables of a mailbox change: those of a delivery or an APPEND, of STORE,
of COPY and MOVE, of EXPUNGE and CLOSE, of an APPEND that is taken back, and of DELETE. -/
inductive MailboxChange
  | insertMail (row : MailRow)
  | insertRecipient (row : RecipientRow)
  | insertLink (row : LinkRow)
  | storeSeen (mailIds : List Nat) (recipient : Bytes) (seen : Bool)
  | storeStarred (scope : MailboxScope) (mailIds : List Nat) (starred : Bool)
  | storeDeleted (scope : MailboxScope) (mailIds : List Nat) (deleted : Bool)
  | copyLinks (userId targetId : Nat) (mailIds : List Nat)
  | expunge (scope : MailboxScope)
  | deleteLinksOf (mailId : Nat)
  | deleteRecipientsOf (mailId : Nat)
  | deleteMail (mailId : Nat)
  | deleteMessages (scope : MailboxScope)

def ImapDb.hasMail (db : ImapDb) (mailId : Nat) : Bool := db.mails.any fun m => m.id = mailId

/-- `DELETE FROM mail_mailbox WHERE q`. -/
def ImapDb.deleteLinks (db : ImapDb) (q : LinkRow → Bool) : ImapDb :=
  { db with links := db.links.filter fun l => !q l }

/-- `DELETE FROM mail_recipients WHERE mail_id = ?`. -/
def ImapDb.deleteRecipientsOf (db : ImapDb) (mailId : Nat) : ImapDb :=
  { db with recipients := db.recipients.filter fun r => r.mailId ≠ mailId }

/-- The tables after the statement.  A row that would violate a key is not inserted, and with a mail
go the rows that refer to it. -/
def MailboxChange.apply (db : ImapDb) : MailboxChange → ImapDb
  | insertMail row => if db.hasMail row.id then db else { db with mails := db.mails ++ [row] }
  | insertRecipient row =>
    if db.hasMail row.mailId then { db with recipients := db.recipients ++ [row] } else db
  | insertLink row =>
    if db.hasMail row.mailId = true ∧ row.key ∉ db.links.map key then
      { db with links := db.links ++ [row] }
    else db
  | storeSeen mailIds recipient seen => db.storeSeen mailIds recipient seen
  | storeStarred scope mailIds starred => db.storeStarred scope mailIds starred
  | storeDeleted scope mailIds deleted => db.storeDeleted scope mailIds deleted
  | copyLinks userId targetId mailIds => db.copyLinks userId targetId (mailIds.filter db.hasMail)
  | expunge scope => db.expunge scope
  | deleteLinksOf mailId => db.deleteLinks fun l => l.mailId = mailId
  | deleteRecipientsOf mailId => db.deleteRecipientsOf mailId
  | deleteMail mailId =>
    let cascaded := (db.deleteLinks fun l => l.mailId = mailId).deleteRecipientsOf mailId
    { cascaded with mails := db.mails.filter fun m => m.id ≠ mailId }
  | deleteMessages scope => db.deleteLinks scope.selects

/-! ## Keys -/

namespace ImapDb

variable {db db' : ImapDb} {scope : MailboxScope}

theorem hasMail_iff {mailId : Nat} : db.hasMail mailId = true ↔ ∃ m ∈ db.mails, m.id = mailId := by
  simp [hasMail]

section

variable (hkeys : db.Keyed)

include hkeys

theorem Keyed.of_keys (hmails : db'.mails = db.mails)
    (hlinks : db'.links.map key = db.links.map key) : db'.Keyed := by
  refine ⟨hlinks ▸ hkeys.links, hmails ▸ hkeys.mails, ?_⟩
  intro l hl
  have hkey : l.key ∈ db.links.map key := hlinks ▸ mem_map_of_mem hl
  obtain ⟨l', hl', heq⟩ := mem_map.mp hkey
  obtain ⟨m, hm, hid⟩ := hkeys.linked l' hl'
  exact ⟨m, hmails ▸ hm, hid.trans (congrArg Prod.fst heq)⟩

theorem Keyed.insertMail {row : MailRow} (hnew : ¬db.hasMail row.id = true) :
    ImapDb.Keyed { db with mails := db.mails ++ [row] } := by
  rw [hasMail_iff] at hnew
  refine ⟨hkeys.links, ?_, ?_⟩
  · rw [map_append, nodup_append_comm]
    refine nodup_cons.mpr ⟨?_, hkeys.mails⟩
    intro hmem
    obtain ⟨m, hm, heq⟩ := mem_map.mp hmem
    exact hnew ⟨m, hm, heq⟩
  · intro l hl
    obtain ⟨m, hm, heq⟩ := hkeys.linked l hl
    exact ⟨m, mem_append_left _ hm, heq⟩

theorem Keyed.insertLink {row : LinkRow} (hmail : db.hasMail row.mailId = true)
    (hnew : row.key ∉ db.links.map key) : ImapDb.Keyed { db with links := db.links ++ [row] } := by
  refine ⟨?_, hkeys.mails, ?_⟩
  · rw [map_append, nodup_append_comm]
    exact nodup_cons.mpr ⟨hnew, hkeys.links⟩
  · intro l hl
    rcases mem_append.mp hl with hl | hl
    · exact hkeys.linked l hl
    · rw [mem_singleton.mp hl]
      exact hasMail_iff.mp hmail

theorem Keyed.deleteLinks (q : LinkRow → Bool) : (db.deleteLinks q).Keyed :=
  ⟨hkeys.links.sublist (filter_sublist.map _), hkeys.mails,
    fun l hl => hkeys.linked l (mem_of_mem_filter hl)⟩

theorem Keyed.deleteMail (mailId : Nat) :
    ((MailboxChange.deleteMail mailId).apply db).Keyed := by
  refine ⟨(hkeys.deleteLinks _).links, hkeys.mails.sublist (filter_sublist.map _), ?_⟩
  intro l hl
  obtain ⟨hmem, hne⟩ := mem_filter.mp hl
  obtain ⟨m, hm, hid⟩ := hkeys.linked l hmem
  refine ⟨m, mem_filter.mpr ⟨hm, ?_⟩, hid⟩
  rw [hid]
  simpa using hne

end

/-- **Rule for `INSERT IGNORE`**: what each new link keeps, all of them keep. -/
theorem copyLinks_induction {P : ImapDb → Prop} {userId targetId : Nat} {mailIds : List Nat}
    (hmails : ∀ id ∈ mailIds, db.hasMail id = true)
    (hstep : ∀ (links : List LinkRow) (row : LinkRow), P { db with links } → row.userId = userId →
      row.mailboxId = targetId → db.hasMail row.mailId = true → row.key ∉ links.map key →
      P { db with links := links ++ [row] }) (h : P db) : P
        (db.copyLinks userId targetId mailIds) := by
  suffices hall : ∀ links, P { db with links } →
      P { db with links := mailIds.foldl (copyLink userId targetId) links } from hall db.links h
  induction mailIds with
  | nil => exact fun links hlinks => hlinks
  | cons id mailIds ih =>
    rw [forall_mem_cons] at hmails
    intro links hlinks
    refine ih hmails.2 (copyLink userId targetId links id) ?_
    unfold copyLink
    split
    · exact hlinks
    · next hnew =>
      refine hstep links _ hlinks rfl rfl hmails.1 ?_
      -- a row with this key is what the statement would have ignored
      intro hmem
      obtain ⟨l, hl, heq⟩ := mem_map.mp hmem
      simp only [key, Prod.mk.injEq] at heq
      exact hnew (any_eq_true.mpr ⟨l, hl, decide_eq_true heq⟩)

/-- The statements keep the keys of the tables. -/
theorem Keyed.apply (hkeys : db.Keyed) (c : MailboxChange) : (c.apply db).Keyed := by
  cases c with
  | insertMail row =>
    rw [MailboxChange.apply]
    split
    · exact hkeys
    · next hnew => exact hkeys.insertMail hnew
  | insertRecipient row =>
    rw [MailboxChange.apply]
    split
    · exact { hkeys with }
    · exact hkeys
  | insertLink row =>
    rw [MailboxChange.apply]
    split
    · next h => exact hkeys.insertLink h.1 h.2
    · exact hkeys
  | storeSeen | deleteRecipientsOf => exact { hkeys with }
  | storeStarred | storeDeleted =>
    exact hkeys.of_keys rfl (map_updateWhere key fun _ => rfl)
  | copyLinks userId targetId mailIds =>
    refine copyLinks_induction (fun id hid => (mem_filter.mp hid).2) ?_ hkeys
    intro links row hlinks _ _ hmail hnew
    exact hlinks.insertLink hmail hnew
  | expunge | deleteLinksOf | deleteMessages => exact hkeys.deleteLinks _
  | deleteMail mailId => exact hkeys.deleteMail mailId

end ImapDb

end ProtoRelay
