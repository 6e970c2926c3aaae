import Mathlib.Data.List.Sort
import ProtoRelay.Imap.Mailbox

/-!
# The order of message lists

SELECT counts the rows of `mail_mailbox`; the other commands read a list that has a row for each
recipient of each mail, ordered by the time of sending with the newest first.  The list has each
mail once, and as many entries as were counted, if no mail has two recipients; and it is in the
order of the identifiers if a mail with a larger one was sent earlier.
-/

namespace ProtoRelay

open List

namespace ImapDb

/-- The mails of a mailbox. -/
def linkedIds (db : ImapDb) (scope : MailboxScope) : List Nat :=
  (db.links.filter scope.selects).map (·.mailId)

/-- **Each mail of the mailbox is once in the list, which has as many entries as SELECT counts, in
strictly increasing order of identifiers.** -/
structure ListExact (db : ImapDb) (scope : MailboxScope) (uids : List Nat) : Prop where
  once : ∀ id, uids.count id = if id ∈ db.linkedIds scope then 1 else 0
  length : uids.length = db.existsCount scope
  increasing : uids.Pairwise (· < ·)

def recipientsOf (db : ImapDb) (mailId : Nat) : List RecipientRow :=
  db.recipients.filter fun r => r.mailId = mailId

/-- **The tables whose lists are exact**: no mail of the mailbox has two recipients, and of two
mails the one with the larger identifier was sent earlier. -/
structure Orderly (db : ImapDb) (scope : MailboxScope) : Prop where
  single : ∀ id ∈ db.linkedIds scope, (db.recipientsOf id).length ≤ 1
  older : ∀ m ∈ db.mails, ∀ m' ∈ db.mails, m.id ∈ db.linkedIds scope → m'.id ∈ db.linkedIds scope →
    m.id < m'.id → m'.sendTime < m.sendTime

/-- The identifiers of a mailbox in order. -/
structure Listed (db : ImapDb) (scope : MailboxScope) (ids : List Nat) : Prop where
  perm : ids.Perm (db.linkedIds scope)
  increasing : ids.Pairwise (· < ·)

variable {db : ImapDb} {scope : MailboxScope} {mails : List MailboxMailInfo} {ids : List Nat}

/-! ## Identifiers in order -/

theorem mem_linkedIds {id : Nat} :
    id ∈ db.linkedIds scope ↔ ∃ l ∈ db.links, scope.selects l = true ∧ l.mailId = id := by
  simp only [linkedIds, mem_map, mem_filter, and_assoc]

theorem existsCount_eq : db.existsCount scope = (db.linkedIds scope).length :=
  (length_map ..).symm

theorem Keyed.nodup_linkedIds (h : db.Keyed) (scope : MailboxScope) :
    (db.linkedIds scope).Nodup := by
  refine List.Nodup.map_on ?_ (h.links.of_map.filter _)
  intro l hl l' hl' hmail
  rw [mem_filter] at hl hl'
  exact h.link_unique hl.1 hl'.1 hl.2 hl'.2 hmail

theorem Listed.length_eq (h : db.Listed scope ids) : ids.length = db.existsCount scope := by
  rw [existsCount_eq, h.perm.length_eq]

theorem Listed.unique {ids' : List Nat} (h : db.Listed scope ids) (h' : db.Listed scope ids') :
    ids = ids' :=
  (h.perm.trans h'.perm.symm).eq_of_pairwise
    (fun _ _ _ _ hab hba => absurd hab (Nat.lt_asymm hba)) h.increasing h'.increasing

theorem Keyed.exists_listed (h : db.Keyed) (scope : MailboxScope) : ∃ ids, db.Listed scope ids := by
  have hperm := perm_insertionSort (· ≤ ·) (db.linkedIds scope)
  refine ⟨_, hperm, ?_⟩
  have hnd := hperm.nodup_iff.mpr (h.nodup_linkedIds scope)
  refine (pairwise_and_iff.mpr ⟨pairwise_insertionSort (· ≤ ·) _, hnd⟩).imp ?_
  rintro a b ⟨hle, hne⟩
  exact lt_of_le_of_ne hle hne

theorem listExact_iff_listed (hkeys : db.Keyed) : db.ListExact scope ids ↔ db.Listed scope ids := by
  have hnd := hkeys.nodup_linkedIds scope
  constructor
  · intro h
    refine ⟨perm_iff_count.mpr fun id => ?_, h.increasing⟩
    rw [h.once, hnd.count]
  · intro h
    refine ⟨fun id => ?_, h.length_eq, h.increasing⟩
    rw [h.perm.count_eq, hnd.count]

/-! ## The rows of a list -/

/-- A link gives as many rows as its mail has recipients, but at least one. -/
theorem Keyed.map_mailId_mailboxJoin (h : db.Keyed) (scope : MailboxScope) :
    (db.mailboxJoin scope).map (·.mailId) =
      (db.linkedIds scope).flatMap fun id => List.replicate
      (max 1 (db.recipientsOf id).length) id := by
  unfold mailboxJoin linkedIds
  rw [map_flatMap, flatMap_map]
  refine flatMap_congr fun l hl => ?_
  obtain ⟨m, hm, hid⟩ := h.linked l (mem_of_mem_filter hl)
  have hmail : (db.mails.filter fun m => m.id = l.mailId) = [m] := by
    rw [← hid]
    exact filter_key_eq_singleton h.mails hm
  have hrows : (db.joinRecipients l m).map (·.mailId) =
      List.replicate (max 1 (db.recipientsOf m.id).length) m.id := by
    unfold joinRecipients recipientsOf
    cases db.recipients.filter fun r => r.mailId = m.id with
    | nil => rfl
    | cons r rs =>
      rw [map_map]
      exact map_const'
  rw [hmail, flatMap_singleton, hrows, hid]

/-- With one recipient for each mail the rows are those of the links. -/
theorem Keyed.map_mailId_of_single (h : db.Keyed)
    (hone : ∀ id ∈ db.linkedIds scope, (db.recipientsOf id).length ≤ 1) :
    (db.mailboxJoin scope).map (·.mailId) = db.linkedIds scope := by
  rw [h.map_mailId_mailboxJoin]
  calc (db.linkedIds scope).flatMap
        (fun id => List.replicate (max 1 (db.recipientsOf id).length) id)
      = (db.linkedIds scope).flatMap fun id => [id] :=
        flatMap_congr fun id hid => by rw [max_eq_left (hone id hid), replicate_one]
    _ = db.linkedIds scope := flatMap_singleton' _

/-- An entry of a list is that of a mail with its time. -/
theorem IsMailboxList.exists_mail (h : db.IsMailboxList scope mails) {info : MailboxMailInfo}
    (hinfo : info ∈ mails) : ∃ m ∈ db.mails, m.id = info.mailId ∧ m.sendTime = info.sendTime ∧
      info.mailId ∈ db.linkedIds scope := by
  obtain ⟨link, hlink, hjoin⟩ := mem_flatMap.mp (h.perm.mem_iff.mp hinfo)
  obtain ⟨mail, hmail, hrow⟩ := mem_flatMap.mp hjoin
  obtain ⟨status, rfl⟩ := mailId_of_mem_joinRecipients hrow
  rw [mem_filter] at hlink hmail
  refine ⟨mail, hmail.1, rfl, rfl, ?_⟩
  exact mem_linkedIds.mpr ⟨link, hlink.1, hlink.2, (of_decide_eq_true hmail.2).symm⟩

/-! ## Exact lists -/

theorem Orderly.listed (h : db.Orderly scope) (hkeys : db.Keyed)
    (hlist : db.IsMailboxList scope mails) : db.Listed scope (mails.map (·.mailId)) := by
  have hperm : (mails.map (·.mailId)).Perm (db.linkedIds scope) := by
    rw [← hkeys.map_mailId_of_single h.single]
    exact hlist.perm.map _
  refine ⟨hperm, ?_⟩
  have hnd := hperm.nodup_iff.mpr (hkeys.nodup_linkedIds scope)
  rw [List.Nodup, pairwise_map] at hnd
  rw [pairwise_map]
  -- an entry in front of one with a smaller identifier would be newer, but was sent earlier
  refine (pairwise_and_iff.mpr ⟨hlist.newestFirst, hnd⟩).imp_of_mem ?_
  rintro a b ha hb ⟨htime, hne⟩
  obtain ⟨m, hm, hid, hsent, hlinked⟩ := hlist.exists_mail ha
  obtain ⟨m', hm', hid', hsent', hlinked'⟩ := hlist.exists_mail hb
  by_contra hlt
  have := h.older m' hm' m hm (hid' ▸ hlinked') (hid ▸ hlinked) (by omega)
  omega

end ImapDb

end ProtoRelay
