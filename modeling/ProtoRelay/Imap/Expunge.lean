import ProtoRelay.Imap.Mailbox
import ProtoRelay.Imap.SafeParse

/-!
# The responses of EXPUNGE

EXPUNGE reads the message list, removes the messages that are marked, and sends one untagged
response with the number of each.  A client removes the entry at that number as each response
arrives, so the numbers behind it move up by one; but the server takes all numbers from the list as
it was in the beginning, in ascending order.  From the second response on they name the wrong entry.
-/

namespace ProtoRelay

open List

/-- The numbers of the marked entries, from `handle_expunge`. -/
def expungedSeqs (mails : List MailboxMailInfo) : List Nat :=
  (mails.zipIdx.filter fun e => e.1.isDeleted).map fun e => e.2 + 1

/-- What a client does with the response for a number. -/
def applyExpunge (uids : List Nat) (seq : Nat) : List Nat := uids.eraseIdx (seq - 1)

/-- **The responses of EXPUNGE take the client to the messages that remain.** -/
def ExpungeExact (mails : List MailboxMailInfo) : Prop :=
  (expungedSeqs mails).foldl applyExpunge (mails.map (·.mailId)) =
    (mails.filter (! ·.isDeleted)).map (·.mailId)

/-! ## The numbers -/

/-- The numbers of the marked entries of a list that begins at an index. -/
def seqsFrom (start : Nat) (mails : List MailboxMailInfo) : List Nat :=
  ((mails.zipIdx start).filter fun e => e.1.isDeleted).map fun e => e.2 + 1

theorem seqsFrom_append (start : Nat) (a b : List MailboxMailInfo) :
    seqsFrom start (a ++ b) = seqsFrom start a ++ seqsFrom (start + a.length) b := by
  simp [seqsFrom, zipIdx_append]

variable {m : MailboxMailInfo} {mails : List MailboxMailInfo}

theorem seqsFrom_cons_of_deleted (start : Nat) (hm : m.isDeleted = true)
    (mails : List MailboxMailInfo) :
    seqsFrom start (m :: mails) = (start + 1) :: seqsFrom (start + 1) mails := by
  simp [seqsFrom, zipIdx_cons, hm]

theorem seqsFrom_of_forall_not (start : Nat) (h : ∀ m ∈ mails, m.isDeleted = false) :
    seqsFrom start mails = [] := by
  unfold seqsFrom
  rw [map_eq_nil_iff, filter_eq_nil_iff]
  intro e he
  rw [h e.1 (fst_mem_of_mem_zipIdx he)]
  exact Bool.false_ne_true

theorem lt_of_mem_seqsFrom {start seq : Nat} (h : seq ∈ seqsFrom start mails) : start < seq := by
  obtain ⟨e, he, rfl⟩ := mem_map.mp h
  have := le_snd_of_mem_zipIdx (mem_of_mem_filter he)
  omega

/-! ## What the client keeps -/

/-- Responses with numbers behind a front leave the front alone. -/
theorem exists_foldl_applyExpunge (front : List Nat) (rest seqs : List Nat)
    (h : ∀ seq ∈ seqs, front.length < seq) :
    ∃ rest', seqs.foldl applyExpunge (front ++ rest) = front ++ rest' := by
  induction seqs generalizing rest with
  | nil => exact ⟨rest, rfl⟩
  | cons seq seqs ih =>
    have hseq := h seq mem_cons_self
    have hstep : applyExpunge (front ++ rest) seq =
      front ++ rest.eraseIdx (seq - 1 - front.length) :=
      eraseIdx_append_of_length_le (by omega) rest
    rw [foldl_cons, hstep]
    exact ih _ fun seq' hseq' => h seq' (mem_cons_of_mem seq hseq')

/-- A list in which a mark occurs, split at the first one. -/
theorem exists_first_deleted (h : ∃ m ∈ mails, m.isDeleted = true) :
    ∃ front m rest, mails = front ++ m :: rest ∧ (∀ x ∈ front, x.isDeleted = false) ∧
      m.isDeleted = true := by
  obtain ⟨m, hm⟩ := Option.isSome_iff_exists.mp (find?_isSome.mpr h)
  obtain ⟨hdel, front, rest, heq, hf⟩ := find?_eq_some_iff_append.mp hm
  exact ⟨front, m, rest, heq, fun x hx => by simpa using hf x hx, hdel⟩

theorem forall_not_deleted (h : ¬∃ m ∈ mails, m.isDeleted = true) :
    ∀ m ∈ mails, m.isDeleted = false := by
  intro m hm
  cases hdel : m.isDeleted with
  | false => rfl
  | true => exact absurd ⟨m, hm, hdel⟩ h

theorem filter_not_deleted_of_forall (h : ∀ m ∈ mails, m.isDeleted = false) :
    mails.filter (! ·.isDeleted) = mails := by
  rw [filter_eq_self]
  intro m hm
  rw [h m hm]
  rfl

theorem filter_deleted_of_forall (h : ∀ m ∈ mails, m.isDeleted = false) :
    mails.filter (·.isDeleted) = [] := by
  rw [filter_eq_nil_iff]
  intro m hm
  rw [h m hm]
  exact Bool.false_ne_true

/-- The first response removes the entry it is about. -/
theorem foldl_expungedSeqs_of_first {front rest : List MailboxMailInfo}
    (hf : ∀ x ∈ front, x.isDeleted = false) (hm : m.isDeleted = true) :
    (expungedSeqs (front ++ m :: rest)).foldl applyExpunge ((front ++ m :: rest).map (·.mailId)) =
      (seqsFrom (front.length + 1) rest).foldl applyExpunge ((front ++ rest).map (·.mailId)) := by
  have hseqs : expungedSeqs (front ++ m :: rest) =
      (front.length + 1) :: seqsFrom (front.length + 1) rest := by
    change seqsFrom 0 _ = _
    rw [seqsFrom_append, seqsFrom_of_forall_not 0 hf, seqsFrom_cons_of_deleted _ hm,
      Nat.zero_add, nil_append]
  have hfst : applyExpunge ((front ++ m :: rest).map (·.mailId)) (front.length + 1) =
      (front ++ rest).map (·.mailId) := by
    simp [applyExpunge, eraseIdx_append_of_length_le]
  rw [hseqs, foldl_cons, hfst]

/-- Of two marks the second stays with the client: its entry is in front of everything that is
removed after the first. -/
theorem mem_foldl_of_second (front rest : List MailboxMailInfo) {middle : List MailboxMailInfo}
    {m' : MailboxMailInfo} (hmid : ∀ x ∈ middle, x.isDeleted = false) (hm' : m'.isDeleted = true) :
    m'.mailId ∈ (seqsFrom (front.length + 1) (middle ++ m' :: rest)).foldl applyExpunge
      ((front ++ (middle ++ m' :: rest)).map (·.mailId)) := by
  have hs : (front ++ (middle ++ m' :: rest)).map (·.mailId) =
      (front ++ middle ++ [m']).map (·.mailId) ++ rest.map (·.mailId) := by simp
  have hbehind : ∀ seq ∈ seqsFrom (front.length + 1) (middle ++ m' :: rest),
      ((front ++ middle ++ [m']).map (·.mailId)).length < seq := by
    intro seq hseq
    rw [seqsFrom_append, seqsFrom_of_forall_not _ hmid, nil_append,
      seqsFrom_cons_of_deleted _ hm', mem_cons] at hseq
    simp only [length_map, length_append, length_cons, length_nil]
    rcases hseq with rfl | hseq
    · omega
    · have := lt_of_mem_seqsFrom hseq
      omega
  obtain ⟨tail, htail⟩ := exists_foldl_applyExpunge _ (rest.map (·.mailId)) _ hbehind
  rw [hs, htail]
  simp

section

variable (hflags : ∀ a ∈ mails, ∀ b ∈ mails, a.mailId = b.mailId → a.isDeleted = b.isDeleted)

include hflags

/-- The mails that remain are those of the entries without a mark. -/
theorem not_mem_remaining (hm : m ∈ mails) (hdel : m.isDeleted = true) :
    m.mailId ∉ (mails.filter (! ·.isDeleted)).map (·.mailId) := by
  intro hkept
  obtain ⟨x, hx, hxid⟩ := mem_map.mp hkept
  obtain ⟨hxmem, hxnot⟩ := mem_filter.mp hx
  rw [hflags x hxmem m hm hxid, hdel] at hxnot
  cases hxnot

/-- **With at most one mark the client is right, with more it keeps the second of them.** -/
theorem expungeExact_iff_of_flags : ExpungeExact mails ↔
    (mails.filter (·.isDeleted)).length ≤ 1 := by
  unfold ExpungeExact
  by_cases hany : ∃ m ∈ mails, m.isDeleted = true
  · obtain ⟨front, m, rest, rfl, hf, hm⟩ := exists_first_deleted hany
    have hcnt : ((front ++ m :: rest).filter (·.isDeleted)).length =
        (rest.filter (·.isDeleted)).length + 1 := by
      rw [filter_append, filter_deleted_of_forall hf, filter_cons_of_pos hm]
      rfl
    rw [foldl_expungedSeqs_of_first hf hm, hcnt]
    by_cases hmore : ∃ m' ∈ rest, m'.isDeleted = true
    · obtain ⟨middle, m', rest', rfl, hmid, hm'⟩ := exists_first_deleted hmore
      have hsecond : 0 < ((middle ++ m' :: rest').filter (·.isDeleted)).length := by
        rw [filter_append, filter_deleted_of_forall hmid, filter_cons_of_pos hm']
        exact Nat.zero_lt_succ _
      refine iff_of_false ?_ (by omega)
      intro heq
      have hkept := mem_foldl_of_second front rest' hmid hm'
      rw [heq] at hkept
      exact not_mem_remaining hflags (by simp) hm' hkept
    · have hrest := forall_not_deleted hmore
      refine iff_of_true ?_ (by rw [filter_deleted_of_forall hrest]; exact le_rfl)
      rw [seqsFrom_of_forall_not _ hrest, foldl_nil, filter_append,
        filter_not_deleted_of_forall hf, filter_cons_of_neg (by simp [hm]),
        filter_not_deleted_of_forall hrest]
  · have hnone := forall_not_deleted hany
    refine iff_of_true ?_ (by rw [filter_deleted_of_forall hnone]; exact Nat.zero_le 1)
    change (seqsFrom 0 mails).foldl applyExpunge _ = _
    rw [seqsFrom_of_forall_not 0 hnone, foldl_nil, filter_not_deleted_of_forall hnone]

end

/-! ## The statement -/

section Remaining

variable {db : ImapDb} {scope : MailboxScope} {mails : List MailboxMailInfo}

/-- A link gives entries with its own mark. -/
theorem filter_joinRecipients (db : ImapDb) (link : LinkRow) (mail : MailRow) :
    (db.joinRecipients link mail).filter (! ·.isDeleted) =
      if link.isDeleted then [] else db.joinRecipients link mail := by
  have hsame : ∀ info ∈ db.joinRecipients link mail, info.isDeleted = link.isDeleted := by
    intro info hinfo
    obtain ⟨status, rfl⟩ := ImapDb.mailId_of_mem_joinRecipients hinfo
    rfl
  split
  case isTrue hdel =>
    rw [filter_eq_nil_iff]
    intro info hinfo
    rw [hsame info hinfo, hdel]
    exact Bool.false_ne_true
  case isFalse hkept =>
    refine filter_not_deleted_of_forall fun info hinfo => ?_
    rw [hsame info hinfo, eq_false_of_ne_true hkept]

/-- The rows that remain after the statement of EXPUNGE. -/
theorem mailboxJoin_expunge (db : ImapDb) (scope : MailboxScope) :
    (db.expunge scope).mailboxJoin scope = (db.mailboxJoin scope).filter (! ·.isDeleted) := by
  have hlinks : (db.expunge scope).links.filter scope.selects =
      (db.links.filter scope.selects).filter (! ·.isDeleted) := by
    change (db.links.filter _).filter scope.selects = _
    rw [filter_filter, filter_filter]
    refine filter_congr fun l _ => ?_
    cases scope.selects l <;> cases l.isDeleted <;> rfl
  unfold ImapDb.mailboxJoin
  rw [hlinks, filter_flatMap]
  induction db.links.filter scope.selects with
  | nil => rfl
  | cons link links ih =>
    rw [flatMap_cons, ← ih, filter_flatMap]
    have hrows : ((db.mails.filter fun m => m.id = link.mailId).flatMap fun mail =>
        (db.joinRecipients link mail).filter (! ·.isDeleted)) =
        if link.isDeleted then [] else
          (db.mails.filter fun m => m.id = link.mailId).flatMap (db.joinRecipients link) := by
      simp only [filter_joinRecipients]
      split
      · simp
      · rfl
    rw [hrows]
    cases hlink : link.isDeleted with
    | true => rw [filter_cons_of_neg (by simp [hlink])]; rfl
    | false => rw [filter_cons_of_pos (by simp [hlink])]; rfl

/-- **The entries without a mark are the message list after the statement of EXPUNGE.** -/
theorem ImapDb.IsMailboxList.expunge (h : db.IsMailboxList scope mails) :
    (db.expunge scope).IsMailboxList scope (mails.filter (! ·.isDeleted)) where
  perm := by
    rw [mailboxJoin_expunge]
    exact h.perm.filter _
  newestFirst := h.newestFirst.filter _

/-- **The message lists after whose EXPUNGE the client is right**: those with at most one entry that
is marked. -/
theorem expungeExact_iff (hkeys : db.Keyed) (h : db.IsMailboxList scope mails) :
    ExpungeExact mails ↔ (mails.filter (·.isDeleted)).length ≤ 1 :=
  expungeExact_iff_of_flags fun _ ha _ hb => h.isDeleted_eq hkeys ha hb

end Remaining

/-- Three mails, of which the first and the second are marked. -/
def threeMailsDb : ImapDb where
  links :=
    [{ mailId := 1, mailboxId := 1, userId := 1 },
      { mailId := 2, mailboxId := 1, userId := 1, isDeleted := true },
      { mailId := 3, mailboxId := 1, userId := 1, isDeleted := true }]
  mails := [{ id := 1, sendTime := 10 }, { id := 2, sendTime := 20 }, { id := 3, sendTime := 30 }]

def threeMails : List MailboxMailInfo :=
  [{ mailId := 3, isDeleted := true, sendTime := 30 },
    { mailId := 2, isDeleted := true, sendTime := 20 }, { mailId := 1, sendTime := 10 }]

theorem expungeExact_threeMails :
    threeMailsDb.Keyed ∧ threeMailsDb.IsMailboxList ⟨1, 1⟩ threeMails ∧
      (ExpungeExact threeMails ↔ (threeMails.filter (·.isDeleted)).length ≤ 1) :=
  have hkeys : threeMailsDb.Keyed := ⟨by decide, by decide, by decide⟩
  have hlist : threeMailsDb.IsMailboxList ⟨1, 1⟩ threeMails := ⟨by decide, by decide⟩
  ⟨hkeys, hlist, expungeExact_iff hkeys hlist⟩

theorem isMailboxList_expunge_threeMails : threeMailsDb.IsMailboxList ⟨1, 1⟩ threeMails ∧
    (threeMailsDb.expunge ⟨1, 1⟩).IsMailboxList ⟨1, 1⟩ (threeMails.filter (! ·.isDeleted)) :=
  have hlist : threeMailsDb.IsMailboxList ⟨1, 1⟩ threeMails := ⟨by decide, by decide⟩
  ⟨hlist, hlist.expunge⟩

/-- The client removes mails 3 and 1, and keeps 2. -/
theorem not_forall_expungeExact :
    ¬∀ (db : ImapDb) (scope : MailboxScope) (mails : List MailboxMailInfo), db.Keyed →
      db.IsMailboxList scope mails → ExpungeExact mails := by
  intro h
  have hthree :=
    h threeMailsDb ⟨1, 1⟩ threeMails ⟨by decide, by decide, by decide⟩ ⟨by decide, by decide⟩
  exact absurd hthree (by unfold ExpungeExact; decide)

end ProtoRelay
