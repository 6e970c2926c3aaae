import ProtoRelay.Imap.Changes
import ProtoRelay.Imap.ListOrder
import ProtoRelay.Imap.SequenceSet

/-!
# Sequence numbers of a selected mailbox

A session that has selected a mailbox names its messages by their numbers in the message list.  The
list is read again by each command (FETCH may take it from a cache of all sessions), while mails are
delivered, other sessions expunge, and the caches of lists and counts are filled and dropped.  The
client is told of new messages by an EXISTS count, from SELECT, NOOP or IDLE, and of removed ones
only by the responses of its own EXPUNGE.

The lists are newest first, so a delivery moves all numbers.  They stay what the client was told if
each new mail goes to the end, nothing is removed without a response, and what comes from a cache is
still so in the tables.
-/

namespace ProtoRelay

open List ImapDb

/-! ## Changes that keep the numbers -/

/-- The mail would be the last one of the list: it has one recipient at most, the largest identifier
and the earliest time. -/
structure ImapDb.AtEnd (db : ImapDb) (scope : MailboxScope) (mailId : Nat) : Prop where
  single : (db.recipientsOf mailId).length ≤ 1
  largest : ∀ id ∈ db.linkedIds scope, id < mailId
  earliest : ∀ m ∈ db.mails, m.id = mailId → ∀ m' ∈ db.mails, m'.id ∈ db.linkedIds scope →
    m.sendTime < m'.sendTime

/-- The links of a mailbox that are marked for deletion. -/
def ImapDb.marked (db : ImapDb) (scope : MailboxScope) : List LinkRow :=
  db.links.filter fun l => scope.selects l && l.isDeleted

/-- **The changes that keep the numbers of a mailbox**: a second recipient is not added to one of
its mails, a mail that is linked to it goes to the end, nothing is copied into it, an EXPUNGE or
CLOSE of another session finds nothing marked, and what is deleted is not in it. -/
def MailboxChange.KeepsNumbers (scope : MailboxScope) (db : ImapDb) : MailboxChange → Prop
  | insertRecipient row => row.mailId ∈ db.linkedIds scope → db.recipientsOf row.mailId = []
  | insertLink row => scope.selects row = true → db.AtEnd scope row.mailId
  | copyLinks userId targetId _ => scope ≠ ⟨userId, targetId⟩
  | expunge scope' => scope = scope' → db.marked scope = []
  | deleteLinksOf mailId | deleteMail mailId => mailId ∉ db.linkedIds scope
  | deleteMessages scope' => scope = scope' → db.linkedIds scope = []
  | _ => True

/-! ## The session -/

/-- How far an EXPUNGE of the session is: the list was read, with as many marked entries; or the
statement was carried out as well. -/
inductive ExpungePhase
  | none
  | listed (gone : Nat)
  | deleted (gone : Nat)
  deriving DecidableEq

/-- A message list that a command used, with the count the client had been told and the tables at
that time. -/
structure ListUse where
  announced : Nat
  uids : List Nat
  db : ImapDb

/-- A session and one mailbox: the tables, the caches of the server, and what was used of the list
since the last SELECT or the last EXPUNGE response. -/
structure NumberingState where
  db : ImapDb
  selected : Bool := false
  announced : Nat := 0
  listCache : Option (List MailboxMailInfo) := none
  statsCache : Option Nat := none
  polled : Nat := 0
  expunging : ExpungePhase := .none
  told : List ListUse := []

/-- What can happen.  The lists are those that the database returns. -/
inductive NumberingEvent
  | change (c : MailboxChange)
  /-- Another session fills a cache, or writes and drops the entries, or an entry becomes
  too old. -/
  | fillList (mails : List MailboxMailInfo)
  | fillStats (count : Nat)
  | dropList
  | dropStats
  /-- SELECT or EXAMINE; NOOP; the COUNT of an IDLE poll and the push of its result. -/
  | select
  | noop
  | idleRead
  | idlePush
  /-- FETCH; the reading of the list by STORE, SEARCH, COPY, MOVE and UID. -/
  | fetch (mails : List MailboxMailInfo)
  | list (mails : List MailboxMailInfo)
  /-- EXPUNGE: the reading of the list, the statement, and the responses or the failure. -/
  | expungeRead (mails : List MailboxMailInfo)
  | expungeDelete
  | expungeDone
  | expungeFail
  /-- CLOSE; the selection of another mailbox. -/
  | close
  | leave

namespace NumberingState

/-- `kMailboxListCacheMaxMails`. -/
def listCacheMaxMails : Nat := 1000

def ready (st : NumberingState) : Bool := st.selected && decide (st.expunging = .none)

/-- `get_mailbox_stats_cached_async`: the count from the cache, or that of the tables. -/
def existsNow (st : NumberingState) (scope : MailboxScope) : Nat :=
  st.statsCache.getD (st.db.existsCount scope)

def use (st : NumberingState) (mails : List MailboxMailInfo) : NumberingState :=
  { st with told := ⟨st.announced, mails.map (·.mailId), st.db⟩ :: st.told }

/-- The list that FETCH has read goes to the cache, unless it is empty or too long. -/
def cache (st : NumberingState) (mails : List MailboxMailInfo) : NumberingState :=
  if mails ≠ [] ∧ mails.length ≤ listCacheMaxMails then { st with listCache := some mails } else st

/-- `invalidate_mailbox_list`. -/
def invalidate (st : NumberingState) : NumberingState :=
  { st with listCache := none, statsCache := none }

end NumberingState

instance (db : ImapDb) (scope : MailboxScope) (mails : List MailboxMailInfo) :
    Decidable (db.IsMailboxList scope mails) :=
  decidable_of_iff (mails.Perm (db.mailboxJoin scope) ∧
      mails.Pairwise fun a b => b.sendTime ≤ a.sendTime)
    ⟨fun h => ⟨h.1, h.2⟩, fun h => ⟨h.perm, h.newestFirst⟩⟩

def numberingStep (scope : MailboxScope) (st : NumberingState) : NumberingEvent → NumberingState
  | .change c => { st with db := c.apply st.db }
  | .fillList mails => { st with listCache := some mails }
  | .fillStats count => { st with statsCache := some count }
  | .dropList => { st with listCache := none }
  | .dropStats => { st with statsCache := none }
  | .select =>
    if st.expunging = .none then
      { st with
        selected := true, announced := st.existsNow scope, statsCache := some (st.existsNow scope)
        told := [] }
    else st
  | .noop =>
    if st.ready then
      { st with
        announced := max st.announced (st.existsNow scope), statsCache :=
          some (st.existsNow scope) }
    else st
  | .idleRead => { st with polled := st.db.existsCount scope }
  | .idlePush => if st.ready then { st with announced := max st.announced st.polled } else st
  | .fetch mails =>
    if st.ready then
      match st.listCache with
      | some cached => st.use cached
      | none => if st.db.IsMailboxList scope mails then (st.use mails).cache mails else st
    else st
  | .list mails => if st.ready = true ∧ st.db.IsMailboxList scope mails then st.use mails else st
  | .expungeRead mails =>
    if st.ready = true ∧ st.db.IsMailboxList scope mails then
      { st with expunging := .listed (mails.filter (·.isDeleted)).length }
    else st
  | .expungeDelete =>
    match st.expunging with
    | .listed gone => { st with db := st.db.expunge scope, expunging := .deleted gone }
    | _ => st
  | .expungeDone =>
    match st.expunging with
    | .deleted gone =>
      -- without a marked entry there is no response, and the client keeps what it was told
      { st.invalidate with
        expunging := .none, announced := st.announced - gone
        told := if gone = 0 then st.told else [] }
    | _ => st
  | .expungeFail =>
    match st.expunging with
    | .listed _ => { st.invalidate with expunging := .none }
    | _ => st
  | .close =>
    if st.ready then
      { st.invalidate with
        db := st.db.expunge scope, selected := false, announced := 0, told := [] }
    else st
  | .leave =>
    if st.expunging = .none then { st with selected := false, announced := 0, told := [] } else st

/-- **Two uses of the list agree**: each number that had been announced at the earlier one names the
same mail in both. -/
def ListUse.Agrees (newer older : ListUse) : Prop :=
  ∀ seq, 1 ≤ seq → seq ≤ older.announced →
    ∃ id, idAt newer.uids seq = some id ∧ idAt older.uids seq = some id

/-- **The numbers are what the client was told**: each list that was used is exact, and without an
EXPUNGE response in between all of them agree. -/
structure Consistent (scope : MailboxScope) (told : List ListUse) : Prop where
  exact : ∀ u ∈ told, u.db.ListExact scope u.uids
  agree : told.Pairwise ListUse.Agrees

/-- **The steps that keep the numbers.**  The mailbox is orderly when it is selected, and from then
on changes keep the numbers.  A count that is announced from the cache or a poll is not above that
of the tables; a list that FETCH takes from the cache is the one of the tables; and the statement of
EXPUNGE finds no more marked mails than the list had. -/
def KeepsNumbers (scope : MailboxScope) (st : NumberingState) : NumberingEvent → Prop
  | .change c => st.selected = true → c.KeepsNumbers scope st.db
  | .select => st.db.Orderly scope ∧ ∀ count ∈ st.statsCache, count ≤ st.db.existsCount scope
  | .noop => ∀ count ∈ st.statsCache, count ≤ st.db.existsCount scope
  | .idlePush => st.polled ≤ st.db.existsCount scope
  | .fetch _ => ∀ cached ∈ st.listCache, st.db.Listed scope (cached.map (·.mailId))
  | .expungeDelete => ∀ gone, st.expunging = .listed gone → (st.db.marked scope).length ≤ gone
  | _ => True

/-! ## What a change does to the lists -/

namespace ImapDb

variable {db db' : ImapDb} {scope : MailboxScope}

/-- **The tables after a change that keeps the numbers**: they are orderly, and the identifiers of
the mailbox are those before it, perhaps with more behind them. -/
structure Extends (db db' : ImapDb) (scope : MailboxScope) : Prop where
  orderly : db'.Orderly scope
  listed : ∀ ids, db.Listed scope ids → ∃ more, db'.Listed scope (ids ++ more)

theorem Extends.trans {db'' : ImapDb} (h : db.Extends db' scope) (h' : db'.Extends db'' scope) :
    db.Extends db'' scope := by
  refine ⟨h'.orderly, fun ids hids => ?_⟩
  obtain ⟨more, hmore⟩ := h.listed ids hids
  obtain ⟨rest, hrest⟩ := h'.listed (ids ++ more) hmore
  exact ⟨more ++ rest, by rwa [← append_assoc]⟩

/-- The lists are the same if the mailbox has the same mails, each of them with one
recipient at most. -/
theorem Extends.of_linkedIds (hord : db.Orderly scope)
    (hids : db'.linkedIds scope = db.linkedIds scope)
    (hmails : ∀ m ∈ db'.mails, m.id ∈ db.linkedIds scope → m ∈ db.mails)
    (hrcpt : ∀ id ∈ db.linkedIds scope, (db'.recipientsOf id).length ≤ 1) :
    db.Extends db' scope := by
  refine ⟨⟨hids ▸ hrcpt, ?_⟩, fun ids h => ⟨[], ?_⟩⟩
  · rw [hids]
    intro m hm m' hm' hid hid'
    exact hord.older m (hmails m hm hid) m' (hmails m' hm' hid') hid hid'
  · rw [append_nil]
    exact ⟨hids ▸ h.perm, h.increasing⟩

theorem linkedIds_congr (h : db'.links.map LinkRow.key = db.links.map LinkRow.key)
    (scope : MailboxScope) : db'.linkedIds scope = db.linkedIds scope := by
  have hkeys (db : ImapDb) : db.linkedIds scope = ((db.links.map LinkRow.key).filter fun k =>
      decide (k.2.1 = scope.mailboxId ∧ k.2.2 = scope.userId)).map (·.1) := by
    rw [filter_map, map_map]
    rfl
  rw [hkeys, hkeys, h]

theorem length_recipientsOf (db : ImapDb) (id : Nat) :
    (db.recipientsOf id).length = (db.recipients.map (·.mailId)).count id := by
  rw [List.count, countP_map, countP_eq_length_filter]
  rfl

/-- A new mail is in no mailbox yet. -/
theorem Extends.insertMail (hkeys : db.Keyed) (hord : db.Orderly scope) {row : MailRow}
    (hnew : ¬db.hasMail row.id = true) :
    db.Extends { db with mails := db.mails ++ [row] } scope := by
  rw [hasMail_iff] at hnew
  have hunlinked : row.id ∉ db.linkedIds scope := by
    intro hid
    obtain ⟨l, hl, -, heq⟩ := mem_linkedIds.mp hid
    obtain ⟨m, hm, hm'⟩ := hkeys.linked l hl
    exact hnew ⟨m, hm, hm'.trans heq⟩
  refine .of_linkedIds hord rfl (fun m hm hid => ?_) hord.single
  rcases mem_append.mp hm with hm | hm
  · exact hm
  · exact absurd (mem_singleton.mp hm ▸ hid) hunlinked

theorem Extends.insertRecipient (hord : db.Orderly scope) {row : RecipientRow}
    (h : row.mailId ∈ db.linkedIds scope → db.recipientsOf row.mailId = []) :
    db.Extends { db with recipients := db.recipients ++ [row] } scope := by
  refine .of_linkedIds hord rfl (fun _ hm _ => hm) fun id hid => ?_
  change ((db.recipients ++ [row]).filter fun r => r.mailId = id).length ≤ 1
  rw [filter_append]
  change (db.recipientsOf id ++ _).length ≤ 1
  by_cases heq : row.mailId = id
  · rw [← heq, h (heq ▸ hid)]
    simp
  · have := hord.single id hid
    simpa [heq] using this

theorem linkedIds_insertLink (row : LinkRow) :
    linkedIds { db with links := db.links ++ [row] } scope =
      db.linkedIds scope ++ if scope.selects row then [row.mailId] else [] := by
  change ((db.links ++ [row]).filter scope.selects).map (·.mailId) = _
  cases hs : scope.selects row <;> simp [hs, linkedIds]

theorem Extends.insertOtherLink (hord : db.Orderly scope) {row : LinkRow}
    (h : ¬scope.selects row = true) : db.Extends { db with links := db.links ++ [row] } scope :=
  .of_linkedIds hord (by rw [linkedIds_insertLink, if_neg h, append_nil])
    (fun _ hm _ => hm) hord.single

/-- A link that goes to the end of the list. -/
theorem Extends.insertLink (hord : db.Orderly scope) {row : LinkRow}
    (hs : scope.selects row = true) (h : db.AtEnd scope row.mailId) :
    db.Extends { db with links := db.links ++ [row] } scope := by
  have hids : linkedIds { db with links := db.links ++ [row] } scope =
      db.linkedIds scope ++ [row.mailId] := by
    rw [linkedIds_insertLink, if_pos hs]
  have hmem (id : Nat) : id ∈ linkedIds { db with links := db.links ++ [row] } scope ↔
      id ∈ db.linkedIds scope ∨ id = row.mailId := by
    rw [hids, mem_append, mem_singleton]
  refine ⟨⟨?_, ?_⟩, ?_⟩
  · intro id hid
    rcases (hmem id).mp hid with hid | rfl
    · exact hord.single id hid
    · exact h.single
  · intro m hm m' hm' hid hid' hlt
    rcases (hmem _).mp hid with hid | hid
    · rcases (hmem _).mp hid' with hid' | hid'
      · exact hord.older m hm m' hm' hid hid' hlt
      · exact h.earliest m' hm' hid' m hm hid
    · -- the new mail has the largest identifier
      rcases (hmem _).mp hid' with hid' | hid'
      · have := h.largest m'.id hid'
        omega
      · omega
  · intro ids hlisted
    refine ⟨[row.mailId], hids ▸ hlisted.perm.append_right _, ?_⟩
    rw [pairwise_append]
    refine ⟨hlisted.increasing, pairwise_singleton _ _, ?_⟩
    intro id hid id' hid'
    rw [mem_singleton.mp hid']
    exact h.largest id (hlisted.perm.mem_iff.mp hid)

/-- What is removed leaves the order of the rest. -/
theorem Orderly.deleteLinks (h : db.Orderly scope) (q : LinkRow → Bool) :
    (db.deleteLinks q).Orderly scope := by
  have hsub : ∀ id ∈ (db.deleteLinks q).linkedIds scope, id ∈ db.linkedIds scope :=
    (filter_sublist.filter _).map _ |>.subset
  exact ⟨fun id hid => h.single id (hsub id hid),
    fun m hm m' hm' hid hid' => h.older m hm m' hm' (hsub _ hid) (hsub _ hid')⟩

theorem linkedIds_deleteLinks {q : LinkRow → Bool}
    (h : ∀ l ∈ db.links, scope.selects l = true → ¬q l = true) :
    (db.deleteLinks q).linkedIds scope = db.linkedIds scope := by
  unfold linkedIds deleteLinks
  rw [filter_filter]
  refine congrArg _ (filter_congr fun l hl => ?_)
  cases hs : scope.selects l with
  | false => rfl
  | true => rw [Bool.eq_false_of_not_eq_true (h l hl hs), Bool.not_false, Bool.and_true]

theorem Extends.deleteLinks (hord : db.Orderly scope) {q : LinkRow → Bool}
    (h : ∀ l ∈ db.links, scope.selects l = true → ¬q l = true) :
    db.Extends (db.deleteLinks q) scope :=
  .of_linkedIds hord (linkedIds_deleteLinks h) (fun _ hm _ => hm) hord.single

theorem selects_eq {scope' : MailboxScope} {l : LinkRow} (h : scope.selects l = true)
    (h' : scope'.selects l = true) : scope = scope' := by
  obtain ⟨hbox, huser⟩ := of_decide_eq_true h
  obtain ⟨hbox', huser'⟩ := of_decide_eq_true h'
  cases scope
  cases scope'
  simp_all

/-- The statement of EXPUNGE removes the marked links of its mailbox. -/
theorem existsCount_expunge (db : ImapDb) (scope : MailboxScope) :
    (db.expunge scope).existsCount scope + (db.marked scope).length = db.existsCount scope := by
  unfold existsCount expunge marked
  rw [filter_filter]
  induction db.links with
  | nil => rfl
  | cons l links ih =>
    cases hs : scope.selects l <;> cases hd : l.isDeleted <;>
      simp only [filter_cons, hs, hd, Bool.and_true, Bool.and_false, Bool.not_true, Bool.not_false,
        Bool.false_eq_true, if_true, if_false, length_cons] <;> omega

end ImapDb

/-- **What a change that keeps the numbers does to the lists.** -/
theorem MailboxChange.KeepsNumbers.extends {db : ImapDb} {scope : MailboxScope} {c : MailboxChange}
    (h : c.KeepsNumbers scope db) (hkeys : db.Keyed) (hord : db.Orderly scope) :
    db.Extends (c.apply db) scope := by
  have hrefl : db.Extends db scope := .of_linkedIds hord rfl (fun _ hm _ => hm) hord.single
  cases c with
  | insertMail row =>
    rw [MailboxChange.apply]
    split
    · exact hrefl
    · next hnew => exact .insertMail hkeys hord hnew
  | insertRecipient row =>
    rw [MailboxChange.apply]
    split
    · exact .insertRecipient hord h
    · exact hrefl
  | insertLink row =>
    rw [MailboxChange.apply]
    split
    · by_cases hs : scope.selects row = true
      · exact .insertLink hord hs (h hs)
      · exact .insertOtherLink hord hs
    · exact hrefl
  | storeSeen mailIds recipient seen =>
    refine .of_linkedIds hord rfl (fun _ hm _ => hm) fun id hid => ?_
    have hrows : (db.storeSeen mailIds recipient seen).recipients.map (·.mailId) =
        db.recipients.map (·.mailId) := map_updateWhere RecipientRow.mailId fun _ => rfl
    rw [MailboxChange.apply, length_recipientsOf, hrows, ← length_recipientsOf]
    exact hord.single id hid
  | storeStarred scope' mailIds starred | storeDeleted scope' mailIds deleted =>
    refine .of_linkedIds hord (linkedIds_congr ?_ scope) (fun _ hm _ => hm) hord.single
    exact map_updateWhere LinkRow.key fun _ => rfl
  | copyLinks userId targetId mailIds =>
    refine copyLinks_induction (P := fun db' => db.Extends db' scope)
      (fun id hid => (mem_filter.mp hid).2) ?_ hrefl
    intro links row hlinks huser hbox _ _
    refine hlinks.trans (.insertOtherLink hlinks.orderly ?_)
    intro hs
    obtain ⟨hbox', huser'⟩ := of_decide_eq_true hs
    apply h
    rw [← huser, ← hbox, huser', hbox']
  | expunge scope' =>
    refine .deleteLinks hord fun l hl hs hmarked => ?_
    obtain ⟨hs', hdel⟩ := Bool.and_eq_true_iff.mp hmarked
    have hmem : l ∈ db.marked scope := mem_filter.mpr ⟨hl, by rw [hs, hdel]; rfl⟩
    rw [h (selects_eq hs hs')] at hmem
    cases hmem
  | deleteLinksOf mailId =>
    refine .deleteLinks hord fun l hl hs hid => ?_
    exact h (mem_linkedIds.mpr ⟨l, hl, hs, of_decide_eq_true hid⟩)
  | deleteRecipientsOf mailId =>
    refine .of_linkedIds hord rfl (fun _ hm _ => hm) fun id hid => ?_
    exact (filter_sublist.filter _).length_le.trans (hord.single id hid)
  | deleteMail mailId =>
    have hids : (db.deleteLinks fun l => l.mailId = mailId).linkedIds scope = db.linkedIds scope :=
      linkedIds_deleteLinks fun l hl hs hid =>
        h (mem_linkedIds.mpr ⟨l, hl, hs, of_decide_eq_true hid⟩)
    refine .of_linkedIds hord hids (fun _ hm _ => mem_of_mem_filter hm) fun id hid => ?_
    exact (filter_sublist.filter _).length_le.trans (hord.single id hid)
  | deleteMessages scope' =>
    refine .deleteLinks hord fun l hl hs hs' => ?_
    have hmem := mem_linkedIds.mpr ⟨l, hl, hs, rfl⟩
    rw [h (selects_eq hs hs')] at hmem
    cases hmem

/-! ## The session -/

/-- The responses that are still to be sent for what was removed. -/
def ExpungePhase.gone : ExpungePhase → Nat
  | deleted gone => gone
  | _ => 0

namespace NumberingState

/-- **Invariant of a session**: what was announced is there, except for what was removed and is
about to be announced; and the lists that were used are the beginning of the list of now. -/
structure Ok (scope : MailboxScope) (st : NumberingState) : Prop where
  keyed : st.db.Keyed
  orderly : st.selected = true → st.db.Orderly scope
  unselected : st.selected = false → st.announced = 0 ∧ st.told = [] ∧ st.expunging = .none
  announced : st.announced ≤ st.db.existsCount scope + st.expunging.gone
  consistent : Consistent scope st.told
  kept : st.expunging.gone = 0 → ∀ u ∈ st.told, u.announced ≤ u.uids.length ∧
    ∃ more, st.db.Listed scope (u.uids ++ more)

variable {scope : MailboxScope} {st : NumberingState}

theorem consistent_nil (scope : MailboxScope) : Consistent scope [] := ⟨nofun, List.Pairwise.nil⟩

theorem existsNow_le (h : ∀ count ∈ st.statsCache, count ≤ st.db.existsCount scope) :
    st.existsNow scope ≤ st.db.existsCount scope := by
  unfold existsNow
  cases hcache : st.statsCache with
  | none => exact le_rfl
  | some count => exact h count hcache

theorem ready_iff : st.ready = true ↔ st.selected = true ∧ st.expunging = .none := by
  simp [ready]

theorem Ok.caches (h : st.Ok scope) (listCache : Option (List MailboxMailInfo))
    (statsCache : Option Nat) (polled : Nat) :
    NumberingState.Ok scope { st with listCache, statsCache, polled } :=
  { h with }

/-- A longer list has as many messages at least. -/
theorem existsCount_le_of_extends {db db' : ImapDb} (hkeys : db.Keyed) (h : db.Extends db' scope) :
    db.existsCount scope ≤ db'.existsCount scope := by
  obtain ⟨ids, hids⟩ := hkeys.exists_listed scope
  obtain ⟨more, hmore⟩ := h.listed ids hids
  rw [← hids.length_eq, ← hmore.length_eq, length_append]
  omega

theorem Ok.change (h : st.Ok scope) {c : MailboxChange}
    (hc : st.selected = true → c.KeepsNumbers scope st.db) :
    NumberingState.Ok scope { st with db := c.apply st.db } := by
  by_cases hsel : st.selected = true
  · have hextends := (hc hsel).extends h.keyed (h.orderly hsel)
    refine ⟨h.keyed.apply c, fun _ => hextends.orderly, h.unselected, ?_, h.consistent, ?_⟩
    · have := existsCount_le_of_extends h.keyed hextends
      have := h.announced
      change st.announced ≤ (c.apply st.db).existsCount scope + st.expunging.gone
      omega
    · intro hgone u hu
      obtain ⟨hle, more, hlisted⟩ := h.kept hgone u hu
      obtain ⟨rest, hrest⟩ := hextends.listed _ hlisted
      exact ⟨hle, more ++ rest, by rwa [← append_assoc]⟩
  · obtain ⟨hann, htold, -⟩ := h.unselected (Bool.eq_false_of_not_eq_true hsel)
    refine ⟨h.keyed.apply c, fun hsel' => absurd hsel' hsel, h.unselected, ?_, h.consistent, ?_⟩
    · change st.announced ≤ _
      omega
    · intro _ u hu
      rw [htold] at hu
      cases hu

theorem Ok.announce (h : st.Ok scope) (hr : st.ready = true) {count : Nat}
    (hcnt : count ≤ st.db.existsCount scope) :
    NumberingState.Ok scope { st with announced := max st.announced count } := by
  obtain ⟨hsel, -⟩ := ready_iff.mp hr
  refine { h with unselected := ?_, announced := ?_ }
  · intro hsel'
    cases hsel.symm.trans hsel'
  · have := h.announced
    change max st.announced count ≤ st.db.existsCount scope + st.expunging.gone
    omega

/-- Numbers up to the length of a list are the same in a longer one. -/
theorem idAt_append {uids more : List Nat} {seq : Nat} (hone : 1 ≤ seq) (hle : seq ≤ uids.length) :
    ∃ id, idAt (uids ++ more) seq = some id ∧ idAt uids seq = some id := by
  have hlt : seq - 1 < uids.length := by omega
  refine ⟨uids[seq - 1], ?_, ?_⟩
  · rw [idAt, if_neg (by omega), getElem?_append_left hlt, getElem?_eq_getElem hlt]
  · rw [idAt, if_neg (by omega), getElem?_eq_getElem hlt]

section

variable (h : st.Ok scope)

include h

/-- **The list of the tables is used**: it begins with each list that was used before. -/
theorem Ok.use (hr : st.ready = true) {mails : List MailboxMailInfo}
    (hlisted : st.db.Listed scope (mails.map (·.mailId))) : (st.use mails).Ok scope := by
  obtain ⟨hsel, hph⟩ := ready_iff.mp hr
  have hgone : st.expunging.gone = 0 := by rw [hph]; rfl
  have hlen : st.announced ≤ (mails.map (·.mailId)).length := by
    have := h.announced
    rw [hlisted.length_eq]
    omega
  refine ⟨h.keyed, h.orderly, ?_, h.announced, ⟨?_, ?_⟩, ?_⟩
  · intro hsel'
    cases hsel.symm.trans hsel'
  · intro u hu
    rcases mem_cons.mp hu with rfl | hu
    · exact (listExact_iff_listed h.keyed).mpr hlisted
    · exact h.consistent.exact u hu
  · refine pairwise_cons.mpr ⟨?_, h.consistent.agree⟩
    intro u hu seq hone hle
    obtain ⟨hann, more, hmore⟩ := h.kept hgone u hu
    have hids : mails.map (·.mailId) = u.uids ++ more := hlisted.unique hmore
    rw [hids]
    exact idAt_append hone (by omega)
  · intro _ u hu
    rcases mem_cons.mp hu with rfl | hu
    · exact ⟨hlen, [], by rw [append_nil]; exact hlisted⟩
    · exact h.kept hgone u hu

theorem Ok.cache (mails : List MailboxMailInfo) : (st.cache mails).Ok scope := by
  unfold NumberingState.cache
  split
  · exact h.caches (some mails) st.statsCache st.polled
  · exact h

theorem Ok.select (hord : st.db.Orderly scope) {count : Nat}
    (hcnt : count ≤ st.db.existsCount scope) (statsCache : Option Nat) : NumberingState.Ok scope
      { st with selected := true, announced := count, statsCache, told := [] } := by
  exact ⟨h.keyed, fun _ => hord, nofun, Nat.le_add_right_of_le hcnt, consistent_nil scope,
    fun _ => nofun⟩

/-- While nothing is removed, EXPUNGE may begin or be given up. -/
theorem Ok.phase (hgone : st.expunging.gone = 0) {ph : ExpungePhase} (hph : ph.gone = 0)
    (hsel : st.selected = false → ph = .none) :
    NumberingState.Ok scope { st with expunging := ph } := by
  have hann := h.announced
  rw [hgone, ← hph] at hann
  refine { h with unselected := fun hsel' => ?_, announced := hann, kept := fun _ => h.kept hgone }
  exact ⟨(h.unselected hsel').1, (h.unselected hsel').2.1, hsel hsel'⟩

theorem Ok.selected_of_expunging (hph : st.expunging ≠ .none) : ¬st.selected = false :=
  fun hsel => hph (h.unselected hsel).2.2

/-- **The statement of EXPUNGE**: if the list had no marked entry, nothing is removed; otherwise the
client is about to be told. -/
theorem Ok.expungeDelete {gone : Nat} (hph : st.expunging = .listed gone)
    (hmarked : (st.db.marked scope).length ≤ gone) :
    NumberingState.Ok scope { st with db := st.db.expunge scope, expunging := .deleted gone } := by
  have hgone : st.expunging.gone = 0 := by rw [hph]; rfl
  have hsel := h.selected_of_expunging (by rw [hph]; nofun)
  refine ⟨h.keyed.deleteLinks _, fun hsel' => (h.orderly hsel').deleteLinks _,
    fun hsel' => absurd hsel' hsel, ?_, h.consistent, ?_⟩
  · have := existsCount_expunge st.db scope
    have := h.announced
    change st.announced ≤ (st.db.expunge scope).existsCount scope + gone
    omega
  · intro hnone u hu
    change gone = 0 at hnone
    obtain ⟨hle, more, hlisted⟩ := h.kept hgone u hu
    have hnil : st.db.marked scope = [] := eq_nil_of_length_eq_zero (by omega)
    have hids : (st.db.expunge scope).linkedIds scope = st.db.linkedIds scope := by
      refine linkedIds_deleteLinks fun l hl _ hl' => ?_
      have hmem : l ∈ st.db.marked scope := mem_filter.mpr ⟨hl, hl'⟩
      rw [hnil] at hmem
      cases hmem
    exact ⟨hle, more, hids ▸ hlisted.perm, hlisted.increasing⟩

theorem Ok.expungeDone {gone : Nat} (hph : st.expunging = .deleted gone) :
    NumberingState.Ok scope { st.invalidate with
      expunging := .none, announced := st.announced - gone
      told := if gone = 0 then st.told else [] } := by
  have hgone : st.expunging.gone = gone := by rw [hph]; rfl
  have hsel := h.selected_of_expunging (by rw [hph]; nofun)
  have hann : st.announced - gone ≤ st.db.existsCount scope := by
    have := h.announced
    omega
  by_cases hzero : gone = 0
  · rw [if_pos hzero]
    exact ⟨h.keyed, h.orderly, fun hsel' => absurd hsel' hsel, hann, h.consistent,
      fun _ => h.kept (hgone.trans hzero)⟩
  · rw [if_neg hzero]
    exact ⟨h.keyed, h.orderly, fun hsel' => absurd hsel' hsel, hann, consistent_nil scope,
      fun _ => nofun⟩

end

/-- The mailbox is left, with whatever is in the tables. -/
theorem Ok.leave {db : ImapDb} (hkeys : db.Keyed) (hph : st.expunging = .none) :
    NumberingState.Ok scope { st with db, selected := false, announced := 0, told := [] } :=
  ⟨hkeys, nofun, fun _ => ⟨rfl, rfl, hph⟩, Nat.zero_le _, consistent_nil scope, fun _ => nofun⟩

/-- **A step that keeps the numbers keeps the invariant.** -/
theorem Ok.step (h : st.Ok scope) {e : NumberingEvent} (he : KeepsNumbers scope st e) :
    (numberingStep scope st e).Ok scope := by
  cases e with
  | change c => exact h.change he
  | fillList mails => exact h.caches (some mails) st.statsCache st.polled
  | fillStats count => exact h.caches st.listCache (some count) st.polled
  | dropList => exact h.caches none st.statsCache st.polled
  | dropStats => exact h.caches st.listCache none st.polled
  | idleRead => exact h.caches st.listCache st.statsCache (st.db.existsCount scope)
  | select =>
    rw [numberingStep]
    split
    · exact h.select he.1 (existsNow_le he.2) _
    · exact h
  | noop =>
    rw [numberingStep]
    split
    · next hr => exact (h.announce hr (existsNow_le he)).caches st.listCache _ st.polled
    · exact h
  | idlePush =>
    rw [numberingStep]
    split
    · next hr => exact h.announce hr he
    · exact h
  | fetch mails =>
    rw [numberingStep]
    split
    · next hr =>
      cases hcache : st.listCache with
      | some cached => exact h.use hr (he cached hcache)
      | none =>
        dsimp only
        split
        · next hlist =>
          have hord := h.orderly (ready_iff.mp hr).1
          exact (h.use hr (hord.listed h.keyed hlist)).cache mails
        · exact h
    · exact h
  | list mails =>
    rw [numberingStep]
    split
    · next hlist =>
      have hord := h.orderly (ready_iff.mp hlist.1).1
      exact h.use hlist.1 (hord.listed h.keyed hlist.2)
    · exact h
  | expungeRead mails =>
    rw [numberingStep]
    split
    · next hr =>
      obtain ⟨hsel, hph⟩ := ready_iff.mp hr.1
      exact h.phase (by rw [hph]; rfl) rfl fun hsel' => absurd (hsel.symm.trans hsel') nofun
    · exact h
  | expungeDelete =>
    rw [numberingStep]
    split
    · next gone hph => exact h.expungeDelete hph (he gone hph)
    · exact h
  | expungeDone =>
    rw [numberingStep]
    split
    · next gone hph => exact h.expungeDone hph
    · exact h
  | expungeFail =>
    rw [numberingStep]
    split
    · next gone hph =>
      exact (h.phase (by rw [hph]; rfl) rfl fun _ => rfl).caches none none st.polled
    · exact h
  | close =>
    rw [numberingStep]
    split
    · next hr =>
      exact (Ok.leave (h.keyed.deleteLinks _) (ready_iff.mp hr).2).caches none none st.polled
    · exact h
  | leave =>
    rw [numberingStep]
    split
    · next hph => exact .leave h.keyed hph
    · exact h

end NumberingState

theorem NumberingState.ok_start {db : ImapDb} (hkeys : db.Keyed) (scope : MailboxScope) :
    NumberingState.Ok scope { db } :=
  ⟨hkeys, nofun, fun _ => ⟨rfl, rfl, rfl⟩, Nat.zero_le _, consistent_nil scope, fun _ => nofun⟩

/-- **Numbers are what the client was told** in every run whose steps keep the numbers, whatever is
delivered, expunged and cached in between. -/
theorem numbersKept_of_stepsMeet (scope : MailboxScope) (db : ImapDb) (hkeys : db.Keyed)
    (events : List NumberingEvent)
    (h : StepsMeet (numberingStep scope) (KeepsNumbers scope) { db } events) :
    Consistent scope (run (numberingStep scope) { db } events).told :=
  (run_invariant_of_stepsMeet (NumberingState.Ok scope) (fun _ _ hst he => hst.step he)
    (NumberingState.ok_start hkeys scope) h).consistent

/-! ## Runs -/

def someScope : MailboxScope := { userId := 1, mailboxId := 5 }

def oneMail (sendTime : Nat) : ImapDb :=
  { links := [{ mailId := 1, mailboxId := 5, userId := 1 }], mails := [{ id := 1, sendTime }] }

theorem oneMail_keyed (sendTime : Nat) : (oneMail sendTime).Keyed := by
  refine ⟨nodup_singleton _, nodup_singleton _, ?_⟩
  intro l hl
  rw [mem_singleton.mp hl]
  exact ⟨{ id := 1, sendTime }, mem_singleton_self _, rfl⟩

/-- A second mail is delivered with the time 15, between two commands that read the list. -/
def deliveryBetween (before after : List MailboxMailInfo) : List NumberingEvent :=
  [.select, .list before, .change (.insertMail { id := 2, sendTime := 15 }),
    .change (.insertLink { mailId := 2, mailboxId := 5, userId := 1 }), .dropStats, .noop,
    .list after]

/-- The delivery goes to the end of the list if the first mail is newer. -/
theorem numbersKept_delivery :
    ImapDb.Keyed (oneMail 20) ∧
    Consistent someScope (run (numberingStep someScope) { db := oneMail 20 }
      (deliveryBetween [{ mailId := 1, sendTime := 20 }]
        [{ mailId := 1, sendTime := 20 }, { mailId := 2, sendTime := 15 }])).told ∧
    (run (numberingStep someScope) { db := oneMail 20 }
      (deliveryBetween [{ mailId := 1, sendTime := 20 }]
        [{ mailId := 1, sendTime := 20 }, { mailId := 2, sendTime := 15 }])).told.map
          (fun u => (u.announced, u.uids)) = [(2, [1, 2]), (1, [1])] := by
  refine ⟨oneMail_keyed 20, numbersKept_of_stepsMeet someScope (oneMail 20) (oneMail_keyed 20) _ ?_,
    by decide⟩
  refine ⟨⟨⟨by decide, by decide⟩, nofun⟩, trivial, fun _ => trivial, fun _ _ => ?_, trivial, nofun,
    trivial, trivial⟩
  exact ⟨by decide, by decide, by decide⟩

/-- If the first mail is older, the delivery moves it from number 1 to number 2. -/
theorem not_forall_numbersKept :
    ¬∀ (scope : MailboxScope) (db : ImapDb), db.Keyed → ∀ events : List NumberingEvent,
      Consistent scope (run (numberingStep scope) { db } events).told := by
  intro h
  have hagree := (h someScope (oneMail 10) (oneMail_keyed 10)
    (deliveryBetween [{ mailId := 1, sendTime := 10 }]
      [{ mailId := 2, sendTime := 15 }, { mailId := 1, sendTime := 10 }])).agree
  have huses : (run (numberingStep someScope) { db := oneMail 10 }
      (deliveryBetween [{ mailId := 1, sendTime := 10 }]
        [{ mailId := 2, sendTime := 15 }, { mailId := 1, sendTime := 10 }])).told.map
          (fun u => (u.announced, u.uids)) = [(2, [2, 1]), (1, [1])] := by decide
  obtain ⟨newer, rest, htold, hnewer, hrest⟩ := map_eq_cons_iff.mp huses
  obtain ⟨older, rest, rfl, holder, -⟩ := map_eq_cons_iff.mp hrest
  rw [htold] at hagree
  have hann : older.announced = 1 := congrArg Prod.fst holder
  have hpre : older.uids = [1] := congrArg Prod.snd holder
  have hafter : newer.uids = [2, 1] := congrArg Prod.snd hnewer
  obtain ⟨id, hid, hid'⟩ := (pairwise_cons.mp hagree).1 older mem_cons_self 1 le_rfl (by omega)
  rw [hafter] at hid
  rw [hpre] at hid'
  cases hid
  cases hid'

end ProtoRelay
