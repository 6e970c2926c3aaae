import ProtoRelay.Imap.Mailbox
import ProtoRelay.Imap.MailboxName

/-!
# Addressing the mailboxes LIST shows

A client learns the names of its mailboxes from LIST and passes them back to SELECT, EXAMINE,
STATUS, DELETE, RENAME, COPY and APPEND.  LIST escapes quotes and backslashes; none of the handlers
undoes that.  RENAME and COPY split their arguments at a blank before they look at quotes, STATUS at
a parenthesis, and SELECT, COPY and APPEND decode the name that the lookup then decodes once more.
-/

namespace ProtoRelay

open List

/-! ## The handlers -/

/-- The names LIST prints for a mailbox: the INBOX has two. -/
def listTokens (mailbox : FolderRow) : List Bytes :=
  let token := quoteString (encodeMailboxName mailbox.name)
  if mailbox.boxType = 1 then [bytes "INBOX", token] else [token]

/-- What the handlers do with a quoted name: it ends at the next quote. -/
def stripQuotes (s : Bytes) : Bytes :=
  if s.head? = some 34 then
    match findByteFrom 34 1 s with
    | none => s
    | some stop => (s.drop 1).take (stop - 1)
  else s

variable (args : Bytes)

/-- The name `handle_select` looks for. -/
def selectName : Bytes := decodeMailboxName (stripQuotes args)

/-- The name `handle_examine` and `handle_delete` look for. -/
def examineName : Bytes := stripQuotes args

/-- The name `handle_status` looks for, unless it is that of the selected mailbox, for which STATUS
is refused. -/
def statusName : Bytes :=
  stripQuotes (match findByte 40 args with
    | none => args
    | some paren =>
      ((args.take paren).reverse.dropWhile fun b => b == 32 || b == 9).reverse)

/-- The old and the new name of `handle_rename`, which refuses empty ones. -/
def renameNames : Option (Bytes × Bytes) :=
  match findByte 32 args with
  | none => none
  | some space =>
    let old := stripQuotes (args.take space)
    let new := stripQuotes (args.drop (space + 1))
    if old = [] ∨ new = [] then none else some (old, decodeMailboxName new)

/-- The mailbox `handle_copy_move` looks for. -/
def copyTarget : Option Bytes :=
  (rfindByte 32 args).map fun space => decodeMailboxName (stripQuotes (args.drop (space + 1)))

/-- The mailbox `handle_append` looks for; its line has other arguments behind the name. -/
def appendName (preamble : Bytes) : Option Bytes :=
  if preamble = [] then none
  else
    some (decodeMailboxName (
      if preamble.head? = some 34 then
        match findByteFrom 34 1 preamble with
        | none => []
        | some stop => (preamble.drop 1).take (stop - 1)
      else preamble.takeWhile (· != 32)))

/-- The name that `TraditionalImapsFsm::find_mailbox_id_async` hands to the repository. -/
def lookupName (name : Bytes) : Bytes :=
  if 38 ∈ name ∧ decodeMailboxName name ≠ [] then decodeMailboxName name else name

namespace ImapDb

/-- `build_imap_get_mailbox_by_name`. -/
def mailboxByName (db : ImapDb) (userId : Nat) (name : Bytes) : Option FolderRow :=
  db.mailboxes.find? fun f => decide (f.userId = userId ∧ f.name = name)

/-- `build_imap_get_inbox_id`. -/
def inbox (db : ImapDb) (userId : Nat) : Option FolderRow :=
  db.mailboxes.find? fun f => decide (f.userId = userId ∧ f.boxType = 1)

/-- `find_mailbox_id_async`; 0 if there is none. -/
def findMailboxId (db : ImapDb) (userId : Nat) (name : Bytes) : Nat :=
  match db.mailboxByName userId (lookupName name) with
  | some f => f.id
  | none =>
    if toUpper (lookupName name) = bytes "INBOX" then ((db.inbox userId).map (·.id)).getD 0 else 0

/-- The keys of `mailboxes`. -/
structure FoldersKeyed (db : ImapDb) : Prop where
  ids : (db.mailboxes.map FolderRow.id).Nodup
  pos : ∀ f ∈ db.mailboxes, f.id ≠ 0
  names : (db.mailboxes.map fun f => (f.userId, f.name)).Nodup

end ImapDb

/-! ## The grammar -/

/-- `ASTRING-CHAR`: no control characters, blanks, parentheses, braces, wildcards, quotes or
backslashes. -/
def isAstringChar (b : UInt8) : Bool :=
  decide (32 < b ∧ b < 127 ∧ b ∉ ([40, 41, 123, 37, 42, 34, 92] : Bytes))

def isTextChar (b : UInt8) : Bool := decide (0 < b ∧ b < 128 ∧ b ≠ 13 ∧ b ≠ 10)

def isQuotedRest : Bytes → Bool
  | [] => false
  | [b] => b == 34
  | b :: c :: s =>
    if b = 92 then (c == 34 || c == 92) && isQuotedRest s
    else isTextChar b && b != 34 && isQuotedRest (c :: s)

/-- `astring`, without literals. -/
def isAstring (token : Bytes) : Bool :=
  match token with
  | [] => false
  | b :: s => if b = 34 then isQuotedRest s else (b :: s).all isAstringChar

/-! ## The property -/

section

variable (db : ImapDb) (mailbox : FolderRow)

/-- With this name in their arguments the commands find the mailbox. -/
structure Reaches (token : Bytes) : Prop where
  select : db.findMailboxId mailbox.userId (selectName token) = mailbox.id
  examine : db.findMailboxId mailbox.userId (examineName token) = mailbox.id
  status : ∀ attrs, db.findMailboxId mailbox.userId (statusName (token ++ 32 :: 40 :: attrs)) =
    mailbox.id
  rename : ∀ new, stripQuotes new ≠ [] →
    (renameNames (token ++ 32 :: new)).map (fun names => db.findMailboxId mailbox.userId names.1) =
      some mailbox.id
  copy : ∀ seqSet,
    (copyTarget (seqSet ++ 32 :: token)).map (db.findMailboxId mailbox.userId) = some mailbox.id
  append : ∀ rest, rest = [] ∨ rest.head? = some 32 →
    (appendName (token ++ rest)).map (db.findMailboxId mailbox.userId) = some mailbox.id

/-- **What LIST prints for a mailbox is a name, and the commands find the mailbox by it.** -/
def ListedAddressable : Prop :=
  ∀ token ∈ listTokens mailbox, isAstring token = true ∧ Reaches db mailbox token

/-- The lookup of a name that no mailbox has falls back to the INBOX, and this is it. -/
structure FallsBackTo (name : Bytes) : Prop where
  isInbox : toUpper name = bytes "INBOX"
  unnamed : db.mailboxByName mailbox.userId name = none
  inbox : db.inbox mailbox.userId = some mailbox

/-- The names that can be used: without blanks, quotes, backslashes and opening parentheses, of
characters that may stand where LIST puts them, and the same when they are decoded once more. -/
structure NameUsable : Prop where
  nonempty : mailbox.name ≠ []
  plain : ∀ b ∈ encodeMailboxName mailbox.name, b ∉ ([32, 34, 40, 92] : Bytes)
  chars : ∀ b ∈ encodeMailboxName mailbox.name,
    if (encodeMailboxName mailbox.name).head? = some 38 then isTextChar b = true
    else isAstringChar b = true
  stable : lookupName mailbox.name = mailbox.name ∨ FallsBackTo db mailbox (lookupName mailbox.name)
  inbox : mailbox.boxType = 1 → mailbox.name = bytes "INBOX" ∨
    FallsBackTo db mailbox (bytes "INBOX")

end

/-! ## Lookups -/

section Lookup

variable {db : ImapDb} {mailbox : FolderRow}

theorem lookupName_of_ne_nil {name : Bytes} (h : decodeMailboxName name ≠ []) :
    lookupName name = decodeMailboxName name := by
  unfold lookupName
  by_cases hamp : 38 ∈ name
  · rw [if_pos ⟨hamp, h⟩]
  · rw [if_neg fun hand => hamp hand.1, decodeMailboxName_of_not_mem hamp]

theorem ImapDb.FoldersKeyed.mailboxByName_eq (hkeys : db.FoldersKeyed)
    (hmem : mailbox ∈ db.mailboxes) :
    db.mailboxByName mailbox.userId mailbox.name = some mailbox := by
  unfold ImapDb.mailboxByName
  cases hfind : db.mailboxes.find? _ with
  | none =>
    have := find?_eq_none.mp hfind mailbox hmem
    simp at this
  | some f =>
    have hkey : f.userId = mailbox.userId ∧ f.name = mailbox.name := by
      simpa using find?_some hfind
    rw [inj_on_of_nodup_map hkeys.names (mem_of_find?_eq_some hfind) hmem (Prod.ext hkey.1 hkey.2)]

/-- **The names by which the lookup finds a mailbox.** -/
theorem findMailboxId_eq_iff (hkeys : db.FoldersKeyed) (hmem : mailbox ∈ db.mailboxes)
    (name : Bytes) :
    db.findMailboxId mailbox.userId name = mailbox.id ↔
      lookupName name = mailbox.name ∨ FallsBackTo db mailbox (lookupName name) := by
  unfold ImapDb.findMailboxId
  cases hfind : db.mailboxByName mailbox.userId (lookupName name) with
  | some f =>
    have hf := mem_of_find?_eq_some hfind
    have hkey : f.userId = mailbox.userId ∧ f.name = lookupName name := by
      simpa using find?_some hfind
    constructor
    · intro hid
      rw [inj_on_of_nodup_map hkeys.ids hf hmem hid] at hkey
      exact .inl hkey.2.symm
    · rintro (hname | hfalls)
      · rw [hname, hkeys.mailboxByName_eq hmem] at hfind
        rw [Option.some.inj hfind]
      · rw [hfalls.unnamed] at hfind
        cases hfind
  | none =>
    have hname : lookupName name ≠ mailbox.name := by
      intro heq
      rw [heq, hkeys.mailboxByName_eq hmem] at hfind
      cases hfind
    simp only [hname, false_or]
    constructor
    · intro hid
      split at hid
      · rename_i hupper
        cases hinbox : db.inbox mailbox.userId with
        | none =>
          rw [hinbox] at hid
          exact absurd hid.symm (hkeys.pos mailbox hmem)
        | some f =>
          rw [hinbox] at hid
          have heq := inj_on_of_nodup_map hkeys.ids (mem_of_find?_eq_some hinbox) hmem hid
          exact ⟨hupper, hfind, by rw [hinbox, heq]⟩
      · exact absurd hid.symm (hkeys.pos mailbox hmem)
    · intro hfalls
      rw [if_pos hfalls.isInbox, hfalls.inbox]
      rfl

end Lookup

/-! ## Tokens -/

variable {s e token : Bytes}

theorem stripQuotes_quoted (h : 34 ∉ s) (rest : Bytes) :
    stripQuotes (34 :: s ++ 34 :: rest) = s := by
  have hfind : findByteFrom 34 1 (34 :: s ++ 34 :: rest) = some (s.length + 1) := by
    unfold findByteFrom
    rw [cons_append, drop_one, tail_cons, findByte_append_of_not_mem h]
    rfl
  unfold stripQuotes
  rw [cons_append, ← cons_append, hfind]
  simp

theorem stripQuotes_unclosed (h : 34 ∉ s) : stripQuotes (34 :: s) = 34 :: s := by
  have hfind : findByteFrom 34 1 (34 :: s) = none := by
    unfold findByteFrom
    rw [drop_one, tail_cons, findByte_eq_none_iff.mpr h]
    rfl
  unfold stripQuotes
  rw [if_pos head?_cons, hfind]

theorem stripQuotes_of_not_mem (h : 34 ∉ s) : stripQuotes s = s := by
  unfold stripQuotes
  rw [if_neg]
  intro heq
  exact h (mem_of_head? heq)

/-- A name as LIST prints it when nothing in it is escaped. -/
inductive PlainToken (e : Bytes) : Bytes → Prop
  | quoted : PlainToken e (34 :: e ++ [34])
  | atom (hlast : ∀ b, e.getLast? = some b → b ≠ 32 ∧ b ≠ 9) : PlainToken e e

namespace PlainToken

variable {e token : Bytes}

theorem strip (h : PlainToken e token) (hq : 34 ∉ e) : stripQuotes token = e := by
  cases h with
  | quoted => exact stripQuotes_quoted hq []
  | atom => exact stripQuotes_of_not_mem hq

theorem not_mem (h : PlainToken e token) {c : UInt8} (hc : c ∉ e) (hc' : c ≠ 34) : c ∉ token := by
  cases h with
  | quoted => simp [hc, hc']
  | atom => exact hc

theorem getLast (h : PlainToken e token) (hne : e ≠ []) :
    ∃ b, token.getLast? = some b ∧ b ≠ 32 ∧ b ≠ 9 := by
  cases h with
  | quoted => exact ⟨34, by rw [getLast?_append]; rfl, by decide, by decide⟩
  | atom hlast =>
    obtain ⟨b, hb⟩ := Option.isSome_iff_exists.mp (getLast?_isSome.mpr hne)
    exact ⟨b, hb, hlast b hb⟩

end PlainToken

theorem statusName_plain (h : PlainToken e token) (hne : e ≠ []) (hq : 34 ∉ e) (hparen : 40 ∉ e)
    (attrs : Bytes) : statusName (token ++ 32 :: 40 :: attrs) = e := by
  have hfst : findByte 40 (token ++ 32 :: 40 :: attrs) = some (token ++ [32]).length := by
    have hnot : 40 ∉ token ++ [32] := by simp [h.not_mem hparen (by decide)]
    have := findByte_append_of_not_mem hnot attrs
    rwa [append_assoc] at this
  have htake : (token ++ 32 :: 40 :: attrs).take (token ++ [32]).length = token ++ [32] := by
    have : token ++ 32 :: 40 :: attrs = (token ++ [32]) ++ 40 :: attrs := by simp
    rw [this, take_left]
  obtain ⟨b, hlast, hb, hb'⟩ := h.getLast hne
  -- the blank is trimmed, and nothing of the token
  obtain ⟨front, rfl⟩ := getLast?_eq_some_iff.mp hlast
  unfold statusName
  rw [hfst]
  simp only [htake]
  simp only [reverse_append, reverse_cons, reverse_nil, nil_append, cons_append]
  rw [dropWhile_cons_of_pos (by decide), dropWhile_cons_of_neg (by simp [hb, hb']),
    reverse_cons, reverse_reverse]
  exact h.strip hq

theorem renameNames_plain (h : PlainToken e token) (hne : e ≠ []) (hq : 34 ∉ e)
    (hblank : 32 ∉ e) {new : Bytes} (hnew : stripQuotes new ≠ []) :
    renameNames (token ++ 32 :: new) = some (e, decodeMailboxName (stripQuotes new)) := by
  unfold renameNames
  rw [findByte_append_of_not_mem (h.not_mem hblank (by decide))]
  have hdrop : (token ++ 32 :: new).drop (token.length + 1) = new := by simp
  simp only [take_left, hdrop, h.strip hq]
  rw [if_neg (by rintro (h | h) <;> contradiction)]

theorem copyTarget_plain (h : PlainToken e token) (hq : 34 ∉ e) (hblank : 32 ∉ e)
    (seqSet : Bytes) : copyTarget (seqSet ++ 32 :: token) = some (decodeMailboxName e) := by
  unfold copyTarget
  rw [rfindByte_append_of_not_mem (h.not_mem hblank (by decide))]
  have hdrop : (seqSet ++ 32 :: token).drop (seqSet.length + 1) = token := by simp
  simp only [Option.map_some, hdrop, h.strip hq]

theorem appendName_plain (h : PlainToken e token) (hne : e ≠ []) (hq : 34 ∉ e) (hblank : 32 ∉ e)
    {rest : Bytes} (hrest : rest = [] ∨ rest.head? = some 32) :
    appendName (token ++ rest) = some (decodeMailboxName e) := by
  unfold appendName
  cases h with
  | quoted =>
    have hfind : findByteFrom 34 1 (34 :: e ++ [34] ++ rest) = some (e.length + 1) := by
      unfold findByteFrom
      rw [append_assoc, cons_append, drop_one, tail_cons, singleton_append,
        findByte_append_of_not_mem hq]
      rfl
    rw [hfind]
    simp
  | atom =>
    have hhead : (e ++ rest).head? ≠ some 34 := by
      rw [head?_append_of_ne_nil e hne]
      exact fun heq => hq (mem_of_head? heq)
    have htake : (e ++ rest).takeWhile (· != 32) = e := by
      rw [takeWhile_append_of_pos fun b hb => by
        simpa using fun heq : b = 32 => hblank (heq ▸ hb)]
      rcases hrest with rfl | hrest
      · simp
      · obtain ⟨tail, rfl⟩ := head?_eq_some_iff.mp hrest
        simp
    rw [if_neg (by simp [hne]), if_neg hhead, htake]

section Tokens

variable {db : ImapDb} {mailbox : FolderRow} {e token : Bytes}

/-- **A name without blanks, quotes and parentheses**: three of the commands look for what it
decodes to, the others for the name itself. -/
theorem reaches_iff_of_plain (h : PlainToken e token) (hne : e ≠ [])
    (hpl : ∀ b ∈ e, b ∉ ([32, 34, 40, 92] : Bytes)) : Reaches db mailbox token ↔
      db.findMailboxId mailbox.userId (decodeMailboxName e) = mailbox.id ∧
        db.findMailboxId mailbox.userId e = mailbox.id := by
  have hq : 34 ∉ e := fun hm => hpl 34 hm (by decide)
  have hblank : 32 ∉ e := fun hm => hpl 32 hm (by decide)
  have hparen : 40 ∉ e := fun hm => hpl 40 hm (by decide)
  have hstrip := h.strip hq
  constructor
  · intro hre
    have hselect := hre.select
    have hexamine := hre.examine
    rw [selectName, hstrip] at hselect
    rw [examineName, hstrip] at hexamine
    exact ⟨hselect, hexamine⟩
  · rintro ⟨hdec, hself⟩
    constructor
    case select => rwa [selectName, hstrip]
    case examine => rwa [examineName, hstrip]
    case status =>
      intro attrs
      rwa [statusName_plain h hne hq hparen]
    case rename =>
      intro new hnew
      rw [renameNames_plain h hne hq hblank hnew, Option.map_some, hself]
    case copy =>
      intro seqSet
      rw [copyTarget_plain h hq hblank, Option.map_some, hdec]
    case append =>
      intro rest hrest
      rw [appendName_plain h hne hq hblank hrest, Option.map_some, hdec]

end Tokens

/-! ## Names that cannot be used -/

theorem not_mem_escapeQuoted (h : 34 ∉ s) : 34 ∉ escapeQuoted s := by
  intro hmem
  obtain ⟨c, hc, hmem⟩ := mem_flatMap.mp hmem
  split at hmem
  · rcases mem_cons.mp hmem with heq | hmem
    · cases heq
    · exact h (mem_singleton.mp hmem ▸ hc)
  · exact h (mem_singleton.mp hmem ▸ hc)

section Unusable

variable {db : ImapDb} {mailbox : FolderRow} {parts : List NamePart}

/-- The parts of a name in front of and behind a plain byte of its text, and its token
behind them. -/
theorem exists_parts_around (hps : ∀ p ∈ parts, p.Ok) {c : UInt8} (hc : isPlainByte c = true)
    (hmem : c ∈ partsText parts) : ∃ front back, parts = front ++ .char c :: back ∧
      c ∉ partsText front ∧
      ∀ rest, 34 :: partsText parts ++ [34] ++ rest =
        (34 :: partsText front) ++ c :: (partsText back ++ 34 :: rest) := by
  obtain ⟨a, b, htext, hfst⟩ := eq_append_cons_of_mem hmem
  obtain ⟨front, back, rfl, rfl, rfl⟩ := exists_split_parts hps hc htext
  refine ⟨front, back, rfl, hfst, fun rest => ?_⟩
  rw [htext]
  simp

/-- What STATUS trims from the text in front of a parenthesis are parts of it. -/
theorem exists_trimmed_parts (parts : List NamePart) :
    ∃ kept tail, parts = kept ++ tail ∧
      ((34 :: partsText parts).reverse.dropWhile fun b => b == 32 || b == 9).reverse =
        34 :: partsText kept := by
  induction parts using reverseRecOn with
  | nil => exact ⟨[], [], rfl, rfl⟩
  | append_singleton ps p ih =>
    by_cases hp : p = .char 32 ∨ p = .char 9
    · obtain ⟨kept, tail, rfl, htrim⟩ := ih
      refine ⟨kept, tail ++ [p], append_assoc _ _ _, ?_⟩
      have htext (b : UInt8) : (34 :: partsText (kept ++ tail ++ [.char b])).reverse =
          b :: (34 :: partsText (kept ++ tail)).reverse := by simp [partsText, NamePart.text]
      rcases hp with rfl | rfl <;> rw [htext, dropWhile_cons_of_pos (by decide), htrim]
    · -- the last byte of any other part stays
      obtain ⟨front, b, hlast, hb⟩ : ∃ front b,
          p.text = front ++ [b] ∧ ¬(b == 32 || b == 9) = true := by
        cases p with
        | char c => exact ⟨[], c, rfl, by simpa using hp⟩
        | ampersand => exact ⟨[38], 45, rfl, by decide⟩
        | base64 digits => exact ⟨38 :: digits, 45, rfl, by decide⟩
      have htext : (34 :: partsText (ps ++ [p])).reverse =
          b :: (34 :: partsText ps ++ front).reverse := by simp [partsText, hlast]
      refine ⟨ps ++ [p], [], (append_nil _).symm, ?_⟩
      rw [htext, dropWhile_cons_of_neg (by exact hb), ← htext, reverse_reverse]

variable (hkeys : db.FoldersKeyed) (hmem : mailbox ∈ db.mailboxes)

include hkeys hmem

/-- Parts that are no spelling of INBOX are found only as the name they are. -/
theorem not_find_of_parts (hps : ∀ p ∈ parts, p.Ok) {c : UInt8} (hc : upperByte c ∉ bytes "INBOX")
    (hchar : .char c ∈ parts) (hne : partsName parts ≠ mailbox.name) :
    db.findMailboxId mailbox.userId (partsText parts) ≠ mailbox.id := by
  have hdec := decodeMailboxName_text hps
  have hin : c ∈ partsName parts := mem_flatMap.mpr ⟨_, hchar, mem_singleton_self c⟩
  have hlook : lookupName (partsText parts) = _ :=
    lookupName_of_ne_nil (by rw [hdec]; exact ne_nil_of_mem hin)
  rw [hdec] at hlook
  rw [ne_eq, findMailboxId_eq_iff hkeys hmem, hlook]
  rintro (heq | hfalls)
  · exact hne heq
  · exact hc (hfalls.isInbox ▸ mem_map_of_mem hin)

/-- A quote and the first parts of a name are not the name, which has a byte once more. -/
theorem not_find_of_unclosed {c : UInt8} (hc : 34 ≠ c) {kept tail : List NamePart}
    (hps : ∀ p ∈ kept ++ tail, p.Ok) (hname : partsName (kept ++ tail) = mailbox.name)
    (htail : .char c ∈ tail) :
    db.findMailboxId mailbox.userId (34 :: partsText kept) ≠ mailbox.id := by
  have hok : ∀ p ∈ NamePart.char 34 :: kept, p.Ok :=
    forall_mem_cons.mpr ⟨fun h => (nomatch h), fun p hp => hps p (mem_append_left _ hp)⟩
  refine not_find_of_parts hkeys hmem hok (by decide) mem_cons_self fun heq => ?_
  have hin : c ∈ partsName tail := mem_flatMap.mpr ⟨_, htail, mem_singleton_self c⟩
  have hcnt := congrArg (List.count c) (heq.trans hname.symm)
  change (34 :: partsName kept).count c = _ at hcnt
  rw [partsName_append, count_append, count_cons_of_ne hc] at hcnt
  have hpos := count_pos_iff.mpr hin
  omega

variable (hps : ∀ p ∈ parts, p.Ok) (hname : partsName parts = mailbox.name)

include hps hname

/-- A quote in the name: what is in front of it is not the name. -/
theorem not_reaches_of_quote (hq : 34 ∈ partsText parts) :
    ¬Reaches db mailbox (34 :: escapeQuoted (partsText parts) ++ [34]) := by
  intro hre
  obtain ⟨front, back, rfl, hfst, -⟩ := exists_parts_around hps (by decide) hq
  have hfront : ∀ p ∈ front, p.Ok := fun p hp => hps p (mem_append_left _ hp)
  have hok : ∀ p ∈ escapeParts front ++ [.char 92], p.Ok := by
    rw [forall_mem_append]
    exact ⟨ok_of_mem_escapeParts hfront, by simp [NamePart.Ok]⟩
  have htok : 34 :: escapeQuoted (partsText (front ++ .char 34 :: back)) ++ [34] =
      34 :: (escapeQuoted (partsText front) ++ [92]) ++ 34 ::
        (escapeQuoted (partsText back) ++ [34]) := by
    rw [partsText_append, partsText_cons]
    simp [NamePart.text, escapeQuoted]
  have hstripped :
    stripQuotes (34 :: escapeQuoted (partsText (front ++ .char 34 :: back)) ++ [34]) =
      partsText (escapeParts front ++ [.char 92]) := by
    rw [htok, stripQuotes_quoted (by simp [not_mem_escapeQuoted hfst]),
      escapeQuoted_partsText hfront, partsText_append]
    rfl
  have hfind := hre.examine
  rw [examineName, hstripped] at hfind
  refine not_find_of_parts hkeys hmem hok (c := 92) (by decide) (by simp) (fun heq => ?_) hfind
  -- the name has one quote more
  have hcnt := congrArg (List.count 34) (heq.trans hname.symm)
  have hback : partsName (.char 34 :: back) = 34 :: partsName back := rfl
  have hnone : (partsName [.char 92]).count 34 = 0 := by decide
  rw [partsName_append, partsName_append, count_append, count_append,
    count_quote_escapeParts, hback,
    count_cons_self] at hcnt
  omega

/-- A backslash in the name is not unescaped. -/
theorem not_reaches_of_backslash (hq : 34 ∉ partsText parts) (hback : 92 ∈ partsText parts) :
    ¬Reaches db mailbox (34 :: escapeQuoted (partsText parts) ++ [34]) := by
  intro hre
  have hfind := hre.examine
  rw [examineName, stripQuotes_quoted (not_mem_escapeQuoted hq),
    escapeQuoted_partsText hps] at hfind
  have hchar : .char 92 ∈ parts := by
    obtain ⟨p, hp, hin⟩ := mem_flatMap.mp hback
    exact eq_char_of_mem_text (hps p hp) (by decide) hin ▸ hp
  have hescaped : .char 92 ∈ escapeParts parts := by
    refine mem_flatMap.mpr ⟨_, hchar, ?_⟩
    unfold escapePart
    exact mem_cons_self
  refine not_find_of_parts hkeys hmem (ok_of_mem_escapeParts hps) (by decide) hescaped
    (fun heq => ?_) hfind
  have hlen := (length_escapeParts parts).2 hchar
  rw [hname, heq] at hlen
  exact absurd hlen (Nat.lt_irrefl _)

/-- A blank in the name: RENAME takes what is in front of it, with the quote. -/
theorem not_reaches_of_blank (hq : 34 ∉ partsText parts) (hblank : 32 ∈ partsText parts) :
    ¬Reaches db mailbox (34 :: partsText parts ++ [34]) := by
  intro hre
  obtain ⟨front, back, rfl, hfst, htoken⟩ := exists_parts_around hps (by decide) hblank
  rw [partsText_append, mem_append, not_or] at hq
  have hrename := hre.rename [120] (by decide)
  rw [htoken] at hrename
  unfold renameNames at hrename
  rw [findByte_append_of_not_mem (by simp [hfst])] at hrename
  simp only [take_left, stripQuotes_unclosed hq.1] at hrename
  split at hrename
  · cases hrename
  · exact not_find_of_unclosed hkeys hmem (by decide) hps hname mem_cons_self
      (Option.some.inj hrename)

/-- An opening parenthesis in the name: STATUS takes what is in front of it, with the quote. -/
theorem not_reaches_of_paren (hq : 34 ∉ partsText parts) (hparen : 40 ∈ partsText parts) :
    ¬Reaches db mailbox (34 :: partsText parts ++ [34]) := by
  intro hre
  obtain ⟨front, back, rfl, hfst, htoken⟩ := exists_parts_around hps (by decide) hparen
  obtain ⟨kept, tail, rfl, htrim⟩ := exists_trimmed_parts front
  rw [append_assoc] at hps hname
  rw [partsText_append, partsText_append, mem_append, mem_append, not_or, not_or] at hq
  have hfind := hre.status []
  rw [htoken] at hfind
  unfold statusName at hfind
  rw [findByte_append_of_not_mem (by simp [hfst])] at hfind
  simp only [take_left] at hfind
  rw [htrim, stripQuotes_unclosed hq.1.1] at hfind
  exact not_find_of_unclosed hkeys hmem (c := 40) (by decide) hps hname (by simp) hfind

end Unusable

/-! ## The names that can be used -/

theorem isQuotedRest_iff (hq : 34 ∉ e) (hback : 92 ∉ e) :
    isQuotedRest (e ++ [34]) = true ↔ ∀ b ∈ e, isTextChar b = true := by
  induction e with
  | nil => simp [isQuotedRest]
  | cons b e ih =>
    rw [mem_cons, not_or] at hq hback
    have ih := ih hq.2 hback.2
    have hstep : isQuotedRest (b :: (e ++ [34])) = (isTextChar b && isQuotedRest (e ++ [34])) := by
      have hb : (b != 34) = true := by simpa using Ne.symm hq.1
      cases e <;> simp [isQuotedRest, Ne.symm hback.1, hb]
    rw [cons_append, hstep, Bool.and_eq_true, ih, forall_mem_cons]

section

variable (hne : e ≠ []) (hpl : ∀ b ∈ e, b ∉ ([32, 34, 40, 92] : Bytes))

include hne hpl

/-- When LIST quotes a name in which there is nothing to escape. -/
theorem needsQuote_of_plain : needsQuote e = true ↔ e.head? = some 38 := by
  have hspecial : (e.any fun c => c == 34 || c == 92) = false := by
    rw [any_eq_false]
    intro b hb
    have := hpl b hb
    simp only [mem_cons, not_mem_nil, or_false, not_or] at this
    simp [this.2.1, this.2.2.2]
  have hblank : e.contains 32 = false := by
    rw [contains_eq_mem, decide_eq_false_iff_not]
    exact fun hm => hpl 32 hm (by decide)
  unfold needsQuote
  rw [hspecial, hblank, isEmpty_eq_false_iff.mpr hne]
  simp

/-- The token of a name in which there is nothing to escape. -/
theorem quoteString_of_plain :
    quoteString e = if e.head? = some 38 then 34 :: e ++ [34] else e := by
  unfold quoteString
  simp only [needsQuote_of_plain hne hpl]
  rw [escapeQuoted_of_not_mem (fun hm => hpl 34 hm (by decide)) (fun hm => hpl 92 hm (by decide))]

/-- Such a token is an astring if its characters may stand where they are. -/
theorem isAstring_quoteString :
    isAstring (quoteString e) = true ↔
      ∀ b ∈ e, if e.head? = some 38 then isTextChar b = true else isAstringChar b = true := by
  have hq : 34 ∉ e := fun hm => hpl 34 hm (by decide)
  have hback : 92 ∉ e := fun hm => hpl 92 hm (by decide)
  rw [quoteString_of_plain hne hpl]
  split
  · exact isQuotedRest_iff hq hback
  · cases e with
    | nil => exact absurd rfl hne
    | cons b e =>
      have hb : b ≠ 34 := fun heq => hq (heq ▸ mem_cons_self)
      unfold isAstring
      simp only [if_neg hb, all_eq_true]

theorem plainToken_quoteString (hval : isAstring (quoteString e) = true) :
    PlainToken e (quoteString e) := by
  have hchars := (isAstring_quoteString hne hpl).mp hval
  rw [quoteString_of_plain hne hpl]
  split
  · exact .quoted
  · rename_i hhead
    refine .atom fun b hb => ?_
    have := hchars b (mem_of_getLast? hb)
    rw [if_neg hhead] at this
    constructor
    · rintro rfl
      exact absurd this (by decide)
    · rintro rfl
      exact absurd this (by decide)

end

section Usable

variable {db : ImapDb} {mailbox : FolderRow}

theorem name_ne_nil_of_reaches
    (hre : Reaches db mailbox (quoteString (encodeMailboxName mailbox.name))) :
    mailbox.name ≠ [] := by
  intro hnil
  have hrename := hre.rename [120] (by decide)
  rw [hnil] at hrename
  have hnone : renameNames (quoteString (encodeMailboxName []) ++ 32 :: [120]) = none := by
    decide
  cases hrename

theorem encodeMailboxName_ne_nil
    (hr : decodeMailboxName (encodeMailboxName mailbox.name) = mailbox.name)
    (hne : mailbox.name ≠ []) : encodeMailboxName mailbox.name ≠ [] := by
  intro hnil
  rw [hnil] at hr
  exact hne hr.symm

variable (hkeys : db.FoldersKeyed) (hmem : mailbox ∈ db.mailboxes)

include hkeys hmem

/-- The commands find the mailbox by the other name LIST has for the INBOX. -/
theorem reaches_inbox_iff : Reaches db mailbox (bytes "INBOX") ↔
      mailbox.name = bytes "INBOX" ∨ FallsBackTo db mailbox (bytes "INBOX") := by
  have hatom : PlainToken (bytes "INBOX") (bytes "INBOX") := by
    refine .atom fun b hb => ?_
    have hlast : (bytes "INBOX").getLast? = some 88 := by decide
    cases hb
    decide
  have hdec : decodeMailboxName (bytes "INBOX") = bytes "INBOX" := by decide
  have hlook : lookupName (bytes "INBOX") = bytes "INBOX" := by decide
  rw [reaches_iff_of_plain hatom (by decide) (by decide +kernel), hdec, and_self,
    findMailboxId_eq_iff hkeys hmem, hlook, eq_comm]

variable (hr : decodeMailboxName (encodeMailboxName mailbox.name) = mailbox.name)

include hr

/-- The name of a mailbox that the commands find has nothing in it that has to be escaped or that
handlers split at. -/
theorem plain_of_reaches
    (hval : isAstring (quoteString (encodeMailboxName mailbox.name)) = true)
    (hre : Reaches db mailbox (quoteString (encodeMailboxName mailbox.name))) :
    ∀ b ∈ encodeMailboxName mailbox.name, b ∉ ([32, 34, 40, 92] : Bytes) := by
  obtain ⟨parts, hps, htext⟩ := exists_parts_encode mailbox.name
  rw [htext] at hr hval hre ⊢
  have hname : partsName parts = mailbox.name := (decodeMailboxName_text hps).symm.trans hr
  have hquoted : needsQuote (partsText parts) = true →
      quoteString (partsText parts) = 34 :: escapeQuoted (partsText parts) ++ [34] :=
        fun h => if_pos h
  have hq : 34 ∉ partsText parts := by
    intro hm
    rw [hquoted (by simp only [needsQuote, Bool.or_eq_true, any_eq_true]; grind)] at hre
    exact not_reaches_of_quote hkeys hmem hps hname hm hre
  have hback : 92 ∉ partsText parts := by
    intro hm
    rw [hquoted (by simp only [needsQuote, Bool.or_eq_true, any_eq_true]; grind)] at hre
    exact not_reaches_of_backslash hkeys hmem hps hname hq hm hre
  rw [escapeQuoted_of_not_mem hq hback] at hquoted
  have hblank : 32 ∉ partsText parts := by
    intro hm
    rw [hquoted (by simp [needsQuote, hm])] at hre
    exact not_reaches_of_blank hkeys hmem hps hname hq hm hre
  have hparen : 40 ∉ partsText parts := by
    intro hm
    cases hneeds : needsQuote (partsText parts) with
    | true =>
      rw [hquoted hneeds] at hre
      exact not_reaches_of_paren hkeys hmem hps hname hq hm hre
    | false =>
      -- without quotes it is not an astring
      have htok : quoteString (partsText parts) = partsText parts := by
        unfold quoteString
        rw [hneeds]
        rfl
      rw [htok] at hval
      unfold isAstring at hval
      split at hval
      · cases hval
      · rename_i b s heq
        rw [heq] at hm hq
        rw [if_neg fun h : b = 34 => hq (h ▸ mem_cons_self)] at hval
        exact absurd (all_eq_true.mp hval 40 hm) (by decide)
  intro b hb hspecial
  simp only [mem_cons, not_mem_nil, or_false] at hspecial
  rcases hspecial with rfl | rfl | rfl | rfl
  · exact hblank hb
  · exact hq hb
  · exact hparen hb
  · exact hback hb

/-- The commands find the mailbox by its own name if it is the same when it is decoded once more. -/
theorem reaches_token_iff (hne : mailbox.name ≠ [])
    (hpl : ∀ b ∈ encodeMailboxName mailbox.name, b ∉ ([32, 34, 40, 92] : Bytes))
    (hval : isAstring (quoteString (encodeMailboxName mailbox.name)) = true) :
    Reaches db mailbox (quoteString (encodeMailboxName mailbox.name)) ↔
      lookupName mailbox.name = mailbox.name ∨
        FallsBackTo db mailbox (lookupName mailbox.name) := by
  have henc := encodeMailboxName_ne_nil hr hne
  have hself : db.findMailboxId mailbox.userId (encodeMailboxName mailbox.name) = mailbox.id := by
    rw [findMailboxId_eq_iff hkeys hmem, lookupName_of_ne_nil (by rw [hr]; exact hne), hr]
    exact .inl rfl
  rw [reaches_iff_of_plain (plainToken_quoteString henc hpl hval) henc hpl, hr,
    findMailboxId_eq_iff hkeys hmem, and_iff_left hself]

/-- **The mailboxes that can be addressed by what LIST prints.** -/
theorem listedAddressable_iff : ListedAddressable db mailbox ↔ NameUsable db mailbox := by
  have htok : quoteString (encodeMailboxName mailbox.name) ∈ listTokens mailbox := by
    unfold listTokens
    split <;> simp
  constructor
  · intro h
    obtain ⟨hval, hre⟩ := h _ htok
    have hne := name_ne_nil_of_reaches hre
    have hpl := plain_of_reaches hkeys hmem hr hval hre
    have henc := encodeMailboxName_ne_nil hr hne
    refine ⟨hne, hpl, (isAstring_quoteString henc hpl).mp hval,
      (reaches_token_iff hkeys hmem hr hne hpl hval).mp hre, ?_⟩
    intro hbox
    have hinbox := h (bytes "INBOX") (by unfold listTokens; rw [if_pos hbox]; simp)
    exact (reaches_inbox_iff hkeys hmem).mp hinbox.2
  · intro h token hin
    have henc := encodeMailboxName_ne_nil hr h.nonempty
    have hval := (isAstring_quoteString henc h.plain).mpr h.chars
    have hown : Reaches db mailbox (quoteString (encodeMailboxName mailbox.name)) :=
      (reaches_token_iff hkeys hmem hr h.nonempty h.plain hval).mpr h.stable
    unfold listTokens at hin
    split at hin
    · rename_i hbox
      simp only [mem_cons, not_mem_nil, or_false] at hin
      rcases hin with rfl | rfl
      · exact ⟨by decide, (reaches_inbox_iff hkeys hmem).mpr (h.inbox hbox)⟩
      · exact ⟨hval, hown⟩
    · rw [mem_singleton.mp hin]
      exact ⟨hval, hown⟩

end Usable

def twoWordsDb : ImapDb where
  mailboxes :=
    [{ id := 1, userId := 1, name := bytes "Inbox mail", boxType := 1 },
      { id := 2, userId := 1, name := bytes "two words" }]

def twoWords : FolderRow := { id := 2, userId := 1, name := bytes "two words" }

theorem listedAddressable_twoWords :
    twoWordsDb.FoldersKeyed ∧ twoWords ∈ twoWordsDb.mailboxes ∧
      decodeMailboxName (encodeMailboxName twoWords.name) = twoWords.name ∧
      (ListedAddressable twoWordsDb twoWords ↔ NameUsable twoWordsDb twoWords) :=
  have hkeys : twoWordsDb.FoldersKeyed :=
    ⟨by decide, by decide, by decide⟩
  have hmem : twoWords ∈ twoWordsDb.mailboxes := by decide
  have hr : decodeMailboxName (encodeMailboxName twoWords.name) = twoWords.name := by
    decide
  ⟨hkeys, hmem, hr, listedAddressable_iff hkeys hmem hr⟩

/-- `RENAME "two words" x` looks for a mailbox whose name is a quote and the first word. -/
theorem not_forall_listedAddressable :
    ¬∀ (db : ImapDb) (mailbox : FolderRow), db.FoldersKeyed → mailbox ∈ db.mailboxes →
      decodeMailboxName (encodeMailboxName mailbox.name) = mailbox.name →
      ListedAddressable db mailbox := by
  intro h
  have hl := h twoWordsDb twoWords ⟨by decide, by decide, by decide⟩
    (by decide) (by decide)
  have hre := (hl (bytes "\"two words\"") (by decide)).2.rename (bytes "x") (by decide)
  exact absurd hre (by decide)

end ProtoRelay
