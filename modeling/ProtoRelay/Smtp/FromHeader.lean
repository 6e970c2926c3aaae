import ProtoRelay.Base.MessageFormat
import ProtoRelay.Smtp.Isolation

/-!
# The boundary for local From addresses

A client from outside may not send a mail whose From header has a local address.  The server takes
the first From value of the header block, looks for the first `<` and the first `>` in it, and reads
the domain behind the first `@` between them.  This module says for which texts that finds a local
domain, and compares it with the mailboxes that the From fields have by the message format.
-/

namespace ProtoRelay

open List AccountPolicy

open MessageFormat

/-! ## Fields -/

def headerLines (raw : Bytes) : List Bytes :=
  ((getLines raw).map stripCr).takeWhile (· ≠ [])

/-- The text of a field and its continuation lines, with one blank between them. -/
def joinedText (text : Bytes) (continuations : List Bytes) : Bytes :=
  trimBlank text ++ continuations.flatMap (32 :: trimBlank ·)

/-- The value a line of that name gives, if it gives one. -/
def valueOf (name : Bytes) (f : Bytes × List Bytes) : Option Bytes :=
  match findByte 58 f.1 with
  | none => none
  | some colon =>
    let value := joinedText (f.1.drop (colon + 1)) f.2
    if toLower (f.1.take colon) = name ∧ value ≠ [] then some value else none

theorem valueOf_eq_some_iff {name v : Bytes} {f : Bytes × List Bytes} :
    valueOf name f = some v ↔ ∃ text, Names name f.1 text ∧ v = joinedText text f.2 ∧ v ≠ [] := by
  obtain ⟨line, conts⟩ := f
  constructor
  · intro h
    unfold valueOf at h
    split at h
    · cases h
    · next colon hcolon =>
      obtain ⟨written, text, rfl, hwritten, rfl⟩ := findByte_eq_some_iff.mp hcolon
      simp only [take_left, drop_length_add_append, drop_succ_cons, drop_zero] at h
      split at h
      · next hval =>
        obtain rfl := Option.some.inj h
        exact ⟨text, ⟨written, rfl, hwritten, hval.1⟩, rfl, hval.2⟩
      · cases h
  · rintro ⟨text, ⟨written, rfl, hwritten, hname⟩, rfl, hv⟩
    have hcolon := findByte_append_of_not_mem hwritten text
    have hdrop : (written ++ 58 :: text).drop (written.length + 1) = text := by simp
    simp only [valueOf, hcolon, hdrop, take_left]
    rw [if_pos ⟨hname, hv⟩]

/-- The field read so far, with the continuation lines still to come. -/
def pendingValue (name curName value : Bytes) : List Bytes :=
  if toLower curName = name ∧ value ≠ [] then [value] else []

theorem pendingValue_nil {name : Bytes} (hname : name ≠ []) (value : Bytes) :
    pendingValue name [] value = [] :=
  if_neg fun h => hname h.1.symm

theorem filterMap_valueOf_cons (name line : Bytes) (conts : List Bytes)
    (fs : List (Bytes × List Bytes)) :
    ((line, conts) :: fs).filterMap (valueOf name) = (match findByte 58 line with
        | some colon =>
          pendingValue name (line.take colon) (joinedText (line.drop (colon + 1)) conts)
        | none => []) ++ fs.filterMap (valueOf name) := by
  cases hcolon : findByte 58 line with
  | none => simp [valueOf, hcolon]
  | some colon =>
    by_cases hval : toLower (line.take colon) = name ∧
        joinedText (line.drop (colon + 1)) conts ≠ []
    · simp [valueOf, hcolon, pendingValue, hval]
    · simp [valueOf, hcolon, pendingValue, hval]

/-- **The loop over the lines**: it gives the value of the field it is in, and then the values of
the fields that follow. -/
theorem headerValuesFrom_eq {name : Bytes} (hname : name ≠ []) (lines : List Bytes)
    (curName curVal : Bytes) :
    headerValuesFrom name lines curName curVal = pendingValue name curName (curVal ++
          (splitFields ((lines.map stripCr).takeWhile (· ≠ []))).1.flatMap (32 :: trimBlank ·)) ++
        (splitFields ((lines.map stripCr).takeWhile (· ≠ []))).2.filterMap (valueOf name) := by
  induction lines generalizing curName curVal with
  | nil => simp [headerValuesFrom, pendingValue]
  | cons line lines ih =>
    unfold headerValuesFrom
    rw [map_cons]
    cases hline : stripCr line with
    | nil => simp [pendingValue]
    | cons b rest =>
      have htake : (((b :: rest) :: lines.map stripCr).takeWhile (· ≠ [])) =
          (b :: rest) :: (lines.map stripCr).takeWhile (· ≠ []) := by simp
      rw [htake]
      dsimp only
      by_cases hb : b = 32 ∨ b = 9
      · -- a continuation line; without a name nothing comes of it
        have hcont : isContinuationLine (b :: rest) = true := by
          simpa [isContinuationLine, isWsp] using hb
        rw [if_pos hb, splitFields_cons_of_continuation hcont]
        by_cases hcur : curName = []
        · subst hcur
          rw [if_pos rfl, ih, pendingValue_nil hname, pendingValue_nil hname]
        · have hblank : bytes " " = [32] := by decide
          rw [if_neg hcur, ih, hblank]
          simp
      · have hcont : isContinuationLine (b :: rest) = false := by
          simpa [isContinuationLine, isWsp] using hb
        rw [if_neg hb, splitFields_cons_of_not_continuation hcont, filterMap_valueOf_cons]
        have hemitted : (if toLower curName = name ∧ curVal ≠ [] then [curVal] else []) =
            pendingValue name curName
              (curVal ++ ([] : List Bytes).flatMap (32 :: trimBlank ·)) := by
          simp [pendingValue]
        congr 1
        cases hcolon : findByte 58 (b :: rest) with
        | none =>
          rw [ih, pendingValue_nil hname]
        | some colon => exact ih _ _

/-- `get_header_values` gives the values of the fields. -/
theorem getHeaderValues_eq {name : Bytes} (hname : name ≠ []) (raw : Bytes) :
    getHeaderValues raw name = (fields (headerLines raw)).filterMap (valueOf name) := by
  rw [getHeaderValues, headerValuesFrom_eq hname, pendingValue_nil hname]
  rfl

/-- The first value of a field of that name that is not empty. -/
def FirstValue (raw name v : Bytes) : Prop :=
  ∃ before f after, fields (headerLines raw) = before ++ f :: after ∧
    (∀ g ∈ before, ∀ text, Names name g.1 text → joinedText text g.2 = []) ∧
    ∃ text, Names name f.1 text ∧ v = joinedText text f.2 ∧ v ≠ []

theorem firstValue_iff {raw name v : Bytes} (hname : name ≠ []) :
    FirstValue raw name v ↔ (getHeaderValues raw name).head? = some v := by
  have he : ∀ g, valueOf name g = none ↔
      ∀ text, Names name g.1 text → joinedText text g.2 = [] := by
    intro g
    constructor
    · intro h text htext
      by_contra hne
      rw [valueOf_eq_some_iff.mpr ⟨text, htext, rfl, hne⟩] at h
      cases h
    · intro h
      by_contra hne
      obtain ⟨v, hv⟩ := Option.ne_none_iff_exists'.mp hne
      obtain ⟨text, htext, rfl, hnil⟩ := valueOf_eq_some_iff.mp hv
      exact hnil (h text htext)
  rw [getHeaderValues_eq hname, head?_filterMap, findSome?_eq_some_iff]
  simp only [FirstValue, valueOf_eq_some_iff, he]
  exact exists₃_congr fun before f after => and_congr_right fun _ => and_comm

/-! ## The domain the server sees -/

/-- Behind the first `@` stands the domain. -/
def AtDomain (domain addr : Bytes) : Prop :=
  ∃ l d, addr = l ++ 64 :: d ∧ 64 ∉ l ∧ d ≠ [] ∧ toLower d = toLower domain

/-- The values in which the server sees the domain. -/
inductive LooksLocal (domain : Bytes) : Bytes → Prop
  /-- the address is between the first `<` and the first `>` -/
  | bracketed {name addr rest : Bytes} : 60 ∉ name → 62 ∉ name → 62 ∉ addr →
      AtDomain domain addr → LooksLocal domain (name ++ 60 :: (addr ++ 62 :: rest))
  /-- the first `>` is in front of the first `<`, and the address goes to the end -/
  | reversed {name addr : Bytes} : 60 ∉ name → 62 ∈ name → AtDomain domain addr →
      LooksLocal domain (name ++ 60 :: addr)
  /-- a bracket is missing, and the address is the whole value -/
  | bare {value : Bytes} : 60 ∉ value ∨ 62 ∉ value → AtDomain domain value →
      LooksLocal domain value

namespace AccountPolicy

/-- The domain behind the first `@` of the address. -/
theorem fromHeaderIsLocal_eq_true_iff {v domain : Bytes} :
    fromHeaderIsLocal v domain = true ↔ AtDomain domain (fromHeaderSpan v) := by
  unfold fromHeaderIsLocal fromHeaderDomain fromHeaderAddressDomain
  dsimp only
  cases hat : findByte 64 (fromHeaderSpan v) with
  | none =>
    refine ⟨fun h => by simp at h, ?_⟩
    rintro ⟨l, d, haddr, -⟩
    have hmem : 64 ∈ fromHeaderSpan v := by simp [haddr]
    exact absurd hmem (findByte_eq_none_iff.mp hat)
  | some pos =>
    obtain ⟨l, d, haddr, hl, rfl⟩ := findByte_eq_some_iff.mp hat
    have hdrop : (fromHeaderSpan v).drop (l.length + 1) = d := by simp [haddr]
    dsimp only
    rw [hdrop]
    constructor
    · intro h
      simp only [Bool.and_eq_true, Bool.not_eq_true', isEmpty_eq_false_iff, ne_eq,
        toLower_eq_nil_iff, beq_iff_eq] at h
      exact ⟨l, d, haddr, hl, h.1, h.2⟩
    · rintro ⟨l', d', haddr', hl', hd', hdom⟩
      -- both split the address at its first `@`
      rw [haddr] at haddr'
      obtain ⟨-, rfl⟩ := split_at_first_inj hl hl' haddr'
      rw [← hdom]
      simp [hd']

theorem fromHeaderSpan_bracketed {name addr : Bytes} (h60 : 60 ∉ name) (h62 : 62 ∉ name)
    (haddr : 62 ∉ addr) (rest : Bytes) :
    fromHeaderSpan (name ++ 60 :: (addr ++ 62 :: rest)) = addr := by
  have hlt := findByte_append_of_not_mem h60 (addr ++ 62 :: rest)
  have hgt : findByte 62 (name ++ 60 :: (addr ++ 62 :: rest)) =
      some (name ++ 60 :: addr).length := by
    have hno : 62 ∉ name ++ 60 :: addr := by simp [h62, haddr]
    simpa using findByte_append_of_not_mem hno rest
  have hlen : (name ++ 60 :: addr).length - name.length - 1 = addr.length := by
    simp only [length_append, length_cons]
    omega
  simp only [fromHeaderSpan, hlt, hgt]
  simp

theorem fromHeaderSpan_reversed {name : Bytes} (h60 : 60 ∉ name) (h62 : 62 ∈ name)
    (addr : Bytes) : fromHeaderSpan (name ++ 60 :: addr) = addr := by
  have hlt := findByte_append_of_not_mem h60 addr
  obtain ⟨front, back, rfl, hfront⟩ := eq_append_cons_of_mem h62
  have hgt : findByte 62 (front ++ 62 :: back ++ 60 :: addr) = some front.length := by
    simpa using findByte_append_of_not_mem hfront (back ++ 60 :: addr)
  simp only [fromHeaderSpan, hlt, hgt]
  rw [if_neg (by simp), drop_length_add_append]
  rfl

theorem fromHeaderSpan_bare {v : Bytes} (h : 60 ∉ v ∨ 62 ∉ v) : fromHeaderSpan v = v := by
  unfold fromHeaderSpan
  rcases h with h | h
  · rw [findByte_eq_none_iff.mpr h]
  · rw [findByte_eq_none_iff.mpr h]
    cases findByte 60 v <;> rfl

/-- **The values in which the server sees a local domain.** -/
theorem fromHeaderIsLocal_iff {v domain : Bytes} :
    fromHeaderIsLocal v domain = true ↔ LooksLocal domain v := by
  rw [fromHeaderIsLocal_eq_true_iff]
  constructor
  · intro h
    by_cases hmiss : 60 ∉ v ∨ 62 ∉ v
    · rw [fromHeaderSpan_bare hmiss] at h
      exact .bare hmiss h
    · rw [not_or, not_not] at hmiss
      obtain ⟨name, behind, rfl, h60⟩ := eq_append_cons_of_mem hmiss.1
      -- where the first `>` is decides
      by_cases h62 : 62 ∈ name
      · rw [fromHeaderSpan_reversed h60 h62] at h
        exact .reversed h60 h62 h
      · have hbehind : 62 ∈ behind := by simpa [h62] using hmiss.2
        obtain ⟨addr, rest, rfl, haddr⟩ := eq_append_cons_of_mem hbehind
        rw [fromHeaderSpan_bracketed h60 h62 haddr] at h
        exact .bracketed h60 h62 haddr h
  · intro h
    cases h with
    | bracketed h60 h62 haddr hat => rwa [fromHeaderSpan_bracketed h60 h62 haddr]
    | reversed h60 h62 hat => rwa [fromHeaderSpan_reversed h60 h62]
    | bare hmiss hat => rwa [fromHeaderSpan_bare hmiss]

end AccountPolicy

/-! ## The boundary -/

/-- A From field has a mailbox in the domain, letter case aside. -/
def HasLocalFrom (raw domain : Bytes) : Prop :=
  ∃ d, HasMailbox raw (bytes "from") d ∧ toLower d = toLower domain

/-- The first From value has a form in which the server sees the domain. -/
def FirstFromLooksLocal (raw domain : Bytes) : Prop :=
  ∃ v, FirstValue raw (bytes "from") v ∧ LooksLocal domain v

theorem fromHeaderIsLocal_extract_iff {raw domain : Bytes} :
    fromHeaderIsLocal (extractFromHeaderValue raw) domain = true ↔
      FirstFromLooksLocal raw domain := by
  have hname : bytes "from" ≠ [] := by decide
  unfold extractFromHeaderValue FirstFromLooksLocal
  simp only [firstValue_iff hname, ← fromHeaderIsLocal_iff]
  cases getHeaderValues raw (bytes "from") with
  | nil => simp [fromHeaderIsLocal, fromHeaderDomain, fromHeaderAddressDomain, fromHeaderSpan]
  | cons v vs => simp

namespace Session

variable (env : SmtpEnv) (cfg : ServerConfig)

/-- A local address in a From field is seen, and the mail of a client from outside is then
rejected. -/
def FromBoundary (s : Session) : Prop :=
  HasLocalFrom s.ctx.headerBuffer cfg.systemDomain →
    fromHeaderIsLocal (extractFromHeaderValue s.ctx.headerBuffer) cfg.systemDomain = true ∧
      (cfg.rejectUnauthenticatedLocalSender = true → s.isOutsider env cfg = true →
        s.finishDataEndAfterRead env cfg = s.rejectAndClose
          (bytes "550 5.7.1 From header rejected: local domain requires authentication\r\n"))

theorem finishDataEndAfterRead_of_local {s : Session}
    (hrule : cfg.rejectUnauthenticatedLocalSender = true) (houtside : s.isOutsider env cfg = true)
    (hloc : fromHeaderIsLocal (extractFromHeaderValue s.ctx.headerBuffer) cfg.systemDomain = true) :
    s.finishDataEndAfterRead env cfg = s.rejectAndClose
      (bytes "550 5.7.1 From header rejected: local domain requires authentication\r\n") := by
  unfold finishDataEndAfterRead
  rw [if_pos]
  rw [hrule, houtside, hloc]
  rfl

/-- A message from outside whose From address is local. -/
def forgedMessage : Bytes := bytes "From: \"a>\" <admin@example.com>\r\n\r\nhi\r\n.\r\n"

/-- Its body has been committed, and the rules on the From header come next. -/
def forgedSession : Session :=
  run (step twoAccounts) (start twoAccounts exampleConfig exampleListener) (ehloDialog ++
      (exchange {} (bytes "MAIL FROM:<ann@remote.org>\r\n") ++
        exchange { cachedStatus := some 1 } (bytes "RCPT TO:<bob@example.com>\r\n") ++
        exchange { openWrite := .opened (bytes "body") } (bytes "DATA\r\n") ++
        exchange {} forgedMessage ++ [Input.commitDone .committed]).map (exampleConfig, ·))

theorem headerBuffer_forgedSession :
    forgedSession.ctx.headerBuffer = bytes "From: \"a>\" <admin@example.com>\r\n\r\n" := by
  decide +kernel

/-- The display name is a quoted string, and the address is in angle brackets behind it. -/
theorem mailbox_forged : Mailbox (bytes " \"a>\" <admin@example.com>") (bytes "example.com") := by
  have hname : Phrase (bytes " \"a>\" ") := by
    refine .word ⟨[32], bytes "\"a>\"", [32], by decide, .blank (by decide) .nil, .inr ?_,
      .blank (by decide) .nil⟩
    refine ⟨[97, 62], by decide, .char (by decide) (by decide) (by decide) ?_⟩
    exact .char (by decide) (by decide) (by decide) .nil
  have hloc : LocalPart (bytes "admin") :=
    ⟨[], bytes "admin", [], by decide, .nil, .inl (.atom ⟨by decide, all_eq_true.mp rfl⟩), .nil⟩
  have hdom : Domain (bytes "example.com") (bytes "example.com") := by
    refine ⟨[], bytes "example.com", [], by decide, .nil, ⟨rfl, .inl ?_⟩, .nil⟩
    exact .dot (s := bytes "example") ⟨by decide, all_eq_true.mp rfl⟩
      (.atom ⟨by decide, all_eq_true.mp rfl⟩)
  have haddr : AddrSpec (bytes "admin@example.com") (bytes "example.com") :=
    ⟨bytes "admin", bytes "example.com", by decide, hloc, hdom⟩
  have heq : bytes " \"a>\" <admin@example.com>" =
      bytes " \"a>\" " ++ bytes "<admin@example.com>" := by decide
  refine .nameAddr (.inl hname) ⟨[], bytes "<admin@example.com>", [], by decide, .nil, ?_, .nil⟩
  exact ⟨bytes "admin@example.com", by decide, haddr⟩

theorem hasLocalFrom_forged :
    HasLocalFrom forgedSession.ctx.headerBuffer exampleConfig.systemDomain := by
  refine ⟨bytes "example.com", ?_, rfl⟩
  rw [headerBuffer_forgedSession]
  refine ⟨[bytes "From: \"a>\" <admin@example.com>"],
    ⟨[13, 10], by decide, by decide, .inr ⟨[], rfl⟩⟩,
    (bytes "From: \"a>\" <admin@example.com>", []), by decide, bytes " \"a>\" <admin@example.com>",
    ⟨bytes "From", by decide, by decide, by decide⟩, [bytes "example.com"], ?_, mem_cons_self⟩
  exact .single mailbox_forged

end Session

end ProtoRelay
