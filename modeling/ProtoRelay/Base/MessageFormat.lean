import ProtoRelay.Base.Bytes

/-!
# The internet message format

Header blocks and the mailbox lists of RFC 5322, as relations between a text and what it denotes.
Only the current forms are given, without the obsolete ones.  White space is what remains of folding
white space once a field is unfolded, so it has no line ends.

## Main results

* `splitFields_cons_of_continuation`, `splitFields_cons_of_not_continuation`: one more line
-/

namespace ProtoRelay.MessageFormat

/-! ## Header blocks -/

def isWsp (b : UInt8) : Bool := b == 32 || b == 9

/-- A line that goes on with the field before it. -/
def isContinuationLine (line : Bytes) : Bool := line.head?.any isWsp

/-- Put a line in front of the continuation lines and the fields that follow it. -/
def attachLine (line : Bytes) (rest : List Bytes × List (Bytes × List Bytes)) :
    List Bytes × List (Bytes × List Bytes) :=
  if isContinuationLine line then (line :: rest.1, rest.2) else ([], (line, rest.1) :: rest.2)

/-- The continuation lines at the start, and the fields behind them. -/
def splitFields (lines : List Bytes) : List Bytes × List (Bytes × List Bytes) :=
  lines.foldr attachLine ([], [])

def fields (lines : List Bytes) : List (Bytes × List Bytes) := (splitFields lines).2

@[simp] theorem splitFields_nil : splitFields [] = ([], []) := rfl

theorem splitFields_cons_of_continuation {line : Bytes} (h : isContinuationLine line = true)
    (lines : List Bytes) :
    splitFields (line :: lines) = (line :: (splitFields lines).1, (splitFields lines).2) := by
  simp [splitFields, attachLine, h]

theorem splitFields_cons_of_not_continuation {line : Bytes} (h : isContinuationLine line = false)
    (lines : List Bytes) :
    splitFields (line :: lines) = ([], (line, (splitFields lines).1) :: (splitFields lines).2) := by
  simp [splitFields, attachLine, h]

/-- The lines of a header block: each ends in CRLF, and an empty line or the end follows. -/
def IsBlock (raw : Bytes) (lines : List Bytes) : Prop :=
  ∃ rest, raw = lines.flatMap (· ++ [13, 10]) ++ rest ∧
    (∀ l ∈ lines, l ≠ [] ∧ 13 ∉ l ∧ 10 ∉ l) ∧ (rest = [] ∨ ∃ t, rest = 13 :: 10 :: t)

/-- The first line of a field: its name, in whatever case, a colon, and text. -/
def Names (name : Bytes) (line text : Bytes) : Prop :=
  ∃ written, line = written ++ 58 :: text ∧ 58 ∉ written ∧ toLower written = name

/-! ## Comments and white space -/

/-- Visible characters and white space. -/
def IsQuotable (b : UInt8) : Prop := 33 ≤ b ∧ b ≤ 126 ∨ isWsp b = true

/-- The text of a comment, with the comments in it. -/
inductive CommentText : Bytes → Prop
  | nil : CommentText []
  | blank {b : UInt8} {s : Bytes} : isWsp b = true → CommentText s → CommentText (b :: s)
  | char {b : UInt8} {s : Bytes} : 33 ≤ b ∧ b ≤ 126 → b ≠ 40 → b ≠ 41 → b ≠ 92 → CommentText s →
      CommentText (b :: s)
  | pair {b : UInt8} {s : Bytes} : IsQuotable b → CommentText s → CommentText (92 :: b :: s)
  | nested {c s : Bytes} : CommentText c → CommentText s → CommentText (40 :: c ++ 41 :: s)

/-- Comments and white space, perhaps none. -/
inductive Cfws : Bytes → Prop
  | nil : Cfws []
  | blank {b : UInt8} {s : Bytes} : isWsp b = true → Cfws s → Cfws (b :: s)
  | comment {c s : Bytes} : CommentText c → Cfws s → Cfws (40 :: c ++ 41 :: s)

/-! ## Words -/

/-- The characters of atoms. -/
def isAtext (b : UInt8) : Bool :=
  65 ≤ b && b ≤ 90 || 97 ≤ b && b ≤ 122 || 48 ≤ b && b ≤ 57 ||
    (bytes "!#$%&'*+-/=?^_`\x7b|\x7d~").contains b

def Atom (s : Bytes) : Prop := s ≠ [] ∧ ∀ b ∈ s, isAtext b = true

inductive DotAtom : Bytes → Prop
  | atom {s : Bytes} : Atom s → DotAtom s
  | dot {s t : Bytes} : Atom s → DotAtom t → DotAtom (s ++ 46 :: t)

/-- The text of a quoted string. -/
inductive QuotedText : Bytes → Prop
  | nil : QuotedText []
  | blank {b : UInt8} {s : Bytes} : isWsp b = true → QuotedText s → QuotedText (b :: s)
  | char {b : UInt8} {s : Bytes} : 33 ≤ b ∧ b ≤ 126 → b ≠ 34 → b ≠ 92 → QuotedText s →
      QuotedText (b :: s)
  | pair {b : UInt8} {s : Bytes} : IsQuotable b → QuotedText s → QuotedText (92 :: b :: s)

def QuotedString (s : Bytes) : Prop := ∃ t, s = 34 :: t ++ [34] ∧ QuotedText t

/-- The text `s` is a `T` between comments and white space. -/
def Padded (T : Bytes → Prop) (s : Bytes) : Prop :=
  ∃ a t b, s = a ++ t ++ b ∧ Cfws a ∧ T t ∧ Cfws b

/-! ## Addresses -/

def LocalPart : Bytes → Prop := Padded fun t => DotAtom t ∨ QuotedString t

def DomainLiteral (s : Bytes) : Prop :=
  ∃ t, s = 91 :: t ++ [93] ∧
    ∀ b ∈ t, 33 ≤ b ∧ b ≤ 126 ∧ b ≠ 91 ∧ b ≠ 92 ∧ b ≠ 93 ∨ isWsp b = true

/-- The text `s` is the domain `d` with the comments and the white space around it. -/
def Domain (s d : Bytes) : Prop := Padded (fun t => t = d ∧ (DotAtom t ∨ DomainLiteral t)) s

/-- An address with its domain. -/
def AddrSpec (s d : Bytes) : Prop := ∃ l t, s = l ++ 64 :: t ∧ LocalPart l ∧ Domain t d

inductive Phrase : Bytes → Prop
  | word {s : Bytes} : Padded (fun t => Atom t ∨ QuotedString t) s → Phrase s
  | words {s t : Bytes} : Padded (fun t => Atom t ∨ QuotedString t) s → Phrase t → Phrase (s ++ t)

/-- An address with its domain, alone or in angle brackets behind a display name. -/
inductive Mailbox : Bytes → Bytes → Prop
  | addrSpec {s d : Bytes} : AddrSpec s d → Mailbox s d
  | nameAddr {name s d : Bytes} : Phrase name ∨ name = [] →
      Padded (fun t => ∃ a, t = 60 :: a ++ [62] ∧ AddrSpec a d) s → Mailbox (name ++ s) d

/-- Mailboxes with commas between them, and their domains. -/
inductive MailboxList : Bytes → List Bytes → Prop
  | single {s d : Bytes} : Mailbox s d → MailboxList s [d]
  | cons {s t d : Bytes} {ds : List Bytes} : Mailbox s d → MailboxList t ds →
      MailboxList (s ++ 44 :: t) (d :: ds)

/-- A field of that name, unfolded, is a mailbox list with a mailbox in the domain `d`. -/
def HasMailbox (raw name d : Bytes) : Prop :=
  ∃ lines, IsBlock raw lines ∧ ∃ f ∈ fields lines, ∃ text, Names name f.1 text ∧
    ∃ ds, MailboxList (text ++ f.2.flatten) ds ∧ d ∈ ds

end ProtoRelay.MessageFormat
