import Mathlib.Data.List.TakeWhile
import ProtoRelay.Base.Bytes
import ProtoRelay.Base.Lines
import ProtoRelay.Base.Loops

/-!
# The HTML sanitizer of the webmail

`html_sanitize::sanitize` scans the text of a mail from left to right and writes what it lets
through.  The position of the scanner is embedded as the rest of the input from there on; everything
the source looks at lies in it.
-/

namespace ProtoRelay

open List

namespace HtmlSanitize

/-! ## Characters -/

variable (b : UInt8)

def isAlpha : Bool := (65 ≤ b && b ≤ 90) || (97 ≤ b && b ≤ 122)

def isAlnum : Bool := isAlpha b || (48 ≤ b && b ≤ 57)

/-- `is_tag_name_char`: also `-`, `:` and `_`. -/
def isTagNameChar : Bool := isAlnum b || b == 45 || b == 58 || b == 95

def isWs : Bool := b == 32 || b == 9 || b == 10 || b == 13 || b == 12

/-! ## Escapes -/

def escapeByte : Bytes :=
  if b = 38 then bytes "&amp;"
  else if b = 60 then bytes "&lt;"
  else if b = 62 then bytes "&gt;"
  else if b = 34 then bytes "&quot;"
  else [b]

variable (s : Bytes)

/-- `append_escaped`: what is appended for `s`. -/
def appendEscaped : Bytes := s.flatMap escapeByte

def appendUtf8 (cp : Nat) : Bytes :=
  let tail (shift : Nat) : UInt8 := UInt8.ofNat (128 + cp / 2 ^ shift % 64)
  if cp < 0x80 then [UInt8.ofNat cp]
  else if cp < 0x800 then [UInt8.ofNat (192 + cp / 2 ^ 6), tail 0]
  else if cp < 0x10000 then [UInt8.ofNat (224 + cp / 2 ^ 12), tail 6, tail 0]
  else [UInt8.ofNat (240 + cp / 2 ^ 18), tail 12, tail 6, tail 0]

def digitValue : Nat :=
  if 48 ≤ b ∧ b ≤ 57 then b.toNat - 48
  else if 97 ≤ lowerByte b ∧ lowerByte b ≤ 122 then (lowerByte b).toNat - 87
  else 36

/-- The digits at the front of a text: their value from `acc`, and what follows them. -/
def readDigits (base : Nat) (acc : Nat) : Bytes → Nat × Bytes
  | [] => (acc, [])
  | b :: s =>
    if digitValue b < base then readDigits base (acc * base + digitValue b) s else (acc, b :: s)

/-- `std::strtoul` with base 10 or 16, and the text from `end` on: blanks, a sign and a `0x` may
precede the digits, a value that is too large saturates, and nothing is read where there is no
digit. -/
def strtoul (base : Nat) (s : Bytes) : Nat × Bytes :=
  let t := s.dropWhile fun b => b == 32 || (9 ≤ b && b ≤ 13)
  let negative := t.head? == some 45
  let t := if t.head? == some 45 || t.head? == some 43 then t.drop 1 else t
  let hexed := base == 16 && toLower (t.take 2) == bytes "0x" &&
    (t.drop 2).head?.any fun b => digitValue b < 16
  let t := if hexed then t.drop 2 else t
  if t.head?.any fun b => digitValue b < base then
    let r := readDigits base 0 t
    let value := if 2 ^ 64 ≤ r.1 then 2 ^ 64 - 1 else if negative then (2 ^ 64 - r.1) % 2 ^ 64
      else r.1
    (value, r.2)
  else (0, s)

/-- The entity behind an ampersand, in `decode_entities`: what it stands for, and its length with
the semicolon. -/
def entityAt : Option (Bytes × Nat) :=
  match findByte 59 s with
  | none => none
  | some k =>
    if 12 < k + 1 then none
    else
      let ent := s.take k
      if ent = bytes "amp" then some ([38], k + 1)
      else if ent = bytes "lt" then some ([60], k + 1)
      else if ent = bytes "gt" then some ([62], k + 1)
      else if ent = bytes "quot" then some ([34], k + 1)
      else if ent = bytes "apos" then some ([39], k + 1)
      else if 2 ≤ ent.length ∧ ent.head? = some 35 then
        let hex := (ent.drop 1).head?.any fun b => b == 120 || b == 88
        -- `c_str` ends at the first zero
        let text := (ent.drop (if hex then 2 else 1)).takeWhile (· != 0)
        let cp := strtoul (if hex then 16 else 10) text
        if cp.2 = [] ∧ 0 < cp.1 ∧ cp.1 < 0x11000 then some (appendUtf8 cp.1, k + 1) else none
      else none

/-- The loop of `decode_entities`; the bytes of an entity that was decoded are skipped. -/
def decodeFrom : Nat → Bytes → Bytes
  | _, [] => []
  | skip + 1, _ :: s => decodeFrom skip s
  | 0, b :: s =>
    if b ≠ 38 then b :: decodeFrom 0 s
    else
      match entityAt s with
      | some (text, len) => text ++ decodeFrom len s
      | none => b :: decodeFrom 0 s

def decodeEntities : Bytes := decodeFrom 0 s

/-! ## Policy -/

def safeUrl (raw : Bytes) : Bool :=
  let rest := toLower (raw.dropWhile fun b => isWs b || b < 32)
  (bytes "http://").isPrefixOf rest || (bytes "https://").isPrefixOf rest ||
  (bytes "mailto:").isPrefixOf rest

def kAllowedTags : List Bytes :=
  ["a", "abbr", "b", "bdi", "bdo", "blockquote", "br", "caption", "center", "cite", "code", "col",
    "colgroup", "dd", "del", "dfn", "div", "dl", "dt", "em", "figcaption", "figure", "font", "h1",
    "h2", "h3", "h4", "h5", "h6", "hr", "i", "img", "ins", "kbd", "li", "mark", "ol", "p", "pre",
    "q", "s", "samp", "small", "span", "strike", "strong", "sub", "sup", "table", "tbody", "td",
    "tfoot", "th", "thead", "tr", "u", "ul"].map bytes

def isStripWithContent (tag : Bytes) : Bool :=
  tag ∈ ["script", "style", "iframe", "object", "embed", "applet", "title", "svg", "math",
    "noscript", "template", "head", "frame", "frameset", "xmp", "plaintext", "textarea"].map bytes

def isAllowedTag (tag : Bytes) : Bool := tag ∈ kAllowedTags

/-- What `attr_policy` says of an attribute. -/
inductive AttrPolicy
  | strip | keep | checkUrl
  deriving DecidableEq

def attrPolicy (tag attr : Bytes) : AttrPolicy :=
  if tag = bytes "a" ∧ attr = bytes "href" then .checkUrl
  else if tag = bytes "a" ∧ attr = bytes "title" then .keep
  else if tag = bytes "img" then
    if attr ∈ ["alt", "width", "height", "align"].map bytes then .keep else .strip
  else if tag = bytes "font" ∧ attr ∈ ["color", "face", "size"].map bytes then .keep
  else if tag ∈ ["td", "th", "table", "tr"].map bytes ∧
      attr ∈ ["bgcolor", "width", "height", "colspan", "rowspan", "align", "valign"].map bytes then
    .keep
  else if attr ∈ ["colspan", "rowspan"].map bytes then .keep
  else .strip

/-! ## Attributes -/

/-- An attribute that was read: its name in lower case, and its value with the entities decoded. -/
structure Attr where
  name : Bytes
  value : Bytes

def Attr.render (a : Attr) : Bytes :=
  bytes " " ++ a.name ++ bytes "=\"" ++ appendEscaped a.value ++ bytes "\""

/-- The value of an attribute, from behind its name: in quotes, bare, or missing; and the rest. -/
def readValue : Bytes × Bytes :=
  match s.dropWhile isWs with
  | [] => ([], [])
  | b :: q =>
    if b = 61 then
      match q.dropWhile isWs with
      | [] => ([], [])
      | quote :: v =>
        if quote = 34 ∨ quote = 39 then
          (v.takeWhile (· != quote), (v.dropWhile (· != quote)).drop 1)
        else
          ((quote :: v).takeWhile fun c => !isWs c && c != 62,
            (quote :: v).dropWhile fun c => !isWs c && c != 62)
    else ([], b :: q)

def isAttrNameChar : Bool := b != 61 && b != 62 && !isWs b && b != 47

/-- One turn of the loop that reads the attributes. -/
inductive AttrTurn
  /-- the text ends: the tag is dropped -/
  | unclosed
  /-- the tag ends, and the rest begins here -/
  | done (rest : Bytes)
  /-- a character is skipped -/
  | skip (rest : Bytes)
  /-- an attribute was read -/
  | attr (a : Attr) (rest : Bytes)

/-- The turn that begins at `s`. -/
def attrTurn : AttrTurn :=
  match s.dropWhile isWs with
  | [] => .unclosed
  | b :: t =>
    if b = 62 then .done t
    -- the slash of a tag that closes itself is passed, the angle bracket is not
    else if b = 47 ∧ t.head? = some 62 then .done t
    else
      let name := toLower ((b :: t).takeWhile isAttrNameChar)
      let name := (name.reverse.dropWhile (· == 47)).reverse
      if name = [] then .skip t
      else
        let v := readValue ((b :: t).dropWhile isAttrNameChar)
        .attr ⟨name, decodeEntities v.1⟩ v.2

def keepsAttr (tag : Bytes) (a : Attr) : Bool :=
  match attrPolicy tag a.name with
  | .strip => false
  | .keep => true
  | .checkUrl => safeUrl a.value

/-! ### Every turn moves on -/

theorem length_dropWhile_le (p : UInt8 → Bool) (s : Bytes) : (s.dropWhile p).length ≤ s.length :=
  (dropWhile_suffix p).length_le

theorem length_readValue_le : (readValue s).2.length ≤ s.length := by
  unfold readValue
  have hws := length_dropWhile_le isWs s
  split
  · exact Nat.zero_le _
  · rename_i b q hq
    rw [hq, length_cons] at hws
    split
    · have hws' := length_dropWhile_le isWs q
      split
      · exact Nat.zero_le _
      · rename_i quote v hv
        rw [hv, length_cons] at hws'
        split
        · have hquote := length_dropWhile_le (· != quote) v
          rw [length_drop]
          omega
        · have hbare := length_dropWhile_le (fun c => !isWs c && c != 62) (quote :: v)
          rw [length_cons] at hbare
          dsimp only
          omega
    · omega

/-- No slash is read into a name, so none is taken off its end. -/
theorem attrName_eq :
    ((toLower (s.takeWhile isAttrNameChar)).reverse.dropWhile (· == 47)).reverse =
      toLower (s.takeWhile isAttrNameChar) := by
  have hlower : ∀ b : UInt8, isAttrNameChar b = true → lowerByte b ≠ 47 :=
    forall_byte (by decide +kernel)
  have hnone : ∀ b ∈ (toLower (s.takeWhile isAttrNameChar)).reverse, ¬ (b == 47) = true := by
    intro b hb
    rw [mem_reverse, toLower, mem_map] at hb
    obtain ⟨c, hc, rfl⟩ := hb
    simpa using hlower c (mem_takeWhile_imp hc)
  rw [dropWhile_eq_self_iff.mpr fun hlen => hnone _ (getElem_mem hlen), reverse_reverse]

/-- The text from a turn on that does not end the tag. -/
def AttrTurn.rest? : AttrTurn → Option Bytes
  | .unclosed | .done _ => none
  | .skip rest | .attr _ rest => some rest

theorem length_lt_of_attrTurn {s rest : Bytes} (h : (attrTurn s).rest? = some rest) :
    rest.length < s.length := by
  unfold attrTurn at h
  have hws := length_dropWhile_le isWs s
  split at h
  · cases h
  · rename_i b t ht
    rw [ht, length_cons] at hws
    split at h
    · cases h
    · split at h
      · cases h
      · dsimp only at h
        split at h
        · cases h
          omega
        · rename_i hname
          cases h
          -- the name is not empty, so the value begins behind its first character
          have hb : isAttrNameChar b = true := by
            by_contra hb
            rw [takeWhile_cons_of_neg hb] at hname
            exact hname rfl
          rw [dropWhile_cons_of_pos hb]
          have hval := length_readValue_le (t.dropWhile isAttrNameChar)
          have hrest := length_dropWhile_le isAttrNameChar t
          omega

/-- The loop that reads the attributes of a tag: those that are written out, and the rest behind the
tag.  A tag that is not closed has none. -/
def readAttrs (tag : Bytes) (s : Bytes) : Option (List Attr × Bytes) :=
  match h : attrTurn s with
  | .unclosed => none
  | .done rest => some ([], rest)
  | .skip rest =>
    have : rest.length < s.length := length_lt_of_attrTurn (by rw [h]; rfl)
    readAttrs tag rest
  | .attr a rest =>
    have : rest.length < s.length := length_lt_of_attrTurn (by rw [h]; rfl)
    (readAttrs tag rest).map fun r => (if keepsAttr tag a then a :: r.1 else r.1, r.2)
termination_by s.length

/-! ## The main loop -/

/-- The text behind the first `c`; the end of the text if there is none. -/
def afterByte (c : UInt8) (s : Bytes) : Bytes := (s.dropWhile (· != c)).drop 1

/-- What a turn of the main loop finds. -/
inductive Lexeme
  /-- text up to the next `<` -/
  | text (chunk : Bytes)
  /-- a comment, a declaration or a processing instruction -/
  | skipped
  /-- a `<` that begins nothing -/
  | literal
  | closing (name : Bytes)
  | opening (name : Bytes) (attrs : List Attr)
  /-- an element that is left out with its content -/
  | stripped
  /-- a tag that is not closed: the rest of the text is dropped -/
  | unclosed

/-- The content of a stripped element up to its closing tag, in any case, or to the end. -/
def afterElement (name : Bytes) (s : Bytes) : Bytes :=
  let closer := bytes "</" ++ name
  match cutAt closer (toLower s) with
  | none => []
  | some (content, _) => afterByte 62 (s.drop (content.length + closer.length))

/-- A tag from its name on, and the rest of the text. -/
def readTag (closing : Bool) (p : Bytes) : Lexeme × Bytes :=
  let name := toLower (p.takeWhile isTagNameChar)
  let p := p.dropWhile isTagNameChar
  if closing then
    if 62 ∈ p then (.closing name, afterByte 62 p) else (.unclosed, [])
  else
    match readAttrs name p with
    | none => (.unclosed, [])
    | some (attrs, p) =>
      if isStripWithContent name then (.stripped, afterElement name p) else (.opening name attrs, p)

/-- The lexeme at the front of a text that is not empty, and the rest of the text. -/
def nextLexeme : Lexeme × Bytes :=
  match s with
  | [] => (.skipped, [])
  | b :: t =>
    if b ≠ 60 then (.text (s.takeWhile (· != 60)), s.dropWhile (· != 60))
    else if (bytes "<!--").isPrefixOf s then
      match cutAt (bytes "-->") (s.drop 4) with
      | none => (.skipped, [])
      | some (_, rest) => (.skipped, rest)
    else if (bytes "<!").isPrefixOf s then (.skipped, afterByte 62 (s.drop 2))
    else if (bytes "<?").isPrefixOf s then (.skipped, afterByte 62 (s.drop 2))
    else
      let closing := t.head? == some 47
      let p := if closing then t.drop 1 else t
      if !p.head?.any isAlpha then (.literal, t) else readTag closing p

def openingTag (name : Bytes) (attrs : List Attr) : Bytes :=
  bytes "<" ++ name ++ attrs.flatMap Attr.render ++ bytes ">"

def closingTag (name : Bytes) : Bytes := bytes "</" ++ name ++ bytes ">"

/-- One turn of the main loop, on the output and the rest of the input. -/
def sanitizeStep : Bytes × Bytes → Option (Bytes × Bytes)
  | (_, []) => none
  | (out, s) =>
    match nextLexeme s with
    | (.text chunk, rest) => some (out ++ appendEscaped (decodeEntities chunk), rest)
    | (.literal, rest) => some (out ++ bytes "&lt;", rest)
    | (.closing name, rest) =>
      some (if isAllowedTag name then out ++ closingTag name else out, rest)
    | (.opening name attrs, rest) =>
      -- for a name that is not listed the source continues without moving its position
      if isAllowedTag name then some (out ++ openingTag name attrs, rest) else some (out, s)
    | (.skipped, rest) | (.stripped, rest) | (.unclosed, rest) => some (out, rest)

/-- `sanitize(input)` returns `out`. -/
def Sanitizes (input out : Bytes) : Prop := Returns sanitizeStep ([], input) (out, [])

end HtmlSanitize

end ProtoRelay
