import ProtoRelay.Base.Base64
import ProtoRelay.Imap.SafeParse

/-!
# MIME headers and their parameters

`mime_parameters.h`: the value of a header field, unfolded, and a parameter of it, with the
continuations and the encoding of extended parameters.
-/

namespace ProtoRelay

/-- `mime_params_detail::trim`. -/
def trimMime (s : Bytes) : Bytes := trimBy (fun b => b == 32 || b == 9) s

/-- The line continues the one before. -/
def isFolded (line : Bytes) : Bool := line.head? == some 32 || line.head? == some 9

def dropCr (line : Bytes) : Bytes := if line.getLast? = some 13 then line.dropLast else line

/-- The line is a field of that name, which is in lower case. -/
def isField (name line : Bytes) : Bool :=
  match findByte 58 line with
  | none => false
  | some colon => !isFolded line && toLower (line.take colon) == name

def mimeHeaderValue (headers name : Bytes) : Bytes :=
  match (pieces 10 headers).dropWhile (! isField name ·) with
  | [] => []
  | line :: rest =>
    (rest.takeWhile isFolded).foldl (fun value l => value ++ bytes " " ++ trimMime (dropCr l))
      (trimMime ((dropCr line).drop (((findByte 58 line).getD 0) + 1)))

/-! ## Parameters -/

def hexValue (b : UInt8) : Option Nat :=
  if 48 ≤ b ∧ b ≤ 57 then some (b.toNat - 48)
  else if 97 ≤ b ∧ b ≤ 102 then some (b.toNat - 97 + 10)
  else if 65 ≤ b ∧ b ≤ 70 then some (b.toNat - 65 + 10)
  else none

/-- The byte of two hexadecimal digits, if it is not 0. -/
def percentByte (h l : UInt8) : Option UInt8 :=
  match hexValue h, hexValue l with
  | some h, some l => if h * 16 + l = 0 then none else some (UInt8.ofNat (h * 16 + l))
  | _, _ => none

/-- The loop of `mime_percent_decode`, which has still to pass two digits. -/
def percentDecodeFrom : Nat → Bytes → Bytes
  | _, [] => []
  | skip + 1, _ :: rest => percentDecodeFrom skip rest
  | 0, c :: rest =>
    match if c = 37 ∧ 2 ≤ rest.length then percentByte (rest.getD 0 0) (rest.getD 1 0)
      else none with
    | some b => b :: percentDecodeFrom 2 rest
    | none => c :: percentDecodeFrom 0 rest

def mimePercentDecode (value : Bytes) : Bytes := percentDecodeFrom 0 value

/-- A quoted value from behind its quote, and the text behind the closing one. -/
def quotedValue : Bytes → Bytes × Bytes
  | [] => ([], [])
  | 34 :: rest => ([], rest)
  | 92 :: c :: rest => (c :: (quotedValue rest).1, (quotedValue rest).2)
  | c :: rest => (c :: (quotedValue rest).1, (quotedValue rest).2)

def skipBlanks (s : Bytes) : Bytes := s.dropWhile fun b => b == 32 || b == 9

def afterSemicolon (s : Bytes) : Option Bytes := (findByte 59 s).map fun i => s.drop (i + 1)

/-- The parameters in the text behind a semicolon.  Every round passes a semicolon. -/
def mimeParameters : Nat → Bytes → List (Bytes × Bytes)
  | 0, _ => []
  | fuel + 1, text =>
    let text := skipBlanks text
    let next (text : Bytes) := ((afterSemicolon text).map (mimeParameters fuel)).getD []
    match findByte 61 text with
    | none => next text
    | some eq =>
      if ((findByte 59 text).map fun semi => decide (semi < eq)).getD false then next text
      else
        let key := toLower (trimMime (text.take eq))
        let text := skipBlanks (text.drop (eq + 1))
        match text with
        | 34 :: quoted => (key, (quotedValue quoted).1) :: next (quotedValue quoted).2
        | _ => (key, trimMime (text.takeWhile (· != 59))) :: next text

/-- `params.find`: `emplace` keeps the first of equal keys. -/
def findParameter (params : List (Bytes × Bytes)) (key : Bytes) : Option Bytes :=
  (params.find? fun p => p.1 == key).map (·.2)

/-- The character set in front of an extended value, and the value. -/
def splitCharset (piece : Bytes) : Option (Bytes × Bytes) :=
  match findByte 39 piece with
  | none => none
  | some a => (findByteFrom 39 (a + 1) piece).map fun b => (piece.take a, piece.drop (b + 1))

/-- The sections of a continued parameter from an index on, with the character set. -/
def continuedParameter (params : List (Bytes × Bytes)) (name : Bytes) : Nat → Nat → Bytes × Bytes
  | 0, _ => ([], [])
  | fuel + 1, index =>
    let key := name ++ bytes "*" ++ decimal index
    match findParameter params (key ++ bytes "*") with
    | some piece =>
      let (charset, piece) :=
        if index = 0 then (splitCharset piece).getD ([], piece) else ([], piece)
      let rest := continuedParameter params name fuel (index + 1)
      (charset, mimePercentDecode piece ++ rest.2)
    | none =>
      match findParameter params key with
      | some piece => ([], piece ++ (continuedParameter params name fuel (index + 1)).2)
      | none => ([], [])

/-- What a value in another character set than the known ones is given as. -/
def encodedWord (charset value : Bytes) : Bytes :=
  if charset ≠ [] ∧ toLower charset ≠ bytes "utf-8" ∧ toLower charset ≠ bytes "us-ascii" then
    bytes "=?" ++ charset ++ bytes "?B?" ++ base64 value ++ bytes "?="
  else value

def mimeParameter (header name : Bytes) : Bytes :=
  let params := ((afterSemicolon header).map (mimeParameters (header.length + 1))).getD []
  if (findParameter params (name ++ bytes "*0*")).isSome ∨
      (findParameter params (name ++ bytes "*0")).isSome then
    let (charset, value) := continuedParameter params name (params.length + 1) 0
    encodedWord charset value
  else
    match findParameter params (name ++ bytes "*") with
    | some piece =>
      let (charset, piece) := (splitCharset piece).getD ([], piece)
      encodedWord charset (mimePercentDecode piece)
    | none => (findParameter params name).getD []

end ProtoRelay
