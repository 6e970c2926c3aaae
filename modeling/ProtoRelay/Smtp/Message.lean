import ProtoRelay.Base.Lines
import ProtoRelay.Smtp.Policy

/-!
# Reading a message while it arrives

`algorithm::process_message_data` follows the message line by line: it collects the header block,
analyses it at the first empty line, and from there on counts and keeps text, in multipart messages
part by part.  The functions of `smtp_utils.cpp` are embedded here on `SmtpsContext`.
-/

namespace ProtoRelay

def maxBodyBytes : Nat := 10 * 1024 * 1024

/-! ## Header maps -/

/-- One line of `parse_headers_map`.  The map is the list of its assignments, newest first, so that
`last_key` is the key of the newest one. -/
def parseHeaderLine (headers : List (Bytes × Bytes)) (line : Bytes) : List (Bytes × Bytes) :=
  let line := stripCr line
  if line.head? = some 32 ∨ line.head? = some 9 then
    match headers with
    | [] => []
    | (key, value) :: rest =>
      if key.isEmpty then (key, value) :: rest
      else (key, value ++ bytes " " ++ trim line) :: rest
  else
    match findByte 58 line with
    | none => headers
    | some pos =>
      let value := (line.drop (pos + 1)).dropWhile fun b => b == 32 || b == 9
      (toLower (line.take pos), value) :: headers

def parseHeadersMap (headerBlock : Bytes) : List (Bytes × Bytes) :=
  (getLines headerBlock).foldl parseHeaderLine []

/-- `headers.find(key)`. -/
def findHeader (headers : List (Bytes × Bytes)) (key : Bytes) : Option Bytes :=
  (headers.find? fun h => h.1 == key).map (·.2)

/-- `get_header_value`, for a key in lower case; also `headers[key]` where the map is not used
again. -/
def getHeaderValue (headers : List (Bytes × Bytes)) (key : Bytes) : Bytes :=
  (findHeader headers key).getD []

/-! ## Parameters -/

/-- The class `\s` of the regular expressions. -/
def isRegexSpace (b : UInt8) : Bool := b == 32 || (9 ≤ b && b ≤ 13)

/-- A match of `name\s*=\s*"?([^";]+)"?` at the front of `s`, ignoring case: the captured group.  If
nothing but a quote or the end follows the white space, the expression backtracks into it and
captures its last character. -/
def matchParam (name s : Bytes) : Option Bytes :=
  if name.isPrefixOf (toLower s) then
    match (s.drop name.length).dropWhile isRegexSpace with
    | [] => none
    | c :: r =>
      if c = 61 then
        let r' := r.dropWhile isRegexSpace
        let r' := if r'.head? = some 34 then r'.tail else r'
        let value := r'.takeWhile fun b => b != 34 && b != 59
        if value.isEmpty then ((r.takeWhile isRegexSpace).getLast?).map fun b => [b]
        else some value
      else none
  else none

/-- `regex_search` for such a parameter: the leftmost match. -/
def searchParam (name : Bytes) : Bytes → Option Bytes
  | [] => matchParam name []
  | b :: s =>
    match matchParam name (b :: s) with
    | some v => some v
    | none => searchParam name s

def extractBoundary (contentType : Bytes) : Bytes :=
  (searchParam (bytes "boundary") contentType).getD []

def sanitizeFilename (name : Bytes) : Bytes :=
  if name.isEmpty then bytes "attachment"
  else name.map fun c => if c = 47 ∨ c = 92 ∨ c = 32 then 95 else c

/-- `s.find(pat) != npos`. -/
def containsBytes (pat s : Bytes) : Bool := (cutAt pat s).isSome

/-! ## Message lines -/

variable (ctx : SmtpsContext)

def analyzeTopHeader : SmtpsContext :=
  let headers := parseHeadersMap ctx.headerBuffer
  let ctx := { ctx with
    parsedSubject := getHeaderValue headers (bytes "subject")
    sourceMessageId := getHeaderValue headers (bytes "message-id") }
  match findHeader headers (bytes "content-type") with
  | none => ctx
  | some contentType =>
    let lower := toLower contentType
    let ctx := { ctx with boundary := extractBoundary lower }
    if containsBytes (bytes "multipart/") lower && !ctx.boundary.isEmpty then
      { ctx with multipart := true, streamingEnabled := true }
    else ctx

def handlePartHeaderParsed : SmtpsContext :=
  let headers := parseHeadersMap ctx.currentPartHeaders
  let disp := toLower (getHeaderValue headers (bytes "content-disposition"))
  let isAttachment := containsBytes (bytes "attachment") disp ||
    containsBytes (bytes "filename") disp
  let ctx := { ctx with
    currentPartEncoding := toLower (getHeaderValue headers (bytes "content-transfer-encoding"))
    currentPartMime := toLower (getHeaderValue headers (bytes "content-type"))
    currentPartIsAttachment := isAttachment }
  if isAttachment then
    let filename := (searchParam (bytes "filename") ctx.currentPartHeaders).getD []
    let filename := if filename.isEmpty then bytes "attachment" else filename
    { ctx with hasAttachment := true, currentAttachmentFilename := sanitizeFilename filename }
  else { ctx with currentAttachmentFilename := [], currentAttachmentPath := [] }

def handleMultipartLine (line : Bytes) : SmtpsContext :=
  if ctx.bodyLimitExceeded then ctx
  else if !ctx.multipart || ctx.boundary.isEmpty then
    { ctx with mailData := ctx.mailData ++ line ++ bytes "\r\n" }
  else
    let boundaryMarker := bytes "--" ++ ctx.boundary
    let boundaryEnd := boundaryMarker ++ bytes "--"
    let lineLower := toLower line
    if lineLower = boundaryMarker ∨ lineLower = boundaryEnd then
      { ctx with inPartHeader := decide (lineLower ≠ boundaryEnd), currentPartHeaders := [] }
    else if ctx.inPartHeader then
      if line.isEmpty then handlePartHeaderParsed { ctx with inPartHeader := false }
      else { ctx with currentPartHeaders := ctx.currentPartHeaders ++ line ++ bytes "\r\n" }
    else if ctx.currentPartIsAttachment then ctx
    else if maxBodyBytes < ctx.textBodySize + (line.length + 2) then ctx
    else
      let ctx := { ctx with textBodySize := ctx.textBodySize + (line.length + 2) }
      if containsBytes (bytes "text/plain") ctx.currentPartMime || ctx.textBodyBuffer.isEmpty then
        { ctx with textBodyBuffer := ctx.textBodyBuffer ++ line ++ bytes "\r\n" }
      else ctx

/-- A dot in front of a line is the sender's stuffing. -/
def dropStuffing (line : Bytes) : Bytes := if line.head? = some 46 then line.tail else line

/-- The body of the loop of `process_message_data`: one line of the message. -/
def processLine (line : Bytes) : SmtpsContext :=
  if ctx.bodyLimitExceeded then ctx
  else if !ctx.headerParsed then
    let ctx := { ctx with headerBuffer := ctx.headerBuffer ++ line ++ bytes "\r\n" }
    if line.isEmpty then analyzeTopHeader { ctx with headerParsed := true } else ctx
  else
    let line := dropStuffing line
    if ctx.streamingEnabled then handleMultipartLine ctx line
    else
      let ctx := { ctx with bufferedBodySize := ctx.bufferedBodySize + (line.length + 2) }
      if maxBodyBytes < ctx.bufferedBodySize then { ctx with bodyLimitExceeded := true }
      else { ctx with mailData := ctx.mailData ++ line ++ bytes "\r\n" }

def processMessageData (data : Bytes) : SmtpsContext :=
  let r := feedLines processLine 13 10 (ctx, ctx.lineBuffer) data
  { r.1 with lineBuffer := r.2 }

def currentAttachment : List Attachment :=
  if ctx.currentPartIsAttachment && !ctx.currentAttachmentFilename.isEmpty then
    [{ filename := ctx.currentAttachmentFilename
       filepath := ctx.currentAttachmentPath
       mimeType :=
         if ctx.currentPartMime.isEmpty then bytes "application/octet-stream"
         else ctx.currentPartMime
       fileSize := ctx.currentAttachmentSize }]
  else []

def finalizeAttachmentFromContext : SmtpsContext :=
  { ctx with
    streamedAttachments := ctx.streamedAttachments ++ currentAttachment ctx
    currentAttachmentFilename := []
    currentAttachmentPath := []
    currentAttachmentSize := 0
    currentPartHeaders := []
    currentPartMime := []
    currentPartEncoding := []
    currentPartIsAttachment := false }

end ProtoRelay
