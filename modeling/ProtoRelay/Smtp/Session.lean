import ProtoRelay.Smtp.LineFolder
import ProtoRelay.Smtp.Message

/-!
# The SMTP session

`SmtpsSession` adds to the transport the protocol context, the mail under construction with the
stream its body is written to, and the parser that turns a unit of input into an event.  A unit is a
command line, or while a message is received whatever bytes are there.

An asynchronous operation a handler starts and waits for is the session's `pending` operation; it
holds what the continuation in the source captures.  What storage, the recipient cache and the
crypto library answer inside a handler is passed in (`Oracle`, `SmtpEnv`).
-/

namespace ProtoRelay

/-- What a session finds around it and what does not change during its life. -/
structure SmtpEnv where
  /-- the connection is a TLS connection -/
  isTls : Bool
  clientIp : Bytes
  /-- `EVP_DecodeBlock` of the crypto library -/
  decodeBlock : Bytes → Option Bytes
  /-- the server has a DNS resolver -/
  hasDns : Bool
  /-- the server has a persistence queue -/
  hasQueue : Bool

/-- How the preparation of the body stream on DATA ends: the object key or the stream may not be
available, or the storage backend may throw. -/
inductive OpenWrite
  | opened (path : Bytes)
  | keyFailed
  | openFailed (path : Bytes)
  | threw (path : Bytes)

/-- What a handler is told synchronously while it processes one unit of input. -/
structure Oracle where
  openWrite : OpenWrite := .keyFailed
  /-- the write of the body bytes of the unit, and of the half line at the end of the message -/
  writeOk : Bool := true
  tailOk : Bool := true
  /-- the status the recipient cache holds for the address of RCPT TO -/
  cachedStatus : Option Nat := none

/-- The asynchronous operation a paused session waits for, with what its continuation needs. -/
inductive Pending
  | auth (account : Bytes)
  | quota (limited needSpf : Bool) (sender spfMode : Bytes)
  | spf (sender spfMode : Bytes)
  /-- alias lookup for the local recipient of an authenticated client -/
  | submissionAlias (recipient : Bytes)
  | userExists (recipient : Bytes)
  /-- alias lookup for an address that is no account -/
  | recipientAlias (recipient : Bytes)
  | commit
  | openRead
  /-- alias lookup for the address of the From header -/
  | fromAlias (authUser : Bytes)
  | verify
  | submit
  | persist
  deriving DecidableEq

/-- `SmtpsSession` with its base class. -/
structure Session where
  io : SessionBase SmtpsState SmtpsReport
  ctx : SmtpsContext
  nextEvent : SmtpsEvent := .connect
  lastCommandArgs : Bytes := []
  mail : Option Mail := none
  bodyWriter : Option BodyWriter := none
  /-- the half line carried by `body_line_folder_` -/
  bodyLineFolder : Bytes := []
  pending : Option Pending := none
  stayTimes : Nat := 0
  authAttemptCount : Nat := 0

namespace Session

/-! ## The mail under construction -/

variable (s : Session)

/-- `handle_write_failure`, as far as the session's own mail goes. -/
def handleWriteFailure : Session :=
  { s with mail := s.mail.map fun m =>
      if m.persistStatus = .pending then { m with persistStatus := .cancelled } else m }

/-- `append_body_data`, where the stream reports `ok`. -/
def appendBodyData (data : Bytes) (ok : Bool) : Session :=
  match s.bodyWriter with
  | none => s
  | some w =>
    if w.failed || data.isEmpty then s
    else if ok then { s with bodyWriter := some { w with stored := w.stored ++ data } }
    else handleWriteFailure { s with bodyWriter := some { w with failed := true } }

/-- `create_mail_on_data_command`; an exception leaves the mail without a stream. -/
def createMailOnDataCommand (outcome : OpenWrite) : Except Session Session :=
  if s.mail.isSome then .ok s
  else
    let m : Mail :=
      { sender := s.ctx.senderAddress
        recipients := s.ctx.recipientAddresses
        subject := bytes "(无主题)" }
    match outcome with
    | .opened path =>
      .ok { s with mail := some { m with bodyPath := path }, bodyWriter := some {} }
    | .keyFailed => .ok (handleWriteFailure { s with mail := some m })
    | .openFailed path =>
      .ok (handleWriteFailure { s with mail := some { m with bodyPath := path } })
    | .threw path => .error { s with mail := some { m with bodyPath := path } }

def resetContext (ctx : SmtpsContext) : SmtpsContext :=
  { ctx with
    mailData := []
    headerBuffer := []
    parsedSubject := []
    sourceMessageId := []
    textBodyBuffer := []
    lineBuffer := []
    bodyLimitExceeded := false
    streamingEnabled := false
    multipart := false
    boundary := []
    senderAddress := []
    recipientAddresses := []
    streamedAttachments := [] }

def resetMailState : Session :=
  { s with mail := none, bodyWriter := none, bodyLineFolder := [], ctx := resetContext s.ctx }

/-- `discard_current_mail`; the removal of the files is not part of the session's state. -/
def discardCurrentMail : Session :=
  if s.mail.isSome then s.resetMailState else s

/-- The mail as `submit_mail_to_queue` completes it. -/
def completeMail (ctx : SmtpsContext) (m : Mail) : Mail :=
  { m with
    subject := if ctx.parsedSubject.isEmpty then m.subject else ctx.parsedSubject
    sourceMessageId :=
      if ctx.sourceMessageId.isEmpty then m.sourceMessageId else ctx.sourceMessageId
    header := ctx.headerBuffer
    attachments := m.attachments ++ ctx.streamedAttachments }

/-! ## Parsing -/

def endOfData : Bytes := bytes "\r\n.\r\n"

/-- A unit of input while a message is received: what goes to the body, what goes back to the input
buffer, and whether the message ends here. -/
def splitDataUnit (data : Bytes) : Bytes × Bytes × Bool :=
  match cutAt endOfData data with
  | some (chunk, remaining) => (chunk, remaining, true)
  | none => if trim data = bytes "." then ([], [], true) else (data, [], false)

/-- The bytes of a unit go through the line folder to the body stream.  An empty chunk is not fed to
the folder.  `none`: the folder does not return. -/
def storeUnit (o : Oracle) (chunk : Bytes) : Option Session :=
  if chunk.isEmpty then some s
  else
    let r := LineFolder.feed s.bodyLineFolder chunk
    r.1.map fun out => { s with bodyLineFolder := r.2 }.appendBodyData out o.writeOk

/-- The end of a message: the half line of the folder is stored, and the attachment under way is
finished. -/
def finishMessage (o : Oracle) : Option Session :=
  (LineFolder.flush s.bodyLineFolder).map fun tail =>
    let s := { s with bodyLineFolder := [] }.appendBodyData tail o.tailOk
    { s with
      ctx := finalizeAttachmentFromContext s.ctx
      nextEvent := .dataEnd
      lastCommandArgs := [] }

def unitArgs (ctx : SmtpsContext) (data : Bytes) : Bytes :=
  if ctx.streamingEnabled then []
  else if (trim data).head? = some 46 then (data.dropWhile (· != 46)).tail
  else data

/-- The branch of `parse_smtp_command` for a unit of a message.  `none`: the line folder does not
return. -/
def parseMessageUnit (o : Oracle) (data : Bytes) : Option Session :=
  let (writeChunk, remaining, dataEndSeen) := splitDataUnit data
  let s := { s with
    io := { s.io with commandReadBuffer := s.io.commandReadBuffer ++ remaining }
    ctx := processMessageData s.ctx writeChunk }
  (s.storeUnit o writeChunk).bind fun s =>
    if dataEndSeen then s.finishMessage o
    else some { s with nextEvent := .data, lastCommandArgs := unitArgs s.ctx data }

def commandEvent (command : Bytes) : Option SmtpsEvent :=
  if command = bytes "EHLO" ∨ command = bytes "HELO" then some .ehlo
  else if command = bytes "AUTH" then some .auth
  else if command = bytes "MAIL FROM" then some .mailFrom
  else if command = bytes "RCPT TO" then some .rcptTo
  else if command = bytes "DATA" then some .data
  else if command = bytes "QUIT" then some .quit
  else if command = bytes "STARTTLS" then some .starttls
  else none

def splitCommand (trimmed : Bytes) : Bytes × Bytes :=
  if (bytes "MAIL FROM").isPrefixOf (toUpper trimmed) then (bytes "MAIL FROM", trimmed.drop 4)
  else if (bytes "RCPT TO").isPrefixOf (toUpper trimmed) then (bytes "RCPT TO", trimmed.drop 4)
  else
    match findByte 32 trimmed with
    | some pos => (toUpper (trimmed.take pos), trimmed.drop (pos + 1))
    | none => (toUpper trimmed, [])

/-- The session waits for the credentials of an AUTH exchange, so that the line is its argument. -/
def expectsCredentials : Bool :=
  s.io.state = .waitAuthUsername || s.io.state = .waitAuthPassword ||
    (s.io.state = .waitAuth && s.ctx.plainAuthExpected)

/-- The branch of `parse_smtp_command` for a command line: event and arguments. -/
def parseCommandLine (data : Bytes) : SmtpsEvent × Bytes :=
  let trimmed := trim data
  if trimmed.isEmpty then (.empty, [])
  else if s.expectsCredentials then (.auth, trimmed)
  else
    let (command, args) := splitCommand trimmed
    match commandEvent command with
    | some event => (event, args)
    | none => (.error, bytes "Unknown command: " ++ command)

def parseSmtpCommand (o : Oracle) (data : Bytes) : Option Session :=
  if s.io.state = .inMessage then s.parseMessageUnit o data
  else
    let r := s.parseCommandLine data
    some { s with nextEvent := r.1, lastCommandArgs := r.2 }

end Session

end ProtoRelay
