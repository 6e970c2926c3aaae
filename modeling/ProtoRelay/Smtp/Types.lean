import ProtoRelay.Framework.Engine

/-!
# SMTP: states, events, context and configuration

The data the SMTP server works on: `SmtpsState` and `SmtpsEvent`, the per-session `SmtpsContext`,
the mail under construction, the parts of the configuration the SMTP path reads, and the description
of the protocol (`make_smtps_desc`) for the engine.
-/

namespace ProtoRelay

/-! ## States and events -/

inductive SmtpsState
  | init
  | greeting
  | waitEhlo
  | waitAuth
  | waitAuthUsername
  | waitAuthPassword
  | waitMailFrom
  | waitRcptTo
  | waitData
  | inMessage
  | waitQuit
  | closed
  deriving DecidableEq

inductive SmtpsEvent
  | connect
  | ehlo
  | auth
  | mailFrom
  | rcptTo
  | data
  | dataEnd
  | quit
  | starttls
  | error
  | timeout
  | empty
  deriving DecidableEq

/-- SMTP takes a line up to a bare LF, except while a message is received, when it takes whatever is
there. -/
instance : LineProtocol SmtpsState where
  hasBufferedInput st buf := if st = .inMessage then !buf.isEmpty else buf.contains 10
  extractOneLine st buf :=
    if st = .inMessage then (buf, [])
    else
      match findByte 10 buf with
      | none => ([], buf)
      | some pos => (buf.take (pos + 1), buf.drop (pos + 1))

/-! ## Configuration -/

inductive InboundAuthPolicy
  | on
  | auto
  | off
  deriving DecidableEq

inductive InboundAckMode
  | afterEnqueue
  | afterPersist
  deriving DecidableEq

/-- `ListenerConfig`, as far as the SMTP handlers read it. -/
structure ListenerConfig where
  authPolicy : InboundAuthPolicy
  advertiseStarttls : Bool

/-- `ServerConfig`, as far as the SMTP handlers read it. -/
structure ServerConfig where
  systemDomain : Bytes
  heloHostname : Bytes := []
  inboundAuthPolicy : InboundAuthPolicy := .off
  rejectUnauthenticatedLocalSender : Bool := true
  enforceAuthenticatedFromMatch : Bool := true
  trustedRelayNetworks : List Bytes := []
  externalDeliveryEnabled : Bool := true
  perfMode : Bool := false
  inboundSpfMode : Bytes := bytes "off"
  inboundDkimMode : Bytes := bytes "off"
  inboundDmarcMode : Bytes := bytes "off"
  inboundAckMode : InboundAckMode := .afterPersist
  maxAuthAttempts : Nat := 3
  smtpDailySendLimit : Int := 0

/-! ## The mail under construction -/

/-- `attachment`, without the upload time. -/
structure Attachment where
  filename : Bytes
  filepath : Bytes
  mimeType : Bytes
  fileSize : Nat
  deriving DecidableEq

inductive PersistStatus
  | pending
  | processing
  | success
  | failed
  | cancelled
  deriving DecidableEq

/-- `mail`, as far as the SMTP path sets it: `from` is `sender` and `to` is `recipients`;
identifiers and times are left out. -/
structure Mail where
  sender : Bytes
  recipients : List Bytes
  subject : Bytes
  sourceMessageId : Bytes := []
  header : Bytes := []
  bodyPath : Bytes := []
  attachments : List Attachment := []
  persistStatus : PersistStatus := .pending
  deriving DecidableEq

/-- `MailBodyWriter`: the bytes it has accepted and whether the stream has failed. -/
structure BodyWriter where
  stored : Bytes := []
  failed : Bool := false

/-! ## Context -/

/-- `SmtpsContext`.  Left out are `auth_results_header` and `base64_remainder`, which nothing
reads. -/
structure SmtpsContext where
  listenerConfig : ListenerConfig
  isAuthenticated : Bool := false
  plainAuthExpected : Bool := false
  clientUsername : Bytes := []
  senderAddress : Bytes := []
  recipientAddresses : List Bytes := []
  mailData : Bytes := []
  parsedSubject : Bytes := []
  sourceMessageId : Bytes := []
  headerParsed : Bool := false
  streamingEnabled : Bool := false
  multipart : Bool := false
  hasAttachment : Bool := false
  boundary : Bytes := []
  headerBuffer : Bytes := []
  lineBuffer : Bytes := []
  textBodyBuffer : Bytes := []
  textBodySize : Nat := 0
  bufferedBodySize : Nat := 0
  bodyLimitExceeded : Bool := false
  abortReason : Bytes := []
  currentPartHeaders : Bytes := []
  inPartHeader : Bool := false
  currentPartIsAttachment : Bool := false
  currentPartEncoding : Bytes := []
  currentPartMime : Bytes := []
  currentAttachmentFilename : Bytes := []
  currentAttachmentPath : Bytes := []
  currentAttachmentSize : Nat := 0
  streamedAttachments : List Attachment := []
  ehloDomain : Bytes := []
  isTrustedServer : Bool := false
  verificationRun : Bool := false
  spfChecked : Bool := false
  spfResult : Bytes := []
  spfReason : Bytes := []
  dkimResult : Bytes := []
  dmarcResult : Bytes := []
  shardIndex : Nat := 0

/-! ## Reports -/

/-- The values of the context that the treatment of a finished message depends on. -/
structure DataEndView where
  headerBuffer : Bytes
  parsedSubject : Bytes
  sourceMessageId : Bytes
  multipart : Bool
  streamingEnabled : Bool
  boundary : Bytes
  bodyLimitExceeded : Bool
  textBodySize : Nat
  bufferedBodySize : Nat
  deriving DecidableEq

/-- The view of a context at the end of a message. -/
def SmtpsContext.dataEndView (ctx : SmtpsContext) : DataEndView where
  headerBuffer := ctx.headerBuffer
  parsedSubject := ctx.parsedSubject
  sourceMessageId := ctx.sourceMessageId
  multipart := ctx.multipart
  streamingEnabled := ctx.streamingEnabled
  boundary := ctx.boundary
  bodyLimitExceeded := ctx.bodyLimitExceeded
  textBodySize := ctx.textBodySize
  bufferedBodySize := ctx.bufferedBodySize

inductive SmtpsReport
  /-- a command was dispatched -/
  | dispatched (event : SmtpsEvent) (args : Bytes)
  /-- the result of an authentication attempt for `account` -/
  | authResult (account : Bytes) (ok : Bool)
  /-- MAIL FROM was answered with 250 -/
  | mailFrom (sender : Bytes)
  /-- RCPT TO was answered with 250 and stands for these recipients -/
  | rcptTo (recipients : List Bytes)
  /-- the end of a message is being handled -/
  | dataEnd (view : DataEndView)
  /-- whether inbound verification is run for the message -/
  | verification (run : Bool)
  /-- the mail was handed to the persistence queue -/
  | submitted (mail : Mail)
  /-- DATA was answered with 250 -/
  | acknowledged
  deriving DecidableEq

/-! ## Description -/

/-- The states `INIT` to `WAIT_QUIT`, over which `make_smtps_desc` loops. -/
def SmtpsState.live : List SmtpsState :=
  [.init, .greeting, .waitEhlo, .waitAuth, .waitAuthUsername, .waitAuthPassword, .waitMailFrom,
    .waitRcptTo, .waitData, .inMessage, .waitQuit]

def makeSmtpsDesc (allowStarttls : Bool) : Desc SmtpsState SmtpsEvent where
  guards :=
    [⟨.init, .connect, some .greeting⟩, ⟨.greeting, .connect, some .waitEhlo⟩,
      ⟨.waitEhlo, .ehlo, some .waitAuth⟩, ⟨.greeting, .ehlo, some .waitAuth⟩,
      ⟨.waitAuth, .ehlo, some .waitAuth⟩, ⟨.waitAuth, .auth, some .waitAuthUsername⟩,
      ⟨.waitAuth, .auth, some .waitMailFrom⟩, ⟨.waitAuth, .auth, some .waitAuth⟩,
      ⟨.waitAuthUsername, .auth, some .waitAuthPassword⟩,
      ⟨.waitAuthPassword, .auth, some .waitMailFrom⟩, ⟨.waitAuthPassword, .auth, some .waitAuth⟩,
      ⟨.waitAuth, .mailFrom, some .waitRcptTo⟩, ⟨.waitMailFrom, .mailFrom, some .waitRcptTo⟩,
      ⟨.waitRcptTo, .mailFrom, some .waitRcptTo⟩, ⟨.waitMailFrom, .mailFrom, some .waitAuth⟩,
      ⟨.waitRcptTo, .mailFrom, some .waitAuth⟩, ⟨.waitRcptTo, .rcptTo, some .waitRcptTo⟩,
      ⟨.waitRcptTo, .data, some .inMessage⟩, ⟨.waitData, .data, some .inMessage⟩,
      ⟨.inMessage, .data, some .inMessage⟩, ⟨.inMessage, .dataEnd, some .waitMailFrom⟩,
      ⟨.inMessage, .dataEnd, some .waitQuit⟩, ⟨.waitQuit, .mailFrom, some .waitRcptTo⟩] ++
    (if allowStarttls then [⟨.waitAuth, .starttls, some .init⟩] else []) ++
    SmtpsState.live.flatMap fun s =>
      [⟨s, .quit, some .closed⟩, ⟨s, .error, none⟩, ⟨s, .timeout, none⟩, ⟨s, .empty, none⟩]
  terminals := [.closed]
  errorReply := bytes "500 Error: Invalid command sequence"
  internalErrorReply := bytes "500 4.0.0 Internal server error"

end ProtoRelay
