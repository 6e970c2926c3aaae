import ProtoRelay.Smtp.Handlers

/-!
# The end of a message

What `handle_in_message_data_end` starts when the end of the data is seen: the body is committed,
read back for a first MIME parse, the sender rules are applied to the From header, the message is
verified if the configuration asks for it, and it is handed to the persistence queue.  Every
negative outcome answers and closes the connection; the positive one answers 250 and the session
waits for the next MAIL FROM.
-/

namespace ProtoRelay

open AccountPolicy

/-- How the commit of the body ends. -/
inductive CommitResult
  | committed
  | retryable
  | permanent
  deriving DecidableEq

/-- How the wait for the persistence of a submitted mail ends. -/
inductive PersistOutcome
  | success
  | failed
  | timedOut
  deriving DecidableEq

namespace Session

variable (env : SmtpEnv) (cfg : ServerConfig) (s : Session)

/-- The way out for a message that is not accepted: `finish_closing`, the reply, and the connection
is closed once it is written. -/
def closeWithReply (text : Bytes) : Session :=
  { s with io := (s.io.finishClosing .waitQuit).doAsyncWrite text (some .close) }

/-- `reject_and_close`, also the exception exits: the mail is discarded. -/
def rejectAndClose (text : Bytes) : Session :=
  s.discardCurrentMail.closeWithReply text

/-! ## Queueing -/

/-- The answer of the queue to `submit_mail_to_queue`.  Without a queue the mail is accepted and
stays with the session until its state is reset. -/
def submitDone (accepted : Bool) : Session :=
  match s.mail with
  | none =>
    s.rejectAndClose
      (bytes "451 Requested action aborted: insufficient storage or backend pressure\r\n")
  | some m =>
    let m := completeMail s.ctx m
    if accepted || !env.hasQueue then
      let s := { s with
        mail := if env.hasQueue then none else some m
        io := s.io.reports [.submitted m] }
      if cfg.inboundAckMode = .afterEnqueue then
        let s := s.resetMailState
        { s with io := s.io.finish .waitMailFrom (bytes "250 OK") [.acknowledged] }
      else { s with pending := some .persist }
    else
      s.rejectAndClose
        (bytes "451 Requested action aborted: insufficient storage or backend pressure\r\n")

/-- The mail has been persisted, or not, or the wait for it has run out. -/
def persistDone (outcome : PersistOutcome) : Session :=
  if s.io.closed then s
  else
    match outcome with
    | .success =>
      let s := s.resetMailState
      { s with io := s.io.finish .waitMailFrom (bytes "250 OK") [.acknowledged] }
    | .timedOut =>
      s.closeWithReply (bytes "451 Requested action aborted: local processing timeout\r\n")
    | .failed =>
      s.closeWithReply (bytes "451 Requested action aborted: local processing error\r\n")

/-! ## Verification -/

def needsVerify (ctx : SmtpsContext) : Bool :=
  !cfg.perfMode && ((!ctx.spfChecked && decide (cfg.inboundSpfMode ≠ bytes "off")) ||
      decide (cfg.inboundDkimMode ≠ bytes "off") || decide (cfg.inboundDmarcMode ≠ bytes "off"))

def hasBody : Bool := s.mail.any fun m => !m.bodyPath.isEmpty

def finishAfterSenderBoundary : Session :=
  let runs := needsVerify cfg s.ctx && !s.ctx.verificationRun && env.hasDns && s.hasBody
  { s with
    io := s.io.reports [.verification runs]
    pending := some (if runs then .verify else .submit) }

/-- The results of the inbound verification; an SPF result of MAIL FROM is kept. -/
def verifyDone (dkim dmarc spf : Bytes) : Session :=
  { s with
    ctx := { s.ctx with
      dkimResult := dkim
      dmarcResult := dmarc
      spfResult := if s.ctx.spfChecked then s.ctx.spfResult else spf
      spfChecked := true
      verificationRun := true }
    pending := some .submit }

/-! ## Sender rules on the From header -/

def finishDataEndAfterRead : Session :=
  let fromValue := extractFromHeaderValue s.ctx.headerBuffer
  let authUser := trim s.ctx.clientUsername
  if cfg.rejectUnauthenticatedLocalSender && s.isOutsider env cfg &&
      fromHeaderIsLocal fromValue cfg.systemDomain then
    s.rejectAndClose
      (bytes "550 5.7.1 From header rejected: local domain requires authentication\r\n")
  else if cfg.enforceAuthenticatedFromMatch && s.ctx.isAuthenticated &&
      !(fromHeaderAddress fromValue).isEmpty && !fromHeaderMatchesAccount fromValue authUser then
    if !fromHeaderIsLocal fromValue cfg.systemDomain then
      s.rejectAndClose (bytes "550 5.7.1 From header does not match authenticated user\r\n")
    else { s with pending := some (.fromAlias authUser) }
  else s.finishAfterSenderBoundary env cfg

/-- The answer of the alias lookup for the address in the From header. -/
def fromAliasDone (authUser : Bytes) (targets : List Bytes) : Session :=
  if s.io.closed then s
  else if accountInAliasTargets targets authUser then
    s.finishAfterSenderBoundary env cfg
  else s.rejectAndClose (bytes "550 5.7.1 From header does not match authenticated user\r\n")

/-! ## Commit and read back -/

/-- The body has been read back for the MIME parse, which may throw. -/
def openReadDone (threw : Bool) : Session :=
  if threw then
    s.rejectAndClose (bytes "451 Requested action aborted: local processing error\r\n")
  else s.finishDataEndAfterRead env cfg

/-- `finish_data_end_after_commit`: a mail without a body is not read back. -/
def finishDataEndAfterCommit : Session :=
  if s.hasBody then { s with pending := some .openRead } else s.finishDataEndAfterRead env cfg

def commitFailed (retry : Bool) : Session :=
  { s with ctx := { s.ctx with streamedAttachments := [] } }.rejectAndClose
    (if retry then bytes "451 4.3.0 Failed to store message, try again later\r\n"
      else bytes "550 5.3.0 Failed to store message\r\n")

/-- The result of the commit of the body stream. -/
def commitDone : CommitResult → Session
  | .committed => s.finishDataEndAfterCommit env cfg
  | .retryable => s.commitFailed true
  | .permanent => s.commitFailed false

/-- `commit_body_async`: a mail whose stream was not opened or has failed cannot be committed. -/
def commitBody : Session :=
  if s.mail.isNone then s.finishDataEndAfterCommit env cfg
  else
    match s.bodyWriter with
    | none => s.commitFailed false
    | some w => if w.failed then s.commitFailed false else { s with pending := some .commit }

def handleInMessageDataEnd : Session :=
  let s := { s with io := s.io.reports [.dataEnd s.ctx.dataEndView] }
  if s.ctx.bodyLimitExceeded then
    let resp :=
      if s.ctx.abortReason.isEmpty then bytes "552 Message size exceeds limit\r\n"
      else s.ctx.abortReason ++ bytes "\r\n"
    { s with
      ctx := { s.ctx with streamedAttachments := [] }
      io := (s.io.applyClosing .waitQuit).doAsyncWrite resp (some .close) }
  else { s with io := s.io.beginTransition }.commitBody env cfg

end Session

end ProtoRelay
