import ProtoRelay.Smtp.Session

/-!
# SMTP command handlers

The handlers of `TraditionalSmtpsFsm`, up to the commands that build the envelope; the handling of
the message itself is in `ProtoRelay.Smtp.DataEnd`.  Each handler is a function of the session, of
the configuration in force when it runs and of what it is told synchronously.  A handler that starts
asynchronous work pauses the session (`beginTransition`) and leaves a `Pending` operation; the
continuation of that operation is the function whose name ends in `Done`.
-/

namespace ProtoRelay

namespace Session

variable (env : SmtpEnv) (cfg : ServerConfig)

/-! ## Greeting and TLS -/

variable (s : Session)

/-- `handle_init_connect`: the two stages of the banner.  Nothing is buffered yet, so the drain of
the first stage ends at once. -/
def handleInitConnect : Session :=
  { s with
    io :=
      (s.io.settleEnter (some .greeting) none).settleExit.replyThenSettle
        (bytes "220 SMTPS Server") .waitEhlo [] }

def ehloReply : Bytes :=
  let helo := if cfg.heloHostname.isEmpty then cfg.systemDomain else cfg.heloHostname
  let helo := if helo.isEmpty then s.lastCommandArgs else helo
  bytes "250-" ++ helo ++ bytes " Hello\r\n250-SIZE 10240000\r\n250-8BITMIME\r\n" ++
    (if !env.isTls && s.ctx.listenerConfig.advertiseStarttls then bytes "250-STARTTLS\r\n"
      else []) ++
    (if s.ctx.listenerConfig.authPolicy ≠ .off then bytes "250-AUTH LOGIN PLAIN\r\n" else []) ++
    bytes "250 SMTPUTF8\r\n"

def handleGreetingEhlo : Session :=
  { s with
    ctx := { s.ctx with ehloDomain := s.lastCommandArgs }
    io := s.io.replyThenSettle (s.ehloReply env cfg) .waitAuth [] }

/-- `handle_wait_auth_starttls`: the connection is handed over by the callback of the write of the
positive reply. -/
def handleWaitAuthStarttls : Session :=
  { s with
    io :=
      if !s.ctx.listenerConfig.advertiseStarttls then
        s.io.replyThenSettle (bytes "502 5.5.1 STARTTLS not supported") .waitAuth []
      else
        (s.io.applyClosing .init).doAsyncWrite (bytes "220 Ready to start TLS\r\n")
        (some .handoff) }

/-! ## AUTH -/

/-- Start of a password check: the name becomes the session's user name at once. -/
def beginAuth (username : Bytes) : Session :=
  let account := qualifyUsername cfg.systemDomain username
  { s with
    ctx := { s.ctx with clientUsername := account }
    io := s.io.beginTransition
    pending := some (.auth account) }

def handleWaitAuthAuthLogin : Session :=
  { s with io := s.io.replyThenSettle (bytes "334 VXNlcm5hbWU6") .waitAuthUsername [] }

/-- AUTH with the mechanism and possibly the credentials in its argument. -/
def handleAuthMechanism : Session :=
  if (bytes "PLAIN").isPrefixOf (toUpper s.lastCommandArgs) then
    let token := s.lastCommandArgs.drop 6
    if token.isEmpty then
      { s with
        ctx := { s.ctx with plainAuthExpected := true }
        io := s.io.replyThenSettle (bytes "334 ") .waitAuth [] }
    else
      match plainUsername (base64Decode env.decodeBlock token) with
      | some username => s.beginAuth cfg username
      | none => s.handleWaitAuthAuthLogin
  else s.handleWaitAuthAuthLogin

/-- `handle_wait_auth_auth`: the second step of AUTH PLAIN if it is expected and can be decoded,
else the first step of an exchange. -/
def handleWaitAuthAuth : Session :=
  if s.ctx.plainAuthExpected then
    let s := { s with ctx := { s.ctx with plainAuthExpected := false } }
    match plainUsername (base64Decode env.decodeBlock s.lastCommandArgs) with
    | some username => s.beginAuth cfg username
    | none => s.handleAuthMechanism env cfg
  else s.handleAuthMechanism env cfg

def handleWaitAuthUsername : Session :=
  { s with
    ctx := { s.ctx with clientUsername := base64Decode env.decodeBlock s.lastCommandArgs }
    io := s.io.replyThenSettle (bytes "334 UGFzc3dvcmQ6") .waitAuthPassword [] }

def handleWaitAuthPassword : Session := s.beginAuth cfg s.ctx.clientUsername

/-- The result of the password check for `account`; it is dropped if the session has been closed in
the meantime. -/
def authDone (account : Bytes) (ok : Bool) (shard : Nat) : Session :=
  if s.io.closed then s
  else
    let io := s.io.reports [.authResult account ok]
    if ok then
      { s with
        ctx := { s.ctx with isAuthenticated := true, shardIndex := shard }
        io := io.finish .waitMailFrom (bytes "235 Authentication successful") [] }
    else
      let s := { s with authAttemptCount := s.authAttemptCount + 1 }
      if cfg.maxAuthAttempts ≤ s.authAttemptCount then { s with io := io.closeAfterFlush }
      else { s with io := io.finish .waitAuth (bytes "535 Authentication failed") [] }

/-! ## MAIL FROM -/

/-- Whether the listener and the server configuration ask for authentication. -/
def requireAuth (ctx : SmtpsContext) : Bool :=
  match ctx.listenerConfig.authPolicy with
  | .on => true
  | .auto =>
    match cfg.inboundAuthPolicy with
    | .on => true
    | .auto => !ctx.isTrustedServer
    | .off => false
  | .off => false

/-- The client is neither authenticated nor in a trusted network. -/
def isOutsider : Bool :=
  !s.ctx.isAuthenticated && !ipInTrustedNetworks env.clientIp cfg.trustedRelayNetworks

/-- The SPF check that follows an accepted MAIL FROM, or its 250. -/
def proceedMailFrom (needSpf : Bool) (sender spfMode : Bytes) : Session :=
  if needSpf && env.hasDns then { s with pending := some (.spf sender spfMode) }
  else { s with io := s.io.finish .waitRcptTo (bytes "250 Ok") [.mailFrom sender] }

/-- A MAIL FROM that passes the sender rules: the envelope starts here. -/
def acceptMailFrom (requested : Bytes) : Session :=
  let sender :=
    AccountPolicy.submissionSender (if s.ctx.isAuthenticated then s.ctx.clientUsername
      else []) requested
  let needSpf :=
    !cfg.perfMode && decide (cfg.inboundSpfMode ≠ bytes "off") && !s.ctx.isAuthenticated &&
      !sender.isEmpty && decide (sender ≠ bytes "<>")
  let s := { s with
    ctx := { s.ctx with senderAddress := sender, recipientAddresses := [], spfChecked := false }
    io := s.io.beginTransition }
  if s.ctx.isAuthenticated then
    { s with
      pending :=
        some (.quota (decide (0 < cfg.smtpDailySendLimit)) needSpf sender cfg.inboundSpfMode) }
  else s.proceedMailFrom env needSpf sender cfg.inboundSpfMode

/-- `handle_wait_auth_mail_from`; every rejection falls back to `WAIT_AUTH`. -/
def handleWaitAuthMailFrom : Session :=
  if requireAuth cfg s.ctx && !s.ctx.isAuthenticated then
    { s with io := s.io.replyThenSettle (bytes "530 5.7.1 Authentication required") .waitAuth [] }
  else
    match betweenAngles s.lastCommandArgs with
    | none =>
      { s with
        io :=
          s.io.replyThenSettle (bytes "501 Syntax error in parameters or arguments") .waitAuth [] }
    | some requested =>
      if cfg.rejectUnauthenticatedLocalSender && s.isOutsider env cfg &&
          AccountPolicy.envelopeSenderIsLocal requested cfg.systemDomain then
        { s with
          io :=
            s.io.replyThenSettle
              (bytes "550 5.7.1 Sender address rejected: local domain requires authentication")
                .waitAuth [] }
      else s.acceptMailFrom env cfg requested

/-- The answer of the daily quota; without a limit it is always positive. -/
def quotaDone (limited needSpf : Bool) (sender spfMode : Bytes) (allowed : Bool) : Session :=
  if s.io.closed then s
  else if allowed || !limited then s.proceedMailFrom env needSpf sender spfMode
  else
    { s with io := s.io.finish .waitAuth (bytes "550 5.7.0 Daily sending quota exceeded") [] }

def spfDone (sender spfMode result reason : Bytes) : Session :=
  { s with
    ctx := { s.ctx with spfChecked := true, spfResult := result, spfReason := reason }
    io :=
      if result = bytes "fail" ∧ spfMode = bytes "hard" then
        s.io.finish .waitAuth (bytes "550 5.7.1 SPF verification failed: SPF hard-fail for " ++
          sender) []
      else s.io.finish .waitRcptTo (bytes "250 Ok") [.mailFrom sender] }

/-! ## RCPT TO -/

def pushRecipientDeduped (recipients targets : List Bytes) : List Bytes :=
  targets.foldl (fun rs t => if rs.contains t then rs else rs ++ [t]) recipients

/-- Resolved recipients are added to the envelope. -/
def pushTargets (ctx : SmtpsContext) (targets : List Bytes) : SmtpsContext :=
  { ctx with recipientAddresses := pushRecipientDeduped ctx.recipientAddresses targets }

def pushRecipient (ctx : SmtpsContext) (recipient : Bytes) : SmtpsContext :=
  { ctx with recipientAddresses := ctx.recipientAddresses ++ [recipient] }

/-- A reply that leaves the session in `WAIT_RCPT_TO`. -/
def rejectRcpt (text : Bytes) : Session :=
  { s with io := s.io.replyThenSettle text .waitRcptTo [] }

def rcptToAuthenticated (recipient : Bytes) : Session :=
  let isLocal := toLower (trim (domainAfterLastAt recipient)) == toLower cfg.systemDomain
  if !AccountPolicy.recipientAllowed recipient cfg.systemDomain cfg.externalDeliveryEnabled then
    s.rejectRcpt (bytes "550 5.7.1 External delivery disabled")
  else if isLocal then
    { s with io := s.io.beginTransition, pending := some (.submissionAlias recipient) }
  else
    { s with
      ctx := pushRecipient s.ctx recipient
      io := s.io.replyThenSettle (bytes "250 Ok") .waitRcptTo [.rcptTo [recipient]] }

/-- The recipient resolution of an unauthenticated client, `resolve_recipient_async`: the recipient
cache first. -/
def resolveRecipient (o : Oracle) (recipient : Bytes) : Session :=
  match o.cachedStatus with
  | some 1 =>
    { s with
      ctx := pushTargets s.ctx [recipient]
      io := s.io.finish .waitRcptTo (bytes "250 Ok") [.rcptTo [recipient]] }
  | some _ => { s with pending := some (.recipientAlias recipient) }
  | none => { s with pending := some (.userExists recipient) }

def rcptToUnauthenticated (o : Oracle) (recipient : Bytes) : Session :=
  if ipInTrustedNetworks env.clientIp cfg.trustedRelayNetworks then
    { s with
      ctx := pushRecipient s.ctx recipient
      io := s.io.apply .waitRcptTo (some (bytes "250 Ok")) [.rcptTo [recipient]] }
  else if toLower (domainAfterLastAt recipient) ≠ toLower cfg.systemDomain then
    s.rejectRcpt (bytes "550 5.7.1 Relay access denied")
  else if (trim (localPartBeforeLastAt recipient)).isEmpty then
    s.rejectRcpt (bytes "501 Syntax error in parameters or arguments")
  else { s with io := s.io.beginTransition }.resolveRecipient o recipient

def handleWaitRcptToRcptTo (o : Oracle) : Session :=
  match (betweenAngles s.lastCommandArgs).map trim with
  | none => s.rejectRcpt (bytes "501 Syntax error in parameters or arguments")
  | some recipient =>
    if recipient.isEmpty then s.rejectRcpt (bytes "501 Syntax error in parameters or arguments")
    else if s.ctx.isAuthenticated then s.rcptToAuthenticated cfg recipient
    else s.rcptToUnauthenticated env cfg o recipient

/-- The answer of the alias lookup for a client's own submission: an address that is no alias is
taken as it is. -/
def submissionAliasDone (recipient : Bytes) (targets : List Bytes) : Session :=
  if s.io.closed then s
  else if targets.isEmpty then
    { s with
      ctx := pushRecipient s.ctx recipient
      io := s.io.finish .waitRcptTo (bytes "250 Ok") [.rcptTo [recipient]] }
  else
    { s with
      ctx := pushTargets s.ctx targets
      io := s.io.finish .waitRcptTo (bytes "250 Ok") [.rcptTo targets] }

/-- The targets of an unauthenticated client's recipient; none means that there is no such user. -/
def recipientResolved (targets : List Bytes) : Session :=
  if targets.isEmpty then
    { s with io := s.io.finish .waitRcptTo (bytes "550 5.1.1 User unknown") [] }
  else
    { s with
      ctx := pushTargets s.ctx targets
      io := s.io.finish .waitRcptTo (bytes "250 Ok") [.rcptTo targets] }

/-- The answer whether the recipient is an account. -/
def userExistsDone (recipient : Bytes) (found : Bool) : Session :=
  if s.io.closed then s
  else if found then s.recipientResolved [recipient]
  else { s with pending := some (.recipientAlias recipient) }

/-- The answer of the alias lookup for an address that is no account. -/
def recipientAliasDone (targets : List Bytes) : Session :=
  if s.io.closed then s else s.recipientResolved targets

/-! ## DATA, QUIT and the self loops -/

def handleWaitDataData (o : Oracle) : Except Session Session :=
  (s.createMailOnDataCommand o.openWrite).map fun s =>
    { s with
      io :=
        s.io.replyThenSettle (bytes "354 Start mail input; end with <CRLF>.<CRLF>") .inMessage [] }

def handleInMessageData : Session := { s with io := s.io.doAsyncRead }

def handleWaitQuitQuit : Session :=
  { s with io := (s.io.applyClosing .closed).doAsyncWrite (bytes "221 Bye\r\n") (some .close) }

/-- `handle_timeout` and `handle_empty`. -/
def handleSelfLoop : Session := { s with io := s.io.apply s.io.state none [] }

def handleError : Session :=
  let s := { s with stayTimes := s.stayTimes + 1 }
  if 3 < s.stayTimes then { s with io := s.io.close }
  else
    { s with
      io :=
        s.io.replyThenSettle (bytes "500 Error: " ++ s.lastCommandArgs) s.io.state [] }

end Session

end ProtoRelay
