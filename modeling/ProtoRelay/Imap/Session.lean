import ProtoRelay.Base.Runs
import ProtoRelay.Imap.Types

/-!
# The IMAP session up to the login

How an IMAP session reads its input (`handle_read`: command lines, literals, the lines of IDLE and
of a SASL exchange), what it does with a command (`process_read` and the engine), and the handlers
of a client that is not logged in.  The commands of the later states are not followed: their
handlers and whatever they have started may leave the session in any way, but in one of the states
that the guard table has for them.
-/

namespace ProtoRelay

/-- A password check under way, with the texts of its two outcomes. -/
structure AuthCheck where
  tag : Bytes
  username : Bytes
  okText : Bytes
  failText : Bytes

/-- `ImapsSession` with its base class; `state_` and `awaiting_literal_` are in `io.state`. -/
structure ImapSession where
  io : SessionBase ImapFraming ImapReport
  ctx : ImapContext := {}
  nextEvent : ImapEvent := .connect
  currentTag : Bytes := []
  currentCommand : Bytes := []
  lastCommandArgs : Bytes := []
  expectedLiteralSize : Nat := 0
  literalDataBuffer : Bytes := []
  commandParsed : Bool := false
  idleDoneReceived : Bool := false
  pending : Option AuthCheck := none
  authAttemptCount : Nat := 0

structure ImapEnv where
  isTls : Bool
  /-- the server has a pool of worker threads -/
  hasWorker : Bool
  /-- `EVP_DecodeBlock` -/
  decodeBlock : Bytes → Option Bytes

namespace ImapSession

/-! ## Reading -/

/-- `std::stoull`: white space and a sign in front, anything behind the digits.  A minus negates
modulo `2 ^ 64`.  `none`: it throws. -/
def stoull (s : Bytes) : Option Nat :=
  let s := s.dropWhile fun b => b == 32 || 9 ≤ b && b ≤ 13
  let negative := s.head? = some 45
  let s := if s.head? = some 45 ∨ s.head? = some 43 then s.tail else s
  let digits := s.takeWhile fun b => 48 ≤ b && b ≤ 57
  let n := digits.foldl (fun acc b => acc * 10 + (b.toNat - 48)) 0
  if digits = [] ∨ 2 ^ 64 ≤ n then none
  else some (if negative then (2 ^ 64 - n) % 2 ^ 64 else n)

/-- The line without its CRLF and the blanks at its end; a line of blanks keeps them. -/
def lineOf (data : Bytes) : Bytes :=
  let line := if [13, 10].isSuffixOf data then data.dropLast.dropLast else data
  let trimmed := (line.reverse.dropWhile fun b => b == 32 || b == 9).reverse
  if trimmed = [] then line else trimmed

variable (env : ImapEnv) (cfg : ServerConfig) (s : ImapSession)

/-- `send_tagged`; its callback re-arms the read, as a write without callback does. -/
def sendTagged (tag status message : Bytes) : ImapSession :=
  { s with
    io := s.io.doAsyncWrite (tag ++ bytes " " ++ status ++ bytes " " ++ message ++
      bytes "\r\n") none }

/-- A chunk of a literal. -/
def readLiteral (data : Bytes) : ImapSession :=
  let buffer := s.literalDataBuffer ++ data
  if s.expectedLiteralSize ≤ buffer.length then
    { s with
      io := { s.io with
        state := { s.io.state with awaitingLiteral := false }
        commandReadBuffer := buffer.drop s.expectedLiteralSize ++ s.io.commandReadBuffer }
      lastCommandArgs := buffer.take s.expectedLiteralSize
      literalDataBuffer := []
      ctx := { s.ctx with currentTag := s.currentTag }
      commandParsed := true
      nextEvent := .append }
  else { s with literalDataBuffer := buffer, io := s.io.doAsyncRead }

/-- The largest literal a client may announce. -/
def maxImapLiteralBytes : Nat := 32 * 1024 * 1024

/-- Tag, command and arguments at the first two blanks; without a blank the text is both tag and
command. -/
def splitLine (line : Bytes) : Bytes × Bytes × Bytes :=
  match findByte 32 line with
  | none => (line, line, [])
  | some first =>
    let rest := line.drop (first + 1)
    match findByte 32 rest with
    | none => (line.take first, rest, [])
    | some second => (line.take first, rest.take second, rest.drop (second + 1))

/-- The size of the literal a line announces, and the text in front of it. -/
def announcedLiteral (line : Bytes) : Option (Nat × Bytes) :=
  match rfindByte 123 line with
  | none => none
  | some brace =>
    if line.getLast? = some 125 then
      (stoull (line.drop (brace + 1)).dropLast).map (·, line.take brace)
    else none

/-- A line that announces a literal: what is there of it already is taken. -/
def beginLiteral (size : Nat) (text : Bytes) : ImapSession :=
  let (tag, command, args) := splitLine (text.reverse.dropWhile (· == 32)).reverse
  let buffer := s.io.commandReadBuffer
  let s := { s with
    currentTag := tag
    currentCommand := toUpper command
    lastCommandArgs := args
    ctx :=
      if command = bytes "APPEND" then { s.ctx with pendingAppendPreamble := args } else s.ctx
    expectedLiteralSize := size }
  if size ≤ buffer.length then
    let rest := buffer.drop size
    { s with
      io := { s.io with
        state := { s.io.state with awaitingLiteral := false }
        commandReadBuffer := if [13, 10].isPrefixOf rest then rest.drop 2 else rest }
      literalDataBuffer := []
      lastCommandArgs := buffer.take size
      ctx := { s.ctx with currentTag := tag }
      commandParsed := true
      nextEvent := .append }
  else
    { s with
      io := { s.io with
        state := { s.io.state with awaitingLiteral := true }
        commandReadBuffer := [] }.doAsyncWrite (bytes "+ Ready for literal data\r\n") none
      literalDataBuffer := buffer }

def readCommand (line : Bytes) : ImapSession :=
  let (tag, command, args) := splitLine line
  let command := toUpper command
  let (event, args) :=
    match imapCommand command with
    | some event => (event, args)
    | none => (.error, bytes "Unknown command: " ++ command)
  { s with
    nextEvent := event
    currentTag := tag
    currentCommand := command
    lastCommandArgs := args
    ctx := { s.ctx with currentTag := tag }
    commandParsed := true }

def handleRead (data : Bytes) : ImapSession :=
  if s.io.state.awaitingLiteral then s.readLiteral data
  else
    let line := lineOf data
    if line = [] then { s with io := s.io.doAsyncRead }
    else if s.ctx.idleMode then
      if toUpper line = bytes "DONE" then { s with idleDoneReceived := true, commandParsed := true }
      else s
    else if s.ctx.saslPlainState = .awaiting then
      { s with
        ctx := { s.ctx with saslPlainResponse := line, saslPlainState := .received }
        commandParsed := true
        nextEvent := .authenticate }
    else
      match announcedLiteral line with
      | none => s.readCommand line
      | some (size, text) =>
        if maxImapLiteralBytes < size then
          let tag := line.takeWhile (· != 32)
          let s := s.sendTagged tag (bytes "BAD") (bytes "Literal too large")
          { s with io := s.io.closeAfterFlush }
        else s.beginLiteral size text

/-! ## Handlers -/

def handleInitConnect : ImapSession :=
  { s with
    io :=
      ((s.io.doAsyncWrite (bytes "* OK IMAP4rev1 Server Ready\r\n") none).settleEnter
        (some ⟨.notAuthenticated, false⟩) none).settleExit }

def handleCapability : ImapSession :=
  { s with
    io := s.io.doAsyncWrite
      (bytes "* CAPABILITY IMAP4rev1" ++ (if env.isTls then [] else bytes " STARTTLS") ++
        bytes " IDLE UIDPLUS MOVE AUTH=PLAIN\r\n" ++ s.ctx.currentTag ++
          bytes " OK CAPABILITY completed\r\n")
      none }

def startAuthVerify (username okText failText : Bytes) : ImapSession :=
  let username :=
    if username.isEmpty then username else qualifyUsername cfg.systemDomain username
  if !env.hasWorker then s.sendTagged s.ctx.currentTag (bytes "NO") (bytes "Server not ready")
  else
    { s with
      io := s.io.beginTransition
      pending := some ⟨s.ctx.currentTag, username, okText, failText⟩ }

/-- The user name in the arguments of LOGIN.  `none`: taking the password out of range throws. -/
def loginUsername (args : Bytes) : Option Bytes :=
  match findByte 32 args with
  | none => some args
  | some space =>
    if space = 0 then some args
    else if args.head? = some 34 then
      match findByteFrom 34 1 args with
      | none => some []
      | some quote =>
        if args.length < quote + 2 then none else some ((args.drop 1).take (quote - 1))
    else some (args.take space)

def handleLogin : Except ImapSession ImapSession :=
  match loginUsername s.lastCommandArgs with
  | none => .error s
  | some username =>
    .ok (s.startAuthVerify env cfg username (bytes "LOGIN completed") (bytes "LOGIN failed"))

/-- The identity in a SASL PLAIN message, which has exactly two NULs. -/
def saslPlainUsername (decoded : Bytes) : Option Bytes :=
  match findByte 0 decoded with
  | none => none
  | some n1 =>
    match findByteFrom 0 (n1 + 1) decoded with
    | none => none
    | some n2 =>
      if (findByteFrom 0 (n2 + 1) decoded).isSome then none
      else some ((decoded.drop (n1 + 1)).take (n2 - n1 - 1))

def verifySaslPlain (response : Bytes) : ImapSession :=
  match saslPlainUsername (base64Decode env.decodeBlock response) with
  | none => s.sendTagged s.ctx.currentTag (bytes "NO") (bytes "AUTHENTICATE failed")
  | some username =>
    s.startAuthVerify env cfg username (bytes "AUTHENTICATE completed")
      (bytes "AUTHENTICATE failed")

def handleAuthenticate : ImapSession :=
  if s.ctx.saslPlainState = .received then
    let response := s.ctx.saslPlainResponse
    let s := { s with ctx := { s.ctx with saslPlainState := .none, saslPlainResponse := [] } }
    if response = bytes "*" then
      s.sendTagged s.ctx.currentTag (bytes "NO") (bytes "AUTHENTICATE aborted")
    else s.verifySaslPlain env cfg response
  else
    let args := s.lastCommandArgs
    let (mechanism, initial) :=
      match findByte 32 args with
      | none => (toUpper args, [])
      | some space => (toUpper (args.take space), args.drop (space + 1))
    if mechanism ≠ bytes "PLAIN" then
      s.sendTagged s.ctx.currentTag (bytes "NO")
        (bytes "Unsupported authentication mechanism: " ++ mechanism)
    else if initial ≠ [] then s.verifySaslPlain env cfg initial
    else
      { s with
        ctx := { s.ctx with saslPlainState := .awaiting, saslPlainResponse := [] }
        io := s.io.doAsyncWrite (bytes "+ \r\n") none }

def authDone (check : AuthCheck) (ok : Bool) (userId shard : Nat) : ImapSession :=
  if s.io.closed then s
  else if ok then
    { s with
      ctx := { s.ctx with
        isAuthenticated := true, username := check.username, userId, shardIndex := shard }
      io := s.io.finish ⟨.authenticated, false⟩ (check.tag ++ bytes " OK " ++ check.okText) [] }
  else
    let s := { s with authAttemptCount := s.authAttemptCount + 1 }
    if cfg.maxAuthAttempts ≤ s.authAttemptCount then { s with io := s.io.closeAfterFlush }
    else
      { s with
        io := s.io.finish ⟨.notAuthenticated,
          false⟩ (check.tag ++ bytes " NO " ++ check.failText) [] }

/-- `handle_noop`, for a client with no mailbox selected. -/
def handleNoop : ImapSession :=
  s.sendTagged s.ctx.currentTag (bytes "OK") (bytes "NOOP completed")

/-- `handle_logout`: the context is cleared; the timer that closes the session a little after the
write is part of the write here. -/
def handleLogout : ImapSession :=
  { s with
    ctx := {}
    io := (s.io.applyClosing { s.io.state with state := .logout }).doAsyncWrite
      (bytes "* BYE IMAP4rev1 Server logging out\r\n" ++ s.ctx.currentTag ++
        bytes " OK LOGOUT completed\r\n")
      (some .close) }

/-- `handle_starttls`: the state does not change, and the connection is handed over by the callback
of the write of the positive reply. -/
def handleStarttls : ImapSession :=
  { s with
    io := s.io.doAsyncWrite (s.ctx.currentTag ++ bytes " OK Begin TLS negotiation now\r\n")
      (some .handoff) }

def handleError : ImapSession :=
  s.sendTagged s.ctx.currentTag (bytes "BAD")
    (if s.lastCommandArgs.isEmpty then bytes "Protocol error" else s.lastCommandArgs)

def handleTimeout : ImapSession :=
  { s with io := s.io.doAsyncWrite (bytes "* BYE TIMEOUT\r\n") (some .close) }

/-- A handler of the later states, or something it has started, leaves the session as `after`. -/
def mailboxStep (s after : ImapSession) : ImapSession :=
  if after.io.state.state ∈ [ImapState.authenticated, .selected, .logout] then after else s

end ImapSession

end ProtoRelay
