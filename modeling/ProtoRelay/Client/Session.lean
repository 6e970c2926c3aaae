import ProtoRelay.Base.Lines
import ProtoRelay.Base.Runs
import ProtoRelay.Outbound.Wire

/-!
# The SMTP client session

`smtp::ClientSession` is one connection of an SMTP client, on one executor: `connect`, `send` and
`quit` are operations, one at a time, and each is a chain of writes and replies, ended by a reply, a
failure, the deadline or `close`.  The operation that is running waits for one completion of the
transport at any time; the completions of operations that are done are ignored.
-/

namespace ProtoRelay

/-! ## Options and results -/

inductive TlsMode
  | none
  | implicit
  | startTlsRequired
  deriving DecidableEq

inductive Outcome
  | ready
  | accepted
  | rejected
  | temporaryFailure
  | authFailed
  | protocolError
  | outcomeUnknown
  | cancelled
  deriving DecidableEq

/-- The stages of the operations. -/
inductive ClientStage
  | connect
  | ehlo
  | starttls
  | tls
  | auth
  | credentials
  | mail
  | recipient
  | data
  | body
  | quit
  | busy
  deriving DecidableEq

/-- `Result`. -/
structure ClientResult where
  outcome : Outcome
  code : Nat := 0
  stage : ClientStage
  error : Bytes := []
  recipients : List (Bytes × Nat) := []
  reusable : Bool := false
  deriving DecidableEq

/-- `ConnectOptions`, without the configuration of TLS. -/
structure ConnectOptions where
  host : Bytes
  port : Nat := 25
  helo : Bytes := bytes "localhost"
  tls : TlsMode := .none
  authUser : Bytes := []
  password : Option Bytes := none
  timeoutMs : Int := 30000
  deriving DecidableEq

/-- `Message`. -/
structure ClientMessage where
  sender : Bytes
  recipients : List Bytes
  raw : Option Bytes
  timeoutMs : Int := 30000
  deriving DecidableEq

def atom (value : Bytes) : Bool :=
  !value.isEmpty && decide (value.length ≤ 998) &&
    value.all fun c => !(c ≤ 32 || 127 ≤ c || c == 60 || c == 62)

def ConnectOptions.isValid (o : ConnectOptions) : Bool :=
  atom o.host && atom o.helo && o.port != 0 && decide (0 < o.timeoutMs) &&
    match o.password with
    | none => true
    | some password =>
      atom o.authUser && !password.isEmpty && decide (password.length ≤ 4096) &&
        !password.contains 0

def ClientMessage.isValid (m : ClientMessage) : Bool :=
  (m.sender.isEmpty || atom m.sender) && !m.recipients.isEmpty &&
    decide (m.recipients.length ≤ 100) && m.raw.any (!·.isEmpty) && decide (0 < m.timeoutMs) &&
      m.recipients.all atom

/-! ## Replies -/

/-- The reply that is being read: its lines, its code, its size and, for the record, its bytes. -/
structure ReplyState where
  lines : List Bytes := []
  code : Nat := 0
  size : Nat := 0
  raw : Bytes := []

inductive ReplyRead
  /-- there is no complete line in the buffer -/
  | more (reply : ReplyState)
  | failed (code : Nat) (reason : Bytes)
  | complete (reply : ReplyState)

def maxReplySize : Nat := 64 * 1024

def isDigit (b : UInt8) : Bool := decide (48 ≤ b) && decide (b ≤ 57)

/-- The code of a reply line and whether it is the last one, `none` for a malformed line.  A line of
three digits alone is a last line. -/
def replyLine : Bytes → Option (Nat × Bool)
  | d₀ :: d₁ :: d₂ :: rest =>
    if decide (50 ≤ d₀) && decide (d₀ ≤ 53) && isDigit d₁ && isDigit d₂ &&
        (rest.isEmpty || rest.head? == some 32 || rest.head? == some 45) then
      some ((d₀.toNat - 48) * 100 + (d₁.toNat - 48) * 10 + (d₂.toNat - 48), rest.head? != some 45)
    else none
  | _ => none

/-- The loop of `read_reply` over the complete lines of the buffer, which end in CRLF, with `carry`
behind them: how it goes on, and the buffer then. -/
def readReplyLines (carry : Bytes) : List Bytes → ReplyState → ReplyRead × Bytes
  | [], reply =>
    if maxReplySize ≤ carry.length + reply.size then
      (.failed reply.code (bytes "reply too large"), carry)
    else (.more reply, carry)
  | line :: lines, reply =>
    let size := reply.size + (line.length + 2)
    match replyLine line with
    | none => (.failed reply.code (bytes "malformed reply"), joinSep 13 10 lines carry)
    | some (code, isLast) =>
      if maxReplySize < size then
        (.failed reply.code (bytes "malformed reply"), joinSep 13 10 lines carry)
      else if reply.code ≠ 0 ∧ reply.code ≠ code then
        (.failed reply.code (bytes "inconsistent multiline reply"), joinSep 13 10 lines carry)
      else
        let reply : ReplyState :=
          { lines := reply.lines ++ [line.drop 4]
            code
            size
            raw := reply.raw ++ line ++ [13, 10] }
        if isLast then (.complete reply, joinSep 13 10 lines carry)
          else readReplyLines carry lines reply

/-! ## The session -/

/-- `Connection`: the bytes received that belong to no reply yet, and whether TLS is up.  For the
record, all bytes received and the replies that were read, with their codes. -/
structure ClientConnection where
  replies : Bytes := []
  tls : Bool := false
  stream : Bytes := []
  history : List (Nat × Bytes) := []
  deriving DecidableEq

/-- What an operation was started with. -/
inductive ClientCall
  | connect (o : ConnectOptions)
  | send (m : ClientMessage)
  | quit
  deriving DecidableEq

inductive ClientWait
  | connect
  | handshake (implicit : Bool)
  | write
  | read
  deriving DecidableEq

/-- `Operation`, while it is not done. -/
structure ClientOperation where
  id : Nat
  call : ClientCall
  stage : ClientStage
  waits : ClientWait
  reply : ReplyState := {}
  recipient : Nat := 0
  bodyStarted : Bool := false
  recipients : List (Bytes × Nat) := []

/-- The code a recipient was answered with is kept for the result. -/
def ClientOperation.recorded (op : ClientOperation) (code : Nat) : ClientOperation :=
  match op.stage, op.call with
  | .recipient, .send m =>
    { op with recipients := op.recipients ++ [(m.recipients.getD op.recipient [], code)] }
  | _, _ => op

/-- What is recorded of a session. -/
inductive ClientEvent
  | started (id : Nat) (call : ClientCall)
  /-- bytes are handed to the transport -/
  | wrote (id : Nat) (stage : ClientStage) (wire : Bytes)
  /-- the transport has written them without error -/
  | written (id : Nat) (stage : ClientStage)
  /-- a complete reply was read -/
  | reply (id : Nat) (stage : ClientStage) (code : Nat)
  /-- a connection was opened -/
  | opened (id : Nat) (o : ConnectOptions)
  /-- the TLS handshake has succeeded, on this connection -/
  | secured (id : Nat) (c : ClientConnection)
  /-- the operation's callback was called, with this connection -/
  | completed (id : Nat) (r : ClientResult) (c : Option ClientConnection)
  deriving DecidableEq

/-- `ClientSession::Impl`. -/
structure ClientSession where
  isOpen : Bool := false
  connection : Option ClientConnection := none
  current : Option ClientOperation := none
  nextId : Nat := 0
  log : List ClientEvent := []

namespace ClientSession

variable (s : ClientSession)

def disconnect : ClientSession := { s with isOpen := false, connection := none }

variable (op : ClientOperation)

def finish (outcome : Outcome) (code : Nat) (error : Bytes) (reusable : Bool) : ClientSession :=
  let result : ClientResult :=
    { outcome, code, stage := op.stage, error, recipients := op.recipients, reusable }
  let s' := if reusable then s else s.disconnect
  { s' with current := none, log := .completed op.id result s.connection :: s.log }

def ioFailed (reason : Bytes) : ClientSession :=
  s.finish op (if op.bodyStarted then .outcomeUnknown else .temporaryFailure) 0 reason false

def protocolFailed (code : Nat) (reason : Bytes) : ClientSession :=
  s.finish op (if op.bodyStarted then .outcomeUnknown else .protocolError) code reason false

def write (stage : ClientStage) (wire : Bytes) : ClientSession :=
  { s with
    current := some { op with stage, waits := .write }
    log := .wrote op.id stage wire :: s.log }

/-- `handshake`, up to the call of the transport. -/
def handshake (implicit : Bool) : ClientSession :=
  { s with current := some { op with stage := .tls, waits := .handshake implicit } }

def ehlo (o : ConnectOptions) : ClientSession :=
  s.write op .ehlo (bytes "EHLO " ++ o.helo ++ bytes "\r\n")

/-- `recipient`, for the `i`-th recipient. -/
def rcpt (m : ClientMessage) (i : Nat) : ClientSession :=
  s.write { op with recipient := i } .recipient
    (bytes "RCPT TO:<" ++ m.recipients.getD i [] ++ bytes ">\r\n")

def capability (lines : List Bytes) (name : Bytes) : Bool := lines.any (toUpper · == name)

/-- The words of a line, by the white space of `operator>>`. -/
def words (s : Bytes) : List Bytes :=
  (s.splitOnP fun b => b == 32 || (9 ≤ b && b ≤ 13)).filter (!·.isEmpty)

def authPlain (lines : List Bytes) : Bool :=
  lines.any fun line =>
    let cap := toUpper line
    ((bytes "AUTH ").isPrefixOf cap || (bytes "AUTH=").isPrefixOf cap) &&
      (words (cap.drop 5)).contains (bytes "PLAIN")

/-- The text the credentials are made of. -/
def plainText (user password : Bytes) : Bytes := 0 :: user ++ 0 :: password

/-- The code a stage expects. -/
def expectedCode : ClientStage → Nat
  | .connect | .starttls => 220
  | .auth => 334
  | .credentials => 235
  | .data => 354
  | .quit => 221
  | _ => 250

variable (encodeBlock : Bytes → Bytes)

/-- `on_reply`, behind its checks of the code: what the operation `op` does after the reply with
these lines.  `encodeBlock` is the base64 encoder of the crypto library. -/
def proceed (s : ClientSession) (c : ClientConnection)
    (op : ClientOperation) (code : Nat) (lines : List Bytes) : ClientSession :=
  match op.stage, op.call with
  | .connect, .connect o => s.ehlo op o
  | .ehlo, .connect o =>
    if o.tls = .startTlsRequired ∧ c.tls = false then
      if capability lines (bytes "STARTTLS") then s.write op .starttls (bytes "STARTTLS\r\n")
      else s.protocolFailed op code (bytes "STARTTLS not advertised")
    else
      match o.password with
      | some _ =>
        if authPlain lines then s.write op .auth (bytes "AUTH PLAIN\r\n")
        else s.protocolFailed op code (bytes "AUTH PLAIN not advertised")
      | none => { s with isOpen := true }.finish op .ready code [] true
  | .starttls, _ =>
    if c.replies ≠ [] then s.protocolFailed op code (bytes "buffered bytes before TLS upgrade")
    else s.handshake op false
  | .auth, .connect o =>
    s.write op .credentials (encodeBlock (plainText o.authUser (o.password.getD [])) ++
      bytes "\r\n")
  | .credentials, _ => { s with isOpen := true }.finish op .ready code [] true
  | .mail, .send m => s.rcpt op m 0
  | .recipient, .send m =>
    if op.recipient + 1 < m.recipients.length then s.rcpt op m (op.recipient + 1)
    else s.write op .data (bytes "DATA\r\n")
  | .data, .send m =>
    s.write { op with bodyStarted := true } .body (dataFrame (m.raw.getD []))
  | .body, _ => s.finish op .accepted code [] true
  | .quit, _ => s.finish op .ready code [] false
  | _, _ => s

def refusal (stage : ClientStage) (code : Nat) : Outcome :=
  if (stage = .auth ∨ stage = .credentials) ∧ code = 535 then .authFailed
  else if code < 500 then .temporaryFailure
  else .rejected

def onReply (s : ClientSession) (c : ClientConnection)
    (op : ClientOperation) (reply : ReplyState) : ClientSession :=
  let s := { s with log := .reply op.id op.stage reply.code :: s.log }
  let op := op.recorded reply.code
  if 400 ≤ reply.code then
    s.finish op (refusal op.stage reply.code) reply.code
      (bytes "SMTP peer rejected operation") false
  else if reply.code ≠ expectedCode op.stage ∧ ¬(op.stage = .recipient ∧ reply.code = 251) then
    s.protocolFailed op reply.code (bytes "unexpected reply code")
  else s.proceed encodeBlock c op reply.code reply.lines

/-- `read_reply`, up to the next call of the transport. -/
def readReply (s : ClientSession) (c : ClientConnection) (op : ClientOperation) : ClientSession :=
  let split := splitSep 13 10 c.replies
  match readReplyLines split.2 split.1 op.reply with
  | (.more reply, replies) =>
    { s with
      connection := some { c with replies }
      current := some { op with reply, waits := .read } }
  | (.failed code reason, replies) =>
    { s with connection := some { c with replies } }.protocolFailed op code reason
  | (.complete reply, replies) =>
    let c := { c with replies, history := c.history ++ [(reply.code, reply.raw)] }
    { s with connection := some c }.onReply encodeBlock c { op with reply := {} } reply

def start (call : ClientCall) (stage : ClientStage) (waits : ClientWait)
    (task : ClientSession → ClientOperation → ClientSession) : ClientSession :=
  let id := s.nextId
  let s := { s with nextId := id + 1, log := .started id call :: s.log }
  match s.current with
  | some _ =>
    -- `available`: the callback is called at once
    let result : ClientResult :=
      { outcome := .protocolError, stage := .busy, error := bytes "operation already in progress" }
    { s with log := .completed id result s.connection :: s.log }
  | none => task s { id, call, stage, waits }

def connect (o : ConnectOptions) : ClientSession :=
  s.start (.connect o) .connect .connect fun s op =>
    let s := { s.disconnect with connection := some {}, log := .opened op.id o :: s.log }
    if !o.isValid then s.finish op .protocolError 0 (bytes "invalid connection options") false
    else { s with current := some op }

def send (m : ClientMessage) : ClientSession :=
  s.start (.send m) .mail .write fun s op =>
    if !s.isOpen ∨ s.connection = none then
      s.finish op .temporaryFailure 0 (bytes "connection not ready") false
    else if !m.isValid then
      s.finish op .protocolError 0 (bytes "invalid message envelope or payload") false
    else s.write op .mail (bytes "MAIL FROM:<" ++ m.sender ++ bytes ">\r\n")

def quit : ClientSession :=
  s.start .quit .quit .write fun s op =>
    if s.connection = none ∨ !s.isOpen then s.finish op .ready 0 [] false
    else s.write op .quit (bytes "QUIT\r\n")

def close : ClientSession :=
  match s.current with
  | some op =>
    s.finish op (if op.bodyStarted then .outcomeUnknown else .cancelled) 0
      (bytes "connection closed by caller") false
  | none => s.disconnect

/-- What happens next: a call, a completion of the transport for the operation that waits for it,
with an error or without, or its deadline. -/
inductive Input
  | connect (o : ConnectOptions)
  | send (m : ClientMessage)
  | quit
  | close
  | connected (error : Option Bytes)
  | handshaken (error : Option Bytes)
  | written (error : Option Bytes)
  | received (data : Bytes)
  | readFailed (error : Bytes)
  | deadline

/-- The operation that waits for a completion, with its connection. -/
def waiting (waits : ClientWait → Bool) : Option (ClientOperation × ClientConnection) :=
  match s.current, s.connection with
  | some op, some c => if waits op.waits then some (op, c) else none
  | _, _ => none

/-- The completion of `async_connect`. -/
def connected (s : ClientSession) (error : Option Bytes) : ClientSession :=
  match s.waiting (· = .connect) with
  | none => s
  | some (op, c) =>
    match error, op.call with
    | some error, _ => s.ioFailed op error
    | none, .connect o =>
      if o.tls = .implicit then s.handshake op true
      else s.readReply encodeBlock c { op with reply := {} }
    | none, _ => s

/-- The completion of `async_start_tls`. -/
def handshaken (s : ClientSession) (error : Option Bytes) : ClientSession :=
  match s.waiting fun w => w = .handshake true ∨ w = .handshake false with
  | none => s
  | some (op, c) =>
    match error, op.call with
    | some error, _ => s.ioFailed op (bytes "TLS: " ++ error)
    | none, .connect o =>
      let s := { s with
        connection := some { c with tls := true }
        log := .secured op.id c :: s.log }
      if op.waits = .handshake true then
        s.readReply encodeBlock { c with tls := true } { op with stage := .connect, reply := {} }
      else s.ehlo op o
    | none, _ => s

/-- The completion of `async_write`. -/
def written (s : ClientSession) (error : Option Bytes) : ClientSession :=
  match s.waiting (· = .write) with
  | none => s
  | some (op, c) =>
    match error with
    | some error => s.ioFailed op error
    | none =>
      { s with log := .written op.id op.stage :: s.log }.readReply encodeBlock c
        { op with reply := {} }

/-- The completion of `async_read`. -/
def received (s : ClientSession) (data : Bytes) : ClientSession :=
  match s.waiting (· = .read) with
  | none => s
  | some (op, c) =>
    if data.isEmpty then s.ioFailed op (bytes "empty read")
    else
      let c := { c with replies := c.replies ++ data, stream := c.stream ++ data }
      { s with connection := some c }.readReply encodeBlock c op

def step (s : ClientSession) : Input → ClientSession
  | .connect o => s.connect o
  | .send m => s.send m
  | .quit => s.quit
  | .close => s.close
  | .connected error => s.connected encodeBlock error
  | .handshaken error => s.handshaken encodeBlock error
  | .written error => s.written encodeBlock error
  | .received data => s.received encodeBlock data
  | .readFailed error =>
    match s.waiting (· = .read) with
    | none => s
    | some (op, _) => s.ioFailed op error
  | .deadline =>
    match s.current with
    | none => s
    | some op => s.ioFailed op (bytes "deadline exceeded")

end ClientSession

end ProtoRelay
