import ProtoRelay.Base.Lines
import ProtoRelay.Smtp.Policy

/-!
# IMAP: states, events and context

The data of an IMAP session up to the login: `ImapState` and `ImapEvent`, the parts of `ImapContext`
that the input path and the commands before the login use, and the description of the protocol
(`make_imaps_desc`) for the engine.
-/

namespace ProtoRelay

inductive ImapState
  | init
  | notAuthenticated
  | authenticated
  | selected
  | logout
  | closed
  deriving DecidableEq

inductive ImapEvent
  | connect
  | capability
  | login
  | authenticate
  | logout
  | select
  | examine
  | create
  | delete
  | rename
  | subscribe
  | unsubscribe
  | list
  | lsub
  | imapStatus
  | append
  | check
  | close
  | expunge
  | search
  | fetch
  | store
  | copy
  | move
  | uid
  | noop
  | idle
  | done
  | starttls
  | error
  | timeout
  deriving DecidableEq

/-- `get_imap_command_map`. -/
def imapCommands : List (Bytes × ImapEvent) :=
  [(bytes "CAPABILITY", .capability), (bytes "LOGIN", .login),
    (bytes "AUTHENTICATE", .authenticate), (bytes "LOGOUT", .logout), (bytes "SELECT", .select),
    (bytes "EXAMINE", .examine), (bytes "CREATE", .create), (bytes "DELETE", .delete),
    (bytes "RENAME", .rename), (bytes "SUBSCRIBE", .subscribe),
    (bytes "UNSUBSCRIBE", .unsubscribe), (bytes "LIST", .list), (bytes "LSUB", .lsub),
    (bytes "STATUS", .imapStatus), (bytes "APPEND", .append), (bytes "CHECK", .check),
    (bytes "CLOSE", .close), (bytes "EXPUNGE", .expunge), (bytes "SEARCH", .search),
    (bytes "FETCH", .fetch), (bytes "STORE", .store), (bytes "COPY", .copy),
    (bytes "MOVE", .move), (bytes "UID", .uid), (bytes "NOOP", .noop), (bytes "IDLE", .idle),
    (bytes "DONE", .done), (bytes "STARTTLS", .starttls)]

def imapCommand (word : Bytes) : Option ImapEvent := imapCommands.lookup word

/-- What the framing of the input depends on: `state_` and `awaiting_literal_`. -/
structure ImapFraming where
  state : ImapState
  awaitingLiteral : Bool := false
  deriving DecidableEq

/-- IMAP takes a line up to CRLF, and whatever is there while a literal is received. -/
instance : LineProtocol ImapFraming where
  hasBufferedInput st buf :=
    if st.awaitingLiteral then !buf.isEmpty else (cutAt [13, 10] buf).isSome
  extractOneLine st buf :=
    if st.awaitingLiteral then (buf, [])
    else
      match cutAt [13, 10] buf with
      | none => ([], buf)
      | some (line, rest) => (line ++ [13, 10], rest)

/-! ## Description -/

/-- The states over which `make_imaps_desc` loops. -/
def ImapState.live : List ImapState := [.init, .notAuthenticated, .authenticated, .selected]

/-- `make_imaps_desc`; the replies of the engine come from its formatter. -/
def makeImapsDesc (allowStarttls : Bool) : Desc ImapState ImapEvent where
  guards :=
    [⟨.init, .connect, some .notAuthenticated⟩,
      ⟨.notAuthenticated, .capability, some .notAuthenticated⟩,
      ⟨.notAuthenticated, .login, some .notAuthenticated⟩,
        ⟨.notAuthenticated, .login, some .authenticated⟩,
      ⟨.notAuthenticated, .authenticate, some .notAuthenticated⟩,
      ⟨.notAuthenticated, .authenticate, some .authenticated⟩,
      ⟨.notAuthenticated, .noop, some .notAuthenticated⟩,
      ⟨.notAuthenticated, .logout, some .logout⟩, ⟨.authenticated, .select, some .selected⟩,
      ⟨.authenticated, .examine, some .selected⟩,
        ⟨.authenticated, .capability, some .authenticated⟩,
      ⟨.authenticated, .list, some .authenticated⟩, ⟨.authenticated, .lsub, some .authenticated⟩,
      ⟨.authenticated, .imapStatus, some .authenticated⟩,
        ⟨.authenticated, .create, some .authenticated⟩,
      ⟨.authenticated, .delete, some .authenticated⟩,
        ⟨.authenticated, .rename, some .authenticated⟩,
      ⟨.authenticated, .subscribe, some .authenticated⟩,
        ⟨.authenticated, .unsubscribe, some .authenticated⟩,
      ⟨.authenticated, .append, some .authenticated⟩, ⟨.authenticated, .check, some .authenticated⟩,
      ⟨.authenticated, .close, some .authenticated⟩, ⟨.authenticated, .noop, some .authenticated⟩,
      ⟨.authenticated, .idle, some .authenticated⟩, ⟨.authenticated, .done, some .authenticated⟩,
      ⟨.authenticated, .logout, some .logout⟩, ⟨.selected, .fetch, some .selected⟩,
      ⟨.selected, .store, some .selected⟩, ⟨.selected, .search, some .selected⟩,
      ⟨.selected, .copy, some .selected⟩, ⟨.selected, .move, some .selected⟩,
      ⟨.selected, .uid, some .selected⟩, ⟨.selected, .expunge, some .selected⟩,
      ⟨.selected, .select, some .selected⟩, ⟨.selected, .examine, some .selected⟩,
      ⟨.selected, .close, some .authenticated⟩, ⟨.selected, .check, some .selected⟩,
      ⟨.selected, .capability, some .selected⟩, ⟨.selected, .imapStatus, some .selected⟩,
      ⟨.selected, .noop, some .selected⟩, ⟨.selected, .append, some .selected⟩,
      ⟨.selected, .idle, some .selected⟩, ⟨.selected, .done, some .selected⟩,
      ⟨.selected, .logout, some .logout⟩] ++
    (if allowStarttls then [⟨.notAuthenticated, .starttls, some .notAuthenticated⟩] else []) ++
    ImapState.live.flatMap fun s => [⟨s, .error, none⟩, ⟨s, .timeout, none⟩]
  terminals := [.logout, .closed]
  errorReply := bytes "* BAD Invalid command sequence"
  internalErrorReply := bytes "* NO Internal server error"

/-! ## Context and reports -/

/-- `sasl_plain_state`: no exchange, waiting for the client's response, or the response is there. -/
inductive SaslPlainState
  | none
  | awaiting
  | received
  deriving DecidableEq

/-- `ImapContext`, as far as the input path and the commands before the login use it. -/
structure ImapContext where
  isAuthenticated : Bool := false
  username : Bytes := []
  userId : Nat := 0
  shardIndex : Nat := 0
  currentTag : Bytes := []
  idleMode : Bool := false
  saslPlainState : SaslPlainState := .none
  saslPlainResponse : Bytes := []
  pendingAppendPreamble : Bytes := []

inductive ImapReport
  | dispatched (event : ImapEvent) (tag args : Bytes)
  deriving DecidableEq

end ProtoRelay
