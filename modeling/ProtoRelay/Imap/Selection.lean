import ProtoRelay.Imap.Addressing
import ProtoRelay.Imap.Changes
import ProtoRelay.Imap.SequenceSet

/-!
# Commands on a selected mailbox

The handlers of SELECT, EXAMINE, STORE, EXPUNGE, CLOSE, COPY, MOVE and of their UID variants, on the
tables.  Each is a chain of queries and statements; between two of them the session is paused,
others change the tables, and the client may go away.  What a handler waits for is a
`SelectionPending` of the session; the answers of the database are inputs.  Statements are carried
out on the tables, and a failed one has no effect.
-/

namespace ProtoRelay

/-! ## Arguments -/

/-- `s.find(pat) != npos`. -/
def containsText (pat s : Bytes) : Bool := (cutAt pat s).isSome

/-- The arguments of STORE: whether flags are added, and which ones. -/
structure StoreArgs where
  seqSet : Bytes
  add : Bool
  seen : Bool
  flagged : Bool
  deleted : Bool

/-- The data item of STORE, as it is used if it is a silent one. -/
def storeItem (item : Bytes) : Bytes :=
  let upper := toUpper item
  if containsText (bytes "SILENT") upper then
    if containsText (bytes "-FLAGS") upper then bytes "-FLAGS"
    else if containsText (bytes "+FLAGS") upper then bytes "+FLAGS"
    else if containsText (bytes "FLAGS") upper then bytes "FLAGS"
    else item
  else item

/-- The flags of STORE, without their parentheses. -/
def storeFlags (flags : Bytes) : Bytes :=
  if flags.head? = some 40 then
    match findByte 41 flags with
    | none => flags
    | some close => (flags.drop 1).take (close - 1)
  else flags

/-- How `handle_store` reads its arguments; the error is the text of the refusal. -/
def parseStore (args : Bytes) : Except Bytes StoreArgs :=
  match findByte 32 args with
  | none => .error (bytes "STORE requires arguments")
  | some space1 =>
    let rest := args.drop (space1 + 1)
    match findByte 32 rest with
    | none => .error (bytes "STORE requires flags")
    | some space2 =>
      let item := storeItem (rest.take space2)
      let flags := toUpper (storeFlags (rest.drop (space2 + 1)))
      .ok
        { seqSet := args.take space1
          add := decide (43 ∈ item) || containsText (bytes "FLAGS") item && item.head? != some 45
          seen := containsText (bytes "\\SEEN") flags
          flagged := containsText (bytes "\\FLAGGED") flags
          deleted := containsText (bytes "\\DELETED") flags }

/-- The statements of STORE. -/
def StoreArgs.statements (args : StoreArgs) (scope : MailboxScope) (mailIds : List Nat)
    (recipient : Bytes) : List MailboxChange :=
  (if args.seen then [.storeSeen mailIds recipient args.add] else []) ++
    (if args.flagged then [.storeStarred scope mailIds args.add] else []) ++
    (if args.deleted then [.storeDeleted scope mailIds args.add] else [])

/-! ## The session -/

inductive TaggedStatus
  | ok
  | no
  | bad
  deriving DecidableEq

/-- The commands that are told apart in what is recorded. -/
inductive MailboxCommand
  | select
  | examine
  | store
  | uidStore
  | expunge
  | close
  | copy
  | uidCopy
  | move
  | uidFetch
  | other
  deriving DecidableEq

/-- What a handler waits for. -/
inductive SelectionPending
  /-- SELECT and EXAMINE: the mailbox; the counts -/
  | find (readOnly : Bool) (name : Bytes)
  | stats
  /-- STORE: the message list; the address of the user; the statements that are left -/
  | storeList (command : MailboxCommand) (args : StoreArgs)
  | storeAddress (command : MailboxCommand) (args : StoreArgs) (mailIds : List Nat)
  | storing (command : MailboxCommand) (statements : List MailboxChange) (ok : Bool)
  /-- EXPUNGE: the message list; the statement.  CLOSE: the statement -/
  | expungeList
  | expunging
  | closing
  /-- COPY and MOVE: the target; the message list; the inserted rows and their number; the mark -/
  | copyFind (command : MailboxCommand) (seqSet target : Bytes)
  | copyList (command : MailboxCommand) (seqSet : Bytes) (targetId : Nat)
  | copying (command : MailboxCommand) (mailIds : List Nat) (targetId : Nat)
  | counting (command : MailboxCommand) (mailIds : List Nat)
  | marking (mailIds : List Nat)
  /-- the UID commands: the message list that translates the identifiers -/
  | uidList (command : MailboxCommand) (subargs : Bytes)

/-- What is recorded: a statement with the tables before and after it, and a tagged response; both
with the mailbox that was examined at that time. -/
inductive SelectionEntry
  | executed (examined : Option MailboxScope) (command : MailboxCommand) (before after : ImapDb)
  | answered (examined : Option MailboxScope) (command : MailboxCommand) (status : TaggedStatus)
      (message : Bytes)
  deriving DecidableEq

/-- A session after the login, with the tables. -/
structure SelectionState where
  db : ImapDb
  userId : Nat
  username : Bytes
  state : ImapState := .authenticated
  mailboxSelected : Bool := false
  selectedMailboxId : Nat := 0
  readOnly : Bool := false
  closed : Bool := false
  pending : Option SelectionPending := none
  log : List SelectionEntry := []

/-- What happens to a session. -/
inductive SelectionInput
  | change (c : MailboxChange)
  /-- a command, and whether there is a connection to the database -/
  | command (event : ImapEvent) (args : Bytes) (connected : Bool)
  /-- the lookup of a mailbox has succeeded or failed -/
  | found (ok : Bool)
  | counted
  /-- the message list, or a failure; and whether there is a connection for what follows -/
  | listed (mails : Option (List MailboxMailInfo)) (connected : Bool)
  /-- the address of the user, empty if it was not found -/
  | address (mailAddress : Bytes)
  | executed (ok : Bool)
  | rowCount (ok : Bool)
  /-- the client goes away -/
  | close

namespace SelectionState

variable (st : SelectionState)

def scope : MailboxScope := { userId := st.userId, mailboxId := st.selectedMailboxId }

/-- The mailbox that is selected for reading only. -/
def examined : Option MailboxScope :=
  if st.mailboxSelected && st.readOnly then some st.scope else none

variable (command : MailboxCommand)

/-- `send_tagged`, unless the session is closed; the handler is done. -/
def answer (status : TaggedStatus) (message : Bytes) : SelectionState :=
  { st with
    pending := none
    log :=
      if st.closed then st.log else .answered st.examined command status message :: st.log }

def execute (c : MailboxChange) (ok : Bool) : SelectionState :=
  if ok then
    { st with
      db := c.apply st.db
      log := .executed st.examined command st.db (c.apply st.db) :: st.log }
  else st

variable (p : SelectionPending)

def await : SelectionState := { st with pending := some p }

def drop : SelectionState := { st with pending := none }

/-! ## Handlers -/

/-- `handle_select` and `handle_examine`. -/
def handleSelect (readOnly : Bool) (args : Bytes) (connected : Bool) : SelectionState :=
  if connected then st.await
    (.find readOnly (if readOnly then examineName args else selectName args))
  else
    st.answer (if readOnly then .examine else .select) .no (bytes "Server database unavailable")

/-- `handle_store`; the command is STORE or UID STORE. -/
def handleStore (args : Bytes) (connected : Bool) : SelectionState :=
  if st.mailboxSelected then
    match parseStore args with
    | .error text => st.answer command .bad text
    | .ok storeArgs =>
      if connected then st.await (.storeList command storeArgs)
      else st.answer command .no (bytes "Server database unavailable")
  else st.answer command .bad (bytes "No mailbox selected")

def handleExpunge (connected : Bool) : SelectionState :=
  if st.mailboxSelected then
    if connected then st.await .expungeList
    else st.answer .expunge .no (bytes "Server database unavailable")
  else st.answer .expunge .bad (bytes "No mailbox selected")

/-- `finish` of `handle_close`. -/
def finishClose : SelectionState :=
  { st with
    mailboxSelected := false, selectedMailboxId := 0, readOnly := false
    state := .authenticated }.answer .close .ok (bytes "CLOSE completed")

def handleClose (connected : Bool) : SelectionState :=
  if st.state = .selected then
    if connected then st.await .closing
    else st.answer .close .no (bytes "CLOSE failed: database unavailable")
  else st.finishClose

/-- `handle_copy_move`; the command is COPY, UID COPY or MOVE. -/
def handleCopyMove (args : Bytes) (connected : Bool) : SelectionState :=
  if st.mailboxSelected then
    match rfindByte 32 args, copyTarget args with
    | some space, some target =>
      if connected then st.await (.copyFind command (args.take space) target)
      else st.answer command .no (bytes "Server error")
    | _, _ => st.answer command .bad (bytes "COPY/MOVE requires sequence set and mailbox")
  else st.answer command .bad (bytes "No mailbox selected")

/-- `handle_uid`, up to the reading of the message list.  UID SEARCH has no statements and is not
followed. -/
def handleUid (args : Bytes) (connected : Bool) : SelectionState :=
  if st.mailboxSelected then
    match findByte 32 args with
    | none => st.answer .other .bad (bytes "UID requires subcommand")
    | some space =>
      let subcmd := toUpper (args.take space)
      let subargs := args.drop (space + 1)
      let command? : Option MailboxCommand :=
        if subcmd = bytes "FETCH" then some .uidFetch
        else if subcmd = bytes "STORE" then some .uidStore
        else if subcmd = bytes "COPY" then some .uidCopy
        else none
      match command? with
      | some command =>
        if connected then st.await (.uidList command subargs)
        else st.answer command .no (bytes "Server database unavailable")
      | none =>
        if subcmd = bytes "SEARCH" then st
        else st.answer .other .bad (bytes "Unknown UID subcommand")
  else st.answer .other .bad (bytes "No mailbox selected")

def commandOf : ImapEvent → MailboxCommand
  | .select => .select
  | .examine => .examine
  | .store => .store
  | .expunge => .expunge
  | .close => .close
  | .copy => .copy
  | .move => .move
  | _ => .other

/-- The engine and the handlers.  The handlers of the other commands have no statements on the rows
of a mailbox but for APPEND, whose inserts are among the changes. -/
def dispatch (event : ImapEvent) (args : Bytes) (connected : Bool) : SelectionState :=
  let desc := makeImapsDesc false
  if desc.isTerminal st.state then st
  else if (desc.guardTarget st.state event).isNone then
    st.answer (commandOf event) .bad (bytes "Invalid command sequence")
  else
    match event with
    | .select => st.handleSelect false args connected
    | .examine => st.handleSelect true args connected
    | .store => st.handleStore .store args connected
    | .expunge => st.handleExpunge connected
    | .close => st.handleClose connected
    | .copy => st.handleCopyMove .copy args connected
    | .move => st.handleCopyMove .move args connected
    | .uid => st.handleUid args connected
    | .logout =>
      { st with
        state := .logout, mailboxSelected := false, selectedMailboxId := 0, readOnly := false }
    | _ => st

/-! ## Continuations -/

/-- `find_mailbox_id_async`: 0 if there is no such mailbox or the query fails. -/
def lookup (name : Bytes) (ok : Bool) : Nat := if ok then st.db.findMailboxId st.userId name else 0

def onFound (ok : Bool) : SelectionState :=
  match p with
  | .find readOnly name =>
    let mailboxId := st.lookup name ok
    if st.closed then st.drop
    else if mailboxId = 0 then
      st.answer (if readOnly then .examine else .select) .no (bytes "Mailbox not found: " ++ name)
    else
      { st with mailboxSelected := true, selectedMailboxId := mailboxId, readOnly }.await .stats
  | .copyFind command seqSet target =>
    let targetId := st.lookup target ok
    if st.closed then st.drop
    else if targetId = 0 then
      st.answer command .no (bytes "COPY/MOVE failed: mailbox not found")
    else st.await (.copyList command seqSet targetId)
  | _ => st

/-- The counts for SELECT and EXAMINE are there. -/
def onCounted : SelectionState :=
  match p with
  | .stats =>
    if st.closed then st.drop
    else
      let st := { st with state := .selected }
      if st.readOnly then st.answer .examine .ok (bytes "EXAMINE completed")
      else st.answer .select .ok (bytes "[READ-WRITE] SELECT completed")
  | _ => st

/-- The arguments of a UID command with the numbers for its identifiers. -/
def mappedArgs (uids : List Nat) (subargs : Bytes) : Bytes :=
  match findByte 32 subargs with
  | none => uidSeqSet uids subargs
  | some space => uidSeqSet uids (subargs.take space) ++ subargs.drop space

/-- The word for a command in the response to a UID command on an empty mailbox. -/
def subcommandText : MailboxCommand → Bytes
  | .uidFetch => bytes "FETCH"
  | .uidStore => bytes "STORE"
  | _ => bytes "COPY"

def copyText : Bytes :=
  if command = .move then bytes "MOVE" else bytes "COPY"

/-- The message list is there, or could not be read. -/
def onListed (mails : Option (List MailboxMailInfo)) (connected : Bool) : SelectionState :=
  match p with
  | .storeList command args =>
    if st.closed then st.drop
    else
      match mails with
      | none => st.answer command .no (bytes "STORE failed: database error")
      | some mails =>
        if mails = [] ∨ expandSeqSet args.seqSet mails.length = [] then
          st.answer command .ok (bytes "STORE completed")
        else st.await (.storeAddress command args (fetchIds (mails.map (·.mailId)) args.seqSet))
  | .expungeList =>
    if st.closed then st.drop
    else
      match mails with
      | none => st.answer .expunge .no (bytes "Server error")
      | some _ => st.await .expunging
  | .copyList command seqSet targetId =>
    if st.closed then st.drop
    else
      match mails with
      | none => st.answer command .no (bytes "Server error")
      | some mails =>
        match copyIds (mails.map (·.mailId)) seqSet with
        | none => { st.drop with closed := true } -- the list is indexed outside its bounds
        | some [] => st.answer command .ok (bytes "COPY/MOVE completed (no messages)")
        | some mailIds =>
          if command = .move ∧ st.selectedMailboxId = targetId then
            st.answer command .no (bytes "MOVE failed: database error")
          else st.await (.copying command mailIds targetId)
  | .uidList command subargs =>
    if st.closed then st.drop
    else
      match mails with
      | none | some [] =>
        st.answer command .ok (subcommandText command ++ bytes " completed (empty)")
      | some mails =>
        let args := mappedArgs (mails.map (·.mailId)) subargs
        match command with
        | .uidStore => st.handleStore .uidStore args connected
        | .uidCopy => st.handleCopyMove .uidCopy args connected
        | _ => st.drop
  | _ => st

def finishStore (ok : Bool) : SelectionState :=
  if ok then st.answer command .ok (bytes "STORE completed")
  else st.answer command .no (bytes "STORE failed: database error")

/-- `StoreOperation::next`. -/
def storeNext (statements : List MailboxChange) (ok : Bool) : SelectionState :=
  match statements with
  | [] => st.finishStore command ok
  | c :: statements => st.await (.storing command (c :: statements) ok)

/-- The lookup of the user's address is answered. -/
def onAddress (mailAddress : Bytes) : SelectionState :=
  match p with
  | .storeAddress command args mailIds =>
    let recipient := if mailAddress = [] then st.username else mailAddress
    st.storeNext command (args.statements st.scope mailIds recipient) true
  | _ => st

/-- A statement is answered.  The repository goes on with the next one also if the session is
closed. -/
def onExecuted (ok : Bool) : SelectionState :=
  match p with
  | .storing command (c :: statements) allOk =>
    (st.execute command c ok).storeNext command statements (allOk && ok)
  | .expunging =>
    let st := st.execute .expunge (.expunge st.scope) ok
    if ok then st.answer .expunge .ok (bytes "EXPUNGE completed")
    else st.answer .expunge .no (bytes "EXPUNGE failed: database error")
  | .closing =>
    let st := st.execute .close (.expunge st.scope) ok
    if ok then st.finishClose else st.answer .close .no (bytes "CLOSE failed: database error")
  | .copying command mailIds targetId =>
    let st := st.execute command (.copyLinks st.userId targetId mailIds) ok
    if ok then st.await (.counting command mailIds)
    else st.answer command .no (copyText command ++ bytes " failed: database error")
  | .marking mailIds =>
    let st := st.execute .move (.storeDeleted st.scope mailIds true) ok
    if ok then st.answer .move .ok (bytes "MOVE completed")
    else st.answer .move .no (bytes "MOVE failed: database error")
  | _ => st

/-- The number of rows that were copied is there, or not a number. -/
def onRowCount (ok : Bool) : SelectionState :=
  match p with
  | .counting command mailIds =>
    if ok then
      if command = .move then st.await (.marking mailIds)
      else st.answer command .ok (bytes "COPY completed")
    else st.answer command .no (copyText command ++ bytes " failed: database error")
  | _ => st

end SelectionState

def selectionStep (st : SelectionState) (i : SelectionInput) : SelectionState :=
  match i, st.pending with
  | .change c, _ => { st with db := c.apply st.db }
  | .close, _ => { st with closed := true }
  | .command event args connected, none =>
    if st.closed then st else st.dispatch event args connected
  | .command _ _ _, some _ => st -- a paused session takes no commands
  | .found ok, some p => st.onFound p ok
  | .counted, some p => st.onCounted p
  | .listed mails connected, some p => st.onListed p mails connected
  | .address mailAddress, some p => st.onAddress p mailAddress
  | .executed ok, some p => st.onExecuted p ok
  | .rowCount ok, some p => st.onRowCount p ok
  | _, none => st

end ProtoRelay
