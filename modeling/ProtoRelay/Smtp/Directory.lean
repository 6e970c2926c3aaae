import ProtoRelay.Smtp.Machine

/-!
# Accounts and aliases beside a session

Whether a recipient is an account or an alias is decided by `AccountPolicy`, which asks the account
database and keeps answers in two caches that all sessions share.  A query may fail, and no
connection may be available.  The world of a session is the session together with the database and
the caches: the database changes as it likes, other sessions use the policy, entries of the caches
expire, and the session's own lookups are answered by the policy.
-/

namespace ProtoRelay

/-! ## The account tables -/

structure AliasRow where
  aliasAddress : Bytes
  targetAddress : Bytes
  isActive : Bool

/-- The tables `users`, as addresses with their status, and `mail_aliases`.  `key` is the collation
of the address columns: what it maps to one key is one address to the database. -/
structure Directory where
  key : Bytes → Bytes
  users : List (Bytes × UInt8)
  aliases : List AliasRow

namespace Directory

/-- `build_recipient_exists_query`: the status of the account with that address. -/
def status (d : Directory) (address : Bytes) : Option UInt8 :=
  (d.users.find? fun u => d.key u.1 == d.key address).map (·.2)

/-- The address is an existing account that is not disabled. -/
def Active (d : Directory) (address : Bytes) : Prop := d.status address = some 1

/-- `build_alias_targets_query`: the targets of the active aliases with that address, joined with
the accounts in use. -/
def aliasTargets (d : Directory) (address : Bytes) : List Bytes :=
  (d.aliases.filter fun r =>
    r.isActive && d.key r.aliasAddress == d.key address &&
      d.users.any fun u => d.key u.1 == d.key r.targetAddress && u.2 == 1).map (·.targetAddress)

end Directory

/-- What becomes of a query: no connection, an error, or the rows. -/
inductive DbOutcome
  | unavailable
  | failed
  | answered
  deriving DecidableEq

/-- `AccountLookupStatus`, with the status of the account that was found. -/
inductive RecipientLookup
  | found (accountStatus : UInt8)
  | notFound
  | unavailable
  | queryFailed

/-- `recipient_async`. -/
def Directory.recipientLookup (d : Directory) (outcome : DbOutcome) (address : Bytes) :
    RecipientLookup :=
  match outcome with
  | .unavailable => .unavailable
  | .failed => .queryFailed
  | .answered =>
    match d.status address with
    | some n => .found n
    | none => .notFound

/-- `aliases_async`: the rows, or no success. -/
def Directory.aliasLookup (d : Directory) (outcome : DbOutcome) (address : Bytes) :
    Option (List Bytes) :=
  if outcome = .answered then some (d.aliasTargets address) else none

/-! ## The policy -/

/-- The entries of the recipient cache and of the alias cache that have not expired. -/
structure Caches where
  recipients : Bytes → Option Nat
  aliases : Bytes → Option (List Bytes)

namespace AccountPolicy

/-- `user_exists_async`: a failed query is remembered as a missing account, a missing connection is
not. -/
def userExists (c : Caches) (address : Bytes) (lookup : RecipientLookup) : Bool × Caches :=
  match c.recipients address with
  | some status => (status == 1, c)
  | none =>
    let store (status : Nat) : Bool × Caches :=
      (status == 1, { c with recipients := Function.update c.recipients address (some status) })
    match lookup with
    | .unavailable => (false, c)
    | .found accountStatus => store accountStatus.toNat
    | .notFound => store 0
    | .queryFailed => store 0

/-- `alias_targets_async`: only rows are remembered. -/
def aliasTargets (c : Caches) (address : Bytes) (lookup : Option (List Bytes)) :
    List Bytes × Caches :=
  match c.aliases address with
  | some targets => (targets, c)
  | none =>
    match lookup with
    | some targets =>
      (targets, { c with aliases := Function.update c.aliases address (some targets) })
    | none => ([], c)

end AccountPolicy

/-! ## The world of a session -/

/-- A session, the account tables with everything they have been, newest first, and the caches. -/
structure World where
  session : Session
  directory : Directory
  past : List Directory
  caches : Caches

namespace World

open Session (Input)

inductive Event
  /-- an input of the session that is not the answer of a lookup -/
  | input (i : Input)
  /-- the session's question whether its recipient is an account is answered -/
  | userExists (outcome : DbOutcome)
  /-- the session's alias lookup is answered -/
  | aliasTargets (outcome : DbOutcome)
  /-- the alias lookup for the address of a From header is answered -/
  | fromAliasTargets (address : Bytes) (outcome : DbOutcome)
  /-- another session looks up an account or an alias -/
  | otherUserExists (address : Bytes) (outcome : DbOutcome)
  | otherAliasTargets (address : Bytes) (outcome : DbOutcome)
  | update (directory : Directory)
  | expireRecipient (address : Bytes)
  | expireAlias (address : Bytes)

/-- The status the recipient cache holds for the recipient of the next command. -/
def cachedStatus (w : World) (o : Oracle) : Option Nat :=
  (w.session.parsedInput o).bind fun s =>
    ((betweenAngles s.lastCommandArgs).map trim).bind w.caches.recipients

variable (env : SmtpEnv)

/-- The policy's answer to a question for an account, and the caches after it. -/
def askUserExists (w : World) (address : Bytes) (outcome : DbOutcome) : Bool × Caches :=
  AccountPolicy.userExists w.caches address (w.directory.recipientLookup outcome address)

/-- The policy's answer to a question for an alias, and the caches after it. -/
def askAliasTargets (w : World) (address : Bytes) (outcome : DbOutcome) : List Bytes × Caches :=
  AccountPolicy.aliasTargets w.caches address (w.directory.aliasLookup outcome address)

def step (w : World) (e : ServerConfig × Event) : World :=
  match e.2 with
  | .input (.consume o) =>
    { w with
      session := w.session.step env (e.1, .consume { o with cachedStatus := w.cachedStatus o }) }
  | .input (.userExistsDone _) => w
  | .input (.aliasDone _) => w
  | .input i => { w with session := w.session.step env (e.1, i) }
  | .userExists outcome =>
    match w.session.pending with
    | some (.userExists recipient) =>
      let r := w.askUserExists recipient outcome
      { w with session := w.session.step env (e.1, .userExistsDone r.1), caches := r.2 }
    | _ => w
  | .aliasTargets outcome =>
    match w.session.pending with
    | some (.submissionAlias recipient) | some (.recipientAlias recipient) =>
      let r := w.askAliasTargets recipient outcome
      { w with session := w.session.step env (e.1, .aliasDone r.1), caches := r.2 }
    | _ => w
  | .fromAliasTargets address outcome =>
    match w.session.pending with
    | some (.fromAlias _) =>
      let r := w.askAliasTargets address outcome
      { w with session := w.session.step env (e.1, .aliasDone r.1), caches := r.2 }
    | _ => w
  | .otherUserExists address outcome => { w with caches := (w.askUserExists address outcome).2 }
  | .otherAliasTargets address outcome => { w with caches := (w.askAliasTargets address outcome).2 }
  | .update directory => { w with directory, past := directory :: w.past }
  | .expireRecipient address =>
    { w with
      caches := { w.caches with recipients := Function.update w.caches.recipients address none } }
  | .expireAlias address =>
    { w with caches := { w.caches with aliases := Function.update w.caches.aliases address none } }

end World

end ProtoRelay
