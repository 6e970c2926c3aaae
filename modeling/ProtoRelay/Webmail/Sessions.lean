import ProtoRelay.Base.Bytes
import ProtoRelay.Base.Logs
import ProtoRelay.Base.Runs
import ProtoRelay.Base.Tables

/-!
# Web sessions

A login of the webmail checks the password against the account, which may be on another shard,
and stores a session under the hash of a fresh token, together with a stamp of the password hash
it was checked against.  A lookup reads the session and then the account, and compares the
stamps.  Every SQL statement is a step of its own; logins, lookups, logouts and changes of
accounts interleave in any way.
-/

namespace ProtoRelay

/-- Hashes, password checks and the generator of tokens. -/
structure WebCrypto where
  /-- `credential_stamp` -/
  stamp : Bytes → Bytes
  stamp_injective : Function.Injective stamp
  /-- `verify_password_hash` -/
  verify : Bytes → Bytes → Bool
  /-- `password_needs_rehash` -/
  needsRehash : Bytes → Bool
  /-- what `generate_token` gives to the login with a number -/
  token : Nat → Bytes
  token_injective : Function.Injective token

def validWebSessionToken (token : Bytes) : Bool :=
  token.length == 64 && token.all fun c => (48 ≤ c && c ≤ 57) || (97 ≤ c && c ≤ 102)

structure WebAccount where
  shard : Nat
  id : Nat
  address : Bytes
  password : Bytes
  status : Nat
  deriving DecidableEq

structure WebSessionRow where
  tokenHash : Bytes
  userId : Nat
  address : Bytes
  shard : Nat
  stamp : Bytes
  expiresAt : Nat
  deriving DecidableEq

/-- The rows are of one account: the key `uk_web_sessions_account`. -/
def WebSessionRow.sameAccount (r r' : WebSessionRow) : Bool :=
  decide (r.shard = r'.shard ∧ r.userId = r'.userId)

/-! ## Statements -/

/-- `build_auth_user_query`. -/
def findAccount (accounts : List WebAccount) (shard : Nat) (address : Bytes) : Option WebAccount :=
  accounts.find? fun a => a.shard = shard ∧ a.address = address

/-- `build_update_password_hash`. -/
def upgradeHash (shard : Nat) (address expected replacement : Bytes) (accounts : List WebAccount) :
    List WebAccount :=
  updateWhere (fun a => decide (a.shard = shard ∧ a.address = address ∧ a.password = expected))
    (fun a => { a with password := replacement }) accounts

/-- The INSERT of `put`: an account has one session.  A token that is another account's would make
the key of its row NULL, and the statement fails. -/
def putSession (row : WebSessionRow) (sessions : List WebSessionRow) :
    Option (List WebSessionRow) :=
  if sessions.any fun r => r.tokenHash = row.tokenHash && !r.sameAccount row then none
  else if sessions.any (·.sameAccount row) then
    some (updateWhere (·.sameAccount row) (fun _ => row) sessions)
  else some (sessions ++ [row])

/-- The first SELECT of `lookup`. -/
def readSession (tokenHash : Bytes) (now : Nat) (sessions : List WebSessionRow) :
    Option WebSessionRow :=
  sessions.find? fun r => r.tokenHash = tokenHash ∧ now < r.expiresAt

/-- The DELETE of `erase`. -/
def eraseSession (tokenHash : Bytes) (sessions : List WebSessionRow) : List WebSessionRow :=
  sessions.filter fun r => r.tokenHash ≠ tokenHash

/-- The DELETE of expired sessions in `put`; which of them it takes is limited. -/
def cleanSessions (chosen : List Bytes) (now : Nat) (sessions : List WebSessionRow) :
    List WebSessionRow :=
  sessions.filter fun r => !(chosen.contains r.tokenHash && decide (r.expiresAt ≤ now))

/-! ## Logins -/

/-- What a login does next. -/
inductive WebLoginStage
  /-- the first read of the credentials -/
  | first
  /-- the password hash is to be upgraded, if it is still the one that was read -/
  | rehash (stored : Bytes)
  /-- the second read -/
  | second
  /-- the session is to be stored -/
  | put
  | over
  deriving DecidableEq

structure WebLogin where
  address : Bytes
  password : Bytes
  shard : Nat
  stage : WebLoginStage := .first
  userId : Nat := 0
  /-- `credential_stamp` of the result -/
  stamp : Bytes := []
  /-- the hashes against which the password was verified -/
  checked : List Bytes := []
  deriving DecidableEq

namespace WebLogin

variable (c : WebCrypto)

def firstRead (l : WebLogin) : Option WebAccount → WebLogin
  | none => { l with stage := .over }
  | some a =>
    -- the status is cast to `int`
    if a.status % 2 ^ 32 ≠ 1 then { l with stage := .over }
    else if !c.verify l.password a.password then { l with stage := .over }
    else
      { l with
        userId := a.id
        stamp := c.stamp a.password
        checked := a.password :: l.checked
        stage := if c.needsRehash a.password then .rehash a.password else .second }

def secondRead (l : WebLogin) : Option WebAccount → WebLogin
  | none => { l with stage := .over }
  | some a =>
    if a.status ≠ 1 ∨ a.id ≠ l.userId then { l with stage := .over }
    else if c.stamp a.password = l.stamp then { l with stage := .put }
    else if !c.verify l.password a.password then { l with stage := .over }
    else
      { l with stamp := c.stamp a.password, checked := a.password :: l.checked, stage := .put }

def row (l : WebLogin) (j : Nat) (expiresAt : Nat) : WebSessionRow where
  tokenHash := c.stamp (c.token j)
  userId := l.userId
  address := l.address
  shard := l.shard
  stamp := l.stamp
  expiresAt := expiresAt

end WebLogin

/-! ## Lookups -/

/-- A lookup between its two statements, with the session it has read. -/
structure WebLookup where
  token : Bytes
  row : WebSessionRow

/-- The comparison at the end of `lookup`. -/
def WebCrypto.confirms (c : WebCrypto) (row : WebSessionRow) : Option WebAccount → Bool
  | none => false
  | some a => a.id == row.userId && a.status == 1 && c.stamp a.password == row.stamp

/-! ## The system -/

/-- What has happened to sessions. -/
inductive WebEvent
  /-- login `j` has stored its session: it has completed -/
  | stored (j : Nat) (login : WebLogin) (row : WebSessionRow)
  | erased (tokenHash : Bytes)
  /-- a lookup has reported that the session is there; the accounts and the time of this moment -/
  | found (token : Bytes) (row : WebSessionRow) (accounts : List WebAccount) (now : Nat)
  deriving DecidableEq

/-- The tables with the logins and lookups under way, and what has happened, newest first. -/
structure WebSystem where
  accounts : List WebAccount
  sessions : List WebSessionRow := []
  now : Nat := 0
  logins : List WebLogin := []
  lookups : List (Option WebLookup) := []
  log : List WebEvent := []

namespace WebSystem

inductive Input
  | login (address password : Bytes) (shard : Nat)
  /-- the first read of login `j` -/
  | first (j : Nat) (ok : Bool)
  /-- the upgrade of the hash; the empty hash when `bcrypt_hash` has failed -/
  | rehash (j : Nat) (hash : Bytes) (o : SqlOutcome)
  | second (j : Nat) (ok : Bool)
  /-- the INSERT of `put`, if a token was generated -/
  | put (j : Nat) (generated : Bool) (ttl : Nat) (o : SqlOutcome)
  /-- the first SELECT of a lookup -/
  | lookup (token : Bytes) (ok : Bool)
  /-- the second SELECT of lookup `k` -/
  | confirm (k : Nat) (ok : Bool)
  | erase (token : Bytes) (o : SqlOutcome)
  | clean (chosen : List Bytes)
  /-- an administrator sets a password -/
  | reset (shard : Nat) (address hash : Bytes)
  /-- an administrator enables or disables an account -/
  | setStatus (shard id status : Nat)
  /-- a login of another protocol upgrades a hash -/
  | upgrade (shard : Nat) (address expected replacement : Bytes)
  | tick (seconds : Nat)

variable (c : WebCrypto) (shardCount : Nat)

def advance (s : WebSystem) (j : Nat) (f : WebLogin → WebLogin) : WebSystem :=
  { s with logins := s.logins.modify j f }

/-- The INSERT of `put` for login `j`. -/
def store (s : WebSystem) (j : Nat) (l : WebLogin) (ttl : Nat) : WebSystem :=
  let row := l.row c j (s.now + ttl)
  match putSession row s.sessions with
  | none => s
  | some sessions => { s with sessions := sessions, log := .stored j l row :: s.log }

def step (s : WebSystem) : Input → WebSystem
  | .login address password shard =>
    { s with logins := s.logins ++ [⟨address, password, shard, .first, 0, [], []⟩] }
  | .first j ok =>
    match s.logins[j]? with
    | some l =>
      if l.stage = .first then
        s.advance j fun l =>
          l.firstRead c (if ok then findAccount s.accounts l.shard l.address else none)
      else s
    | none => s
  | .rehash j hash o =>
    match s.logins[j]? with
    | some l =>
      match l.stage with
      | .rehash stored =>
        let s := s.advance j fun l => { l with stage := .second }
        if hash ≠ [] ∧ o.executed then
          { s with accounts := upgradeHash l.shard l.address stored hash s.accounts }
        else s
      | _ => s
    | none => s
  | .second j ok =>
    match s.logins[j]? with
    | some l =>
      if l.stage = .second then
        s.advance j fun l =>
          l.secondRead c (if ok then findAccount s.accounts l.shard l.address else none)
      else s
    | none => s
  | .put j generated ttl o =>
    match s.logins[j]? with
    | some l =>
      if l.stage = .put then
        let s' := s.advance j fun l => { l with stage := .over }
        if generated ∧ validWebSessionToken (c.token j) ∧ l.stamp ≠ [] ∧
          o.executed then s'.store c j l ttl
        else s'
      else s
    | none => s
  | .lookup token ok =>
    if validWebSessionToken token ∧ ok then
      match readSession (c.stamp token) s.now s.sessions with
      | none => s
      | some row =>
        if shardCount ≤ row.shard ∨ 2 ^ 31 ≤ row.shard then s
        else { s with lookups := s.lookups ++ [some ⟨token, row⟩] }
    else s
  | .confirm k ok =>
    match s.lookups[k]? with
    | some (some l) =>
      let s := { s with lookups := s.lookups.set k none }
      if ok ∧ c.confirms l.row (findAccount s.accounts l.row.shard l.row.address) then
        { s with log := .found l.token l.row s.accounts s.now :: s.log }
      else s
    | _ => s
  | .erase token o =>
    if validWebSessionToken token ∧ o.executed then
      { s with
        sessions := eraseSession (c.stamp token) s.sessions
        log := .erased (c.stamp token) :: s.log }
    else s
  | .clean chosen => { s with sessions := cleanSessions chosen s.now s.sessions }
  | .reset shard address hash =>
    { s with
      accounts := updateWhere (fun a => decide (a.shard = shard ∧ a.address = address))
        (fun a => { a with password := hash }) s.accounts }
  | .setStatus shard id status =>
    { s with
      accounts := updateWhere (fun a => decide (a.shard = shard ∧ a.id = id))
        (fun a => { a with status := status }) s.accounts }
  | .upgrade shard address expected replacement =>
    { s with accounts := upgradeHash shard address expected replacement s.accounts }
  | .tick seconds => { s with now := s.now + seconds }

def start (accounts : List WebAccount) (now : Nat) : WebSystem :=
  { accounts := accounts, now := now }

end WebSystem

end ProtoRelay
