import ProtoRelay.Inbound.Dkim

/-!
# SPF evaluation

`InboundVerifier::check_spf` and `check_spf_async`: a policy is a TXT record with a list of terms;
`a` and `mx` ask for addresses, `include` and `redirect` for the record of another domain, whose
terms are evaluated in turn.  The two evaluators recurse without a measure that goes down, so the
models take a fuel, the depth of nested records they may look into; `none` is an evaluation that
needs more.  They count the terms that ask the resolver.

The asynchronous evaluator gets TXT records through `get_txt_async`; its cache holds what the
resolver answers, so `dns.txt` stands for both.
-/

namespace ProtoRelay

/-! ## Results and terms -/

/-- `SpfResult::result`. -/
inductive SpfVerdict
  | pass | fail | neutral | softfail | temperror | permerror | none
  deriving DecidableEq

structure SpfResult where
  result : SpfVerdict
  reason : Bytes := []

/-- The values that the evaluators hand on. -/
inductive SpfEval
  | matched | noMatch | pass | fail | softfail | neutral | temperror | permerror
  deriving DecidableEq

/-- The qualifier of a term: `+`, `-`, `~` or `?`. -/
inductive SpfQualifier
  | plus | minus | tilde | question
  deriving DecidableEq

/-- The mechanisms that the evaluators tell apart. -/
inductive SpfKind
  | ip4 | ip6 | a | mx | includes | redirect | all | other
  deriving DecidableEq

structure SpfMechanism where
  qualifier : SpfQualifier := .plus
  mechanism : Bytes
  value : Bytes := []
  cidr : Bytes := []
  deriving DecidableEq

def SpfMechanism.kind (mech : SpfMechanism) : SpfKind :=
  if mech.mechanism = bytes "ip4" then .ip4
  else if mech.mechanism = bytes "ip6" then .ip6
  else if mech.mechanism = bytes "a" then .a
  else if mech.mechanism = bytes "mx" then .mx
  else if mech.mechanism = bytes "include" then .includes
  else if mech.mechanism = bytes "redirect" then .redirect
  else if mech.mechanism = bytes "all" then .all
  else .other

/-! ## Addresses -/

/-- What `std::stoi` throws. -/
inductive StoiError
  | invalidArgument | outOfRange
  deriving DecidableEq

/-- `std::stoi`: white space and a sign in front, anything behind the digits. -/
def stoi (s : Bytes) : Except StoiError Int :=
  let s := s.dropWhile fun b => b == 32 || 9 ≤ b && b ≤ 13
  let negative := s.head? = some 45
  let s := if s.head? = some 45 ∨ s.head? = some 43 then s.tail else s
  let digits := s.takeWhile fun b => 48 ≤ b && b ≤ 57
  let n : Int := digits.foldl (fun acc b => acc * 10 + (b.toNat - 48)) 0
  let n := if negative then -n else n
  if digits = [] then .error .invalidArgument
  else if n < -2 ^ 31 ∨ 2 ^ 31 ≤ n then .error .outOfRange
  else .ok n

/-- The loop of `ip_to_u32`, over the octets that are left. -/
def ipToU32From : List Bytes → Nat → UInt32 → Except StoiError UInt32
  | [], _, result => .ok result
  | octet :: octets, shift, result =>
    match stoi octet with
    | .error e => .error e
    | .ok n =>
      let result := result ||| (UInt32.ofInt n <<< UInt32.ofNat shift)
      if shift < 8 then .ok result else ipToU32From octets (shift - 8) result

def ipToU32 (ip : Bytes) : Except StoiError UInt32 := ipToU32From (pieces 46 ip) 24 0

/-- `ip4_match`.  The shift by a count that is not below 32 is undefined; here it is taken modulo
32, as the machine takes it. -/
def ip4Match (clientIp network cidr : Bytes) : Except StoiError Bool :=
  if cidr = [] then .ok (clientIp == network)
  else do
    let bits ← stoi cidr
    let client ← ipToU32 clientIp
    let net ← ipToU32 network
    let mask : UInt32 := if bits = 0 then 0 else ~~~0 <<< UInt32.ofInt (32 - bits)
    .ok (client &&& mask == net &&& mask)

namespace InboundVerifier

def extractDomain (addr : Bytes) : Bytes :=
  match findByte 64 addr with
  | none => []
  | some at_ =>
    let domain := addr.drop (at_ + 1)
    let domain := if domain.getLast? = some 62 then domain.dropLast else domain
    let domain := if domain.head? = some 60 then domain.tail else domain
    toLower domain

/-! ## Records -/

/-- The qualifier in front of a term, and the term without it. -/
def readQualifier (token : Bytes) : SpfQualifier × Bytes :=
  match token with
  | 43 :: rest => (.plus, rest)
  | 45 :: rest => (.minus, rest)
  | 126 :: rest => (.tilde, rest)
  | 63 :: rest => (.question, rest)
  | _ => (.plus, token)

/-- One part of the loop of `parse_spf_record`. -/
def parseTerm (part : Bytes) : SpfMechanism :=
  let (qualifier, token) := readQualifier part
  match findByte 58 token with
  | some colon =>
    let val := token.drop (colon + 1)
    match findByte 47 val with
    | some slash =>
      { qualifier, mechanism := toLower (token.take colon)
        value := val.take slash, cidr := val.drop (slash + 1) }
    | none => { qualifier, mechanism := toLower (token.take colon), value := val }
  | none =>
    match findByte 61 token with
    | some eq =>
      { qualifier, mechanism := toLower (token.take eq), value := token.drop (eq + 1) }
    | none => { qualifier, mechanism := toLower token }

def isSpfRecord (rec : Bytes) : Bool := (bytes "v=spf1").isPrefixOf rec

def parseSpfRecord (rec : Bytes) : List SpfMechanism :=
  if isSpfRecord rec then ((split (rec.drop 6) 32).filter (! ·.isEmpty)).map parseTerm else []

/-! ## The terms that need no other record -/

def matchIf (matches_ : Bool) : SpfEval := if matches_ then .matched else .noMatch

/-- The domain that `a` and `mx` ask for. -/
def target (mech : SpfMechanism) (domain : Bytes) : Bytes :=
  if mech.value = [] then domain else mech.value

variable (dns : DnsView) (clientIp : Bytes)

/-- The mechanisms both evaluators answer without another record, with the number of terms that
asked the resolver. -/
def evalDirect (mech : SpfMechanism) (domain : Bytes) : Except StoiError SpfEval × Nat :=
  match mech.kind with
  | .ip4 => ((ip4Match clientIp mech.value mech.cidr).map matchIf, 0)
  | .ip6 => (.ok (matchIf (clientIp == mech.value)), 0)
  | .a => (.ok (matchIf ((dns.host (target mech domain)).contains clientIp)), 1)
  | .mx =>
    (.ok (matchIf ((dns.mx (target mech domain)).any
      fun host => (dns.host host).contains clientIp)), 1)
  | .all => (.ok .matched, 0)
  | _ => (.ok .noMatch, 0)

/-- The domain whose SPF record is checked. -/
def spfDomain (mailFrom heloDomain : Bytes) : Bytes :=
  if mailFrom = [] ∨ mailFrom = bytes "<>" then heloDomain else extractDomain mailFrom

/-- The result of a match, by the qualifier of the term. -/
def qualified : SpfQualifier → SpfResult
  | .plus => { result := .pass }
  | .minus => { result := .fail, reason := bytes "SPF hard fail" }
  | .tilde => { result := .softfail, reason := bytes "SPF soft fail" }
  | .question => { result := .neutral }

/-! ## The synchronous evaluator -/

/-- The loop over the terms of an included record: it ends at a match and passes over errors. -/
def evalSubs (eval : SpfMechanism → Option (Except StoiError SpfEval × Nat)) :
    List SpfMechanism → Option (Except StoiError SpfEval × Nat)
  | [] => some (.ok .noMatch, 0)
  | sub :: subs =>
    match eval sub with
    | none => none
    | some (.error e, n) => some (.error e, n)
    | some (.ok r, n) =>
      if r = .matched then some (.ok .matched, n)
      else (evalSubs eval subs).map fun rest => (rest.1, n + rest.2)

/-- The body of `eval_spf_mechanism`, over the loop for the terms of a nested record. -/
def evalSpfMechanismWith
    (subs : List SpfMechanism → Bytes → Nat → Option (Except StoiError SpfEval × Nat))
    (mech : SpfMechanism) (domain : Bytes) (depth : Nat) :
    Option (Except StoiError SpfEval × Nat) :=
  match mech.kind with
  | .includes =>
    if depth ≥ 10 then some (.ok .permerror, 0)
    else
      match (dns.txt mech.value).find? isSpfRecord with
      | none => some (.ok .temperror, 1)
      | some rec =>
        (subs (parseSpfRecord rec) mech.value (depth + 1)).map fun r => (r.1, r.2 + 1)
  | .redirect =>
    match (dns.txt mech.value).find? isSpfRecord with
    | none => some (.ok .temperror, 1)
    | some rec => (subs (parseSpfRecord rec) mech.value (depth + 1)).map fun r => (r.1, r.2 + 1)
  | _ => some (evalDirect dns clientIp mech domain)

/-- `eval_spf_mechanism`, with the number of terms that asked the resolver. -/
def evalSpfMechanism (dns : DnsView) (clientIp : Bytes) :
    Nat → SpfMechanism → Bytes → Nat → Option (Except StoiError SpfEval × Nat)
  | 0 => evalSpfMechanismWith dns clientIp fun _ _ _ => none
  | fuel + 1 => evalSpfMechanismWith dns clientIp fun mechs domain depth =>
      evalSubs (fun sub => evalSpfMechanism dns clientIp fuel sub domain depth) mechs

/-- The loop of `check_spf` over the terms. -/
def checkSpfFrom (eval : SpfMechanism → Option (Except StoiError SpfEval × Nat)) :
    List SpfMechanism → Option (Except StoiError SpfResult × Nat)
  | [] => some (.ok { result := .neutral, reason := bytes "no SPF mechanism matched" }, 0)
  | mech :: mechs =>
    if mech.mechanism = bytes "exp" then checkSpfFrom eval mechs
    else
      match eval mech with
      | none => none
      | some (.error e, n) => some (.error e, n)
      | some (.ok .matched, n) => some (.ok (qualified mech.qualifier), n)
      | some (.ok .temperror, n) =>
        some (.ok { result := .temperror
                    reason := bytes "SPF temporary error evaluating " ++ mech.mechanism }, n)
      | some (.ok .permerror, n) =>
        some (.ok { result := .permerror
                    reason := bytes "SPF permanent error evaluating " ++ mech.mechanism }, n)
      | some (.ok _, n) => (checkSpfFrom eval mechs).map fun rest => (rest.1, n + rest.2)

/-- What both checks do before the terms are evaluated: `terms` gets the terms of the one record of
the domain. -/
def withSpfRecord (mailFrom heloDomain : Bytes)
    (terms : List SpfMechanism → Bytes → Option (Except StoiError SpfResult × Nat)) :
    Option (Except StoiError SpfResult × Nat) :=
  let domain := spfDomain mailFrom heloDomain
  if domain = [] then
    some (.ok { result := .none, reason := bytes "no valid domain for SPF check" }, 0)
  else
    match (dns.txt domain).filter isSpfRecord with
    | [] => some (.ok { result := .none, reason := bytes "no SPF record for " ++ domain }, 0)
    | [rec] => terms (parseSpfRecord rec) domain
    | _ =>
      some (.ok { result := .permerror, reason := bytes "multiple SPF records for " ++ domain }, 0)

def checkSpf (fuel : Nat) (dns : DnsView) (clientIp mailFrom heloDomain : Bytes) :
    Option (Except StoiError SpfResult × Nat) :=
  withSpfRecord dns mailFrom heloDomain fun mechs domain =>
    checkSpfFrom (fun mech => evalSpfMechanism dns clientIp fuel mech domain 0) mechs

/-! ## The asynchronous evaluator -/

/-- The value of a list of terms that ends with a match. -/
def qualifiedEval : SpfQualifier → SpfEval
  | .plus => .pass
  | .minus => .fail
  | .tilde => .softfail
  | .question => .neutral

/-- The continuation `continue_after`, term by term: a match and the two errors end the evaluation,
any other value goes on with the next term. -/
def continueAfter (eval : SpfMechanism → Option (Except StoiError SpfEval × Nat)) :
    List SpfMechanism → Option (Except StoiError SpfEval × Nat)
  | [] => some (.ok .neutral, 0)
  | mech :: mechs =>
    match eval mech with
    | none => none
    | some (.error e, n) => some (.error e, n)
    | some (.ok .matched, n) => some (.ok (qualifiedEval mech.qualifier), n)
    | some (.ok .temperror, n) => some (.ok .temperror, n)
    | some (.ok .permerror, n) => some (.ok .permerror, n)
    | some (.ok _, n) => (continueAfter eval mechs).map fun rest => (rest.1, n + rest.2)

/-- What `include` makes of the value of the included record. -/
def includeEval : SpfEval → SpfEval
  | .pass => .matched
  | .temperror => .temperror
  | .permerror => .permerror
  | _ => .noMatch

/-- The value of one term in `eval_spf_mechanisms_async`, over the evaluation of a nested record.
The value of a redirect is the one of the nested record as it is. -/
def evalSpfMechanismAsyncWith
    (subs : List SpfMechanism → Bytes → Nat → Option (Except StoiError SpfEval × Nat))
    (mech : SpfMechanism) (domain : Bytes) (depth : Nat) :
    Option (Except StoiError SpfEval × Nat) :=
  match mech.kind with
  | .includes =>
    if depth ≥ 10 then some (.ok .permerror, 0)
    else
      match (dns.txt mech.value).find? isSpfRecord with
      | none => some (.ok .temperror, 1)
      | some rec =>
        (subs (parseSpfRecord rec) mech.value (depth + 1)).map fun r =>
          (r.1.map includeEval, r.2 + 1)
  | .redirect =>
    match (dns.txt mech.value).find? isSpfRecord with
    | none => some (.ok .temperror, 1)
    | some rec => (subs (parseSpfRecord rec) mech.value (depth + 1)).map fun r => (r.1, r.2 + 1)
  | _ => some (evalDirect dns clientIp mech domain)

/-- The value of one term in `eval_spf_mechanisms_async`. -/
def evalSpfMechanismAsync (dns : DnsView) (clientIp : Bytes) :
    Nat → SpfMechanism → Bytes → Nat → Option (Except StoiError SpfEval × Nat)
  | 0 => evalSpfMechanismAsyncWith dns clientIp fun _ _ _ => none
  | fuel + 1 => evalSpfMechanismAsyncWith dns clientIp fun mechs domain depth =>
      continueAfter (fun sub => evalSpfMechanismAsync dns clientIp fuel sub domain depth) mechs

def evalSpfMechanismsAsync (fuel : Nat) (mechs : List SpfMechanism)
    (domain : Bytes) (depth : Nat) : Option (Except StoiError SpfEval × Nat) :=
  continueAfter (fun mech => evalSpfMechanismAsync dns clientIp fuel mech domain depth) mechs

/-- The result `check_spf_async` makes of the value. -/
def asyncResult : SpfEval → SpfResult
  | .pass => { result := .pass }
  | .fail => { result := .fail, reason := bytes "SPF hard fail" }
  | .softfail => { result := .softfail, reason := bytes "SPF soft fail" }
  | .temperror => { result := .temperror, reason := bytes "SPF temporary error" }
  | .permerror => { result := .permerror, reason := bytes "SPF permanent error" }
  | _ => { result := .neutral, reason := bytes "no SPF mechanism matched" }

def checkSpfAsync (fuel : Nat) (dns : DnsView) (clientIp mailFrom heloDomain : Bytes) :
    Option (Except StoiError SpfResult × Nat) :=
  withSpfRecord dns mailFrom heloDomain fun mechs domain =>
    (evalSpfMechanismsAsync dns clientIp fuel mechs domain 0).map fun r =>
      (r.1.map asyncResult, r.2)

end InboundVerifier

end ProtoRelay
