import ProtoRelay.Smtp.Types

/-!
# Address policy

The pure decisions of the SMTP path about addresses: the static functions of `AccountPolicy`, the
address parameter of MAIL and RCPT, the From field of a header block (`get_header_values` and
`extract_from_header_value` of the inbound verifier), the credentials of AUTH and the networks whose
clients may relay.
-/

namespace ProtoRelay

/-- The text between the first `<` and the first `>` behind it, as MAIL FROM and RCPT TO take
it. -/
def betweenAngles (args : Bytes) : Option Bytes :=
  match findByte 60 args with
  | none => none
  | some addrStart =>
    match findByteFrom 62 (addrStart + 1) args with
    | none => none
    | some addrEnd => some ((args.drop (addrStart + 1)).take (addrEnd - addrStart - 1))

/-- `domain` of `address` as several places of the source take it: the text behind the last `@`,
nothing if there is none. -/
def domainAfterLastAt (address : Bytes) : Bytes :=
  match rfindByte 64 address with
  | none => []
  | some pos => address.drop (pos + 1)

/-- The text in front of the last `@`, the whole address if there is none. -/
def localPartBeforeLastAt (address : Bytes) : Bytes :=
  match rfindByte 64 address with
  | none => address
  | some pos => address.take pos

namespace AccountPolicy

def submissionSender (authenticated requested : Bytes) : Bytes :=
  if authenticated.isEmpty then requested else authenticated

def recipientAllowed (address domain : Bytes) (external : Bool) : Bool :=
  external ||
    match rfindByte 64 address with
    | none => false
    | some pos => toLower (trim (address.drop (pos + 1))) == toLower domain

def envelopeSenderIsLocal (sender systemDomain : Bytes) : Bool :=
  match rfindByte 64 sender with
  | none => false
  | some pos =>
    let domain := trim (sender.drop (pos + 1))
    let domain := if domain.getLast? = some 62 then domain.dropLast else domain
    let domain := if domain.head? = some 60 then domain.tail else domain
    toLower domain == toLower systemDomain

variable (fromValue : Bytes)

/-- The address `from_header_address_domain` looks at: from the first `<` to the first `>`, both
counted from the start of the value, else the whole value.  With the `>` in front of the `<` the
length `end - begin - 1` wraps around and everything behind the `<` is taken. -/
def fromHeaderSpan : Bytes :=
  match findByte 60 fromValue, findByte 62 fromValue with
  | some b, some e =>
    if b < e then (fromValue.drop (b + 1)).take (e - b - 1) else fromValue.drop (b + 1)
  | _, _ => fromValue

/-- `from_header_address_domain`: the address and its domain in lower case; both empty without an
`@`. -/
def fromHeaderAddressDomain : Bytes × Bytes :=
  let addr := fromHeaderSpan fromValue
  match findByte 64 addr with
  | none => ([], [])
  | some pos => (trim addr, toLower (addr.drop (pos + 1)))

def fromHeaderDomain : Bytes := (fromHeaderAddressDomain fromValue).2

def fromHeaderAddress : Bytes := (fromHeaderAddressDomain fromValue).1

def fromHeaderIsLocal (fromValue systemDomain : Bytes) : Bool :=
  let domain := fromHeaderDomain fromValue
  !domain.isEmpty && domain == toLower systemDomain

def fromHeaderMatchesAccount (fromValue authenticated : Bytes) : Bool :=
  let addr := fromHeaderAddress fromValue
  !addr.isEmpty && !authenticated.isEmpty && toLower addr == toLower (trim authenticated)

def accountInAliasTargets (targets : List Bytes) (authenticated : Bytes) : Bool :=
  let who := toLower (trim authenticated)
  !who.isEmpty && targets.any fun t => toLower (trim t) == who

end AccountPolicy

/-! ## Header fields -/

/-- The lines `std::getline` reads: the pieces between line feeds, without an empty last one. -/
def getLines : Bytes → List Bytes
  | [] => []
  | b :: s =>
    if b = 10 then [] :: getLines s
    else
      match getLines s with
      | [] => [[b]]
      | l :: ls => (b :: l) :: ls

theorem getLines_eq_pieces (s : Bytes) : getLines s = pieces 10 s := by
  induction s with
  | nil => rfl
  | cons b s ih =>
    rw [getLines, ih]
    rfl

theorem getLines_append_lf {l : Bytes} (h : 10 ∉ l) (s : Bytes) :
    getLines (l ++ 10 :: s) = l :: getLines s := by
  rw [getLines_eq_pieces, getLines_eq_pieces]
  exact pieces_append_delim h s

theorem getLines_append_crlf {l : Bytes} (h : 10 ∉ l) (s : Bytes) :
    getLines (l ++ 13 :: 10 :: s) = (l ++ [13]) :: getLines s := by
  have hline : 10 ∉ l ++ [13] := by simp [h]
  simpa using getLines_append_lf hline s

def stripCr (line : Bytes) : Bytes := if line.getLast? = some 13 then line.dropLast else line

theorem stripCr_append_cr (l : Bytes) : stripCr (l ++ [13]) = l := by
  simp [stripCr]

/-- The `trim` of the inbound verifier: spaces and tabs only. -/
def trimBlank (s : Bytes) : Bytes := trimBy (fun b => b == 32 || b == 9) s

/-- The loop of `get_header_values` over the lines, with the field read so far. -/
def headerValuesFrom (nameLower : Bytes) : List Bytes → Bytes → Bytes → List Bytes
  | [], curName, curVal => if toLower curName = nameLower ∧ curVal ≠ [] then [curVal] else []
  | line :: lines, curName, curVal =>
    let emitted := if toLower curName = nameLower ∧ curVal ≠ [] then [curVal] else []
    match stripCr line with
    | [] => emitted
    | b :: rest =>
      if b = 32 ∨ b = 9 then
        if curName = [] then headerValuesFrom nameLower lines curName curVal
        else
          headerValuesFrom nameLower lines curName (curVal ++ bytes " " ++ trimBlank (b :: rest))
      else
        emitted ++
          match findByte 58 (b :: rest) with
          | some colon =>
            headerValuesFrom nameLower lines ((b :: rest).take colon)
              (trimBlank ((b :: rest).drop (colon + 1)))
          | none => headerValuesFrom nameLower lines [] []

/-- `get_header_values`: the values of all fields of that name, in order. -/
def getHeaderValues (rawHeaders nameLower : Bytes) : List Bytes :=
  headerValuesFrom nameLower (getLines rawHeaders) [] []

/-- `extract_from_header_value`: the first From value, empty if there is none. -/
def extractFromHeaderValue (rawHeaders : Bytes) : Bytes :=
  (getHeaderValues rawHeaders (bytes "from")).headD []

/-! ## Credentials -/

/-- `base64_decode`, over the decoder of the crypto library: `decodeBlock` gives the bytes it wrote,
padding included, or nothing if it refuses the input.  The padding is cut off by counting `=` in the
last two characters of the input. -/
def base64Decode (decodeBlock : Bytes → Option Bytes) (encoded : Bytes) : Bytes :=
  if encoded.isEmpty then []
  else
    match decodeBlock encoded with
    | none => []
    | some out =>
      let pad := (encoded.drop (encoded.length - 2)).countP (· == 61)
      if out.length < pad then [] else out.take (out.length - pad)

/-- The user name in the decoded argument of AUTH PLAIN: between the first and the second NUL, or up
to the end if there is only one; nothing without a NUL. -/
def plainUsername (decoded : Bytes) : Option Bytes :=
  match findByte 0 decoded with
  | none => none
  | some null1 =>
    match findByteFrom 0 (null1 + 1) decoded with
    | none => some (decoded.drop (null1 + 1))
    | some null2 => some ((decoded.drop (null1 + 1)).take (null2 - null1 - 1))

/-- The account an SMTP user name stands for: a name without `@` is in the system domain. -/
def qualifyUsername (systemDomain username : Bytes) : Bytes :=
  if username.contains 64 then username else username ++ bytes "@" ++ systemDomain

/-! ## Trusted relay networks -/

/-- `parse_uint`: the whole string is a decimal number that fits in 64 bits. -/
def parseUint (s : Bytes) : Option Nat :=
  if s ≠ [] ∧ s.all (fun b => 48 ≤ b && b ≤ 57) then
    let n := s.foldl (fun acc b => acc * 10 + (b.toNat - 48)) 0
    if n < 2 ^ 64 then some n else none
  else none

/-- The loop of `inet_pton(AF_INET, …)`: the octets finished, most recent first, the one being read
and whether a digit of it has been seen. -/
def inetPtonFrom : Bytes → List Nat → Nat → Bool → Option (List Nat)
  | [], octets, cur, sawDigit =>
    if octets.length + (if sawDigit then 1 else 0) < 4 then none else some (cur :: octets)
  | ch :: s, octets, cur, sawDigit =>
    if 48 ≤ ch ∧ ch ≤ 57 then
      let new := cur * 10 + (ch.toNat - 48)
      if sawDigit && cur == 0 then none
      else if 255 < new then none
      else if !sawDigit && 4 < octets.length + 1 then none
      else inetPtonFrom s octets new true
    else if ch = 46 ∧ sawDigit then
      if octets.length + 1 = 4 then none else inetPtonFrom s (cur :: octets) 0 false
    else none

/-- `ntohl` of what `inet_pton(AF_INET, s.c_str(), …)` writes; the C string ends at a NUL. -/
def inetPton (s : Bytes) : Option (BitVec 32) :=
  (inetPtonFrom (s.takeWhile (· != 0)) [] 0 false).map fun octets =>
    BitVec.ofNat 32 (octets.foldr (fun o acc => acc * 256 + o) 0)

/-- One entry of the configured networks against a client address. -/
def networkMatches (ip entry : Bytes) : Bool :=
  entry == ip ||
    match findByte 47 entry with
    | none => false
    | some slash =>
      match parseUint (entry.drop (slash + 1)) with
      | none => false
      | some pfx =>
        if 32 < pfx then false
        else
          match inetPton (entry.take slash), inetPton ip with
          | some base, some addr =>
            let mask : BitVec 32 := if pfx = 0 then 0 else BitVec.allOnes 32 <<< (32 - pfx)
            base &&& mask == addr &&& mask
          | _, _ => false

def ipInTrustedNetworks (ip : Bytes) (networks : List Bytes) : Bool :=
  !ip.isEmpty && networks.any (networkMatches ip)

end ProtoRelay
