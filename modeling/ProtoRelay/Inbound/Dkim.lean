import ProtoRelay.Base.Base64
import ProtoRelay.Smtp.Message

/-!
# DKIM verification

How the inbound verifier reads the signatures of a message, canonicalises what they cover and checks
them: the helpers of `mail_crypto.h` and the DKIM part of `InboundVerifier`.  Hashing and RSA are
the crypto library's and stand as parameters: `sha256`, and `rsa`, which gets the key of the TXT
record, the signing input and the signature, all as texts, and gives the error text if it refuses.
-/

namespace ProtoRelay

/-! ## Canonical forms -/

/-- The loop of `collapse_ws`. -/
def collapseWsFrom : Bytes → Bool → Bytes
  | [], _ => []
  | ch :: s, inWs =>
    if isSpace ch then if inWs then collapseWsFrom s true else 32 :: collapseWsFrom s true
    else ch :: collapseWsFrom s false

def collapseWs (s : Bytes) : Bytes := trimBlank (collapseWsFrom s false)

def canonicalizeHeaderRelaxed (name value : Bytes) : Bytes :=
  toLower name ++ bytes ":" ++ collapseWs value ++ bytes "\r\n"

def splitLinesLf (text : Bytes) : List Bytes := (getLines text).map stripCr

/-- The lines without the empty ones at the end. -/
def dropTrailingEmpty (lines : List Bytes) : List Bytes :=
  (lines.reverse.dropWhile (·.isEmpty)).reverse

def normalizeBodySimple (body : Bytes) : Bytes :=
  let lines := dropTrailingEmpty (splitLinesLf body)
  if lines = [] then bytes "\r\n" else lines.flatMap (· ++ bytes "\r\n")

/-- The inner loop of `normalize_body_relaxed`: runs of blanks become one space, those at the end
vanish. -/
def relaxLineFrom : Bytes → Bool → Bytes
  | [], _ => []
  | ch :: s, inSp =>
    if ch = 32 ∨ ch = 9 then relaxLineFrom s true
    else if inSp then 32 :: ch :: relaxLineFrom s false
    else ch :: relaxLineFrom s false

def normalizeBodyRelaxed (body : Bytes) : Bytes :=
  (dropTrailingEmpty (splitLinesLf body)).flatMap fun line =>
    relaxLineFrom line false ++ bytes "\r\n"

/-- The canonical body, by the name of its algorithm. -/
def normalizeBody (canon body : Bytes) : Bytes :=
  if canon = bytes "relaxed" then normalizeBodyRelaxed body else normalizeBodySimple body

/-- The loop of `dkim_body_hash_stream` over the lines of the body: the last line that is not empty,
the empty lines behind it, and what the hash was fed.  The empty lines are counted in an `int`. -/
def bodyStreamFrom (relaxed : Bool) : List Bytes → Option Bytes → BitVec 32 → Bytes → Bytes
  | [], some pending, _, fed => fed ++ pending ++ bytes "\r\n"
  | [], none, _, fed => if relaxed then fed else fed ++ bytes "\r\n"
  | line :: lines, pending, empties, fed =>
    if line = [] then bodyStreamFrom relaxed lines pending (empties + 1) fed
    else
      let cur := if relaxed then relaxLineFrom line false else line
      -- a count that has become negative feeds nothing
      let blank := (List.replicate empties.toInt.toNat (bytes "\r\n")).flatten
      match pending with
      | some p => bodyStreamFrom relaxed lines (some cur) 0 (fed ++ p ++ bytes "\r\n" ++ blank)
      | none => bodyStreamFrom relaxed lines (some cur) 0 (fed ++ blank)

/-- The lines behind the first empty one. -/
def bodyLines : List Bytes → List Bytes
  | [] => []
  | line :: lines => if line = [] then lines else bodyLines lines

/-- What `dkim_body_hash_stream` feeds to the hash, for a file with header and body. -/
def dkimBodyStream (canon content : Bytes) : Bytes :=
  bodyStreamFrom (canon = bytes "relaxed") (bodyLines (splitLinesLf content)) none 0 []

/-! ## Tags -/

/-- The end of a tag in `parse_tags`. -/
def addTag (current : Bytes) (tags : List (Bytes × Bytes)) : List (Bytes × Bytes) :=
  let tag := trimBlank current
  match findByte 61 tag with
  | none => tags
  | some eq => (trimBlank (tag.take eq), trimBlank (tag.drop (eq + 1))) :: tags

/-- The loop of `parse_tags`. -/
def parseTagsFrom : Bytes → Bool → Bytes → List (Bytes × Bytes) → List (Bytes × Bytes)
  | [], _, current, tags => if current = [] then tags else addTag current tags
  | ch :: raw, inQuotes, current, tags =>
    if ch = 34 then parseTagsFrom raw (!inQuotes) current tags
    else if ch = 59 ∧ inQuotes = false then parseTagsFrom raw inQuotes [] (addTag current tags)
    else parseTagsFrom raw inQuotes (current ++ [ch]) tags

/-- `parse_tags`: the assignments, newest first. -/
def parseTags (raw : Bytes) : List (Bytes × Bytes) := parseTagsFrom raw false [] []

structure DkimSignature where
  rawValue : Bytes
  version : Bytes := []
  algorithm : Bytes := []
  domain : Bytes := []
  selector : Bytes := []
  bodyHash : Bytes := []
  signature : Bytes := []
  signedHeaders : List Bytes := []
  headerCanon : Bytes := bytes "simple"
  bodyCanon : Bytes := bytes "simple"
  deriving DecidableEq

inductive DkimVerdict
  | none | pass | fail
  deriving DecidableEq

structure DkimResult where
  result : DkimVerdict := .none
  reason : Bytes := []
  selector : Bytes := []
  signingDomain : Bytes := []

/-- What the resolver answers. -/
structure DnsView where
  txt : Bytes → List Bytes
  /-- the addresses of a host -/
  host : Bytes → List Bytes
  /-- the hosts of the MX records -/
  mx : Bytes → List Bytes

/-- The entries of `inbound_dns_cache` that have not expired. -/
abbrev DnsCache := List (Bytes × List Bytes)

namespace InboundVerifier

def split (s : Bytes) (delim : UInt8) : List Bytes := (pieces delim s).map trimBlank

/-- The loop of `parse_headers_map` over the lines.  A line without a colon stores the field before
it, and leaves it as the one that later lines continue. -/
def headersMapFrom : List Bytes → Bytes → Bytes → List (Bytes × Bytes) → List (Bytes × Bytes)
  | [], curKey, curVal, out => if curKey = [] then out else (toLower curKey, curVal) :: out
  | [] :: _, curKey, curVal, out => if curKey = [] then out else (toLower curKey, curVal) :: out
  | (b :: line) :: lines, curKey, curVal, out =>
    if b = 32 ∨ b = 9 then
      if curKey = [] then headersMapFrom lines curKey curVal out
      else headersMapFrom lines curKey (curVal ++ bytes " " ++ trimBlank (b :: line)) out
    else
      let stored := if curKey = [] then out else (toLower curKey, curVal) :: out
      match findByte 58 (b :: line) with
      | some colon =>
        headersMapFrom lines ((b :: line).take colon)
          (trimBlank ((b :: line).drop (colon + 1))) stored
      | none => headersMapFrom lines curKey curVal stored

def parseHeadersMap (rawHeaders : Bytes) : List (Bytes × Bytes) :=
  headersMapFrom (splitLinesLf rawHeaders) [] [] []

/-! ## Signatures -/

def tag (tags : List (Bytes × Bytes)) (name : Bytes) : Bytes := (findHeader tags name).getD []

/-- One value of the loop of `parse_dkim_signatures`. -/
def dkimSignature (value : Bytes) : DkimSignature :=
  let tags := parseTags value
  let sig : DkimSignature :=
    { rawValue := value
      version := tag tags (bytes "v")
      algorithm := toLower (tag tags (bytes "a"))
      domain := toLower (tag tags (bytes "d"))
      selector := tag tags (bytes "s")
      bodyHash := tag tags (bytes "bh")
      signature := tag tags (bytes "b")
      signedHeaders := split (tag tags (bytes "h")) 58 }
  match findHeader tags (bytes "c") with
  | none => sig
  | some c =>
    match findByte 47 c with
    | some slash =>
      { sig with
        headerCanon := toLower (trimBlank (c.take slash))
        bodyCanon := toLower (trimBlank (c.drop (slash + 1))) }
    | none => { sig with headerCanon := toLower (trimBlank c), bodyCanon := toLower (trimBlank c) }

/-- A signature that is kept: it has a domain, a selector and a signature. -/
def isComplete (sig : DkimSignature) : Bool :=
  !sig.domain.isEmpty && !sig.selector.isEmpty && !sig.signature.isEmpty

def parseDkimSignatures (rawHeaders : Bytes) : List DkimSignature :=
  ((getHeaderValues rawHeaders (bytes "dkim-signature")).map dkimSignature).filter isComplete

/-- The raw value with an empty `b=` tag: the first `b=` of the text counts. -/
def withoutSignature (rawValue : Bytes) : Bytes :=
  match cutAt (bytes "b=") rawValue with
  | none => rawValue
  | some (before, after) =>
    match findByte 59 after with
    | some end_ => before ++ bytes "b=" ++ after.drop end_
    | none => before ++ bytes "b="

/-- A header field of the signing input: the first value of that name, nothing if there is none. -/
def signedField (rawHeaders name : Bytes) : Bytes :=
  match findHeader (parseHeadersMap rawHeaders) (toLower name) with
  | none => []
  | some _ =>
    match getHeaderValues rawHeaders (toLower name) with
    | [] => []
    | value :: _ => canonicalizeHeaderRelaxed name value

/-- The canonical DKIM-Signature field, without its line end. -/
def signatureField (value : Bytes) : Bytes :=
  let canon := canonicalizeHeaderRelaxed (bytes "DKIM-Signature") value
  if bytes "\r\n" <:+ canon then canon.take (canon.length - 2) else canon

/-- The signing input the verifier builds. -/
def signingInput (sig : DkimSignature) (rawHeaders : Bytes) : Bytes :=
  sig.signedHeaders.flatMap (signedField rawHeaders) ++
    signatureField (withoutSignature sig.rawValue)

/-- The text of a key or a signature as it is decoded: without white space, and padded. -/
def cleanBase64 (s : Bytes) : Bytes :=
  let clean := s.filter fun b => !isSpace b
  clean ++ List.replicate ((4 - clean.length % 4) % 4) 61

/-- `extract_dkim_pubkey`; empty if there is no key. -/
def extractDkimPubkey : List Bytes → Bytes
  | [] => []
  | rec :: records =>
    let tags := parseTags rec
    let ktype := ((findHeader tags (bytes "k")).map toLower).getD (bytes "rsa")
    if ktype ≠ bytes "rsa" then extractDkimPubkey records
    else if tag tags (bytes "p") = [] then extractDkimPubkey records
    else tag tags (bytes "p")

/-- The name of the TXT record with the key. -/
def keyDomain (sig : DkimSignature) : Bytes := sig.selector ++ bytes "._domainkey." ++ sig.domain

section

variable (rsa : Bytes → Bytes → Bytes → Except Bytes Unit)

def verifyDkimWithPubkey (sig : DkimSignature) (rawHeaders computedBh pubkey : Bytes) :
    Except Bytes Unit :=
  if computedBh ≠ sig.bodyHash then
    .error (bytes "DKIM body hash mismatch (canon=" ++ sig.bodyCanon ++ bytes ")")
  else rsa (cleanBase64 pubkey) (signingInput sig rawHeaders) (cleanBase64 sig.signature)

variable (dns : DnsView)

def verifyDkimSignatureImpl (sig : DkimSignature) (rawHeaders computedBh : Bytes) :
    Except Bytes Unit :=
  let pubkey := extractDkimPubkey (dns.txt (keyDomain sig))
  if pubkey = [] then .error (bytes "no DKIM public key found in DNS for " ++ keyDomain sig)
  else verifyDkimWithPubkey rsa sig rawHeaders computedBh pubkey

/-- The hash of the body for a canonicalisation, or why there is none. -/
abbrev BodyHash := Bytes → Except Bytes Bytes

/-- The hash of a body in memory. -/
def bodyHashOf (sha256 : Bytes → Bytes) (rawBody : Bytes) : BodyHash := fun canon =>
  .ok (base64 (sha256 (normalizeBody canon rawBody)))

/-- The hash of the body of a stored message; `none` for a file that cannot be opened. -/
def bodyHashOfFile (sha256 : Bytes → Bytes) (path : Bytes) (content : Option Bytes) : BodyHash :=
  fun canon =>
    match content with
    | none => .error (bytes "cannot open DKIM body file: " ++ path)
    | some content => .ok (base64 (sha256 (dkimBodyStream canon content)))

/-- `verify_dkim_signature` and `verify_dkim_signature_from_file`. -/
def verifyDkimSignature (bodyHash : BodyHash) (rawHeaders : Bytes)
    (sig : DkimSignature) : Except Bytes Unit :=
  match bodyHash sig.bodyCanon with
  | .error e => .error e
  | .ok computedBh => verifyDkimSignatureImpl rsa dns sig rawHeaders computedBh

/-! ## All signatures -/

def passed (sig : DkimSignature) : DkimResult :=
  { result := .pass, selector := sig.selector, signingDomain := sig.domain }

def noneValid (reason : Bytes) : DkimResult :=
  { result := .fail, reason := if reason = [] then bytes "no valid DKIM signature" else reason }

/-- The loop of `check_dkim`, with the first reason for a failure. -/
def checkDkimFrom (dns : DnsView) (bodyHash : BodyHash) (rawHeaders : Bytes) :
    List DkimSignature → Bytes → DkimResult
  | [], reason => noneValid reason
  | sig :: sigs, reason =>
    if sig.algorithm ≠ bytes "rsa-sha256" then checkDkimFrom dns bodyHash rawHeaders sigs reason
    else
      match verifyDkimSignature rsa dns bodyHash rawHeaders sig with
      | .ok () => passed sig
      | .error e =>
        checkDkimFrom dns bodyHash rawHeaders sigs (if reason = [] then e else reason)

/-- `check_dkim` and `check_dkim_from_file`. -/
def checkDkim (bodyHash : BodyHash) (rawHeaders : Bytes) : DkimResult :=
  match parseDkimSignatures rawHeaders with
  | [] => { reason := bytes "no DKIM-Signature header found" }
  | sigs => checkDkimFrom rsa dns bodyHash rawHeaders sigs []

/-- `get_txt_async`: the records, and the cache with them in it. -/
def getTxtAsync (cache : DnsCache) (key : Bytes) : List Bytes × DnsCache :=
  match cache.find? fun e => e.1 == key with
  | some e => (e.2, cache)
  | none => (dns.txt key, (key, dns.txt key) :: cache)

/-- The continuation of `check_dkim_async`, signature by signature.  The callbacks of the resolver
work on copies of the result, so the reasons they write are lost. -/
def checkDkimAsyncFrom (dns : DnsView) (bodyHash : BodyHash) (rawHeaders : Bytes) :
    List DkimSignature → DnsCache → Bytes → DkimResult × DnsCache
  | [], cache, reason => (noneValid reason, cache)
  | sig :: sigs, cache, reason =>
    if sig.algorithm ≠ bytes "rsa-sha256" then
      checkDkimAsyncFrom dns bodyHash rawHeaders sigs cache reason
    else
      match bodyHash sig.bodyCanon with
      | .error e =>
        checkDkimAsyncFrom dns bodyHash rawHeaders sigs cache (if reason = [] then e else reason)
      | .ok computedBh =>
        let (records, cache) := getTxtAsync dns cache (keyDomain sig)
        let pubkey := extractDkimPubkey records
        if pubkey = [] then checkDkimAsyncFrom dns bodyHash rawHeaders sigs cache reason
        else
          match verifyDkimWithPubkey rsa sig rawHeaders computedBh pubkey with
          | .ok () => (passed sig, cache)
          | .error _ => checkDkimAsyncFrom dns bodyHash rawHeaders sigs cache reason

/-- `check_dkim_async` and `check_dkim_from_file_async`. -/
def checkDkimAsync (cache : DnsCache) (bodyHash : BodyHash) (rawHeaders : Bytes) :
    DkimResult × DnsCache :=
  match parseDkimSignatures rawHeaders with
  | [] => ({ reason := bytes "no DKIM-Signature header found" }, cache)
  | sigs => checkDkimAsyncFrom rsa dns bodyHash rawHeaders sigs cache []

end

end InboundVerifier

end ProtoRelay
