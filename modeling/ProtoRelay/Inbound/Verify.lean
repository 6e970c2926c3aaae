import ProtoRelay.Inbound.Spf

/-!
# DMARC, and the check of a whole message

`check_dmarc` and `check_dmarc_async`, which combine the results of SPF and DKIM with the domain of
the From field, and `verify_all`, `verify_all_from_file` and their asynchronous forms, which call
one check after the other.  The result of SPF is at hand when they are called: the server has it
since MAIL FROM.
-/

namespace ProtoRelay

/-- `DmarcResult::result`. -/
inductive DmarcVerdict
  | none | pass | fail
  deriving DecidableEq

structure DmarcResult where
  result : DmarcVerdict := .none
  reason : Bytes := []
  policy : Bytes := []
  headerFromDomain : Bytes := []

structure VerificationResult where
  spf : SpfResult
  dkim : DkimResult
  dmarc : DmarcResult

/-- The modes of `ServerConfig` that switch the checks on. -/
structure InboundConfig where
  inboundDkimMode : Bytes := bytes "off"
  inboundDmarcMode : Bytes := bytes "off"

/-- Where the body of the message is: in memory, or in a file, `none` if it cannot be opened. -/
inductive InboundBody
  | memory (rawBody : Bytes)
  | file (path : Bytes) (content : Option Bytes)

namespace InboundVerifier

/-- The lambda `ends_with_dot` of `is_aligned`. -/
def endsWithDot (s suffix : Bytes) : Bool :=
  if s.length ≤ suffix.length + 1 then false
  else s.drop (s.length - suffix.length - 1) == 46 :: suffix

def isAligned (authDomain fromDomain : Bytes) : Bool :=
  if authDomain = [] ∨ fromDomain = [] then false
  else if authDomain = fromDomain then true
  else if authDomain.length > fromDomain.length then endsWithDot authDomain fromDomain
  else endsWithDot fromDomain authDomain

def isDmarcRecord (rec : Bytes) : Bool := (bytes "v=DMARC1").isPrefixOf rec

/-- What `check_dmarc` and `check_dmarc_async` make of the TXT records. -/
def dmarcOf (fromDomain : Bytes) (spf : SpfResult) (dkim : DkimResult) (mailFromDomain : Bytes)
    (txtRecords : List Bytes) : DmarcResult :=
  match txtRecords.find? isDmarcRecord with
  | none => { policy := bytes "none", reason := bytes "no DMARC record for " ++ fromDomain }
  | some rec =>
    let policy := ((findHeader (parseTags rec) (bytes "p")).map toLower).getD (bytes "none")
    let spfOk := spf.result = .pass ∧ isAligned mailFromDomain fromDomain
    let dkimOk := dkim.result = .pass ∧ isAligned dkim.signingDomain fromDomain
    if spfOk ∨ dkimOk then
      { result := .pass, policy
        reason :=
          if spfOk then bytes "SPF aligned and passed" else bytes "DKIM aligned and passed" }
    else if policy = bytes "reject" then
      { result := .fail, policy, reason := bytes "DMARC policy is reject, no aligned auth passed" }
    else if policy = bytes "quarantine" then
      { result := .fail, policy
        reason := bytes "DMARC policy is quarantine, no aligned auth passed" }
    else { result := .none, policy, reason := bytes "DMARC policy is none" }

/-- The name of the TXT record with the policy. -/
def dmarcDomain (fromDomain : Bytes) : Bytes := bytes "_dmarc." ++ fromDomain

def noFromDomain : DmarcResult :=
  { policy := bytes "none", reason := bytes "no From domain for DMARC check" }

def checkDmarc (dns : DnsView) (fromDomain : Bytes) (spf : SpfResult) (dkim : DkimResult)
    (mailFromDomain : Bytes) : DmarcResult :=
  if fromDomain = [] then noFromDomain
  else dmarcOf fromDomain spf dkim mailFromDomain (dns.txt (dmarcDomain fromDomain))

def checkDmarcAsync (dns : DnsView) (cache : DnsCache) (fromDomain : Bytes) (spf : SpfResult)
    (dkim : DkimResult) (mailFromDomain : Bytes) : DmarcResult × DnsCache :=
  if fromDomain = [] then (noFromDomain, cache)
  else
    let (records, cache) := getTxtAsync dns cache (dmarcDomain fromDomain)
    (dmarcOf fromDomain spf dkim mailFromDomain records, cache)

def extractFromHeaderDomain (headers : Bytes) : Bytes :=
  match getHeaderValues headers (bytes "from") with
  | [] => []
  | value :: _ => AccountPolicy.fromHeaderDomain value

/-! ## The whole message -/

def dkimDisabled : DkimResult := { reason := bytes "DKIM check disabled" }

def dmarcDisabled : DmarcResult := { reason := bytes "DMARC check disabled" }

section

variable (sha256 : Bytes → Bytes) (rsa : Bytes → Bytes → Bytes → Except Bytes Unit)

/-- The hash of the body, wherever it is. -/
def bodyHashFor : InboundBody → BodyHash
  | .memory rawBody => bodyHashOf sha256 rawBody
  | .file path content => bodyHashOfFile sha256 path content

/-- The headers `verify_all` and `verify_all_from_file` hand to the DKIM check: the former puts the
message together first. -/
def syncHeaders (rawHeaders : Bytes) : InboundBody → Bytes
  | .memory rawBody => rawHeaders ++ bytes "\r\n\r\n" ++ rawBody
  | .file _ _ => rawHeaders

/-- `verify_all` and `verify_all_from_file`. -/
def verifyAll (config : InboundConfig) (dns : DnsView) (mailFrom rawHeaders : Bytes)
    (body : InboundBody) (precomputedSpf : SpfResult) : VerificationResult :=
  let dkim :=
    if config.inboundDkimMode ≠ bytes "off" then
      checkDkim rsa dns (bodyHashFor sha256 body) (syncHeaders rawHeaders body)
    else dkimDisabled
  let dmarc :=
    if config.inboundDmarcMode ≠ bytes "off" then
      let fromDomain := extractFromHeaderDomain rawHeaders
      { checkDmarc dns fromDomain precomputedSpf dkim (extractDomain mailFrom) with
        headerFromDomain := fromDomain }
    else dmarcDisabled
  { spf := precomputedSpf, dkim, dmarc }

/-- `verify_all_async` and `verify_all_from_file_async`. -/
def verifyAllAsync (config : InboundConfig) (dns : DnsView) (cache : DnsCache)
    (mailFrom rawHeaders : Bytes) (body : InboundBody) (precomputedSpf : SpfResult) :
    VerificationResult × DnsCache :=
  let (dkim, cache) :=
    if config.inboundDkimMode ≠ bytes "off" then
      checkDkimAsync rsa dns cache (bodyHashFor sha256 body) rawHeaders
    else (dkimDisabled, cache)
  if config.inboundDmarcMode ≠ bytes "off" then
    let fromDomain := extractFromHeaderDomain rawHeaders
    let (dmarc, cache) :=
      checkDmarcAsync dns cache fromDomain precomputedSpf dkim (extractDomain mailFrom)
    ({ spf := precomputedSpf, dkim, dmarc := { dmarc with headerFromDomain := fromDomain } }, cache)
  else ({ spf := precomputedSpf, dkim, dmarc := dmarcDisabled }, cache)

end

end InboundVerifier

end ProtoRelay
