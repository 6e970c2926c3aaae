import ProtoRelay.Inbound.Verify
import ProtoRelay.Smtp.FromHeader

/-!
# The DMARC verdict

A message passes DMARC if SPF passed for a MAIL FROM domain aligned with the From domain, or if one
of its DKIM signatures verifies, covers the From field and is of an aligned domain.  The verifier
reports one signature only, the first that verifies, and does not look at the fields it covers.  So
an aligned signature can stand *behind* a valid one of another domain and is not seen, and an
aligned signature counts even if it leaves the From field open.  These are the two ways the verdict
goes wrong.

The synchronous and the asynchronous path agree, because the DMARC step reads of the DKIM result
only whether it passed and for which domain; the reasons, which differ, do not matter to it.
-/

namespace ProtoRelay

open List

/-! ## Alignment -/

/-- `s` is a subdomain of `d`. -/
def Subdomain (s d : Bytes) : Prop :=
  ∃ labels, labels ≠ [] ∧ toLower s = labels ++ 46 :: toLower d

/-- Two domains are aligned. -/
def Aligned (a b : Bytes) : Prop :=
  a ≠ [] ∧ b ≠ [] ∧ (toLower a = toLower b ∨ Subdomain a b ∨ Subdomain b a)

namespace InboundVerifier

theorem endsWithDot_iff {s suffix : Bytes} :
    endsWithDot s suffix = true ↔ ∃ labels, labels ≠ [] ∧ s = labels ++ 46 :: suffix := by
  unfold endsWithDot
  split
  · next hlen =>
    simp only [Bool.false_eq_true, false_iff, not_exists, not_and]
    rintro labels hne rfl
    have := length_pos_iff.mpr hne
    simp only [length_append, length_cons] at hlen
    omega
  · next hlen =>
    rw [beq_iff_eq]
    constructor
    · intro h
      refine ⟨s.take (s.length - suffix.length - 1), ?_, ?_⟩
      · intro hnil
        have := congrArg List.length hnil
        simp only [length_take, length_nil] at this
        omega
      · rw [← h, take_append_drop]
    · rintro ⟨labels, -, rfl⟩
      have hpos : (labels ++ 46 :: suffix).length - suffix.length - 1 = labels.length := by
        simp only [length_append, length_cons]
        omega
      rw [hpos, drop_left]

/-- **The comparison is alignment**, for domains in lower case. -/
theorem isAligned_iff {a b : Bytes} (ha : toLower a = a) (hb : toLower b = b) :
    isAligned a b = true ↔ Aligned a b := by
  have hlonger {s d : Bytes} (h : ∃ labels, labels ≠ [] ∧ s = labels ++ 46 :: d) :
      d.length < s.length := by
    obtain ⟨labels, -, rfl⟩ := h
    simp only [length_append, length_cons]
    omega
  unfold isAligned Aligned Subdomain
  rw [ha, hb]
  by_cases hnil : a = [] ∨ b = []
  · rw [if_pos hnil]
    constructor
    · nofun
    · rintro ⟨hane, hbne, -⟩
      exact absurd hnil (not_or.mpr ⟨hane, hbne⟩)
  · rw [if_neg hnil]
    rw [not_or] at hnil
    by_cases heq : a = b
    · simp [heq, hnil.2]
    · rw [if_neg heq]
      -- only the longer of the two can be the subdomain
      split
      · next hlen =>
        rw [endsWithDot_iff]
        constructor
        · intro h
          exact ⟨hnil.1, hnil.2, .inr (.inl h)⟩
        · rintro ⟨-, -, h | h | h⟩
          · exact absurd h heq
          · exact h
          · have := hlonger h
            omega
      · next hlen =>
        rw [endsWithDot_iff]
        constructor
        · intro h
          exact ⟨hnil.1, hnil.2, .inr (.inr h)⟩
        · rintro ⟨-, -, h | h | h⟩
          · exact absurd h heq
          · have := hlonger h
            omega
          · exact h

theorem toLower_extractDomain (addr : Bytes) :
    toLower (extractDomain addr) = extractDomain addr := by
  unfold extractDomain
  split
  · rfl
  · exact toLower_toLower _

theorem toLower_extractFromHeaderDomain (headers : Bytes) :
    toLower (extractFromHeaderDomain headers) = extractFromHeaderDomain headers := by
  unfold extractFromHeaderDomain AccountPolicy.fromHeaderDomain
    AccountPolicy.fromHeaderAddressDomain
  split
  · rfl
  · dsimp only
    split
    · rfl
    · exact toLower_toLower _

theorem toLower_domain_dkimSignature (value : Bytes) :
    toLower (dkimSignature value).domain = (dkimSignature value).domain := by
  unfold dkimSignature
  dsimp only
  split
  · exact toLower_toLower _
  · split
    · exact toLower_toLower _
    · exact toLower_toLower _

theorem toLower_domain {rawHeaders : Bytes} {sig : DkimSignature}
    (h : sig ∈ parseDkimSignatures rawHeaders) : toLower sig.domain = sig.domain := by
  obtain ⟨value, -, rfl⟩ := mem_map.mp (mem_of_mem_filter h)
  exact toLower_domain_dkimSignature value

/-! ## The header block in front of the body -/

/-- A header block that does not end inside a line end keeps its lines when the message is put
together, and an empty line follows them. -/
theorem splitLinesLf_append {raw : Bytes} (hraw : raw.getLast? ≠ some 13) (body : Bytes) :
    ∃ rest, splitLinesLf (raw ++ 13 :: 10 :: 13 :: 10 :: body) =
      splitLinesLf raw ++ [] :: rest := by
  -- line by line: the induction is on the length of the block
  induction hn : raw.length using Nat.strong_induction_on generalizing raw with
  | _ n ih =>
    cases hlf : findByte 10 raw with
    | some i =>
      obtain ⟨l, s, rfl, hl, -⟩ := findByte_eq_some_iff.mp hlf
      have hs : s.getLast? ≠ some 13 := by
        intro hlast
        apply hraw
        simp [getLast?_append, getLast?_cons, hlast]
      have hlen : s.length < n := by
        rw [← hn]
        simp only [length_append, length_cons]
        omega
      obtain ⟨rest, hrest⟩ := ih s.length hlen hs rfl
      refine ⟨rest, ?_⟩
      simp only [splitLinesLf, getLines_eq_pieces, append_assoc, cons_append] at hrest ⊢
      rw [pieces_append_delim hl, pieces_append_delim hl, map_cons, hrest]
      rfl
    | none =>
      rw [findByte_eq_none_iff] at hlf
      by_cases hnil : raw = []
      · subst hnil
        exact ⟨[] :: (getLines body).map stripCr, rfl⟩
      · refine ⟨(getLines body).map stripCr, ?_⟩
        have hstrip : stripCr raw = raw := if_neg hraw
        have hsep : getLines (13 :: 10 :: body) = [13] :: getLines body := rfl
        have hcr : stripCr [13] = [] := rfl
        simp only [splitLinesLf]
        rw [getLines_append_crlf hlf, hsep, getLines_eq_pieces raw, pieces_of_not_mem hlf hnil,
          map_cons,
          map_cons, stripCr_append_cr, map_cons, hstrip]
        rfl

theorem takeWhile_append_nil_cons (lines rest : List Bytes) :
    (lines ++ [] :: rest).takeWhile (· ≠ []) = lines.takeWhile (· ≠ []) := by
  induction lines with
  | nil => rfl
  | cons l lines ih => rw [cons_append, takeWhile_cons, takeWhile_cons, ih]

theorem headerLines_syncHeaders {raw : Bytes} (hraw : raw.getLast? ≠ some 13) (body : InboundBody) :
    headerLines (syncHeaders raw body) = headerLines raw := by
  cases body with
  | file path content => rfl
  | memory rawBody =>
    obtain ⟨rest, hrest⟩ := splitLinesLf_append hraw rawBody
    have hfull : syncHeaders raw (.memory rawBody) = raw ++ 13 :: 10 :: 13 :: 10 :: rawBody :=
      append_assoc raw (bytes "\r\n\r\n") rawBody
    rw [hfull]
    unfold headerLines
    unfold splitLinesLf at hrest
    rw [hrest, takeWhile_append_nil_cons]

theorem headersMapFrom_takeWhile (lines : List Bytes) (curKey curVal : Bytes)
    (out : List (Bytes × Bytes)) :
    headersMapFrom (lines.takeWhile (· ≠ [])) curKey curVal out =
      headersMapFrom lines curKey curVal out := by
  induction lines generalizing curKey curVal out with
  | nil => rfl
  | cons line lines ih =>
    cases line with
    | nil => rfl
    | cons b line =>
      rw [takeWhile_cons_of_pos (by simp)]
      unfold headersMapFrom
      simp only [ih]

theorem ne_nil_of_mem_headersMapFrom (lines : List Bytes) (curKey curVal : Bytes)
    {out : List (Bytes × Bytes)} (hout : ∀ e ∈ out, e.1 ≠ []) :
    ∀ e ∈ headersMapFrom lines curKey curVal out, e.1 ≠ [] := by
  have hsto {out : List (Bytes × Bytes)} (hout : ∀ e ∈ out, e.1 ≠ []) (curKey curVal : Bytes) :
      ∀ e ∈ if curKey = [] then out else (toLower curKey, curVal) :: out, e.1 ≠ [] := by
    split
    · exact hout
    · next hkey =>
      intro e he
      rcases mem_cons.mp he with rfl | he
      · exact mt toLower_eq_nil_iff.mp hkey
      · exact hout e he
  induction lines generalizing curKey curVal out with
  | nil => exact hsto hout curKey curVal
  | cons line lines ih =>
    cases line with
    | nil => exact hsto hout curKey curVal
    | cons b line =>
      unfold headersMapFrom
      split
      · split
        · exact ih _ _ hout
        · exact ih _ _ hout
      · dsimp only
        split
        · exact ih _ _ (hsto hout curKey curVal)
        · exact ih _ _ (hsto hout curKey curVal)

/-- Two header blocks with the same lines have the same fields. -/
theorem signedField_congr {raw raw' : Bytes} (h : headerLines raw = headerLines raw') :
    signedField raw = signedField raw' := by
  have hmap : parseHeadersMap raw = parseHeadersMap raw' := by
    unfold parseHeadersMap
    rw [← headersMapFrom_takeWhile (splitLinesLf raw),
      ← headersMapFrom_takeWhile (splitLinesLf raw')]
    exact congrArg (headersMapFrom · [] [] []) h
  funext name
  unfold signedField
  rw [hmap]
  by_cases hname : toLower name = []
  · -- no field is stored under an empty name
    have hnone : findHeader (parseHeadersMap raw') (toLower name) = none := by
      rw [hname, findHeader, Option.map_eq_none_iff, find?_eq_none]
      intro e he
      have hne := ne_nil_of_mem_headersMapFrom _ _ _ (fun _ h => absurd h not_mem_nil) e he
      simpa using hne
    rw [hnone]
  · rw [getHeaderValues_eq hname, getHeaderValues_eq hname, h]

theorem parseDkimSignatures_congr {raw raw' : Bytes} (h : headerLines raw = headerLines raw') :
    parseDkimSignatures raw = parseDkimSignatures raw' := by
  have hname : bytes "dkim-signature" ≠ [] := by decide
  unfold parseDkimSignatures
  rw [getHeaderValues_eq hname, getHeaderValues_eq hname, h]

/-! ## The first signature that verifies -/

section

variable (rsa : Bytes → Bytes → Bytes → Except Bytes Unit) {dns : DnsView} {bodyHash : BodyHash}
  {rawHeaders : Bytes}

def verifies (dns : DnsView) (bodyHash : BodyHash) (rawHeaders : Bytes)
    (sig : DkimSignature) : Bool :=
  sig.algorithm == bytes "rsa-sha256" &&
    (verifyDkimSignature rsa dns bodyHash rawHeaders sig).toBool

/-- The DKIM result says that this signature verifies, or that none does. -/
def Reports (found : Option DkimSignature) (r : DkimResult) : Prop :=
  match found with
  | some sig => r.result = .pass ∧ r.signingDomain = sig.domain
  | none => r.result ≠ .pass

theorem reports_noneValid (reason : Bytes) : Reports none (noneValid reason) := nofun

theorem verifies_congr {raw raw' : Bytes} (h : headerLines raw = headerLines raw') :
    verifies rsa dns bodyHash raw = verifies rsa dns bodyHash raw' := by
  funext sig
  unfold verifies verifyDkimSignature verifyDkimSignatureImpl verifyDkimWithPubkey signingInput
  rw [signedField_congr h]

theorem reports_checkDkimFrom (sigs : List DkimSignature) (reason : Bytes) :
    Reports (sigs.find? (verifies rsa dns bodyHash rawHeaders))
      (checkDkimFrom rsa dns bodyHash rawHeaders sigs reason) := by
  induction sigs generalizing reason with
  | nil => exact reports_noneValid reason
  | cons sig sigs ih =>
    unfold checkDkimFrom
    by_cases halg : sig.algorithm = bytes "rsa-sha256"
    · rw [if_neg (not_not.mpr halg)]
      cases hsig : verifyDkimSignature rsa dns bodyHash rawHeaders sig with
      | ok u =>
        rw [find?_cons_of_pos (by simp [verifies, halg, hsig, Except.toBool])]
        exact ⟨rfl, rfl⟩
      | error e =>
        rw [find?_cons_of_neg (by simp [verifies, hsig, Except.toBool])]
        exact ih _
    · rw [if_pos halg, find?_cons_of_neg (by simp [verifies, halg])]
      exact ih reason

/-- **The synchronous check reports the first signature that verifies.** -/
theorem reports_checkDkim :
    Reports ((parseDkimSignatures rawHeaders).find? (verifies rsa dns bodyHash rawHeaders))
      (checkDkim rsa dns bodyHash rawHeaders) := by
  unfold checkDkim
  split
  · next hsigs =>
    rw [hsigs]
    nofun
  · exact reports_checkDkimFrom rsa _ []

/-- Every entry of the cache is what the resolver answers. -/
def CacheAgrees (dns : DnsView) (cache : DnsCache) : Prop := ∀ e ∈ cache, e.2 = dns.txt e.1

theorem cacheAgrees_nil : CacheAgrees dns [] := nofun

variable {cache : DnsCache}

theorem getTxtAsync_eq (h : CacheAgrees dns cache) (key : Bytes) :
    (getTxtAsync dns cache key).1 = dns.txt key ∧ CacheAgrees dns
    (getTxtAsync dns cache key).2 := by
  unfold getTxtAsync
  split
  · next e he =>
    have hkey : e.1 = key := by simpa using find?_some he
    exact ⟨hkey ▸ h e (mem_of_find?_eq_some he), h⟩
  · refine ⟨rfl, ?_⟩
    intro e he
    rcases mem_cons.mp he with rfl | he
    · rfl
    · exact h e he

theorem reports_checkDkimAsyncFrom (h : CacheAgrees dns cache) (sigs : List DkimSignature)
    (reason : Bytes) :
    Reports (sigs.find? (verifies rsa dns bodyHash rawHeaders))
        (checkDkimAsyncFrom rsa dns bodyHash rawHeaders sigs cache reason).1 ∧
      CacheAgrees dns (checkDkimAsyncFrom rsa dns bodyHash rawHeaders sigs cache reason).2 := by
  induction sigs generalizing cache reason with
  | nil => exact ⟨reports_noneValid reason, h⟩
  | cons sig sigs ih =>
    unfold checkDkimAsyncFrom
    by_cases halg : sig.algorithm = bytes "rsa-sha256"
    · rw [if_neg (not_not.mpr halg)]
      obtain ⟨hrecs, hc⟩ := getTxtAsync_eq h (keyDomain sig)
      cases hbody : bodyHash sig.bodyCanon with
      | error e =>
        rw [find?_cons_of_neg (by simp [verifies, verifyDkimSignature, hbody, Except.toBool])]
        exact ih h _
      | ok computedBh =>
        -- from here on the key is the one the synchronous check gets
        dsimp only
        rw [hrecs]
        by_cases hkey : extractDkimPubkey (dns.txt (keyDomain sig)) = []
        · rw [if_pos hkey, find?_cons_of_neg (by
            simp [verifies, verifyDkimSignature, hbody, verifyDkimSignatureImpl, hkey,
              Except.toBool])]
          exact ih hc reason
        · rw [if_neg hkey]
          have hsame : verifyDkimSignature rsa dns bodyHash rawHeaders sig =
              verifyDkimWithPubkey rsa sig rawHeaders computedBh
                (extractDkimPubkey (dns.txt (keyDomain sig))) := by
            simp [verifyDkimSignature, hbody, verifyDkimSignatureImpl, hkey]
          cases hsig : verifyDkimWithPubkey rsa sig rawHeaders computedBh
              (extractDkimPubkey (dns.txt (keyDomain sig))) with
          | ok u =>
            rw [find?_cons_of_pos (by simp [verifies, halg, hsame, hsig, Except.toBool])]
            exact ⟨⟨rfl, rfl⟩, hc⟩
          | error e =>
            rw [find?_cons_of_neg (by simp [verifies, hsame, hsig, Except.toBool])]
            exact ih hc reason
    · rw [if_pos halg, find?_cons_of_neg (by simp [verifies, halg])]
      exact ih h reason

/-- **The asynchronous check reports the first signature that verifies.** -/
theorem reports_checkDkimAsync (h : CacheAgrees dns cache) :
    Reports ((parseDkimSignatures rawHeaders).find? (verifies rsa dns bodyHash rawHeaders))
        (checkDkimAsync rsa dns cache bodyHash rawHeaders).1 ∧
      CacheAgrees dns (checkDkimAsync rsa dns cache bodyHash rawHeaders).2 := by
  unfold checkDkimAsync
  split
  · next hsigs =>
    rw [hsigs]
    exact ⟨nofun, h⟩
  · exact reports_checkDkimAsyncFrom rsa h _ []

/-! ## The verdict -/

theorem Reports.pass_aligned_iff {found : Option DkimSignature} {r : DkimResult}
    (h : Reports found r)
    (fromDomain : Bytes) : (r.result = .pass ∧ isAligned r.signingDomain fromDomain) ↔
      ∃ sig, found = some sig ∧ isAligned sig.domain fromDomain := by
  cases found with
  | none =>
    constructor
    · intro hr
      exact absurd hr.1 h
    · nofun
  | some sig =>
    obtain ⟨hpass, hdom⟩ := h
    simp [hpass, hdom]

/-- The DMARC step sees of a DKIM result only the signature it reports. -/
theorem dmarcOf_congr {found : Option DkimSignature} {r r' : DkimResult} (h : Reports found r)
    (h' : Reports found r') (fromDomain : Bytes) (spf : SpfResult) (mailFromDomain : Bytes)
    (txtRecords : List Bytes) : dmarcOf fromDomain spf r mailFromDomain txtRecords =
      dmarcOf fromDomain spf r' mailFromDomain txtRecords := by
  unfold dmarcOf
  simp only [h.pass_aligned_iff, h'.pass_aligned_iff]

theorem dmarcOf_result_iff {txtRecords : List Bytes}
    (h : ∃ rec ∈ txtRecords, isDmarcRecord rec = true)
    (fromDomain : Bytes) (spf : SpfResult) (dkim : DkimResult) (mailFromDomain : Bytes) :
    (dmarcOf fromDomain spf dkim mailFromDomain txtRecords).result = .pass ↔
      (spf.result = .pass ∧ isAligned mailFromDomain fromDomain) ∨
        (dkim.result = .pass ∧ isAligned dkim.signingDomain fromDomain) := by
  obtain ⟨rec, hrec⟩ := Option.isSome_iff_exists.mp (find?_isSome.mpr h)
  unfold dmarcOf
  rw [hrec]
  dsimp only
  split
  · next hok => exact iff_of_true rfl hok
  · next hok =>
    refine iff_of_false ?_ hok
    -- the policy decides between two results that are not a pass
    split
    · nofun
    · split
      · nofun
      · nofun

end

section

variable (sha256 : Bytes → Bytes) (rsa : Bytes → Bytes → Bytes → Except Bytes Unit)
  (config : InboundConfig) (dns : DnsView) (cache : DnsCache) (mailFrom rawHeaders : Bytes)
  (body : InboundBody) (spf : SpfResult)

/-- The message has one From field, and its domain publishes a DMARC record. -/
structure Published : Prop where
  oneFrom : ∃ value, getHeaderValues rawHeaders (bytes "from") = [value]
  domain : extractFromHeaderDomain rawHeaders ≠ []
  record : ∃ rec ∈ dns.txt (dmarcDomain (extractFromHeaderDomain rawHeaders)),
    isDmarcRecord rec = true

/-- The signature lists From in its `h=` tag. -/
def ListsFrom (sig : DkimSignature) : Prop :=
  ∃ name ∈ sig.signedHeaders, toLower name = bytes "from"

/-- SPF passed, for an aligned domain. -/
def SpfAuthenticated : Prop :=
  spf.result = .pass ∧ Aligned (extractDomain mailFrom) (extractFromHeaderDomain rawHeaders)

/-- The signature verifies, covers the From field, and is of an aligned domain. -/
structure Authenticates (sig : DkimSignature) : Prop where
  verifies : verifies rsa dns (bodyHashFor sha256 body) rawHeaders sig = true
  listsFrom : ListsFrom sig
  aligned : Aligned sig.domain (extractFromHeaderDomain rawHeaders)

/-- What DMARC asks for. -/
def Authenticated : Prop :=
  SpfAuthenticated mailFrom rawHeaders spf ∨
    ∃ sig ∈ parseDkimSignatures rawHeaders, Authenticates sha256 rsa dns rawHeaders body sig

def firstVerifying : Option DkimSignature :=
  (parseDkimSignatures rawHeaders).find? (verifies rsa dns (bodyHashFor sha256 body) rawHeaders)

/-- A signature authenticates the message, but the first one that verifies is of another domain. -/
def Masked : Prop :=
  ∃ first, firstVerifying sha256 rsa dns rawHeaders body = some first ∧
    ¬Aligned first.domain (extractFromHeaderDomain rawHeaders) ∧
    ∃ sig ∈ parseDkimSignatures rawHeaders, Authenticates sha256 rsa dns rawHeaders body sig

/-- The first signature that verifies is of an aligned domain, but none with such a domain covers
the From field. -/
def Uncovered : Prop :=
  ∃ first, firstVerifying sha256 rsa dns rawHeaders body = some first ∧
    Aligned first.domain (extractFromHeaderDomain rawHeaders) ∧
    ¬∃ sig ∈ parseDkimSignatures rawHeaders, Authenticates sha256 rsa dns rawHeaders body sig

/-- The DMARC verdict is right, and it is the same on both paths. -/
def DmarcExact : Prop :=
  ((verifyAll sha256 rsa config dns mailFrom rawHeaders body spf).dmarc.result = .pass ↔
      Authenticated sha256 rsa dns mailFrom rawHeaders body spf) ∧
    (verifyAllAsync sha256 rsa config dns cache mailFrom rawHeaders body spf).1.dmarc =
      (verifyAll sha256 rsa config dns mailFrom rawHeaders body spf).dmarc

variable {sha256 rsa config dns cache mailFrom rawHeaders body spf}

theorem reports_sync (hraw : rawHeaders.getLast? ≠ some 13) :
    Reports (firstVerifying sha256 rsa dns rawHeaders body)
      (checkDkim rsa dns (bodyHashFor sha256 body) (syncHeaders rawHeaders body)) := by
  have hlines := headerLines_syncHeaders hraw body
  unfold firstVerifying
  rw [← verifies_congr rsa hlines, ← parseDkimSignatures_congr hlines]
  exact reports_checkDkim rsa

section

variable (hdkim : config.inboundDkimMode ≠ bytes "off")

include hdkim

section

variable (hdmarc : config.inboundDmarcMode ≠ bytes "off")
  (hdom : extractFromHeaderDomain rawHeaders ≠ [])

include hdmarc hdom

theorem dmarc_verifyAll :
    (verifyAll sha256 rsa config dns mailFrom rawHeaders body spf).dmarc =
      { dmarcOf (extractFromHeaderDomain rawHeaders) spf
          (checkDkim rsa dns (bodyHashFor sha256 body) (syncHeaders rawHeaders body))
          (extractDomain mailFrom)
          (dns.txt (dmarcDomain (extractFromHeaderDomain rawHeaders))) with
        headerFromDomain := extractFromHeaderDomain rawHeaders } := by
  simp only [verifyAll, if_pos hdkim, if_pos hdmarc, checkDmarc, if_neg hdom]

theorem dmarc_verifyAllAsync (hc : CacheAgrees dns cache) :
    (verifyAllAsync sha256 rsa config dns cache mailFrom rawHeaders body spf).1.dmarc =
      { dmarcOf (extractFromHeaderDomain rawHeaders) spf
          (checkDkimAsync rsa dns cache (bodyHashFor sha256 body) rawHeaders).1
          (extractDomain mailFrom)
          (dns.txt (dmarcDomain (extractFromHeaderDomain rawHeaders))) with
        headerFromDomain := extractFromHeaderDomain rawHeaders } := by
  have hcache' :
    CacheAgrees dns (checkDkimAsync rsa dns cache (bodyHashFor sha256 body) rawHeaders).2 :=
    (reports_checkDkimAsync rsa hc).2
  simp only [verifyAllAsync, if_pos hdkim, if_pos hdmarc, checkDmarcAsync, if_neg hdom,
    (getTxtAsync_eq hcache' _).1]

/-- The two paths give the same DMARC result. -/
theorem dmarc_async_eq (hc : CacheAgrees dns cache) (hraw : rawHeaders.getLast? ≠ some 13) :
    (verifyAllAsync sha256 rsa config dns cache mailFrom rawHeaders body spf).1.dmarc =
      (verifyAll sha256 rsa config dns mailFrom rawHeaders body spf).dmarc := by
  rw [dmarc_verifyAll hdkim hdmarc hdom, dmarc_verifyAllAsync hdkim hdmarc hdom hc,
    dmarcOf_congr (reports_checkDkimAsync rsa hc).1 (reports_sync hraw)]

end

/-- The verdict is that of the first signature that verifies. -/
theorem dmarc_pass_iff (hdmarc : config.inboundDmarcMode ≠ bytes "off")
    (hfrom : Published dns rawHeaders) (hraw : rawHeaders.getLast? ≠ some 13) :
    (verifyAll sha256 rsa config dns mailFrom rawHeaders body spf).dmarc.result = .pass ↔
      SpfAuthenticated mailFrom rawHeaders spf ∨
        ∃ first, firstVerifying sha256 rsa dns rawHeaders body = some first ∧
          Aligned first.domain (extractFromHeaderDomain rawHeaders) := by
  have hlower := toLower_extractFromHeaderDomain rawHeaders
  rw [dmarc_verifyAll hdkim hdmarc hfrom.domain]
  rw [dmarcOf_result_iff hfrom.record, (reports_sync hraw).pass_aligned_iff,
    isAligned_iff (toLower_extractDomain mailFrom) hlower]
  refine or_congr_right (exists_congr fun first => and_congr_right fun hfst => ?_)
  exact isAligned_iff (toLower_domain (mem_of_find?_eq_some hfst)) hlower

end

end

/-! ## Two messages -/

/-- A zone in which `a.org` asks to reject and every key is the same. -/
def sampleDns : DnsView where
  txt name :=
    if name = bytes "_dmarc.a.org" then [bytes "v=DMARC1; p=reject"] else [bytes "k=rsa; p=YWJj"]
  host _ := []
  mx _ := []

def sampleRsa (key _data sig : Bytes) : Except Bytes Unit :=
  if key = sig then .ok () else .error (bytes "DKIM signature verification failed")

/-- A message from `a.org` with a signature of that domain. -/
def signedHeaders : Bytes :=
  bytes "DKIM-Signature: a=rsa-sha256; d=a.org; s=k; h=from; b=YWJj\r\nFrom: u@a.org\r\n\r\n"

/-- The same message behind a mailing list that signs it as well. -/
def relayedHeaders : Bytes :=
  bytes "DKIM-Signature: a=rsa-sha256; d=list.net; s=k; h=from; b=YWJj\r\n" ++ signedHeaders

def checksOn : InboundConfig :=
  { inboundDkimMode := bytes "monitor", inboundDmarcMode := bytes "monitor" }

theorem published_signedHeaders : Published sampleDns signedHeaders where
  oneFrom := ⟨bytes "u@a.org", by decide⟩
  domain := by decide
  record := by decide

theorem published_relayedHeaders : Published sampleDns relayedHeaders where
  oneFrom := ⟨bytes "u@a.org", by decide⟩
  domain := by decide
  record := by decide

def sampleSignature : DkimSignature :=
  dkimSignature (bytes "a=rsa-sha256; d=a.org; s=k; h=from; b=YWJj")

theorem authenticates_sampleSignature {rawHeaders : Bytes}
    (hverifies : verifies sampleRsa sampleDns (bodyHashFor (fun _ => []) (.memory [])) rawHeaders
      sampleSignature = true) (hdom : extractFromHeaderDomain rawHeaders = bytes "a.org") :
    Authenticates (fun _ => []) sampleRsa sampleDns rawHeaders (.memory []) sampleSignature where
  verifies := hverifies
  listsFrom := ⟨bytes "from", by decide, by decide⟩
  aligned := by
    rw [hdom]
    exact (isAligned_iff (by decide) (by decide)).mp (by decide)

end InboundVerifier

end ProtoRelay
