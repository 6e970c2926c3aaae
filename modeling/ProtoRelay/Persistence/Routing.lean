import ProtoRelay.Persistence.Transaction
import ProtoRelay.Smtp.Handlers

/-!
# Where accepted recipients go

A recipient is accepted as local or as remote by the text behind its last `@`; the repository looks
behind the first one.  This module says which accepted recipients a committed operation routes once,
and the way they were accepted.
-/

namespace ProtoRelay

/-! ## Acceptance -/

/-- The ways a recipient address is accepted. -/
inductive Acceptance
  /-- RCPT TO of an authenticated client -/
  | authenticated
  /-- RCPT TO of a client that may not relay -/
  | unauthenticated
  /-- RCPT TO of a client in a trusted network -/
  | trusted
  /-- the submission service -/
  | submission
  /-- a target of an alias that was accepted -/
  | aliasTarget
  deriving DecidableEq

namespace Acceptance

def accepts (cfg : ServerConfig) (recipient : Bytes) : Acceptance → Bool
  | .authenticated =>
    !recipient.isEmpty &&
      AccountPolicy.recipientAllowed recipient cfg.systemDomain cfg.externalDeliveryEnabled
  | .unauthenticated =>
    !recipient.isEmpty && toLower (domainAfterLastAt recipient) == toLower cfg.systemDomain &&
      !(trim (localPartBeforeLastAt recipient)).isEmpty
  | .trusted => !recipient.isEmpty
  | .submission =>
    AccountPolicy.recipientAllowed recipient cfg.systemDomain cfg.externalDeliveryEnabled
  | .aliasTarget => true

/-- Whether the address is taken as a local one; nothing is said about those a client in a trusted
network gives and those the alias table holds. -/
def verdict (cfg : ServerConfig) (recipient : Bytes) : Acceptance → Option Bool
  | .authenticated =>
    some (toLower (trim (domainAfterLastAt recipient)) == toLower cfg.systemDomain)
  | .unauthenticated => some true
  | .trusted | .aliasTarget => none
  | .submission =>
    some ((rfindByte 64 recipient).isSome &&
      toLower (domainAfterLastAt recipient) == toLower cfg.systemDomain)

/-- How RCPT TO of a client is handled. -/
def ofClient (env : SmtpEnv) (cfg : ServerConfig) (s : Session) : Acceptance :=
  if s.ctx.isAuthenticated then .authenticated
  else if ipInTrustedNetworks env.clientIp cfg.trustedRelayNetworks then .trusted
  else .unauthenticated

end Acceptance

/-- **RCPT TO refuses what is not accepted.** -/
theorem Session.accepts_of_rcptTo {env : SmtpEnv} {cfg : ServerConfig} {s : Session} {o : Oracle}
    {recipient : Bytes} (hargs : (betweenAngles s.lastCommandArgs).map trim = some recipient)
    (htaken : ∀ text, s.handleWaitRcptToRcptTo env cfg o ≠ s.rejectRcpt text) :
    (Acceptance.ofClient env cfg s).accepts cfg recipient = true := by
  unfold handleWaitRcptToRcptTo at htaken
  rw [hargs] at htaken
  dsimp only at htaken
  have hne : recipient.isEmpty = false := by
    by_contra hempty
    rw [Bool.not_eq_false] at hempty
    exact htaken _ (if_pos hempty)
  unfold Acceptance.ofClient
  rw [hne, if_neg Bool.false_ne_true] at htaken
  split at htaken
  · next hauth =>
    rw [if_pos hauth]
    unfold rcptToAuthenticated at htaken
    split at htaken
    · exact absurd rfl (htaken _)
    · next hallowed => simpa [Acceptance.accepts, hne] using hallowed
  · next hauth =>
    rw [if_neg hauth]
    unfold rcptToUnauthenticated at htaken
    split at htaken
    · next htrusted => simp [Acceptance.accepts, htrusted, hne]
    · next htrusted =>
      split at htaken
      · exact absurd rfl (htaken _)
      · next hdom =>
        split at htaken
        · exact absurd rfl (htaken _)
        · next hloc => simp_all [Acceptance.accepts]

/-! ## Routing -/

/-- `set_local_domain`: an empty domain leaves the default. -/
def queueLocalDomain (cfg : ServerConfig) : Bytes :=
  if cfg.systemDomain = [] then bytes "example.com" else cfg.systemDomain

/-- Among the rows there is a mailbox relation or an outbox row for the recipient, not both; and the
relation exactly if the verdict was that it is local. -/
def Routed (verdict : Option Bool) (rows : List DbRow) (recipient : Bytes) : Prop :=
  (.mailbox recipient ∈ rows ↔ .outbox recipient ∉ rows) ∧
    ∀ isLocal ∈ verdict, .mailbox recipient ∈ rows ↔ isLocal = true

section

variable {m : StoredMail} {options : PersistenceOptions} {r : PersistenceResult}
  {log : List DbEvent} {recipient : Bytes}

theorem Committed.outbox_mem_iff (h : Committed m options r log) (hmem : recipient ∈ m.recipients) :
    .outbox recipient ∈ (observe log).durable ↔ options.isRemote recipient = true := by
  have hiff : .outbox recipient ∈ (observe log).durable ↔
      recipient ∈ remoteRecipients m options := by
    rw [← h.outbox, List.mem_filterMap]
    constructor
    · exact fun hrow => ⟨_, hrow, rfl⟩
    · rintro ⟨row, hrow, heq⟩
      cases row with
      | outbox x =>
        cases heq
        exact hrow
      | mailbox x => cases heq
  rw [hiff, remoteRecipients, List.mem_filter]
  exact ⟨And.right, fun hrem => ⟨hmem, hrem⟩⟩

theorem PersistenceOptions.isLocal_eq (options : PersistenceOptions)
    (hne : domainAfterFirstAt recipient ≠ []) : options.isLocal recipient =
      (domainAfterFirstAt recipient == toLower options.localDomain) := by
  have he : (domainAfterFirstAt recipient).isEmpty = false := by simpa using hne
  rw [isLocal, he, Bool.not_false, Bool.true_and]

theorem PersistenceOptions.isRemote_eq (options : PersistenceOptions)
    (hne : domainAfterFirstAt recipient ≠ []) :
    options.isRemote recipient = !options.isLocal recipient := by
  have he : (domainAfterFirstAt recipient).isEmpty = false := by simpa using hne
  rw [options.isLocal_eq hne, isRemote, he, Bool.not_false, Bool.true_and, bne]

/-- A committed operation routes a recipient if and only if it has a domain behind its first `@`,
which is the local one exactly if it was accepted so, and the mailbox relation of a local recipient
could be created. -/
theorem Committed.routes_iff (h : Committed m options r log) (hmem : recipient ∈ m.recipients)
    (verdict : Option Bool) : Routed verdict (observe log).durable recipient ↔
      domainAfterFirstAt recipient ≠ [] ∧
        (∀ isLocal ∈ verdict, options.isLocal recipient = isLocal) ∧
        (options.isLocal recipient = true → .mailbox recipient .created ∈ log) := by
  have hcreated : .mailbox recipient .created ∈ log → options.isLocal recipient = true :=
    fun hlog => (h.inserted.only recipient _ hlog).2
  unfold Routed
  rw [h.mailboxes, h.outbox_mem_iff hmem]
  by_cases hne : domainAfterFirstAt recipient = []
  · -- without a domain the recipient is neither local nor remote
    have hloc : options.isLocal recipient = false := by
      simp [PersistenceOptions.isLocal, hne]
    have hrem : options.isRemote recipient = false := by
      simp [PersistenceOptions.isRemote, hne]
    have hnone : .mailbox recipient .created ∉ log := fun hlog => by
      rw [hloc] at hcreated
      cases hcreated hlog
    simp [hne, hrem, hnone]
  · rw [options.isRemote_eq hne]
    cases hloc : options.isLocal recipient with
    | true =>
      simp only [Bool.not_true, Bool.false_eq_true, not_false_eq_true, iff_true, ne_eq, hne,
        forall_const, true_and]
      constructor
      · rintro ⟨hlog, hverd⟩
        exact ⟨fun v hv => ((hverd v hv).mp hlog).symm, hlog⟩
      · rintro ⟨hverd, hlog⟩
        exact ⟨hlog, fun v hv => ⟨fun _ => (hverd v hv).symm, fun _ => hlog⟩⟩
    | false =>
      have hnone : .mailbox recipient .created ∉ log := fun hlog => by
        rw [hloc] at hcreated
        cases hcreated hlog
      simp only [hnone, false_iff, Bool.not_false, not_true_eq_false, not_false_eq_true, iff_self,
        Bool.not_eq_true, ne_eq, hne, true_and, Bool.false_eq_true, false_implies, and_true]
      exact ⟨fun hverd v hv => (hverd v hv).symm, fun hverd v hv => (hverd v hv).symm⟩

section

variable {cfg : ServerConfig} {router : Option ShardRouter} {events : List PrimaryOperation.Event}
  (hmem : recipient ∈ m.recipients) (hdom : options.localDomain = queueLocalDomain cfg)
  (hrep : (r, log) ∈ (persistAsync router ⟨some m, options⟩ events).completed)
  (hcomm : r.disposition = .committed)

include hmem hdom hrep hcomm

theorem routed_iff_of_committed (verdict : Option Bool) :
    Routed verdict (observe log).durable recipient ↔
      domainAfterFirstAt recipient ≠ [] ∧
        (∀ isLocal ∈ verdict,
          (domainAfterFirstAt recipient == toLower (queueLocalDomain cfg)) = isLocal) ∧
        (domainAfterFirstAt recipient = toLower (queueLocalDomain cfg) →
          .mailbox recipient .created ∈ log) := by
  have hpromise := (persistAsync_reported router ⟨some m, options⟩ events).2.2.2 r log hrep
  have hcommit : Committed m options r log := by
    simpa only [Reported, hcomm] using hpromise
  rw [hcommit.routes_iff hmem]
  refine and_congr_right fun hne => ?_
  rw [options.isLocal_eq hne, hdom, beq_iff_eq]

/-- **What RCPT TO has taken** was accepted, and is routed under the same condition. -/
theorem Session.routed_iff_of_rcptTo {env : SmtpEnv} {s : Session} {o : Oracle}
    (hargs : (betweenAngles s.lastCommandArgs).map trim = some recipient)
    (htaken : ∀ text, s.handleWaitRcptToRcptTo env cfg o ≠ s.rejectRcpt text) :
    let acceptance := Acceptance.ofClient env cfg s
    acceptance.accepts cfg recipient = true ∧
      (Routed (acceptance.verdict cfg recipient) (observe log).durable recipient ↔
        domainAfterFirstAt recipient ≠ [] ∧
          (∀ isLocal ∈ acceptance.verdict cfg recipient,
            (domainAfterFirstAt recipient == toLower (queueLocalDomain cfg)) = isLocal) ∧
          (domainAfterFirstAt recipient = toLower (queueLocalDomain cfg) →
            .mailbox recipient .created ∈ log)) :=
  ⟨accepts_of_rcptTo hargs htaken, routed_iff_of_committed hmem hdom hrep hcomm _⟩

end

end

/-- A router with one shard, whose database can be reached. -/
def oneShard : ShardRouter where
  route _ := .ok 0
  getDbPool _ := .ok (some (.ok true))

/-- A mail of an authenticated client to these recipients. -/
def mailTo (recipients : List Bytes) : StoredMail where
  sender := bytes "alice@example.com"
  recipients := recipients
  subject := bytes "s"
  id := 1
  ids := List.range recipients.length

/-- Every call succeeds; `n` outbox rows are inserted. -/
def allSucceed (n : Nat) : List PrimaryOperation.Event :=
  let ok : PrimaryOperation.Event := .answer 0 { ok := true } fun _ => .created
  let inserted : PrimaryOperation.Event :=
    .answer 0 { ok := true, rows := some [[(bytes "id", bytes "7")]] } fun _ => .created
  [ok, ok, ok] ++ (List.replicate n [ok, inserted]).flatten ++ [ok]

/-- The domain is configured in upper case. -/
def shoutedConfig : ServerConfig where
  systemDomain := bytes "EXAMPLE.COM"

/-- A mail to a local and to a remote recipient is committed. -/
def localAndRemote : PrimaryOperation :=
  persistAsync (some oneShard) ⟨some (mailTo [bytes "bob@example.com", bytes "eve@elsewhere.org"]),
      { localDomain := bytes "EXAMPLE.COM" }⟩ (allSucceed 1)

end ProtoRelay
