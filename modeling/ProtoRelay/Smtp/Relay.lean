import ProtoRelay.Smtp.Directory
import ProtoRelay.Smtp.Identity
import ProtoRelay.Smtp.TrustedNetworks

/-!
# No open relay

A client that is neither authenticated nor in a trusted network reaches local accounts only.  What
it names with RCPT TO is checked for the local domain and then looked up, and what ends up in the
recipient list is the account that was found, or the targets of an alias.  The domain of an alias
target is not checked: a target is an account in use, whatever its address.

Lookups that fail find nothing.  The caches hold only what the database has answered at some time,
so a cached answer was true once.
-/

namespace ProtoRelay

open List AccountPolicy

/-- An address in a served domain led to the recipient: it is that address and an account in use, or
a target of an alias with that address, in one of the states `past` of the directory. -/
def Resolved (Serves : Bytes → Prop) (past : List Directory) (x : Bytes) : Prop :=
  ∃ r, Serves (toLower (domainAfterLastAt r)) ∧
    ∃ d ∈ past, x = r ∧ d.Active r ∨ x ∈ d.aliasTargets r

namespace Session

/-- The recipients of a mail in the report satisfy `J`. -/
def SubmittedTo (J : Bytes → Prop) : SmtpsReport → Prop
  | .submitted m => ∀ x ∈ m.recipients, J x
  | _ => True

/-- The recipient a lookup is for satisfies `L`, and no client may relay. -/
def Asks (L : Bytes → Prop) : Pending → Prop
  | .userExists r => L r
  | .recipientAlias r => L r
  | .submissionAlias _ => False
  | _ => True

/-- Recipients, in the envelope and in the mail, satisfy `J`, and lookups are for addresses that
satisfy `L`. -/
structure Core.Holds (J L : Bytes → Prop) (k : Core) : Prop where
  recipients : ∀ x ∈ k.envelope.recipientAddresses, J x
  mail : ∀ m, k.mail = some m → ∀ x ∈ m.2, J x
  question : ∀ p, k.pending = some p → Asks L p

/-- The recipients of the mails submitted satisfy `J` as well. -/
structure Core.Accepts (J L : Bytes → Prop) (k : Core) : Prop extends Core.Holds J L k where
  reports : k.Reports (SubmittedTo J)

namespace Core

variable {J L : Bytes → Prop} {k : Core}

section

variable (h : k.Holds J L)

include h

theorem Holds.report (rs : List SmtpsReport) : (k.report rs).Holds J L := { h with }

theorem Holds.await {p : Pending} (hp : Asks L p) : (k.await p).Holds J L :=
  { h with question := by rintro _ ⟨⟩; exact hp }

theorem Holds.post (closed : Bool) (t : Task SmtpsState SmtpsReport) :
    (k.post closed t).Holds J L := by
  cases closed with
  | true => exact h
  | false => exact { h with }

theorem Holds.pushTargets (targets : List Bytes) (ht : ∀ t ∈ targets, J t) :
    (k.pushTargets targets).Holds J L where
  recipients x hx := by
    rcases mem_pushRecipientDeduped.mp hx with hmem | hmem
    · exact h.recipients x hmem
    · exact ht x hmem
  mail := h.mail
  question := h.question

theorem Holds.reset : k.reset.Holds J L := ⟨fun _ hx => absurd hx not_mem_nil, nofun, h.question⟩

theorem Holds.discard : k.discard.Holds J L := by
  unfold Core.discard
  split
  · exact h.reset
  · exact h

theorem Holds.createMail (opened : Bool) : (k.createMail opened).Holds J L :=
  { h with mail := by rintro _ ⟨⟩; exact h.recipients }

end

end Core

variable {env : SmtpEnv} {cfg : ServerConfig} {J L : Bytes → Prop}

/-! ## Acts -/

variable {closed : Bool} {k k' : Core} {s : Session}

theorem MailFromAct.holds {sender : Bytes} (hact : MailFromAct sender closed k k')
    (h : k.Holds J L) : k'.Holds J L := by
  cases hact with
  | quota | spf => exact h.await trivial
  | refuse | accept => exact h.post _ _

theorem MessageAct.holds (hact : MessageAct closed k k') (h : k.Holds J L) : k'.Holds J L := by
  cases hact with
  | reject => exact h.discard.post _ _
  | await p hp =>
    refine h.await ?_
    rcases hp with rfl | rfl | ⟨u, rfl⟩ <;> trivial
  | boundary runs =>
    refine (h.report _).await ?_
    cases runs <;> trivial

/-- A command of a client that may not relay asks for local addresses only. -/
theorem CommandAct.holds {o : Oracle} {e : SmtpsEvent} (hact : CommandAct env cfg o s e k)
    (h : s.core.Holds J L) (hauth : s.ctx.isAuthenticated = false)
    (htrust : ipInTrustedNetworks env.clientIp cfg.trustedRelayNetworks = false)
    (hloc : ∀ r, RelayChecked env cfg s r → L r)
    (hcache : ∀ r, RelayChecked env cfg s r → o.cachedStatus = some 1 → J r) : k.Holds J L := by
  cases hact with
  | startAuth account hname => exact { h.await (p := .auth account) trivial with }
  | mailFrom sender k hk =>
    exact hk.holds ⟨fun x hx => absurd hx not_mem_nil, h.mail, h.question⟩
  | takeRecipient recipient hr =>
    rcases hr with hr | hr
    · rw [hauth] at hr
      cases hr
    · rw [htrust] at hr
      cases hr
  | submissionAlias recipient hr =>
    rw [hauth] at hr
    cases hr
  | lookUp recipient p hr hp =>
    refine { h.await ?_ with }
    rcases hp with rfl | rfl <;> exact hloc recipient hr
  | cachedRecipient recipient hr hcached =>
    have hknown := hcache recipient hr hcached
    exact { h.pushTargets [recipient] (by simpa using hknown) with }
  | data opened hmail => exact { h.createMail opened with }
  | dataEndRefused v =>
    have hend : (s.core.report [.dataEnd v]).arm.Holds J L := { h with }
    exact hend.discard.post _ _
  | dataEnd v k hwriter hk => exact hk.holds { h with }
  | _ => exact { h with }

/-- The answers of lookups that name recipients. -/
def AnswersWith (J : Bytes → Prop) : Pending → Input → Prop
  | .userExists r, .userExistsDone true => J r
  | .recipientAlias _, .aliasDone targets => ∀ t ∈ targets, J t
  | _, _ => True

theorem AnswerAct.holds {p : Pending} {i : Input} (hact : AnswerAct env s p i k)
    (h : s.core.Holds J L) (hp : Asks L p) (hans : AnswersWith J p i) : k.Holds J L := by
  cases hact with
  | authFailed account shard lastAttempt hopen => exact (h.report _).post _ _
  | mailFrom sender k hp hk | message k hp hk => exact hk.holds h
  | noAlias recipient hopen => exact hp.elim
  | aliasTargets recipient targets hp' htargets hopen =>
    rcases hp' with rfl | rfl
    · exact hp.elim
    · exact { h.pushTargets _ hans with }
  | userFound recipient hopen =>
    have hr : J recipient := hans
    exact { h.pushTargets [recipient] (by simpa using hr) with }
  | userMissing recipient hopen => exact h.await hp
  | verified dkim dmarc spf => exact h.await trivial
  | submitted m accepted k hmail hq hk =>
    rcases hk with rfl | rfl
    · exact (h.report _).reset.post _ _
    · refine ⟨h.recipients, fun m' hm' => h.mail m' ?_, by rintro _ ⟨⟩; trivial⟩
      split at hm'
      · cases hm'
      · exact hmail.trans hm'
  | persisted hopen => exact { h.reset with }
  | _ => exact { h with }

/-! ## Steps -/

/-- Authentication is for good. -/
theorem isAuthenticated_step (env : SmtpEnv) (h : s.ctx.isAuthenticated = true)
    (i : ServerConfig × Input) : (step env s i).ctx.isAuthenticated = true := by
  change (step env s i).core.envelope.isAuthenticated = true
  rcases step_identity env s i with hcalm | ⟨account, args, -, -, hk | hk⟩ | ⟨account, -, hk⟩
  · exact hcalm.isAuthenticated.trans h
  · rw [hk]
    exact h
  · rw [hk]
    exact h
  · rw [hk]
    rfl

/-- Only the mail of the session is submitted. -/
theorem Core.Accepts.reports_step (h : s.core.Accepts J L) (i : ServerConfig × Input) :
    (step env s i).core.Reports (SubmittedTo J) := by
  have hreported (r : SmtpsReport) (hr : SubmittedTo J r) :
      ∀ r' ∈ r :: s.core.view.reported, SubmittedTo J r' :=
    forall_mem_cons.mpr ⟨hr, h.reports.reported⟩
  rcases step_identity env s i with hcalm | ⟨account, args, -, -, hk | hk⟩ | ⟨account, -, hk⟩
  · refine Core.Reports.of_calm hcalm h.reports fun r hr => ?_
    cases r with
    | submitted m => exact h.mail (mailEnvelope m) hr
    | _ => trivial
  · rw [hk]
    exact ⟨hreported (.dispatched .auth args) trivial, h.reports.waiting⟩
  · rw [hk]
    exact ⟨hreported (.dispatched .auth args) trivial, h.reports.waiting⟩
  · rw [hk]
    exact ⟨hreported (.authResult account true) trivial,
      forall_mem_append.mpr ⟨h.reports.waiting, by simp [settleReports]⟩⟩

/-- **A step of a client that may not relay keeps the recipients as they should be**, provided that
the answers it gets are of that kind. -/
theorem accepts_step (h : s.core.Accepts J L) (hauth : s.ctx.isAuthenticated = false)
    {i : ServerConfig × Input}
    (htrust : ipInTrustedNetworks env.clientIp i.1.trustedRelayNetworks = false)
    (hloc : ∀ r, toLower (domainAfterLastAt r) = toLower i.1.systemDomain → L r)
    (hcache : ∀ o s₁ r, i.2 = .consume o → s.foundInput o = some s₁ →
      RelayChecked env i.1 s₁ r → o.cachedStatus = some 1 → J r)
    (hans : ∀ p, s.pending = some p → AnswersWith J p i.2) : (step env s i).core.Accepts J L := by
  refine ⟨?_, h.reports_step i⟩
  have hm := step_coreMove env s i
  generalize (step env s i).core = k at hm
  obtain ⟨cfg, i⟩ := i
  cases hm with
  | command o s₁ k hfound hpa hopen hact =>
    have hcore := core_foundInput hfound
    have hauth₁ : s₁.ctx.isAuthenticated = false :=
      (congrArg (fun k : Core => k.envelope.isAuthenticated) hcore).trans hauth
    have h₁ : s₁.core.Holds J L := by
      rw [hcore]
      exact { h.toHolds with }
    exact hact.holds h₁ hauth₁ htrust (fun r hr => hloc r hr.isLocal)
      fun r hr hcached => hcache o s₁ r rfl hfound hr hcached
  | threw o s₁ hfound hpa hopen hdata hmail =>
    rw [core_foundInput hfound]
    exact { h.toHolds.createMail false with }
  | answered p k hpend hact =>
    exact hact.holds ⟨h.recipients, h.mail, nofun⟩ (h.question p hpend) (hans p hpend)
  | _ => exact { h.toHolds with }

theorem Core.Accepts.mono {J' : Bytes → Prop} (h : k.Accepts J L) (hJ : ∀ x, J x → J' x) :
    k.Accepts J' L := by
  have hrep : ∀ r, SubmittedTo J r → SubmittedTo J' r := by
    intro r hr
    cases r with
    | submitted m => exact fun x hx => hJ x (hr x hx)
    | _ => trivial
  exact ⟨⟨fun x hx => hJ x (h.recipients x hx), fun m hm x hx => hJ x (h.mail m hm x hx),
    h.question⟩,
    fun r hr => hrep r (h.reports.reported r hr), fun t ht r hr =>
      hrep r (h.reports.waiting t ht r hr)⟩

theorem Core.Fresh.accepts (h : k.Fresh) : k.Accepts J L where
  reports := by
    refine ⟨fun r hr => ?_, by simp [h.settles]⟩
    obtain ⟨e, args, rfl⟩ := h.reported r hr
    trivial
  recipients := by simp [h.recipients]
  mail := by simp [h.mail]
  question := by simp [h.pending]

end Session

/-! ## The caches -/

/-- What the caches hold, the directory has said at some time. -/
structure Caches.Honest (past : List Directory) (c : Caches) : Prop where
  recipients : ∀ a, c.recipients a = some 1 → ∃ d ∈ past, d.Active a
  aliases : ∀ a ts, c.aliases a = some ts → ∀ t ∈ ts, ∃ d ∈ past, t ∈ d.aliasTargets a

namespace Caches.Honest

variable {past : List Directory} {c : Caches}

theorem setRecipient (h : c.Honest past) (a : Bytes) {n : Option Nat}
    (hn : n = some 1 → ∃ d ∈ past, d.Active a) :
    ({ c with recipients := Function.update c.recipients a n } : Caches).Honest past := by
  refine ⟨fun b hb => ?_, h.aliases⟩
  dsimp only at hb
  by_cases hba : b = a
  · subst hba
    rw [Function.update_self] at hb
    exact hn hb
  · rw [Function.update_of_ne hba] at hb
    exact h.recipients b hb

theorem setAlias (h : c.Honest past) (a : Bytes) {ts : Option (List Bytes)}
    (hts : ∀ t ∈ ts.getD [], ∃ d ∈ past, t ∈ d.aliasTargets a) :
    ({ c with aliases := Function.update c.aliases a ts } : Caches).Honest past := by
  refine ⟨h.recipients, fun b ts' hb => ?_⟩
  dsimp only at hb
  by_cases hba : b = a
  · subst hba
    rw [Function.update_self] at hb
    rw [hb] at hts
    exact hts
  · rw [Function.update_of_ne hba] at hb
    exact h.aliases b ts' hb

theorem mono {past' : List Directory} (h : c.Honest past) (hp : ∀ d ∈ past, d ∈ past') :
    c.Honest past' where
  recipients a ha := by
    obtain ⟨d, hd, hactive⟩ := h.recipients a ha
    exact ⟨d, hp d hd, hactive⟩
  aliases a ts ha t ht := by
    obtain ⟨d, hd, hmem⟩ := h.aliases a ts ha t ht
    exact ⟨d, hp d hd, hmem⟩

end Caches.Honest

namespace AccountPolicy

variable {past : List Directory} {c : Caches} {d : Directory}

section

variable (h : c.Honest past) (hd : d ∈ past) (a : Bytes) (outcome : DbOutcome)

include h hd a outcome

/-- **An account is reported only if the directory had it in use**; in particular no failed lookup
reports one. -/
theorem userExists_honest :
    ((userExists c a (d.recipientLookup outcome a)).1 = true → ∃ d ∈ past, d.Active a) ∧
      (userExists c a (d.recipientLookup outcome a)).2.Honest past := by
  unfold userExists
  cases hc : c.recipients a with
  | some n =>
    refine ⟨fun hn => h.recipients a ?_, h⟩
    rw [hc]
    simpa using hn
  | none =>
    -- storing a status is honest if an account is stored as in use only when it is
    have hstore : ∀ n : Nat, (n = 1 → d.Active a) →
        ((n == 1) = true → ∃ d ∈ past, d.Active a) ∧
          { c with recipients := Function.update c.recipients a (some n) }.Honest past := by
      intro n hn
      refine ⟨fun h1 => ⟨d, hd, hn (by simpa using h1)⟩, h.setRecipient a fun h1 => ?_⟩
      exact ⟨d, hd, hn (Option.some.inj h1)⟩
    cases outcome with
    | unavailable => exact ⟨nofun, h⟩
    | failed => exact hstore 0 (by simp)
    | answered =>
      cases hs : d.status a with
      | none =>
        simp only [Directory.recipientLookup, hs]
        exact hstore 0 (by simp)
      | some n =>
        simp only [Directory.recipientLookup, hs]
        refine hstore n.toNat fun h1 => ?_
        rw [Directory.Active, hs]
        exact congrArg some (UInt8.toNat_inj.mp h1)

/-- **Alias targets are reported only if the directory had them**, and none by a failed lookup. -/
theorem aliasTargets_honest :
    (∀ t ∈ (aliasTargets c a (d.aliasLookup outcome a)).1, ∃ d ∈ past, t ∈ d.aliasTargets a) ∧
      (aliasTargets c a (d.aliasLookup outcome a)).2.Honest past := by
  unfold aliasTargets
  cases hc : c.aliases a with
  | some ts => exact ⟨h.aliases a ts hc, h⟩
  | none =>
    cases hl : d.aliasLookup outcome a with
    | none => exact ⟨fun t ht => absurd ht not_mem_nil, h⟩
    | some ts =>
      have hts : ∀ t ∈ ts, ∃ d ∈ past, t ∈ d.aliasTargets a := by
        unfold Directory.aliasLookup at hl
        split at hl
        · obtain rfl := Option.some.inj hl
          exact fun t ht => ⟨d, hd, ht⟩
        · cases hl
      exact ⟨hts, h.setAlias a hts⟩

end

end AccountPolicy

/-! ## Worlds -/

namespace World

open Session (Input quiesce exchange twoAccounts exampleConfig exampleListener)

/-- The world of a session that begins: the caches hold what the directory has said. -/
structure IsStart (env : SmtpEnv) (w : World) : Prop where
  session : Session.IsStart env w.session
  directory : w.directory ∈ w.past
  caches : w.caches.Honest w.past

/-- As long as the client is not authenticated, its recipients are resolved. -/
structure Guarded (Serves : Bytes → Prop) (w : World) : Prop where
  directory : w.directory ∈ w.past
  caches : w.caches.Honest w.past
  session : w.session.ctx.isAuthenticated = false →
    w.session.core.Accepts (Resolved Serves w.past) fun r => Serves (toLower (domainAfterLastAt r))

/-- The client is in no trusted network, and the system domain is one of those served. -/
def Untrusted (env : SmtpEnv) (Serves : Bytes → Prop) (e : ServerConfig × Event) : Prop :=
  ipInTrustedNetworks env.clientIp e.1.trustedRelayNetworks = false ∧
    Serves (toLower e.1.systemDomain)

variable {env : SmtpEnv} {Serves : Bytes → Prop} {w : World}

/-- An input of the session whose answers are honest. -/
theorem Guarded.input (h : w.Guarded Serves) {e : ServerConfig × Event}
    (he : Untrusted env Serves e) {i : Input} {caches : Caches} (hc : caches.Honest w.past)
    (hcache : ∀ o s₁ r, i = .consume o → w.session.foundInput o = some s₁ →
      Session.RelayChecked env e.1 s₁ r → o.cachedStatus = some 1 → Resolved Serves w.past r)
    (hans : ∀ p, w.session.pending = some p →
      Session.Asks (fun r => Serves (toLower (domainAfterLastAt r))) p →
      Session.AnswersWith (Resolved Serves w.past) p i) :
    ({ w with session := w.session.step env (e.1, i), caches } : World).Guarded Serves where
  directory := h.directory
  caches := hc
  session := by
    intro hunauth
    have hauth : w.session.ctx.isAuthenticated = false := by
      by_contra hyes
      have hstep := Session.isAuthenticated_step env (by simpa using hyes) (e.1, i)
      rw [hunauth] at hstep
      cases hstep
    have hacc := h.session hauth
    refine Session.accepts_step hacc hauth he.1 ?_ hcache fun p hp =>
      hans p hp (hacc.question p hp)
    intro r hr
    rw [hr]
    exact he.2

/-- The recipient of the next command, if the cache has it as an account in use. -/
theorem Guarded.cached (h : w.Guarded Serves) {cfg : ServerConfig}
    (hcfg : Serves (toLower cfg.systemDomain)) {o : Oracle} {status : Option Nat} {s₁ : Session}
    (hfound : w.session.foundInput { o with cachedStatus := status } = some s₁) {r : Bytes}
    (hr : Session.RelayChecked env cfg s₁ r) (hcached : w.cachedStatus o = some 1) :
    Resolved Serves w.past r := by
  obtain ⟨s₀, hpar, rfl⟩ := Option.map_eq_some_iff.mp hfound
  -- parsing does not look at the recipient cache
  change w.session.parsedInput o = some s₀ at hpar
  have hstatus : w.caches.recipients r = some 1 := by
    have hnamed : (betweenAngles s₀.lastCommandArgs).map trim = some r := hr.named
    rw [cachedStatus, hpar, Option.bind_some, hnamed] at hcached
    exact hcached
  obtain ⟨d, hd, hactive⟩ := h.caches.recipients r hstatus
  refine ⟨r, ?_, d, hd, .inl ⟨rfl, hactive⟩⟩
  rw [hr.isLocal]
  exact hcfg

/-- **A step keeps the recipients resolved.** -/
theorem Guarded.step (h : w.Guarded Serves) {e : ServerConfig × Event}
    (he : Untrusted env Serves e) : (w.step env e).Guarded Serves := by
  obtain ⟨cfg, event⟩ := e
  -- a cached status counts only with a command, an answer only with its question
  have hquiet : ∀ i : Input, (∀ o, i ≠ .consume o) → (∀ b, i ≠ .userExistsDone b) →
      (∀ ts, i ≠ .aliasDone ts) →
      { w with session := w.session.step env (cfg, i) }.Guarded Serves := by
    intro i hconsume huser halias
    refine h.input he h.caches (fun o _ _ hi => absurd hi (hconsume o)) fun p _ _ => ?_
    unfold Session.AnswersWith
    split
    · exact absurd rfl (huser true)
    · exact absurd rfl (halias _)
    · trivial
  cases event with
  | input i =>
    cases i with
    | consume o =>
      refine h.input he h.caches ?_ fun p _ _ => by cases p <;> trivial
      intro o' s₁ r ho' hfound hr hcached
      obtain rfl := Input.consume.inj ho'
      exact h.cached he.2 hfound hr hcached
    | userExistsDone | aliasDone => exact h
    | _ => exact hquiet _ nofun nofun nofun
  | userExists outcome =>
    simp only [World.step]
    split
    case h_1 recipient hpend =>
      have hhonest := userExists_honest h.caches h.directory recipient outcome
      refine h.input he hhonest.2 (fun _ _ _ hi => nomatch hi) fun p hp hasks => ?_
      rw [hpend] at hp
      obtain rfl := Option.some.inj hp
      cases hfound : (w.askUserExists recipient outcome).1 with
      | false => trivial
      | true =>
        obtain ⟨d, hd, hactive⟩ := hhonest.1 hfound
        exact ⟨recipient, hasks, d, hd, .inl ⟨rfl, hactive⟩⟩
    case h_2 => exact h
  | aliasTargets outcome =>
    simp only [World.step]
    split
    case h_1 recipient hpend =>
      have hhonest := aliasTargets_honest h.caches h.directory recipient outcome
      refine h.input he hhonest.2 (fun _ _ _ hi => nomatch hi) fun p hp hasks => ?_
      rw [hpend] at hp
      obtain rfl := Option.some.inj hp
      exact hasks.elim
    case h_2 recipient hpend =>
      have hhonest := aliasTargets_honest h.caches h.directory recipient outcome
      refine h.input he hhonest.2 (fun _ _ _ hi => nomatch hi) fun p hp hasks => ?_
      rw [hpend] at hp
      obtain rfl := Option.some.inj hp
      intro t ht
      obtain ⟨d, hd, hmem⟩ := hhonest.1 t ht
      exact ⟨recipient, hasks, d, hd, .inr hmem⟩
    case h_3 => exact h
  | fromAliasTargets address outcome =>
    simp only [World.step]
    split
    case h_1 u hpend =>
      have hhonest := aliasTargets_honest h.caches h.directory address outcome
      refine h.input he hhonest.2 (fun _ _ _ hi => nomatch hi) fun p hp _ => ?_
      rw [hpend] at hp
      obtain rfl := Option.some.inj hp
      trivial
    case h_2 => exact h
  | otherUserExists address outcome =>
    exact { h with caches := (userExists_honest h.caches h.directory address outcome).2 }
  | otherAliasTargets address outcome =>
    exact ⟨h.directory, (aliasTargets_honest h.caches h.directory address outcome).2, h.session⟩
  | update directory =>
    have hpast : ∀ d ∈ w.past, d ∈ directory :: w.past := fun d => mem_cons_of_mem directory
    refine ⟨mem_cons_self, h.caches.mono hpast, fun hauth => (h.session hauth).mono ?_⟩
    rintro x ⟨r, hserves, d, hd, hx⟩
    exact ⟨r, hserves, d, hpast d hd, hx⟩
  | expireRecipient address => exact { h with caches := h.caches.setRecipient address nofun }
  | expireAlias address =>
    refine ⟨h.directory, h.caches.setAlias address fun t ht => ?_, h.session⟩
    exact absurd ht not_mem_nil

theorem IsStart.guarded (h : w.IsStart env) : w.Guarded Serves :=
  ⟨h.directory, h.caches, fun _ => h.session.fresh.accepts⟩

/-- **All recipients of submitted mails are resolved**, as long as the client is not
authenticated. -/
theorem resolved_of_submitted (h : w.IsStart env) {es : List (ServerConfig × Event)}
    (hes : ∀ e ∈ es, Untrusted env Serves e)
    (hauth : (run (step env) w es).session.ctx.isAuthenticated = false) {m : Mail}
    (hm : .submitted m ∈ (run (step env) w es).session.io.view.reported) :
    ∀ x ∈ m.recipients, Resolved Serves (run (step env) w es).past x := by
  have hsteps : StepsMeet (step env) (fun _ e => Untrusted env Serves e) w es :=
    stepsMeet_of_forall fun _ => hes
  have hguarded := run_invariant_of_stepsMeet (World.Guarded Serves)
    (fun _ _ hw he => hw.step he) h.guarded hsteps
  exact (hguarded.session hauth).reports.reported _ hm

/-- The domains served in a run, in lower case. -/
def servedIn (es : List (ServerConfig × Event)) (domain : Bytes) : Prop :=
  ∃ e ∈ es, domain = toLower e.1.systemDomain

/-- **No open relay.**  In a run of a client that is not authenticated and that no configuration
trusts, every recipient of a submitted mail is an account in use with an address in a served domain,
or a target of an alias with such an address.  And a trusted client is one whose address is itself
an entry, or is in a network that a well formed entry denotes. -/
theorem no_open_relay (h : w.IsStart env) {es : List (ServerConfig × Event)}
    (htrust : ∀ e ∈ es, ipInTrustedNetworks env.clientIp e.1.trustedRelayNetworks = false)
    (hauth : (run (step env) w es).session.ctx.isAuthenticated = false) :
    (∀ m, .submitted m ∈ (run (step env) w es).session.io.view.reported →
      ∀ x ∈ m.recipients, Resolved (servedIn es) (run (step env) w es).past x) ∧
    ∀ ip networks, 0 ∉ ip → (∀ entry ∈ networks, 0 ∉ entry) →
      (ipInTrustedNetworks ip networks = true ↔
        ip ≠ [] ∧ ∃ entry ∈ networks, entry = ip ∨ InCidr ip entry) := by
  refine ⟨fun m hm => ?_, fun ip networks hip hn => ipInTrustedNetworks_iff hip hn⟩
  exact resolved_of_submitted h (fun e he => ⟨htrust e he, e, he, rfl⟩) hauth hm

/-! ### A delivery -/

def exampleWorld (users : List (Bytes × UInt8)) (aliases : List AliasRow) : World where
  session := Session.start twoAccounts exampleConfig exampleListener
  directory := { key := toLower, users, aliases }
  past := [{ key := toLower, users, aliases }]
  caches := ⟨fun _ => none, fun _ => none⟩

theorem exampleWorld_isStart (users : List (Bytes × UInt8)) (aliases : List AliasRow) :
    (exampleWorld users aliases).IsStart twoAccounts where
  session := .inl ⟨exampleConfig, exampleListener, rfl⟩
  directory := mem_cons_self
  caches := ⟨nofun, nofun⟩

/-- A mail to one recipient, whose lookups are answered as given. -/
def deliveryTo (recipient : String) (lookups : List Event) : List (ServerConfig × Event) :=
  ((quiesce ++ exchange {} (bytes "EHLO client\r\n") ++
        exchange {} (bytes "MAIL FROM:<ann@remote.org>\r\n") ++
        exchange {} (bytes "RCPT TO:<" ++ bytes recipient ++ bytes ">\r\n")).map Event.input ++
          lookups ++
      (quiesce ++ exchange { openWrite := .opened (bytes "body") } (bytes "DATA\r\n") ++
        exchange {} (bytes "Subject: hi\r\n\r\nhi\r\n.\r\n") ++
        [Input.commitDone .committed, .openReadDone false, .submitDone true,
          .persistDone .success] ++
        quiesce).map Event.input).map (exampleConfig, ·)

def submittedTo (w : World) : List (List Bytes) :=
  w.session.io.view.reported.filterMap fun
    | .submitted m => some m.recipients
    | _ => none

theorem exists_submitted {x : Bytes} (h : w.submittedTo = [[x]]) :
    ∃ m, .submitted m ∈ w.session.io.view.reported ∧ x ∈ m.recipients := by
  have hmem : [x] ∈ w.submittedTo := by
    rw [h]
    exact mem_cons_self
  obtain ⟨r, hr, hrs⟩ := mem_filterMap.mp hmem
  cases r with
  | submitted m =>
    refine ⟨m, hr, ?_⟩
    rw [Option.some.inj hrs]
    exact mem_cons_self
  | _ => cases hrs

theorem deliveryTo_untrusted (recipient : String) (lookups : List Event) :
    ∀ e ∈ deliveryTo recipient lookups,
      ipInTrustedNetworks twoAccounts.clientIp e.1.trustedRelayNetworks = false := by
  intro e he
  obtain ⟨i, -, rfl⟩ := mem_map.mp he
  rfl

def bobsWorld : World := exampleWorld [(bytes "bob@example.com", 1)] []

def mailToBob : List (ServerConfig × Event) := deliveryTo "Bob@EXAMPLE.com" [.userExists .answered]

theorem submittedTo_mailToBob :
    (run (step twoAccounts) bobsWorld mailToBob).submittedTo = [[bytes "Bob@EXAMPLE.com"]] := by
  decide +kernel

theorem resolved_mailToBob :
    Resolved (servedIn mailToBob) (run (step twoAccounts) bobsWorld mailToBob).past
      (bytes "Bob@EXAMPLE.com") := by
  have hauth : (run (step twoAccounts) bobsWorld mailToBob).session.ctx.isAuthenticated =
      false := by
    decide +kernel
  have hstart : bobsWorld.IsStart twoAccounts := exampleWorld_isStart _ _
  have htrust : ∀ e ∈ mailToBob, ipInTrustedNetworks twoAccounts.clientIp e.1.trustedRelayNetworks =
    false :=
    deliveryTo_untrusted _ _
  obtain ⟨m, hm, hx⟩ := exists_submitted submittedTo_mailToBob
  exact (no_open_relay hstart htrust hauth).1 m hm _ hx

/-! ### An alias of an account elsewhere, and an entry that is no network -/

def aliasWorld : World :=
  exampleWorld [(bytes "eve@partner.org", 1)]
    [⟨bytes "team@example.com", bytes "eve@partner.org", true⟩]

def mailToTeam : List (ServerConfig × Event) :=
  deliveryTo "team@example.com" [.userExists .answered, .aliasTargets .answered]

theorem submittedTo_mailToTeam :
    (run (step twoAccounts) aliasWorld mailToTeam).submittedTo = [[bytes "eve@partner.org"]] := by
  decide +kernel

/-- The target of an alias need not have a served domain, and an address that is an entry is trusted
although the entry denotes no network. -/
theorem not_only_local_domains :
    (¬ ∀ (env : SmtpEnv) (w : World) (es : List (ServerConfig × Event)), w.IsStart env →
      (∀ e ∈ es, ipInTrustedNetworks env.clientIp e.1.trustedRelayNetworks = false) →
      (run (step env) w es).session.ctx.isAuthenticated = false →
      ∀ m, .submitted m ∈ (run (step env) w es).session.io.view.reported →
        ∀ x ∈ m.recipients, servedIn es (toLower (domainAfterLastAt x))) ∧
    ¬ ∀ ip networks, ipInTrustedNetworks ip networks = true ↔
      ∃ entry ∈ networks, InCidr ip entry := by
  constructor
  · intro hall
    have hauth : (run (step twoAccounts) aliasWorld mailToTeam).session.ctx.isAuthenticated =
        false := by decide +kernel
    obtain ⟨m, hm, hx⟩ := exists_submitted submittedTo_mailToTeam
    obtain ⟨e, he, hdom⟩ := hall twoAccounts aliasWorld mailToTeam
      (exampleWorld_isStart _ _) (deliveryTo_untrusted _ _) hauth m hm _ hx
    obtain ⟨i, -, rfl⟩ := mem_map.mp he
    have hne : toLower (domainAfterLastAt (bytes "eve@partner.org")) ≠
        toLower exampleConfig.systemDomain := by decide
    exact hne hdom
  · intro hall
    obtain ⟨entry, hent, base, len, n, b, a, heq, -⟩ :=
      (hall (bytes "::1") [bytes "::1"]).mp (by decide)
    -- a network has a slash in it
    have hslash : 47 ∈ bytes "::1" := by
      rw [← mem_singleton.mp hent, heq]
      simp
    revert hslash
    decide

end World

end ProtoRelay
