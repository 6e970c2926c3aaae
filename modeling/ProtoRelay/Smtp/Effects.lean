import ProtoRelay.Smtp.Steps

/-!
# What handlers do to identity and envelope

The handlers of the SMTP machine and the continuations of their asynchronous work differ in the
replies they write and the conditions they check.  Seen from the identity of the client, the
envelope of the mail and the discipline of transitions, they do one of a few things.
`CommandAct` lists what a command can do and `AnswerAct` what the answer of an operation can do,
as functions on the session's core, with the conditions under which they do it.  Every handler
and every continuation is shown to be one of them, once; invariants of the core are then proved
over the lists.
-/

namespace ProtoRelay

open SessionBase

namespace Session

/-! ## Operations on cores -/

namespace Core

variable (k : Core)

/-- The session is in state `st` and consumes input; `rs` is reported. -/
def goto (st : SmtpsState) (rs : List SmtpsReport) : Core :=
  { k with
    view := { k.view with state := st, paused := false, reported := rs.reverse ++ k.view.reported }
      }

def report (rs : List SmtpsReport) : Core :=
  { k with view := { k.view with reported := rs.reverse ++ k.view.reported } }

def arm : Core := { k with view := { k.view with paused := true } }

def await (p : Pending) : Core := { k with pending := some p }

/-- The task waits to be settled, unless the session is closed. -/
def post (closed : Bool) (t : Task SmtpsState SmtpsReport) : Core :=
  if closed then k else { k with view := { k.view with settles := k.view.settles ++ [t] } }

def finish (closed : Bool) (st : SmtpsState) (reply : Bytes) (rs : List SmtpsReport) : Core :=
  k.post closed (.settle (some st) (some reply) rs)

def finishClosing (closed : Bool) (st : SmtpsState) : Core :=
  k.post closed (.settleClosing (some st))

def withUser (username : Bytes) : Core :=
  { k with envelope := { k.envelope with clientUsername := username } }

def authenticated : Core :=
  { k with envelope := { k.envelope with isAuthenticated := true } }

def openEnvelope (sender : Bytes) : Core :=
  { k with envelope := { k.envelope with senderAddress := sender, recipientAddresses := [] } }

def pushRecipient (recipient : Bytes) : Core :=
  { k with
    envelope :=
      { k.envelope with recipientAddresses := k.envelope.recipientAddresses ++ [recipient] } }

def pushTargets (targets : List Bytes) : Core :=
  { k with
    envelope := { k.envelope with
      recipientAddresses := pushRecipientDeduped k.envelope.recipientAddresses targets } }

/-- A mail with the envelope of the session; `opened` says whether its body stream could be
opened. -/
def createMail (opened : Bool) : Core :=
  { k with
    mail := some (k.envelope.senderAddress, k.envelope.recipientAddresses)
    hasWriter := k.hasWriter || opened }

/-- `reset_mail_state`. -/
def reset : Core :=
  { k with
    mail := none
    hasWriter := false
    envelope := { k.envelope with senderAddress := [], recipientAddresses := [] } }

/-- `discard_current_mail`. -/
def discard : Core := if k.mail.isSome then k.reset else k

end Core

/-- The recipient list gains exactly the targets. -/
theorem mem_pushRecipientDeduped {recipients targets : List Bytes} {x : Bytes} :
    x ∈ pushRecipientDeduped recipients targets ↔ x ∈ recipients ∨ x ∈ targets := by
  induction targets generalizing recipients with
  | nil => simp [pushRecipientDeduped]
  | cons t ts ih =>
    have hstep : pushRecipientDeduped recipients (t :: ts) =
        pushRecipientDeduped (if recipients.contains t then recipients else recipients ++ [t]) ts :=
      rfl
    rw [hstep, ih]
    by_cases ht : t ∈ recipients
    · have hc : recipients.contains t = true := by simpa using ht
      rw [if_pos hc, List.mem_cons]
      constructor
      · rintro (h | h)
        · exact .inl h
        · exact .inr (.inr h)
      · rintro (h | rfl | h)
        · exact .inl h
        · exact .inl ht
        · exact .inr h
    · have hc : ¬recipients.contains t = true := by simpa using ht
      rw [if_neg hc, List.mem_append, List.mem_singleton, List.mem_cons, or_assoc]

/-! ## The acts -/

def inEnvelope : SmtpsState → Bool
  | .waitRcptTo | .waitData | .inMessage => true
  | _ => false

section Acts

variable (env : SmtpEnv) (cfg : ServerConfig)

/-- The account an AUTH line with both name and password in its argument names. -/
def plainAccount (token : Bytes) : Option Bytes :=
  (plainUsername (base64Decode env.decodeBlock token)).map (qualifyUsername cfg.systemDomain)

/-- The account AUTH names in its argument. -/
def mechanismAccount (args : Bytes) : Option Bytes :=
  if (bytes "PLAIN").isPrefixOf (toUpper args) ∧ (args.drop 6).isEmpty = false then
    plainAccount env cfg (args.drop 6)
  else none

/-- The account a line of an AUTH exchange names: the credentials of AUTH PLAIN, the user name of
AUTH LOGIN as the client gives it, and with the password the same name with its domain. -/
def namedAccount (s : Session) : Option Bytes :=
  match s.io.state with
  | .waitAuthUsername => some (base64Decode env.decodeBlock s.lastCommandArgs)
  | .waitAuthPassword => some (qualifyUsername cfg.systemDomain s.ctx.clientUsername)
  | .waitAuth =>
    if s.ctx.plainAuthExpected then
      (plainAccount env cfg s.lastCommandArgs).or (mechanismAccount env cfg s.lastCommandArgs)
    else mechanismAccount env cfg s.lastCommandArgs
  | _ => none

/-- The client is not allowed to relay, and the recipient it names has the local domain. -/
structure RelayChecked (s : Session) (recipient : Bytes) : Prop where
  named : (betweenAngles s.lastCommandArgs).map trim = some recipient
  unauthenticated : s.ctx.isAuthenticated = false
  untrusted : ipInTrustedNetworks env.clientIp cfg.trustedRelayNetworks = false
  isLocal : toLower (domainAfterLastAt recipient) = toLower cfg.systemDomain

/-- How MAIL FROM goes on once the envelope is open. -/
inductive MailFromAct (sender : Bytes) (closed : Bool) (k : Core) : Core → Prop
  | quota (limited needSpf : Bool) (spfMode : Bytes) :
      MailFromAct sender closed k (k.await (.quota limited needSpf sender spfMode))
  | spf (spfMode : Bytes) : MailFromAct sender closed k (k.await (.spf sender spfMode))
  | refuse (reply : Bytes) : MailFromAct sender closed k (k.finish closed .waitAuth reply [])
  | accept : MailFromAct sender closed k
    (k.finish closed .waitRcptTo (bytes "250 Ok") [.mailFrom sender])

/-- How the handling of a finished message goes on. -/
inductive MessageAct (closed : Bool) (k : Core) : Core → Prop
  | reject : MessageAct closed k (k.discard.finishClosing closed .waitQuit)
  | await (p : Pending) (hp : p = .commit ∨ p = .openRead ∨ ∃ u, p = .fromAlias u) :
      MessageAct closed k (k.await p)
  | boundary (runs : Bool) : MessageAct closed k
        ((k.report [.verification runs]).await (if runs then .verify else .submit))

/-- What the handler of a command does to the core of the session `s` that it finds. -/
inductive CommandAct (o : Oracle) (s : Session) : SmtpsEvent → Core → Prop
  | skip {e : SmtpsEvent} (he : e ≠ .auth) : CommandAct o s e s.core
  /-- AUTH is answered so if it names no account -/
  | goto {e : SmtpsEvent} (st : SmtpsState) (he : e = .auth → namedAccount env cfg s = none)
      (hst : st = s.io.state ∨ inEnvelope st = false) : CommandAct o s e (s.core.goto st [])
  | nameUser (username : Bytes) (hname : namedAccount env cfg s = some username) :
      CommandAct o s .auth ((s.core.withUser username).goto .waitAuthPassword [])
  /-- the password check starts -/
  | startAuth (account : Bytes) (hname : namedAccount env cfg s = some account) :
      CommandAct o s .auth ((s.core.withUser account).arm.await (.auth account))
  | mailFrom (sender : Bytes) (k : Core)
      (hk : MailFromAct sender false (s.core.openEnvelope sender).arm k) :
      CommandAct o s .mailFrom k
  /-- a recipient of a client that may relay is taken as it is -/
  | takeRecipient (recipient : Bytes) (h : s.ctx.isAuthenticated = true ∨
        ipInTrustedNetworks env.clientIp cfg.trustedRelayNetworks = true) : CommandAct o s .rcptTo
        ((s.core.pushRecipient recipient).goto .waitRcptTo [.rcptTo [recipient]])
  | submissionAlias (recipient : Bytes) (h : s.ctx.isAuthenticated = true) :
      CommandAct o s .rcptTo (s.core.arm.await (.submissionAlias recipient))
  | lookUp (recipient : Bytes) (p : Pending) (h : RelayChecked env cfg s recipient)
      (hp : p = .userExists recipient ∨ p = .recipientAlias recipient) :
      CommandAct o s .rcptTo (s.core.arm.await p)
  /-- the recipient cache knows the account -/
  | cachedRecipient (recipient : Bytes) (h : RelayChecked env cfg s recipient)
      (hcached : o.cachedStatus = some 1) : CommandAct o s .rcptTo
        ((s.core.arm.pushTargets [recipient]).finish false .waitRcptTo (bytes "250 Ok")
          [.rcptTo [recipient]])
  | data (opened : Bool) (hmail : s.mail = none) (hstate : s.io.state ≠ .inMessage) :
      CommandAct o s .data ((s.core.createMail opened).goto .inMessage [])
  /-- an earlier DATA has left its mail behind -/
  | dataAgain (hmail : s.mail.isSome) (hstate : s.io.state ≠ .inMessage) :
      CommandAct o s .data (s.core.goto .inMessage [])
  | tooLarge (v : DataEndView) : CommandAct o s .dataEnd
      ((s.core.report [.dataEnd v]).goto .waitQuit [])
  | dataEndRefused (v : DataEndView) : CommandAct o s .dataEnd
        (((s.core.report [.dataEnd v]).arm).discard.finishClosing false .waitQuit)
  | dataEnd (v : DataEndView) (k : Core) (hwriter : s.mail = none ∨ s.bodyWriter.isSome)
      (hk : MessageAct false (s.core.report [.dataEnd v]).arm k) : CommandAct o s .dataEnd k

/-- What the continuation of a pending operation does to the core of the session `s`, in which
nothing is pending any more. -/
inductive AnswerAct (s : Session) : Pending → Input → Core → Prop
  /-- the session has been closed in the meantime -/
  | dropped {p : Pending} {i : Input} (hclosed : s.io.closed = true) : AnswerAct s p i s.core
  | authOk (account : Bytes) (shard : Nat) (hopen : s.io.closed = false) :
      AnswerAct s (.auth account) (.authDone true shard)
        ((s.core.report [.authResult account true]).authenticated.finish false .waitMailFrom
          (bytes "235 Authentication successful") [])
  /-- after too many attempts the connection is closed without a reply -/
  | authFailed (account : Bytes) (shard : Nat) (lastAttempt : Bool) (hopen : s.io.closed = false) :
      AnswerAct s (.auth account) (.authDone false shard)
        ((s.core.report [.authResult account false]).finish lastAttempt .waitAuth
          (bytes "535 Authentication failed") [])
  | mailFrom {p : Pending} {i : Input} (sender : Bytes) (k : Core)
      (hp : (∃ limited needSpf spfMode, p = .quota limited needSpf sender spfMode) ∨
        ∃ spfMode, p = .spf sender spfMode) (hk : MailFromAct sender s.io.closed s.core k) :
          AnswerAct s p i k
  | noAlias (recipient : Bytes) (hopen : s.io.closed = false) :
      AnswerAct s (.submissionAlias recipient) (.aliasDone [])
        ((s.core.pushRecipient recipient).finish false .waitRcptTo (bytes "250 Ok")
          [.rcptTo [recipient]])
  | aliasTargets {p : Pending} (recipient : Bytes) (targets : List Bytes)
      (hp : p = .submissionAlias recipient ∨ p = .recipientAlias recipient)
      (htargets : targets ≠ []) (hopen : s.io.closed = false) : AnswerAct s p (.aliasDone targets)
        ((s.core.pushTargets targets).finish false .waitRcptTo (bytes "250 Ok") [.rcptTo targets])
  | userFound (recipient : Bytes) (hopen : s.io.closed = false) :
      AnswerAct s (.userExists recipient) (.userExistsDone true)
        ((s.core.pushTargets [recipient]).finish false .waitRcptTo (bytes "250 Ok")
          [.rcptTo [recipient]])
  | userMissing (recipient : Bytes) (hopen : s.io.closed = false) :
      AnswerAct s (.userExists recipient) (.userExistsDone false)
        (s.core.await (.recipientAlias recipient))
  | userUnknown (recipient : Bytes) (hopen : s.io.closed = false) :
      AnswerAct s (.recipientAlias recipient) (.aliasDone [])
        (s.core.finish false .waitRcptTo (bytes "550 5.1.1 User unknown") [])
  | message {p : Pending} {i : Input} (k : Core)
      (hp : p = .commit ∨ p = .openRead ∨ (∃ u, p = .fromAlias u) ∨ p = .submit)
      (hk : MessageAct s.io.closed s.core k)
      (hsubmit : p = .submit →
        k = s.core.discard.finishClosing s.io.closed .waitQuit) : AnswerAct s p i k
  | verified (dkim dmarc spf : Bytes) :
      AnswerAct s .verify (.verifyDone dkim dmarc spf) (s.core.await .submit)
  | submitted (m : Mail) (accepted : Bool) (k : Core) (hmail : s.core.mail = some (mailEnvelope m))
      (hqueue : accepted = true ∨ env.hasQueue = false)
      (hk : k = (s.core.report [.submitted m]).reset.finish s.io.closed .waitMailFrom
            (bytes "250 OK") [.acknowledged] ∨
          k = { s.core.report [.submitted m] with
            mail := if env.hasQueue then none else some (mailEnvelope m)
            pending := some .persist }) :
      AnswerAct s .submit (.submitDone accepted) k
  | persisted (hopen : s.io.closed = false) : AnswerAct s .persist (.persistDone .success)
        (s.core.reset.finish false .waitMailFrom (bytes "250 OK") [.acknowledged])
  | notPersisted (outcome : PersistOutcome) (houtcome : outcome ≠ .success)
      (hopen : s.io.closed = false) :
      AnswerAct s .persist (.persistDone outcome) (s.core.finishClosing false .waitQuit)

end Acts

/-! ## The engine's write points -/

variable {env : SmtpEnv} {cfg : ServerConfig}

variable {s s' : Session} {o : Oracle} {e : SmtpsEvent} {f : Session → Except Session Session}

theorem core_replyThenSettle (h : s.io.closed = false) (text : Bytes) (target : SmtpsState)
    (rs : List SmtpsReport) :
    { s with io := s.io.replyThenSettle text target rs }.core = s.core.goto target rs := by
  simp [core, Core.goto, view_replyThenSettle, h]

theorem core_applyClosing (h : s.io.closed = false) (target : SmtpsState) (payload : Bytes)
    (callback : Option WriteCallback) :
    { s with io := (s.io.applyClosing target).doAsyncWrite payload callback }.core =
      s.core.goto target [] := by
  simp [core, Core.goto, applyClosing, view_settleClosing, h]

theorem core_apply (h : s.io.closed = false) (target : SmtpsState) (reply : Option Bytes)
    (rs : List SmtpsReport) :
    { s with io := s.io.apply target reply rs }.core = s.core.goto target rs := by
  simp [core, Core.goto, apply, view_settle, h]

theorem core_finish (s : Session) (target : SmtpsState) (reply : Bytes) (rs : List SmtpsReport) :
    { s with io := s.io.finish target reply rs }.core =
      s.core.finish s.io.closed target reply rs := by
  simp only [core, Core.finish, Core.post, view_finish]
  split <;> rfl

theorem core_finish_of_open (h : s.io.closed = false) (target : SmtpsState) (reply : Bytes)
    (rs : List SmtpsReport) :
    { s with io := s.io.finish target reply rs }.core = s.core.finish false target reply rs :=
  (core_finish s target reply rs).trans (by rw [h])

theorem core_closeWithReply (s : Session) (text : Bytes) :
    (s.closeWithReply text).core = s.core.finishClosing s.io.closed .waitQuit := by
  simp only [closeWithReply, core, Core.finishClosing, Core.post, view_doAsyncWrite,
    view_finishClosing]
  split <;> rfl

theorem core_rejectAndClose (s : Session) (text : Bytes) :
    (s.rejectAndClose text).core = s.core.discard.finishClosing s.io.closed .waitQuit := by
  rw [rejectAndClose, core_closeWithReply]
  simp only [discardCurrentMail, Core.discard, core, Option.isSome_map]
  split <;> rfl

/-! ## Commands -/

section Commands

variable {s s' : Session} {o : Oracle}

theorem act_proceedMailFrom (env : SmtpEnv) (s : Session) (needSpf : Bool)
    (sender spfMode : Bytes) :
    MailFromAct sender s.io.closed s.core (s.proceedMailFrom env needSpf sender spfMode).core := by
  unfold proceedMailFrom
  split
  · exact .spf spfMode
  · rw [core_finish]
    exact .accept

theorem core_beginAuth (s : Session) (username : Bytes) :
    (s.beginAuth cfg username).core =
    (s.core.withUser (qualifyUsername cfg.systemDomain username)).arm.await
        (.auth (qualifyUsername cfg.systemDomain username)) := rfl

theorem act_handleAuthMechanism (h : s.io.closed = false)
    (hname : namedAccount env cfg s = mechanismAccount env cfg s.lastCommandArgs) :
    CommandAct env cfg o s .auth (s.handleAuthMechanism env cfg).core := by
  unfold mechanismAccount at hname
  unfold handleAuthMechanism
  dsimp only
  split
  · rename_i hpl
    split
    · rename_i htok
      have hcore := core_replyThenSettle
        (s := { s with ctx := { s.ctx with plainAuthExpected := true } }) h
        (bytes "334 ") .waitAuth []
      rw [hcore]
      exact .goto .waitAuth (fun _ => by simpa [hpl, htok] using hname) (.inr rfl)
    · rename_i htok
      rw [if_pos ⟨hpl, by simpa using htok⟩, plainAccount] at hname
      split
      · rename_i username hdec
        rw [core_beginAuth]
        exact .startAuth _ (by simpa [hdec] using hname)
      · rename_i hdec
        rw [handleWaitAuthAuthLogin, core_replyThenSettle h]
        exact .goto .waitAuthUsername (fun _ => by simpa [hdec] using hname) (.inr rfl)
  · rename_i hpl
    rw [handleWaitAuthAuthLogin, core_replyThenSettle h]
    exact .goto .waitAuthUsername (fun _ => by simpa [hpl] using hname) (.inr rfl)

/-- An act does not depend on whether the second step of AUTH PLAIN is expected, except through the
name. -/
theorem CommandAct.of_plainAuthExpected {k : Core} {b : Bool}
    (h : CommandAct env cfg o { s with ctx := { s.ctx with plainAuthExpected := b } } .auth k)
    (hname : namedAccount env cfg { s with ctx := { s.ctx with plainAuthExpected := b } } =
      namedAccount env cfg s) : CommandAct env cfg o s .auth k := by
  cases h with
  | skip he => exact absurd rfl he
  | goto st he hst => exact .goto st (fun _ => hname ▸ he rfl) hst
  | nameUser username hn => exact .nameUser username (hname ▸ hn)
  | startAuth account hn => exact .startAuth account (hname ▸ hn)

section

variable (h : s.io.closed = false)

include h

theorem act_handleWaitAuthAuth (hstate : s.io.state = .waitAuth) :
    CommandAct env cfg o s .auth (s.handleWaitAuthAuth env cfg).core := by
  unfold handleWaitAuthAuth
  split
  · rename_i hexp
    dsimp only
    split
    · rename_i username hdec
      rw [core_beginAuth]
      exact .startAuth _ (by simp [namedAccount, hstate, hexp, plainAccount, hdec])
    · rename_i hdec
      -- the line cannot be decoded as credentials, so it is taken for the start of an exchange
      refine .of_plainAuthExpected (act_handleAuthMechanism h ?_) ?_
      · simp [namedAccount, hstate]
      · simp [namedAccount, hstate, hexp, plainAccount, hdec]
  · rename_i hexp
    exact act_handleAuthMechanism h (by simp [namedAccount, hstate, hexp])

theorem act_handleWaitAuthMailFrom :
    CommandAct env cfg o s .mailFrom (s.handleWaitAuthMailFrom env cfg).core := by
  unfold handleWaitAuthMailFrom
  split
  · rw [core_replyThenSettle h]
    exact .goto .waitAuth (by simp) (.inr rfl)
  · split
    · rw [core_replyThenSettle h]
      exact .goto .waitAuth (by simp) (.inr rfl)
    · split
      · rw [core_replyThenSettle h]
        exact .goto .waitAuth (by simp) (.inr rfl)
      · unfold acceptMailFrom
        extract_lets sender needSpf ctx s₁
        split
        · exact .mailFrom sender _ (.quota _ _ _)
        · refine .mailFrom sender _ ?_
          have hact := act_proceedMailFrom env s₁ needSpf sender cfg.inboundSpfMode
          rwa [show s₁.io.closed = false from h] at hact

theorem act_resolveRecipient {recipient : Bytes} (hrelay : RelayChecked env cfg s recipient) :
    CommandAct env cfg o s .rcptTo
      ({ s with io := s.io.beginTransition }.resolveRecipient o recipient).core := by
  unfold resolveRecipient
  split
  · rename_i hcached
    have hcore := core_finish_of_open
      (s := { s with ctx := Session.pushTargets s.ctx [recipient], io := s.io.beginTransition }) h
      .waitRcptTo (bytes "250 Ok") [.rcptTo [recipient]]
    exact Eq.subst hcore.symm (.cachedRecipient recipient hrelay hcached)
  · exact .lookUp recipient _ hrelay (.inr rfl)
  · exact .lookUp recipient _ hrelay (.inl rfl)

theorem act_handleWaitRcptToRcptTo (hstate : s.io.state = .waitRcptTo) :
    CommandAct env cfg o s .rcptTo (s.handleWaitRcptToRcptTo env cfg o).core := by
  have hreject : ∀ text, CommandAct env cfg o s .rcptTo (s.rejectRcpt text).core := by
    intro text
    rw [rejectRcpt, core_replyThenSettle h]
    exact .goto .waitRcptTo (by simp) (.inl hstate.symm)
  have htake : ∀ recipient, { s with ctx := Session.pushRecipient s.ctx recipient }.core =
      s.core.pushRecipient recipient := fun _ => rfl
  unfold handleWaitRcptToRcptTo
  split
  · exact hreject _
  · rename_i recipient hnamed
    split
    · exact hreject _
    · split
      · rename_i hauth
        unfold rcptToAuthenticated
        dsimp only
        split
        · exact hreject _
        · split
          · exact .submissionAlias _ hauth
          · have hcore := core_replyThenSettle
              (s := { s with ctx := Session.pushRecipient s.ctx recipient }) h (bytes "250 Ok")
              .waitRcptTo [.rcptTo [recipient]]
            rw [hcore]
            exact .takeRecipient _ (.inl hauth)
      · rename_i hauth
        unfold rcptToUnauthenticated
        split
        · rename_i htrusted
          have hcore := core_apply
            (s := { s with ctx := Session.pushRecipient s.ctx recipient }) h .waitRcptTo
            (some (bytes "250 Ok")) [.rcptTo [recipient]]
          rw [hcore]
          exact .takeRecipient _ (.inr htrusted)
        · rename_i htrusted
          split
          · exact hreject _
          · rename_i hloc
            split
            · exact hreject _
            · exact act_resolveRecipient h
                ⟨hnamed, by simpa using hauth, by simpa using htrusted, by simpa using hloc⟩

end

theorem core_createMail_ok {s' : Session} {outcome : OpenWrite}
    (hc : s.createMailOnDataCommand outcome = .ok s') : s'.io = s.io ∧
      (s.mail = none ∧ (∃ opened, s'.core = s.core.createMail opened) ∨
        s.mail.isSome ∧ s'.core = s.core) := by
  unfold createMailOnDataCommand at hc
  split at hc
  · rename_i hmail
    cases hc
    exact ⟨rfl, .inr ⟨hmail, rfl⟩⟩
  · rename_i hmail
    have hnone : s.mail = none := by simpa using hmail
    have hmail' : ∀ m opened w, mailEnvelope m = (s.ctx.senderAddress, s.ctx.recipientAddresses) →
        w.isSome = (s.bodyWriter.isSome || opened) →
        { s with mail := some m, bodyWriter := w }.core = s.core.createMail opened := by
      intro m opened w hm hw
      simp [core, Core.createMail, SmtpsContext.envelope, hm, hw]
    split at hc <;> cases hc
    · exact ⟨rfl, .inl ⟨hnone, true, hmail' _ _ _ rfl (by simp)⟩⟩
    all_goals
      refine ⟨rfl, .inl ⟨hnone, false, ?_⟩⟩
      exact hmail' _ _ _ rfl (by simp)

theorem act_data {s₁ : Session} (h : s.io.closed = false) (hstate : s.io.state ≠ .inMessage)
    (hc : s.createMailOnDataCommand o.openWrite = .ok s₁) (text : Bytes) :
    CommandAct env cfg o s .data
      { s₁ with io := s₁.io.replyThenSettle text .inMessage [] }.core := by
  obtain ⟨hio, ⟨hmail, opened, hcore⟩ | ⟨hmail, hcore⟩⟩ := core_createMail_ok hc
  · rw [core_replyThenSettle (by rw [hio]; exact h), hcore]
    exact .data opened hmail hstate
  · rw [core_replyThenSettle (by rw [hio]; exact h), hcore]
    exact .dataAgain hmail hstate

end Commands

/-! ## The end of a message -/

section Message

variable (env : SmtpEnv) (cfg : ServerConfig) (s : Session)

theorem act_rejectAndClose (text : Bytes) :
    MessageAct s.io.closed s.core (s.rejectAndClose text).core := by
  rw [core_rejectAndClose]
  exact .reject

theorem act_finishAfterSenderBoundary :
    MessageAct s.io.closed s.core (s.finishAfterSenderBoundary env cfg).core := by
  exact .boundary _

theorem act_finishDataEndAfterRead :
    MessageAct s.io.closed s.core (s.finishDataEndAfterRead env cfg).core := by
  unfold finishDataEndAfterRead
  dsimp only
  split
  · exact act_rejectAndClose s _
  · split
    · split
      · exact act_rejectAndClose s _
      · exact .await _ (.inr (.inr ⟨_, rfl⟩))
    · exact act_finishAfterSenderBoundary env cfg s

theorem act_finishDataEndAfterCommit :
    MessageAct s.io.closed s.core (s.finishDataEndAfterCommit env cfg).core := by
  unfold finishDataEndAfterCommit
  split
  · exact .await _ (.inr (.inl rfl))
  · exact act_finishDataEndAfterRead env cfg s

theorem core_commitFailed (retry : Bool) :
    (s.commitFailed retry).core = s.core.discard.finishClosing s.io.closed .waitQuit :=
  core_rejectAndClose { s with ctx := { s.ctx with streamedAttachments := [] } } _

/-- A mail goes on to the checks only with a body stream. -/
theorem act_commitBody :
    (s.commitBody env cfg).core = s.core.discard.finishClosing s.io.closed .waitQuit ∨
      (s.mail = none ∨ s.bodyWriter.isSome) ∧
        MessageAct s.io.closed s.core (s.commitBody env cfg).core := by
  unfold commitBody
  split
  · rename_i hmail
    exact .inr ⟨.inl (by simpa using hmail), act_finishDataEndAfterCommit env cfg s⟩
  · split
    · exact .inl (core_commitFailed s false)
    · rename_i hwriter
      split
      · exact .inl (core_commitFailed s false)
      · exact .inr ⟨.inr (by simp [hwriter]), .await _ (.inl rfl)⟩

end Message

theorem act_handleInMessageDataEnd (h : s.io.closed = false) :
    CommandAct env cfg o s .dataEnd (s.handleInMessageDataEnd env cfg).core := by
  unfold handleInMessageDataEnd
  dsimp only
  split
  · have hcore := core_applyClosing (s := { s with
        io := s.io.reports [.dataEnd s.ctx.dataEndView]
        ctx := { s.ctx with streamedAttachments := [] } }) h .waitQuit
      (if s.ctx.abortReason.isEmpty then bytes "552 Message size exceeds limit\r\n"
        else s.ctx.abortReason ++ bytes "\r\n") (some .close)
    exact Eq.subst hcore.symm (.tooLarge s.ctx.dataEndView)
  · rcases act_commitBody env cfg
      { s with io := (s.io.reports [.dataEnd s.ctx.dataEndView]).beginTransition } with
      hcore | ⟨hwriter, hact⟩
    · refine Eq.subst hcore.symm ?_
      change CommandAct env cfg o s .dataEnd (Core.finishClosing _ s.io.closed _)
      rw [h]
      exact .dataEndRefused s.ctx.dataEndView
    · refine .dataEnd s.ctx.dataEndView _ hwriter ?_
      rw [← h]
      exact hact

/-- **Every handler is one of the command acts.** -/
theorem Handled.act (hf : Handled env cfg o s.io.state e f) (h : s.io.closed = false)
    (he : e ≠ .connect) (hs' : f s = .ok s') : CommandAct env cfg o s e s'.core := by
  generalize hst : s.io.state = st at hf
  cases hf with
  | connect => exact absurd rfl he
  | ehlo =>
    cases hs'
    have hcore := core_replyThenSettle
      h
      (s.ehloReply env cfg) .waitAuth []
    exact Eq.subst hcore.symm (.goto .waitAuth (by simp) (.inr rfl))
  | starttls =>
    cases hs'
    unfold handleWaitAuthStarttls
    split
    · rw [core_replyThenSettle h]
      exact .goto .waitAuth (by simp) (.inr rfl)
    · rw [core_applyClosing h]
      exact .goto .init (by simp) (.inr rfl)
  | auth => cases hs'; exact act_handleWaitAuthAuth h hst
  | authUsername =>
    cases hs'
    have hcore := core_replyThenSettle (s := { s with ctx := { s.ctx with
        clientUsername := base64Decode env.decodeBlock s.lastCommandArgs } }) h
      (bytes "334 UGFzc3dvcmQ6") .waitAuthPassword []
    exact Eq.subst hcore.symm (.nameUser _ (by simp [namedAccount, hst]))
  | authPassword =>
    cases hs'
    rw [handleWaitAuthPassword, core_beginAuth]
    exact .startAuth _ (by simp [namedAccount, hst])
  | mailFrom => cases hs'; exact act_handleWaitAuthMailFrom h
  | rcptTo => cases hs'; exact act_handleWaitRcptToRcptTo h hst
  | data hdata =>
    have hstate : s.io.state ≠ .inMessage := by rcases hdata with rfl | rfl <;> simp [hst]
    simp only [handleWaitDataData] at hs'
    cases hc : s.createMailOnDataCommand o.openWrite with
    | error s₁ => simp [hc, Except.map] at hs'
    | ok s₁ =>
      simp only [hc, Except.map, Except.ok.injEq] at hs'
      subst hs'
      exact act_data h hstate hc _
  | inMessageData => 
    cases hs'
    have hcore : s.handleInMessageData.core = s.core := by simp [core, handleInMessageData]
    rw [hcore]
    exact .skip (by simp)
  | dataEnd => cases hs'; exact act_handleInMessageDataEnd h
  | quit =>
    cases hs'
    rw [handleWaitQuitQuit, core_applyClosing h]
    exact .goto .closed (by simp) (.inr rfl)
  | error =>
    cases hs'
    unfold handleError
    dsimp only
    split
    · have hcore : { s with stayTimes := s.stayTimes + 1, io := s.io.close }.core = s.core := by
        simp [core]
      exact Eq.subst hcore.symm (.skip (by simp))
    · have hcore := core_replyThenSettle h
        (bytes "500 Error: " ++ s.lastCommandArgs) s.io.state []
      exact Eq.subst hcore.symm (.goto s.io.state (by simp) (.inl rfl))
  | selfLoop hst he =>
    cases hs'
    rw [handleSelfLoop, core_apply h]
    exact .goto s.io.state (by rcases he with rfl | rfl <;> simp) (.inl rfl)

/-- **A handler that throws has created a mail without a body stream.** -/
theorem Handled.threw {st : SmtpsState} (hf : Handled env cfg o st e f) (hs' : f s = .error s') :
    e = .data ∧ s.mail = none ∧ s'.io = s.io ∧ s'.core = s.core.createMail false := by
  cases hf with
  | data =>
    simp only [handleWaitDataData] at hs'
    cases hc : s.createMailOnDataCommand o.openWrite with
    | ok s₁ => simp [hc, Except.map] at hs'
    | error s₁ =>
      simp only [hc, Except.map, Except.error.injEq] at hs'
      subst hs'
      unfold createMailOnDataCommand at hc
      split at hc
      · cases hc
      · rename_i hmail
        refine ⟨rfl, by simpa using hmail, ?_⟩
        split at hc <;> cases hc
        refine ⟨rfl, ?_⟩
        simp [core, Core.createMail, SmtpsContext.envelope, mailEnvelope]
  | _ => cases hs'

/-- Only DATA in front of a message throws. -/
theorem Handled.ne_inMessage_of_threw {st : SmtpsState} (hf : Handled env cfg o st e f)
    (hs' : f s = .error s') : st ≠ .inMessage := by
  cases hf with
  | data h => rcases h with rfl | rfl <;> simp
  | _ => cases hs'

/-! ## Answers -/

section Answers

variable {s : Session}

/-- The answer is dropped if the session has been closed in the meantime. -/
theorem AnswerAct.unless_closed {p : Pending} {i : Input} {t : Session}
    (h : s.io.closed = false → AnswerAct env s p i t.core) :
    AnswerAct env s p i (if s.io.closed then s else t).core := by
  cases hclosed : s.io.closed with
  | true => exact .dropped hclosed
  | false => exact h hclosed

theorem act_authDone (account : Bytes) (ok : Bool) (shard : Nat) :
    AnswerAct env s (.auth account) (.authDone ok shard)
      (s.authDone cfg account ok shard).core := by
  refine .unless_closed fun hopen => ?_
  cases ok with
  | true =>
    have hcore := core_finish_of_open (s := { s with
        ctx := { s.ctx with isAuthenticated := true, shardIndex := shard }
        io := s.io.reports [.authResult account true] }) hopen
      .waitMailFrom (bytes "235 Authentication successful") []
    exact Eq.subst hcore.symm (.authOk account shard hopen)
  | false =>
    rw [if_neg Bool.false_ne_true]
    dsimp only
    split
    · have hcore : { s with
          authAttemptCount := s.authAttemptCount + 1
          io := (s.io.reports [.authResult account false]).closeAfterFlush }.core =
            s.core.report [.authResult account false] := by simp [core, Core.report]
      exact Eq.subst hcore.symm (.authFailed account shard true hopen)
    · have hcore := core_finish_of_open (s := { s with
          authAttemptCount := s.authAttemptCount + 1
          io := s.io.reports [.authResult account false] }) hopen
        .waitAuth (bytes "535 Authentication failed") []
      exact Eq.subst hcore.symm (.authFailed account shard false hopen)

theorem act_recipientResolved (targets : List Bytes) :
    (s.recipientResolved targets).core =
      if targets.isEmpty then
        s.core.finish s.io.closed .waitRcptTo (bytes "550 5.1.1 User unknown") []
      else
        (s.core.pushTargets targets).finish s.io.closed .waitRcptTo (bytes "250 Ok")
        [.rcptTo targets] := by
  unfold recipientResolved
  split
  · exact core_finish _ _ _ _
  · exact core_finish { s with ctx := Session.pushTargets s.ctx targets } _ _ _

theorem act_submitDone (accepted : Bool) :
    AnswerAct env s .submit (.submitDone accepted) (s.submitDone env cfg accepted).core := by
  have hreject : ∀ text,
      AnswerAct env s .submit (.submitDone accepted) (s.rejectAndClose text).core := by
    intro text
    refine .message _ (by simp) (act_rejectAndClose s text) ?_
    intro _
    exact core_rejectAndClose s text
  unfold submitDone
  split
  · exact hreject _
  · rename_i m hmail
    dsimp only
    split
    · rename_i hqueue
      have henv : s.core.mail = some (mailEnvelope (completeMail s.ctx m)) := by
        simp [core, hmail, mailEnvelope, completeMail]
      refine .submitted (completeMail s.ctx m) accepted _ henv (by simpa using hqueue) ?_
      split
      · left
        exact core_finish
          { s with io := s.io.reports [.submitted (completeMail s.ctx m)] }.resetMailState _ _ _
      · right
        cases env.hasQueue <;> rfl
    · exact hreject _

theorem act_persistDone (outcome : PersistOutcome) :
    AnswerAct env s .persist (.persistDone outcome) (s.persistDone outcome).core := by
  refine .unless_closed fun hopen => ?_
  split
  · have hcore := core_finish_of_open (s := s.resetMailState) hopen .waitMailFrom (bytes "250 OK")
      [.acknowledged]
    exact Eq.subst hcore.symm (.persisted hopen)
  all_goals
    rw [core_closeWithReply, hopen]
    exact .notPersisted _ (by simp) hopen

/-- **Every continuation is one of the answer acts.** -/
theorem Answered.act {p : Pending} {i : Input} {f : Session → Session}
    (ha : Answered env cfg p i f) (s : Session) : AnswerAct env s p i (f s).core := by
  cases ha with
  | auth account ok shard => exact act_authDone account ok shard
  | quota limited needSpf sender spfMode allowed =>
    refine .unless_closed fun _ => .mailFrom sender _ (.inl ⟨_, _, _, rfl⟩) ?_
    split
    · exact act_proceedMailFrom env s _ _ _
    · rw [core_finish]
      exact .refuse _
  | spf sender spfMode result reason =>
    refine .mailFrom sender _ (.inr ⟨_, rfl⟩) ?_
    have hcore := core_finish
      { s with ctx := { s.ctx with spfChecked := true, spfResult := result, spfReason := reason } }
    simp only [spfDone]
    split
    · exact Eq.subst (hcore _ _ _).symm (.refuse _)
    · exact Eq.subst (hcore _ _ _).symm .accept
  | submissionAlias recipient targets =>
    refine .unless_closed fun hopen => ?_
    split
    · rename_i htargets
      obtain rfl : targets = [] := by simpa using htargets
      have hcore := core_finish { s with ctx := Session.pushRecipient s.ctx recipient }
        .waitRcptTo (bytes "250 Ok") [.rcptTo [recipient]]
      rw [hcore, hopen]
      exact .noAlias recipient hopen
    · rename_i htargets
      have hcore := core_finish { s with ctx := Session.pushTargets s.ctx targets }
        .waitRcptTo (bytes "250 Ok") [.rcptTo targets]
      rw [hcore, hopen]
      exact .aliasTargets recipient targets (.inl rfl) (by simpa using htargets) hopen
  | recipientAlias recipient targets =>
    refine .unless_closed fun hopen => ?_
    rw [act_recipientResolved, hopen]
    split
    · rename_i htargets
      obtain rfl : targets = [] := by simpa using htargets
      exact .userUnknown recipient hopen
    · rename_i htargets
      exact .aliasTargets recipient targets (.inr rfl) (by simpa using htargets) hopen
  | fromAlias authUser targets =>
    refine .unless_closed fun _ => .message _ (.inr (.inr (.inl ⟨_, rfl⟩))) ?_ (by simp)
    split
    · exact act_finishAfterSenderBoundary env cfg s
    · exact act_rejectAndClose s _
  | userExists recipient found =>
    refine .unless_closed fun hopen => ?_
    cases found with
    | true =>
      rw [if_pos rfl, act_recipientResolved, hopen]
      exact .userFound recipient hopen
    | false => exact .userMissing recipient hopen
  | commit result =>
    refine .message _ (.inl rfl) ?_ (by simp)
    cases result with
    | committed => exact act_finishDataEndAfterCommit env cfg s
    | retryable => exact Eq.subst (core_commitFailed s true).symm .reject
    | permanent => exact Eq.subst (core_commitFailed s false).symm .reject
  | openRead threw =>
    refine .message _ (.inr (.inl rfl)) ?_ (by simp)
    simp only [openReadDone]
    split
    · exact act_rejectAndClose s _
    · exact act_finishDataEndAfterRead env cfg s
  | verify dkim dmarc spf => exact .verified dkim dmarc spf
  | submit accepted => exact act_submitDone accepted
  | persist outcome => exact act_persistDone outcome

end Answers

/-! ## Steps -/

/-- The session as the handler of its next unit of input finds it: parsed, and with the command on
record. -/
def foundInput (s : Session) (o : Oracle) : Option Session :=
  (s.parsedInput o).map fun s₀ => s₀.reportDispatched s₀.nextEvent

theorem core_foundInput {s₁ : Session} (h : s.foundInput o = some s₁) :
    s₁.core = s.core.dispatched s₁.nextEvent s₁.lastCommandArgs := by
  simp only [foundInput, Option.map_eq_some_iff] at h
  obtain ⟨s₀, hpar, rfl⟩ := h
  rw [core_reportDispatched, (core_parsedInput hpar).1]
  rfl

/-- A handler that runs in a step is one of the command acts on the session it finds. -/
theorem act_of_parsedInput {s₀ : Session} (hpar : s.parsedInput o = some s₀)
    (hopen : s.io.closed = false) (hhandled : Handled env cfg o s.io.state s₀.nextEvent f)
    (hs' : f (s₀.reportDispatched s₀.nextEvent) = .ok s') :
    CommandAct env cfg o (s₀.reportDispatched s₀.nextEvent) s₀.nextEvent s'.core := by
  obtain ⟨hcore, -, hclosed⟩ := core_parsedInput hpar
  have hstate : s₀.io.state = s.io.state := congrArg (·.view.state) hcore
  rw [← hstate] at hhandled
  exact Handled.act hhandled (hclosed.trans hopen)
    (nextEvent_parsedInput hpar) hs'

/-- The ways the core of a session can change on an input. -/
inductive CoreMove (env : SmtpEnv) (cfg : ServerConfig) (s : Session) : Input → Core → Prop
  | same {i : Input} : CoreMove env cfg s i s.core
  | settled {i : Input} (t : Task SmtpsState SmtpsReport)
      (ts : List (Task SmtpsState SmtpsReport)) (hsettles : s.core.view.settles = t :: ts)
      (hopen : s.io.closed = false) :
      CoreMove env cfg s i { s.core with view := { s.core.view with settles := ts }.settled t }
  | unsettled {i : Input} (t : Task SmtpsState SmtpsReport)
      (ts : List (Task SmtpsState SmtpsReport)) (hsettles : s.core.view.settles = t :: ts)
      (hclosed : s.io.closed = true) :
      CoreMove env cfg s i { s.core with view := { s.core.view with settles := ts } }
  | rejected {i : Input} (e : SmtpsEvent) (args : Bytes) (hpaused : s.io.paused = false) :
      CoreMove env cfg s i (s.core.dispatched e args)
  | command (o : Oracle) (s₁ : Session) (k : Core) (hfound : s.foundInput o = some s₁)
      (hpaused : s.io.paused = false) (hopen : s.io.closed = false)
      (hact : CommandAct env cfg o s₁ s₁.nextEvent k)
      (hhandled : ∃ f, Handled env cfg o s₁.io.state s₁.nextEvent f) : CoreMove env cfg s
        (.consume o) k
  | threw (o : Oracle) (s₁ : Session) (hfound : s.foundInput o = some s₁)
      (hpaused : s.io.paused = false) (hopen : s.io.closed = false)
      (hdata : s₁.nextEvent = .data) (hmail : s₁.mail = none) (hstate : s₁.io.state ≠ .inMessage) :
      CoreMove env cfg s (.consume o) (s₁.core.createMail false)
  | answered {i : Input} (p : Pending) (k : Core) (hpending : s.pending = some p)
      (hact : AnswerAct env { s with pending := none } p i k) : CoreMove env cfg s i k

/-- **What a step can do to the core.** -/
theorem step_coreMove (env : SmtpEnv) (s : Session) (i : ServerConfig × Input) :
    CoreMove env i.1 s i.2 (step env s i).core := by
  have hm := step_move env s i
  generalize step env s i = s' at hm
  obtain ⟨cfg, i⟩ := i
  cases hm with
  | transport io hview =>
    have hcore : { s with io }.core = s.core := by simp [core, hview]
    rw [hcore]
    exact .same
  | settled io t ts ht hview =>
    have hcore : { s with io }.core = { s.core with view := io.view } := rfl
    rw [hcore, hview]
    split
    · exact .unsettled t ts ht ‹_›
    · exact .settled t ts ht (by simpa using ‹¬ s.io.closed = true›)
  | parsed o s₀ io hpar hview =>
    have hcore : { s₀ with io }.core = s₀.core := by simp [core, hview]
    rw [hcore, (core_parsedInput hpar).1]
    exact .same
  | rejected o s₀ io hpar hview =>
    have hcore : { s₀ with io }.core = (s₀.reportDispatched s₀.nextEvent).core := by
      simp [core, hview, reportDispatched]
    obtain ⟨hs₀, hpaused, -⟩ := core_parsedInput hpar
    rw [hcore, core_reportDispatched, hs₀]
    exact .rejected _ _ hpaused
  | handled o s₀ s' f hpar hpaused hopen hev hhandled hs' =>
    have hfound : s.foundInput o = some (s₀.reportDispatched s₀.nextEvent) := by
      simp [foundInput, hpar]
    have hstate : s₀.io.state = s.io.state := congrArg (·.view.state) (core_parsedInput hpar).1
    exact .command o _ _ hfound hpaused hopen (act_of_parsedInput hpar hopen hhandled hs')
      ⟨f, hstate.symm ▸ hhandled⟩
  | threw o s₀ s' f io hpar hpaused hopen hhandled hs' hview =>
    obtain ⟨hdata, hmail, -, hcore⟩ := hhandled.threw hs'
    have hio : { s' with io }.core = s'.core := by simp [core, hview]
    rw [hio, hcore]
    have hfound : s.foundInput o = some (s₀.reportDispatched s₀.nextEvent) := by
      simp [foundInput, hpar]
    have hstate : s₀.io.state = s.io.state := congrArg (·.view.state) (core_parsedInput hpar).1
    exact .threw o _ hfound hpaused hopen hdata hmail
      fun hmsg => hhandled.ne_inMessage_of_threw hs' (hstate.symm.trans hmsg)
  | answered p f hpending ha => exact .answered p _ hpending (ha.act _)

end Session

end ProtoRelay
