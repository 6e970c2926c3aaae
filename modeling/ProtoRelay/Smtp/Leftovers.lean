import ProtoRelay.Smtp.Frames
import ProtoRelay.Smtp.Reading

/-!
# What a transaction leaves in the context

`reset_mail_state` clears part of the context.  The rest, the `Leftover`, are the verdicts of the
inbound checks and the fields by which the parser follows a message.  The handlers before the end of
a message do not read them: they commute with writing other values there, and so keep them.  At the
end of a message the verdicts and the size counters are read.
-/

namespace ProtoRelay

/-- The fields of a context that concern a message and that `reset_mail_state` leaves alone. -/
structure Leftover extends Verdicts where
  verificationRun : Bool := false
  headerParsed : Bool := false
  hasAttachment : Bool := false
  textBodySize : Nat := 0
  bufferedBodySize : Nat := 0
  abortReason : Bytes := []
  currentPartHeaders : Bytes := []
  inPartHeader : Bool := false
  currentPartIsAttachment : Bool := false
  currentPartEncoding : Bytes := []
  currentPartMime : Bytes := []
  currentAttachmentFilename : Bytes := []
  currentAttachmentPath : Bytes := []
  currentAttachmentSize : Nat := 0

namespace SmtpsContext

def leftover (ctx : SmtpsContext) : Leftover where
  toVerdicts := ctx.verdicts
  verificationRun := ctx.verificationRun
  headerParsed := ctx.headerParsed
  hasAttachment := ctx.hasAttachment
  textBodySize := ctx.textBodySize
  bufferedBodySize := ctx.bufferedBodySize
  abortReason := ctx.abortReason
  currentPartHeaders := ctx.currentPartHeaders
  inPartHeader := ctx.inPartHeader
  currentPartIsAttachment := ctx.currentPartIsAttachment
  currentPartEncoding := ctx.currentPartEncoding
  currentPartMime := ctx.currentPartMime
  currentAttachmentFilename := ctx.currentAttachmentFilename
  currentAttachmentPath := ctx.currentAttachmentPath
  currentAttachmentSize := ctx.currentAttachmentSize

def withLeftover (a : Leftover) (ctx : SmtpsContext) : SmtpsContext :=
  { ctx.withVerdicts a.toVerdicts with
    verificationRun := a.verificationRun
    headerParsed := a.headerParsed
    hasAttachment := a.hasAttachment
    textBodySize := a.textBodySize
    bufferedBodySize := a.bufferedBodySize
    abortReason := a.abortReason
    currentPartHeaders := a.currentPartHeaders
    inPartHeader := a.inPartHeader
    currentPartIsAttachment := a.currentPartIsAttachment
    currentPartEncoding := a.currentPartEncoding
    currentPartMime := a.currentPartMime
    currentAttachmentFilename := a.currentAttachmentFilename
    currentAttachmentPath := a.currentAttachmentPath
    currentAttachmentSize := a.currentAttachmentSize }

theorem withLeftover_leftover (ctx : SmtpsContext) : ctx.withLeftover ctx.leftover = ctx := rfl

end SmtpsContext

namespace Session

def withLeftover (a : Leftover) (s : Session) : Session := { s with ctx := s.ctx.withLeftover a }

def withVerdicts (v : Verdicts) (s : Session) : Session := { s with ctx := s.ctx.withVerdicts v }

variable (env : SmtpEnv) (cfg : ServerConfig) (a : Leftover) (s : Session)

/-- An operation does not look at the leftovers. -/
abbrev Blind (f : Session → Session) : Prop := f (withLeftover a s) = withLeftover a (f s)

/-! ## Greeting, TLS and AUTH -/

theorem withLeftover_handleAuthMechanism : Blind a s (·.handleAuthMechanism env cfg) := by
  unfold Blind handleAuthMechanism
  simp only [apply_ite (withLeftover a)]
  cases h : plainUsername (base64Decode env.decodeBlock (s.lastCommandArgs.drop 6)) with
  | none | some => simp only [withLeftover, h]; rfl

theorem withLeftover_handleWaitAuthAuth : Blind a s (·.handleWaitAuthAuth env cfg) := by
  unfold Blind handleWaitAuthAuth
  simp only [apply_ite (withLeftover a), ← withLeftover_handleAuthMechanism]
  cases h : plainUsername (base64Decode env.decodeBlock s.lastCommandArgs) with
  | none =>
    simp only [withLeftover, h]
    congr 1
    exact withLeftover_handleAuthMechanism env cfg a
      { s with ctx := { s.ctx with plainAuthExpected := false } }
  | some username => simp only [withLeftover, h]; rfl

theorem withLeftover_authDone (account : Bytes) (ok : Bool) (shard : Nat) :
    Blind a s (·.authDone cfg account ok shard) := by
  unfold Blind authDone
  simp only [apply_ite (withLeftover a)]
  rfl

/-! ## MAIL FROM and RCPT TO -/

theorem withLeftover_proceedMailFrom (needSpf : Bool) (sender spfMode : Bytes) :
    Blind a s (·.proceedMailFrom env needSpf sender spfMode) := by
  unfold Blind proceedMailFrom
  simp only [apply_ite (withLeftover a)]
  rfl

theorem withLeftover_quotaDone (limited needSpf : Bool) (sender spfMode : Bytes) (allowed : Bool) :
    Blind a s (·.quotaDone env limited needSpf sender spfMode allowed) := by
  unfold Blind quotaDone
  simp only [apply_ite (withLeftover a), ← withLeftover_proceedMailFrom]
  rfl

/-- An accepted MAIL FROM forgets an earlier SPF check. -/
theorem withLeftover_acceptMailFrom (requested : Bytes) :
    (withLeftover a s).acceptMailFrom env cfg requested =
      withLeftover { a with spfChecked := false } (s.acceptMailFrom env cfg requested) := by
  unfold acceptMailFrom
  simp only [apply_ite (withLeftover { a with spfChecked := false }),
    ← withLeftover_proceedMailFrom]
  rfl

theorem withLeftover_rcptToAuthenticated (recipient : Bytes) :
    Blind a s (·.rcptToAuthenticated cfg recipient) := by
  unfold Blind rcptToAuthenticated
  simp only [apply_ite (withLeftover a)]
  rfl

theorem withLeftover_resolveRecipient (o : Oracle) (recipient : Bytes) :
    Blind a s (·.resolveRecipient o recipient) := by
  unfold Blind resolveRecipient
  split <;> rfl

theorem withLeftover_rcptToUnauthenticated (o : Oracle) (recipient : Bytes) :
    Blind a s (·.rcptToUnauthenticated env cfg o recipient) := by
  unfold Blind rcptToUnauthenticated
  simp only [apply_ite (withLeftover a), ← withLeftover_resolveRecipient]
  rfl

theorem withLeftover_handleWaitRcptToRcptTo (o : Oracle) :
    Blind a s (·.handleWaitRcptToRcptTo env cfg o) := by
  unfold Blind handleWaitRcptToRcptTo
  dsimp only
  cases h : (betweenAngles s.lastCommandArgs).map trim with
  | none => simp only [withLeftover, h]; rfl
  | some recipient =>
    simp only [apply_ite (withLeftover a), ← withLeftover_rcptToAuthenticated,
      ← withLeftover_rcptToUnauthenticated]
    simp only [withLeftover, h]
    rfl

theorem withLeftover_submissionAliasDone (recipient : Bytes) (targets : List Bytes) :
    Blind a s (·.submissionAliasDone recipient targets) := by
  unfold Blind submissionAliasDone
  simp only [apply_ite (withLeftover a)]
  rfl

theorem withLeftover_recipientResolved (targets : List Bytes) :
    Blind a s (·.recipientResolved targets) := by
  unfold Blind recipientResolved
  simp only [apply_ite (withLeftover a)]
  rfl

theorem withLeftover_userExistsDone (recipient : Bytes) (found : Bool) :
    Blind a s (·.userExistsDone recipient found) := by
  unfold Blind userExistsDone
  simp only [apply_ite (withLeftover a), ← withLeftover_recipientResolved]
  rfl

theorem withLeftover_recipientAliasDone (targets : List Bytes) :
    Blind a s (·.recipientAliasDone targets) := by
  unfold Blind recipientAliasDone
  simp only [apply_ite (withLeftover a), ← withLeftover_recipientResolved]
  rfl

/-! ## DATA and the self loops -/

theorem withLeftover_createMailOnDataCommand (outcome : OpenWrite) :
    (withLeftover a s).createMailOnDataCommand outcome =
      match s.createMailOnDataCommand outcome with
      | .ok s' => .ok (withLeftover a s')
      | .error s' => .error (withLeftover a s') := by
  by_cases hmail : s.mail.isSome = true
  · have hmail' : (withLeftover a s).mail.isSome = true := hmail
    simp only [createMailOnDataCommand, if_pos hmail, if_pos hmail']
  · have hmail' : ¬ (withLeftover a s).mail.isSome = true := hmail
    simp only [createMailOnDataCommand, if_neg hmail, if_neg hmail']
    cases outcome <;> rfl

theorem withLeftover_handleError : Blind a s (·.handleError) := by
  unfold Blind handleError
  simp only [apply_ite (withLeftover a)]
  rfl

/-! ## The end of a message -/

theorem withLeftover_discardCurrentMail : Blind a s (·.discardCurrentMail) := by
  unfold Blind discardCurrentMail
  simp only [apply_ite (withLeftover a)]
  rfl

theorem withLeftover_rejectAndClose (text : Bytes) : Blind a s (·.rejectAndClose text) := by
  unfold Blind rejectAndClose
  simp only [withLeftover_discardCurrentMail]
  rfl

theorem withLeftover_commitFailed (retry : Bool) : Blind a s (·.commitFailed retry) :=
  withLeftover_rejectAndClose a { s with ctx := { s.ctx with streamedAttachments := [] } } _

theorem withLeftover_submitDone (accepted : Bool) : Blind a s (·.submitDone env cfg accepted) := by
  unfold Blind submitDone
  dsimp only
  cases hmail : s.mail with
  | none =>
    simp only [← withLeftover_rejectAndClose]
    simp only [withLeftover, hmail]
  | some m =>
    simp only [apply_ite (withLeftover a), ← withLeftover_rejectAndClose]
    simp only [withLeftover, hmail]
    rfl

theorem withLeftover_persistDone (outcome : PersistOutcome) :
    Blind a s (·.persistDone outcome) := by
  unfold Blind persistDone
  simp only [apply_ite (withLeftover a)]
  cases outcome <;> rfl

/-- The leftovers have the values of the session where the end of a message reads them. -/
structure Agrees : Prop where
  spfChecked : a.spfChecked = s.ctx.spfChecked
  verificationRun : a.verificationRun = s.ctx.verificationRun
  textBodySize : a.textBodySize = s.ctx.textBodySize
  bufferedBodySize : a.bufferedBodySize = s.ctx.bufferedBodySize
  abortReason : a.abortReason = s.ctx.abortReason

theorem agrees_leftover : Agrees s.ctx.leftover s := ⟨rfl, rfl, rfl, rfl, rfl⟩

variable {a s}

section

variable (h : Agrees a s)

include h

theorem withLeftover_finishAfterSenderBoundary :
    Blind a s (·.finishAfterSenderBoundary env cfg) := by
  have hneeds : needsVerify cfg (withLeftover a s).ctx = needsVerify cfg s.ctx := by
    simp [needsVerify, withLeftover, SmtpsContext.withLeftover, SmtpsContext.withVerdicts,
      h.spfChecked]
  have hrun : (withLeftover a s).ctx.verificationRun = s.ctx.verificationRun := h.verificationRun
  unfold Blind finishAfterSenderBoundary
  dsimp only
  rw [hneeds, hrun]
  rfl

theorem withLeftover_finishDataEndAfterRead : Blind a s (·.finishDataEndAfterRead env cfg) := by
  unfold Blind finishDataEndAfterRead
  simp only [apply_ite (withLeftover a), ← withLeftover_rejectAndClose,
    ← withLeftover_finishAfterSenderBoundary env cfg h]
  rfl

theorem withLeftover_fromAliasDone (authUser : Bytes) (targets : List Bytes) :
    Blind a s (·.fromAliasDone env cfg authUser targets) := by
  unfold Blind fromAliasDone
  simp only [apply_ite (withLeftover a), ← withLeftover_rejectAndClose,
    ← withLeftover_finishAfterSenderBoundary env cfg h]
  rfl

theorem withLeftover_openReadDone (threw : Bool) : Blind a s (·.openReadDone env cfg threw) := by
  unfold Blind openReadDone
  simp only [apply_ite (withLeftover a), ← withLeftover_rejectAndClose,
    ← withLeftover_finishDataEndAfterRead env cfg h]

theorem withLeftover_finishDataEndAfterCommit : Blind a s (·.finishDataEndAfterCommit env cfg) := by
  unfold Blind finishDataEndAfterCommit
  simp only [apply_ite (withLeftover a), ← withLeftover_finishDataEndAfterRead env cfg h]
  rfl

theorem withLeftover_commitDone (result : CommitResult) :
    Blind a s (·.commitDone env cfg result) := by
  cases result with
  | committed => exact withLeftover_finishDataEndAfterCommit env cfg h
  | retryable => exact withLeftover_commitFailed a s true
  | permanent => exact withLeftover_commitFailed a s false

theorem withLeftover_commitBody : Blind a s (·.commitBody env cfg) := by
  have hmail : (withLeftover a s).mail = s.mail := rfl
  have hwriter : (withLeftover a s).bodyWriter = s.bodyWriter := rfl
  unfold Blind commitBody
  dsimp only
  rw [hwriter, apply_ite (withLeftover a)]
  congr 1
  · exact withLeftover_finishDataEndAfterCommit env cfg h
  · cases s.bodyWriter with
    | none => exact withLeftover_commitFailed a s false
    | some w =>
      simp only [apply_ite (withLeftover a), ← withLeftover_commitFailed]
      rfl

/-- At the end of a message only what is read has to agree. -/
theorem withLeftover_handleInMessageDataEnd : Blind a s (·.handleInMessageDataEnd env cfg) := by
  have hview : (withLeftover a s).ctx.dataEndView = s.ctx.dataEndView := by
    simp [withLeftover, SmtpsContext.withLeftover, SmtpsContext.withVerdicts,
      SmtpsContext.dataEndView, h.textBodySize, h.bufferedBodySize]
  have hresp : (if (withLeftover a s).ctx.abortReason.isEmpty
    then bytes "552 Message size exceeds limit\r\n"
        else (withLeftover a s).ctx.abortReason ++ bytes "\r\n") =
      (if s.ctx.abortReason.isEmpty then bytes "552 Message size exceeds limit\r\n"
        else s.ctx.abortReason ++ bytes "\r\n") := by
    have habort : (withLeftover a s).ctx.abortReason = s.ctx.abortReason := h.abortReason
    rw [habort]
  unfold Blind handleInMessageDataEnd
  dsimp only
  rw [hview, hresp, apply_ite (withLeftover a)]
  congr 1
  exact withLeftover_commitBody env cfg (s := { s with
    io := (s.io.reports [.dataEnd s.ctx.dataEndView]).beginTransition })
    { h with }

end

end Session

/-! ## Before the end of the first header

Nothing but the header buffer and the half line changes before the header of a message has been read
to its end; after that `header_parsed` stays set. -/

/-- If no header has been read to its end, no message has left anything behind. -/
def Leftover.Untouched (a : Leftover) : Prop :=
  a.headerParsed = false →
    a = { toVerdicts := a.toVerdicts, verificationRun := a.verificationRun }

theorem Leftover.untouched_of_headerParsed {a : Leftover} (h : a.headerParsed = true) :
    a.Untouched := by
  intro hfalse
  rw [h] at hfalse
  cases hfalse

/-- Verdicts do not matter for what messages leave behind. -/
theorem Leftover.Untouched.of_eq {a b : Leftover} {v : Verdicts} {ran : Bool} (h : a.Untouched)
    (hb : b = { a with toVerdicts := v, verificationRun := ran }) : b.Untouched := by
  subst hb
  intro hp
  have hleft := h hp
  rw [Leftover.mk.injEq] at hleft ⊢
  simp_all

theorem headerParsed_analyzeTopHeader (ctx : SmtpsContext) :
    (analyzeTopHeader ctx).headerParsed = ctx.headerParsed := by
  unfold analyzeTopHeader
  dsimp only
  split
  · rfl
  · split <;> rfl

theorem headerParsed_handlePartHeaderParsed (ctx : SmtpsContext) :
    (handlePartHeaderParsed ctx).headerParsed = ctx.headerParsed := by
  unfold handlePartHeaderParsed
  dsimp only
  split <;> rfl

theorem headerParsed_handleMultipartLine (ctx : SmtpsContext) (line : Bytes) :
    (handleMultipartLine ctx line).headerParsed = ctx.headerParsed := by
  unfold handleMultipartLine
  simp only [apply_ite SmtpsContext.headerParsed, headerParsed_handlePartHeaderParsed, ite_self]

variable {ctx : SmtpsContext}

theorem headerParsed_processLine (h : ctx.headerParsed = true) (line : Bytes) :
    (processLine ctx line).headerParsed = true := by
  unfold processLine
  simp only [apply_ite SmtpsContext.headerParsed, headerParsed_handleMultipartLine,
    headerParsed_analyzeTopHeader, h, ite_self]

section

variable (h : ctx.leftover.Untouched)

include h

theorem untouched_processLine (line : Bytes) : (processLine ctx line).leftover.Untouched := by
  cases hp : ctx.headerParsed with
  | true => exact Leftover.untouched_of_headerParsed (headerParsed_processLine hp line)
  | false =>
    have hreading : (!ctx.headerParsed) = true := by rw [hp]; rfl
    unfold processLine
    split
    · exact h
    · split
      · exact Leftover.untouched_of_headerParsed (headerParsed_analyzeTopHeader _)
      · exact h

theorem untouched_foldl_processLine (lines : List Bytes) :
    (lines.foldl processLine ctx).leftover.Untouched := by
  induction lines generalizing ctx with
  | nil => exact h
  | cons line lines ih => exact ih (untouched_processLine h line)

theorem untouched_finalizeAttachmentFromContext :
    (finalizeAttachmentFromContext ctx).leftover.Untouched := by
  intro hp
  have hleft := h hp
  simp_all [SmtpsContext.leftover, finalizeAttachmentFromContext]

end

namespace Session

variable (v : Verdicts) (s : Session)

theorem appendBodyData_withVerdicts (data : Bytes) (ok : Bool) :
    (withVerdicts v s).appendBodyData data ok = withVerdicts v (s.appendBodyData data ok) := by
  have hwriter : (withVerdicts v s).bodyWriter = s.bodyWriter := rfl
  unfold appendBodyData
  rw [hwriter]
  cases s.bodyWriter with
  | none => rfl
  | some w =>
    simp only [apply_ite (withVerdicts v)]
    rfl

variable (o : Oracle)

theorem storeUnit_withVerdicts (chunk : Bytes) :
    (withVerdicts v s).storeUnit o chunk = (s.storeUnit o chunk).map (withVerdicts v) := by
  unfold storeUnit
  rw [apply_ite (Option.map (withVerdicts v))]
  congr 1
  simp only [Option.map_map]
  refine congrArg (fun f => Option.map f _) ?_
  funext out
  exact appendBodyData_withVerdicts v
    { s with bodyLineFolder := (LineFolder.feed s.bodyLineFolder chunk).2 } out o.writeOk

theorem finishMessage_withVerdicts :
    (withVerdicts v s).finishMessage o = (s.finishMessage o).map (withVerdicts v) := by
  unfold finishMessage
  simp only [Option.map_map]
  refine congrArg (fun f => Option.map f _) ?_
  funext tail
  have htail := appendBodyData_withVerdicts v { s with bodyLineFolder := [] } tail o.tailOk
  exact congrArg (fun s' : Session =>
    { s' with
      ctx := finalizeAttachmentFromContext s'.ctx
      nextEvent := .dataEnd
      lastCommandArgs := [] }) htail

theorem parseMessageUnit_withVerdicts (data : Bytes) :
    (withVerdicts v s).parseMessageUnit o data = (s.parseMessageUnit o data).map
    (withVerdicts v) := by
  unfold parseMessageUnit
  generalize splitDataUnit data = unit
  obtain ⟨chunk, remaining, ends⟩ := unit
  have hctx : processMessageData (withVerdicts v s).ctx chunk =
      (processMessageData s.ctx chunk).withVerdicts v :=
        processMessageData_withVerdicts s.ctx v chunk
  simp only [hctx, Option.map_bind]
  have hs := storeUnit_withVerdicts v
    { s with
      io := { s.io with commandReadBuffer := s.io.commandReadBuffer ++ remaining }
      ctx := processMessageData s.ctx chunk } o chunk
  refine Eq.trans (congrArg (fun x => Option.bind x _) hs) ?_
  rw [Option.bind_map]
  refine congrArg (Option.bind _) ?_
  funext s₁
  cases ends with
  | true => exact finishMessage_withVerdicts v s₁ o
  | false => rfl

/-- **The parser does not look at verdicts.** -/
theorem parseSmtpCommand_withVerdicts (data : Bytes) :
    (withVerdicts v s).parseSmtpCommand o data = (s.parseSmtpCommand o data).map
    (withVerdicts v) := by
  unfold parseSmtpCommand
  rw [apply_ite (Option.map (withVerdicts v)), ← parseMessageUnit_withVerdicts]
  rfl

theorem parsedInput_withVerdicts :
    (withVerdicts v s).parsedInput o = (s.parsedInput o).map (withVerdicts v) := by
  unfold parsedInput
  have hio : (withVerdicts v s).io = s.io := rfl
  rw [hio]
  cases s.io.takeLine with
  | none => rfl
  | some r => exact parseSmtpCommand_withVerdicts v { s with io := r.2 } o r.1

@[simp] theorem ctx_appendBodyData (s : Session) (data : Bytes) (ok : Bool) :
    (s.appendBodyData data ok).ctx = s.ctx := by
  unfold appendBodyData
  split
  · rfl
  · split
    · rfl
    · split <;> rfl

/-- **Parsing leaves nothing behind before the end of the first header.** -/
theorem untouched_parsedInput {s s₀ : Session} {o : Oracle} (h : s.ctx.leftover.Untouched)
    (hp : s.parsedInput o = some s₀) : s₀.ctx.leftover.Untouched := by
  simp only [parsedInput, Option.bind_eq_some_iff] at hp
  obtain ⟨⟨line, io⟩, -, hparse⟩ := hp
  unfold parseSmtpCommand at hparse
  split at hparse
  · simp only [parseMessageUnit, Option.bind_eq_some_iff] at hparse
    obtain ⟨s₁, hs, hparse⟩ := hparse
    have hs₁ : s₁.ctx.leftover.Untouched := by
      obtain ⟨folder, out, ok, rfl⟩ := exists_of_storeUnit hs
      rw [ctx_appendBodyData]
      exact untouched_foldl_processLine h _
    split at hparse
    · simp only [finishMessage, Option.map_eq_some_iff] at hparse
      obtain ⟨tail, -, rfl⟩ := hparse
      refine untouched_finalizeAttachmentFromContext ?_
      rwa [ctx_appendBodyData]
    · cases hparse
      exact hs₁
  · cases hparse
    exact h

end Session

end ProtoRelay
