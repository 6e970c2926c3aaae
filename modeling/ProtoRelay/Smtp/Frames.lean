import ProtoRelay.Framework.View
import ProtoRelay.Smtp.Machine

/-!
# What reading input leaves alone

The parser and the functions that follow a message work on the message fields of the context.  The
identity of the client and the envelope of the mail (`SmtpsContext.envelope`) are written by
handlers only.  This module states that once, for every function between the input buffer and the
dispatch, so that properties of the envelope need to look at handlers only.
-/

namespace ProtoRelay

/-- Who the client is and what it has said about the mail. -/
structure Envelope where
  isAuthenticated : Bool
  clientUsername : Bytes
  senderAddress : Bytes
  recipientAddresses : List Bytes

def SmtpsContext.envelope (ctx : SmtpsContext) : Envelope where
  isAuthenticated := ctx.isAuthenticated
  clientUsername := ctx.clientUsername
  senderAddress := ctx.senderAddress
  recipientAddresses := ctx.recipientAddresses

/-! ## Following a message -/

section

variable (ctx : SmtpsContext)

include ctx

theorem analyzeTopHeader_envelope : (analyzeTopHeader ctx).envelope = ctx.envelope := by
  unfold analyzeTopHeader
  dsimp only
  split
  · rfl
  · split <;> rfl

theorem handlePartHeaderParsed_envelope : (handlePartHeaderParsed ctx).envelope = ctx.envelope := by
  unfold handlePartHeaderParsed
  dsimp only
  split <;> rfl

theorem handleMultipartLine_envelope (line : Bytes) :
    (handleMultipartLine ctx line).envelope = ctx.envelope := by
  unfold handleMultipartLine
  dsimp only
  split
  · rfl
  split
  · rfl
  split
  · rfl
  split
  · split
    · exact handlePartHeaderParsed_envelope _
    · rfl
  split
  · rfl
  split
  · rfl
  · split <;> rfl

theorem processLine_envelope (line : Bytes) : (processLine ctx line).envelope = ctx.envelope := by
  unfold processLine
  dsimp only
  split
  · rfl
  split
  · split
    · exact analyzeTopHeader_envelope _
    · rfl
  split
  · exact handleMultipartLine_envelope _ _
  · split <;> rfl

theorem foldl_processLine_envelope (lines : List Bytes) :
    (lines.foldl processLine ctx).envelope = ctx.envelope := by
  induction lines generalizing ctx with
  | nil => rfl
  | cons line lines ih => rw [List.foldl_cons, ih, processLine_envelope]

/-- **Following a message keeps the envelope fields.** -/
theorem processMessageData_envelope (data : Bytes) :
    (processMessageData ctx data).envelope = ctx.envelope :=
  foldl_processLine_envelope ctx _

end

namespace Session

/-! ## Parsing -/

/-- The envelope of a mail is its sender and its recipients. -/
def mailEnvelope (m : Mail) : Bytes × List Bytes := (m.sender, m.recipients)

/-- The part of a session that identity and envelope depend on. -/
structure Core where
  view : View SmtpsState SmtpsReport
  envelope : Envelope
  mail : Option (Bytes × List Bytes)
  hasWriter : Bool
  pending : Option Pending

def core (s : Session) : Core where
  view := s.io.view
  envelope := s.ctx.envelope
  mail := s.mail.map mailEnvelope
  hasWriter := s.bodyWriter.isSome
  pending := s.pending

theorem core_handleWriteFailure (s : Session) : s.handleWriteFailure.core = s.core := by
  cases h : s.mail with
  | none => simp [core, handleWriteFailure, h]
  | some m =>
    simp only [core, handleWriteFailure, h, Option.map_some]
    split <;> rfl

theorem core_appendBodyData (s : Session) (data : Bytes) (ok : Bool) :
    (s.appendBodyData data ok).core = s.core := by
  cases hw : s.bodyWriter with
  | none => simp only [appendBodyData, hw]
  | some w =>
    have hset : ∀ w', { s with bodyWriter := some w' }.core = s.core := by
      intro w'
      simp [core, hw]
    simp only [appendBodyData, hw]
    split
    · rfl
    · split
      · exact hset _
      · rw [core_handleWriteFailure, hset]

variable {s s' : Session} {o : Oracle} {data : Bytes}

/-- Storing appends to the body and moves the line folder on. -/
theorem exists_of_storeUnit {chunk : Bytes} (h : s.storeUnit o chunk = some s') :
    ∃ folder out ok, s' = { s with bodyLineFolder := folder }.appendBodyData out ok := by
  unfold storeUnit at h
  split at h
  · cases h
    refine ⟨s.bodyLineFolder, [], true, ?_⟩
    unfold appendBodyData
    split
    · rfl
    · exact (if_pos (by simp)).symm
  · obtain ⟨out, -, rfl⟩ := Option.map_eq_some_iff.mp h
    exact ⟨_, out, _, rfl⟩

theorem core_finishMessage (h : s.finishMessage o = some s') : s'.core = s.core := by
  obtain ⟨tail, -, rfl⟩ := Option.map_eq_some_iff.mp h
  exact core_appendBodyData { s with bodyLineFolder := [] } tail o.tailOk

theorem core_parseMessageUnit (h : s.parseMessageUnit o data = some s') : s'.core = s.core := by
  simp only [parseMessageUnit, Option.bind_eq_some_iff] at h
  obtain ⟨s₁, hs, h⟩ := h
  have hs₁ : s₁.core = s.core := by
    obtain ⟨folder, out, ok, rfl⟩ := exists_of_storeUnit hs
    rw [core_appendBodyData]
    simp [core, processMessageData_envelope, SessionBase.view]
  split at h
  · exact (core_finishMessage h).trans hs₁
  · cases h
    exact hs₁

@[simp] theorem io_appendBodyData (s : Session) (data : Bytes) (ok : Bool) :
    (s.appendBodyData data ok).io = s.io := by
  unfold appendBodyData
  split
  · rfl
  · split
    · rfl
    · split <;> rfl

theorem io_finishMessage (h : s.finishMessage o = some s') : s'.io = s.io := by
  obtain ⟨tail, -, rfl⟩ := Option.map_eq_some_iff.mp h
  exact io_appendBodyData { s with bodyLineFolder := [] } tail o.tailOk

/-- Parsing touches the transport only by putting input back. -/
theorem io_parseSmtpCommand (h : s.parseSmtpCommand o data = some s') :
    ∃ buffer, s'.io = { s.io with commandReadBuffer := buffer } := by
  unfold parseSmtpCommand at h
  split at h
  · simp only [parseMessageUnit, Option.bind_eq_some_iff] at h
    obtain ⟨s₁, hs, h⟩ := h
    obtain ⟨folder, out, ok, rfl⟩ := exists_of_storeUnit hs
    split at h
    · exact ⟨_, (io_finishMessage h).trans (io_appendBodyData _ _ _)⟩
    · cases h
      exact ⟨_, io_appendBodyData _ _ _⟩
  · cases h
    exact ⟨s.io.commandReadBuffer, rfl⟩

/-- **Parsing changes only what belongs to the message.** -/
theorem core_parseSmtpCommand (h : s.parseSmtpCommand o data = some s') : s'.core = s.core := by
  unfold parseSmtpCommand at h
  split at h
  · exact core_parseMessageUnit h
  · cases h
    rfl

end Session

end ProtoRelay
