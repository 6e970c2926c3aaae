import ProtoRelay.Smtp.Message

/-!
# What reading a message does not look at

A line of a message is handled without a look at the verdicts of the inbound checks and at the half
line that waits for its end; handling it commutes with writing other values there.  So a message
read in pieces is read as a whole, however it is cut.
-/

namespace ProtoRelay

/-- The results of the inbound checks. -/
structure Verdicts where
  spfChecked : Bool := false
  spfResult : Bytes := []
  spfReason : Bytes := []
  dkimResult : Bytes := []
  dmarcResult : Bytes := []

/-- The fields of a context no line of a message depends on. -/
structure Aside extends Verdicts where
  lineBuffer : Bytes

namespace SmtpsContext

def verdicts (ctx : SmtpsContext) : Verdicts where
  spfChecked := ctx.spfChecked
  spfResult := ctx.spfResult
  spfReason := ctx.spfReason
  dkimResult := ctx.dkimResult
  dmarcResult := ctx.dmarcResult

def withVerdicts (v : Verdicts) (ctx : SmtpsContext) : SmtpsContext :=
  { ctx with
    spfChecked := v.spfChecked
    spfResult := v.spfResult
    spfReason := v.spfReason
    dkimResult := v.dkimResult
    dmarcResult := v.dmarcResult }

def aside (ctx : SmtpsContext) : Aside where
  toVerdicts := ctx.verdicts
  lineBuffer := ctx.lineBuffer

def withAside (a : Aside) (ctx : SmtpsContext) : SmtpsContext :=
  { ctx.withVerdicts a.toVerdicts with lineBuffer := a.lineBuffer }

theorem withAside_aside (ctx : SmtpsContext) : ctx.withAside ctx.aside = ctx := rfl

end SmtpsContext

open SmtpsContext (withAside)

variable (a : Aside) (ctx : SmtpsContext)

theorem analyzeTopHeader_withAside :
    analyzeTopHeader (withAside a ctx) = withAside a (analyzeTopHeader ctx) := by
  unfold analyzeTopHeader
  have hheader : (withAside a ctx).headerBuffer = ctx.headerBuffer := rfl
  rw [hheader]
  dsimp only
  cases findHeader (parseHeadersMap ctx.headerBuffer) (bytes "content-type") with
  | none => rfl
  | some contentType =>
    rw [apply_ite (withAside a)]
    rfl

theorem handlePartHeaderParsed_withAside :
    handlePartHeaderParsed (withAside a ctx) = withAside a (handlePartHeaderParsed ctx) := by
  unfold handlePartHeaderParsed
  rw [apply_ite (withAside a)]
  rfl

theorem handleMultipartLine_withAside (line : Bytes) :
    handleMultipartLine (withAside a ctx) line = withAside a (handleMultipartLine ctx line) := by
  unfold handleMultipartLine
  simp only [apply_ite (withAside a), ← handlePartHeaderParsed_withAside]
  rfl

/-- **A line is handled without a look at the verdicts and at the half line.** -/
theorem processLine_withAside (line : Bytes) :
    processLine (withAside a ctx) line = withAside a (processLine ctx line) := by
  unfold processLine
  simp only [apply_ite (withAside a), ← handleMultipartLine_withAside, ← analyzeTopHeader_withAside]
  rfl

theorem foldl_processLine_withAside (lines : List Bytes) :
    lines.foldl processLine (withAside a ctx) = withAside a (lines.foldl processLine ctx) := by
  induction lines generalizing ctx with
  | nil => rfl
  | cons line lines ih => rw [List.foldl_cons, processLine_withAside, ih, List.foldl_cons]

theorem aside_foldl_processLine (lines : List Bytes) :
    (lines.foldl processLine ctx).aside = ctx.aside := by
  have h := foldl_processLine_withAside ctx.aside ctx lines
  rw [SmtpsContext.withAside_aside] at h
  rw [h]
  rfl

theorem processMessageData_withVerdicts (v : Verdicts) (data : Bytes) :
    processMessageData (ctx.withVerdicts v) data =
      (processMessageData ctx data).withVerdicts v := by
  unfold processMessageData feedLines
  have h := foldl_processLine_withAside { toVerdicts := v, lineBuffer := ctx.lineBuffer } ctx
    (splitSep 13 10 (ctx.lineBuffer ++ data)).1
  exact congrArg (fun c : SmtpsContext =>
    { c with lineBuffer := (splitSep 13 10 (ctx.lineBuffer ++ data)).2 }) h

/-- **Reading a message in two pieces is reading it at once.** -/
theorem processMessageData_append (s t : Bytes) :
    processMessageData (processMessageData ctx s) t = processMessageData ctx (s ++ t) := by
  have h := feedLines_append (f := processLine) (x := 13) (y := 10) (ctx, ctx.lineBuffer) s t
  unfold processMessageData
  rw [← h]
  generalize hr : feedLines processLine 13 10 (ctx, ctx.lineBuffer) s = r
  obtain ⟨ctx₁, carry⟩ := r
  -- the lines of the second piece are handled with the first one's half line in the buffer
  have hfold : (splitSep 13 10 (carry ++ t)).1.foldl processLine { ctx₁ with lineBuffer := carry } =
      { (splitSep 13 10 (carry ++ t)).1.foldl processLine ctx₁ with lineBuffer := carry } := by
    have hverds : ((splitSep 13 10 (carry ++ t)).1.foldl processLine ctx₁).verdicts =
        ctx₁.verdicts := congrArg Aside.toVerdicts (aside_foldl_processLine ctx₁ _)
    refine (foldl_processLine_withAside { toVerdicts := ctx₁.verdicts, lineBuffer := carry }
      ctx₁ _).trans ?_
    rw [← hverds]
    rfl
  exact congrArg (fun c : SmtpsContext =>
    { c with lineBuffer := (splitSep 13 10 (carry ++ t)).2 }) hfold

end ProtoRelay
