import ProtoRelay.Client.Log

/-!
# What holds of every client session

Each event of the log is justified by the events before it, the bytes received are the replies that
were read and what is left, and the operation that is running has done what its stage says.
-/

namespace ProtoRelay

open List

/-! ## The operation that is running -/

theorem ClientOperation.recorded_eq (op : ClientOperation) (code : Nat) :
    ∃ recipients, op.recorded code = { op with recipients } := by
  unfold ClientOperation.recorded
  split
  · exact ⟨_, rfl⟩
  · exact ⟨op.recipients, rfl⟩

/-- The operations that have a stage. -/
def ClientStage.Fits : ClientStage → ClientCall → Prop
  | .connect, .connect _ | .ehlo, .connect _ | .starttls, .connect _ | .tls, .connect _
  | .auth, .connect _ | .credentials, .connect _ => True
  | .mail, .send _ | .recipient, .send _ | .data, .send _ | .body, .send _ => True
  | .quit, .quit => True
  | _, _ => False

/-- The stages that need TLS, where the connection has it or is to have it. -/
def ClientStage.needsTls : ClientStage → TlsMode → Bool
  | _, .none => false
  | .connect, .startTlsRequired | .ehlo, .startTlsRequired | .starttls, .startTlsRequired
  | .tls, .startTlsRequired => false
  | _, _ => true

variable {stage : ClientStage}

theorem ClientStage.needsTls_of_isProtected {tls : TlsMode} (h : stage.isProtected = true)
    (htls : tls ≠ .none) : stage.needsTls tls = true := by
  cases tls with
  | none => exact absurd rfl htls
  | implicit => cases stage <;> rfl
  | startTlsRequired => cases stage <;> first | rfl | cases h

section

variable {encodeBlock : Bytes → Bytes} {call : ClientCall} {wire : Bytes}
  (h : Command encodeBlock call stage wire)

include h

theorem Command.fits : stage.Fits call := by
  cases h <;> trivial

theorem Command.stage_ne_tls : stage ≠ .tls := by
  cases h <;> nofun

end

/-- The message data was handed to the transport, behind a reply with code 354, and written if the
operation waits for the reply. -/
def SendsData (log : List ClientEvent) (c : ClientConnection) (op : ClientOperation) : Prop :=
  ∃ m rest, op.call = .send m ∧
    eventsOf op.id log = (if op.waits = .write then [] else [.written op.id .body]) ++
      .wrote op.id .body (dataFrame (m.raw.getD [])) :: .reply op.id .data 354 :: rest ∧
    ∃ history raw, c.history = history ++ [(354, raw)]

/-- What the operation has done is what its stage says. -/
structure AtStage (log : List ClientEvent) (c : ClientConnection) (op : ClientOperation) :
    Prop where
  fits : op.stage.Fits op.call
  connect : op.waits = .connect → op.stage = .connect ∧ c.replies = []
  tls : op.stage = .tls → ∃ b, op.waits = .handshake b
  bodyStarted : op.bodyStarted = true ↔ op.stage = .body
  noData : op.stage ≠ .body → ∀ e ∈ eventsOf op.id log, e.isData = false
  data : op.stage = .body → SendsData log c op
  handshake : ∀ b, op.waits = .handshake b → op.stage = .tls ∧ c.replies = []
  waits : op.waits ≠ .read → op.reply = {}
  partialReply : PartialReply op.reply
  unread : c.stream = c.read ++ (op.reply.raw ++ c.replies)
  shielded : op.waits = .write ∨ op.waits = .read → ∀ o, openedWith log = some o →
    op.stage.needsTls o.tls = true → c.tls = true

theorem AtStage.congr_log {log log' : List ClientEvent} {c : ClientConnection}
    {op : ClientOperation} (h : AtStage log c op) (hevs : eventsOf op.id log' = eventsOf op.id log)
    (hopened : openedWith log' = openedWith log) : AtStage log' c op :=
  { h with
    noData := hevs ▸ h.noData
    data := fun hstage => by
      obtain ⟨m, rest, hcall, hdata, hhist⟩ := h.data hstage
      exact ⟨m, rest, hcall, hevs.trans hdata, hhist⟩
    shielded := hopened ▸ h.shielded }

theorem AtStage.stage_ne_tls {log : List ClientEvent} {c : ClientConnection} {op : ClientOperation}
    (h : AtStage log c op) (hwaits : ∀ b, op.waits ≠ .handshake b) : op.stage ≠ .tls :=
  fun hstage =>
  let ⟨b, hb⟩ := h.tls hstage
  hwaits b hb

namespace ClientSession

section

variable (encodeBlock : Bytes → Bytes) (s : ClientSession)

/-- A session that works on `op`, with the connection `c`. -/
structure Holds (c : ClientConnection) (op : ClientOperation) : Prop where
  log : LogOk encodeBlock s.log s.nextId (some op.id)
  started : .started op.id op.call ∈ s.log
  valid : op.call.isValid = true
  connection : s.connection = some c
  wire : ConnectionOk s.log s.isOpen c
  options : ∀ o, op.call = .connect o → openedWith s.log = some o

/-- A session without an operation. -/
structure Idle : Prop where
  log : LogOk encodeBlock s.log s.nextId none
  wire : ∀ c, s.connection = some c → ConnectionOk s.log s.isOpen c ∧ c.stream = c.read ++ c.replies

/-- **What holds of every session.** -/
structure Ok : Prop where
  idle : s.current = none → s.Idle encodeBlock
  running : ∀ op, s.current = some op → ∃ c, s.Holds encodeBlock c op ∧ AtStage s.log c op

end

section

variable {encodeBlock : Bytes → Bytes} {s : ClientSession} {c : ClientConnection}
  {op : ClientOperation}

theorem Ok.of_idle (hcur : s.current = none) (h : s.Idle encodeBlock) : s.Ok encodeBlock where
  idle _ := h
  running op hop := by
    rw [hcur] at hop
    cases hop

theorem Ok.of_running (hcur : s.current = some op) (h : s.Holds encodeBlock c op)
    (ha : AtStage s.log c op) : s.Ok encodeBlock where
  idle hnone := by
    rw [hcur] at hnone
    cases hnone
  running op' hop' := by
    rw [hcur] at hop'
    obtain rfl := Option.some.inj hop'
    exact ⟨c, h, ha⟩

theorem Ok.log (h : s.Ok encodeBlock) :
    LogOk encodeBlock s.log s.nextId (s.current.map (·.id)) := by
  cases hcur : s.current with
  | none => exact (h.idle hcur).log
  | some op =>
    obtain ⟨c, hh, -⟩ := h.running op hcur
    exact hh.log

section

variable (h : s.Holds encodeBlock c op)

include h

theorem Ok.of_holds (ha : AtStage s.log c op) : { s with current := some op }.Ok encodeBlock :=
  .of_running rfl { h with } ha

theorem Holds.id_lt : op.id < s.nextId := h.log.ids _ h.started

theorem Holds.congr (op' : ClientOperation) (hid : op'.id = op.id) (hcall : op'.call = op.call) :
    s.Holds encodeBlock c op' :=
  { h with
    log := hid ▸ h.log
    started := by rw [hid, hcall]; exact h.started
    valid := hcall ▸ h.valid
    options := fun o ho => h.options o (hcall ▸ ho) }

theorem Holds.push {e : ClientEvent} (hid : e.id = op.id) (hs : ∀ n, e.isStart n = false)
    (hcompl : ∀ n, e.isCompletion n = false) (hopened : e.options? = none)
    (hsecured : ∀ id c₀, e ≠ .secured id c₀) (hsound : e.Sound encodeBlock s.log) :
    { s with log := e :: s.log }.Holds encodeBlock c op :=
  { h with
    log := by
      rw [← hid]
      exact (hid ▸ h.log).push (hid ▸ h.id_lt) hs hcompl hsound
    started := .tail _ h.started
    wire := h.wire.push hopened hsecured
    options := fun o ho => (openedWith_cons hopened).trans (h.options o ho) }

theorem Holds.receive (c' : ClientConnection) (htls : c'.tls = c.tls)
    (hhist : c.history <+: c'.history) (hreplies : ∀ r ∈ c'.history, IsReply r.1 r.2)
    (hstrm : c'.read <+: c'.stream) : { s with connection := some c' }.Holds encodeBlock c' op :=
  { h with
    connection := rfl
    wire := h.wire.receive htls hhist hreplies hstrm }

end

/-! ## The end of an operation -/

variable {outcome : Outcome} {code : Nat} {error : Bytes} {r : ClientResult}
  {log : List ClientEvent} {stage : ClientStage} {o : ConnectOptions}

theorem Ok.finish (hlog : LogOk encodeBlock s.log s.nextId (some op.id)) (hid : op.id < s.nextId)
    (hr : Justified op.id
      { outcome, code, stage := op.stage, error, recipients := op.recipients, reusable := false }
      s.connection s.log) : (s.finish op outcome code error false).Ok encodeBlock :=
  .of_idle rfl ⟨hlog.complete hid hr, nofun⟩

theorem Holds.finish_reusable (h : s.Holds encodeBlock c op) (hr : Justified op.id
      { outcome, code, stage := op.stage, error, recipients := op.recipients, reusable := true }
      (some c) s.log) (hunread : c.stream = c.read ++ c.replies) :
    (s.finish op outcome code error true).Ok encodeBlock := by
  refine .of_idle rfl ⟨h.log.complete h.id_lt (h.connection ▸ hr), fun c' hc' => ?_⟩
  obtain rfl : c = c' := Option.some.inj (h.connection.symm.trans hc')
  exact ⟨h.wire.push rfl nofun, hunread⟩

theorem Holds.justified (h : s.Holds encodeBlock c op) (hne : r.outcome ≠ .accepted)
    (hunknown : ∀ wire, .wrote op.id .body wire ∈ s.log →
      (∀ code, .reply op.id .body code ∉ s.log) →
      r.outcome = .outcomeUnknown) : Justified op.id r (some c) s.log where
  started := ⟨op.call, h.started, .inl h.valid⟩
  accepted hout := absurd hout hne
  unknown := hunknown
  inOrder c' hc' := by
    obtain rfl := Option.some.inj hc'
    exact h.wire.inOrder

/-- An operation that ends without a reply: its outcome is unknown if the message data was
started. -/
theorem Holds.failed (h : s.Holds encodeBlock c op)
    (hdata : op.bodyStarted = false → ∀ e ∈ eventsOf op.id s.log, e.isData = false)
    (hne : outcome ≠ .accepted) (code : Nat) (error : Bytes) :
    (s.finish op (if op.bodyStarted then .outcomeUnknown else outcome) code error false).Ok
      encodeBlock := by
  refine Ok.finish h.log h.id_lt (h.connection ▸ h.justified ?_ fun wire hwrote _ => ?_)
  · split
    · nofun
    · exact hne
  · -- message data is in the log, so the stage is the last one
    have hsta : op.bodyStarted = true := by
      by_contra hfalse
      have := hdata (Bool.eq_false_iff.mpr hfalse) _ (mem_eventsOf hwrote rfl)
      cases this
    rw [if_pos hsta]

theorem noData_of_bodyStarted (ha : AtStage log c op) (h : op.bodyStarted = false) :
    ∀ e ∈ eventsOf op.id log, e.isData = false := by
  refine ha.noData fun hstage => ?_
  rw [ha.bodyStarted.mpr hstage] at h
  cases h

theorem Ok.ioFailed (h : s.Ok encodeBlock) (hop : s.current = some op) (reason : Bytes) :
    (s.ioFailed op reason).Ok encodeBlock := by
  obtain ⟨c, hh, ha⟩ := h.running op hop
  have hne : Outcome.temporaryFailure ≠ .accepted := nofun
  exact hh.failed (noData_of_bodyStarted ha) hne 0 reason

/-! ## Commands -/

/-- The operation may write its next command: the last reply is read, and no message data was
sent. -/
structure Ready (log : List ClientEvent) (c : ClientConnection) (op : ClientOperation) : Prop where
  reply : op.reply = {}
  bodyStarted : op.bodyStarted = false
  noData : ∀ e ∈ eventsOf op.id log, e.isData = false
  unread : c.stream = c.read ++ c.replies

/-- It is then at the stage it goes on to. -/
theorem Ready.atStage (h : Ready log c op) {waits : ClientWait} (hfits : stage.Fits op.call)
    (hbody : stage ≠ .body) (htls : stage = .tls → ∃ b, waits = .handshake b)
    (hconnect : waits = .connect → stage = .connect ∧ c.replies = [])
    (hhandshake : ∀ b, waits = .handshake b → stage = .tls ∧ c.replies = [])
    (hsh : waits = .write ∨ waits = .read → ∀ o, openedWith log = some o →
      stage.needsTls o.tls = true → c.tls = true) : AtStage log c { op with stage, waits } where
  fits := hfits
  connect := hconnect
  tls := htls
  bodyStarted := ⟨fun hb => (by rw [h.bodyStarted] at hb; cases hb), fun hb => absurd hb hbody⟩
  noData _ := h.noData
  data hstage := absurd hstage hbody
  handshake := hhandshake
  waits _ := h.reply
  partialReply := h.reply ▸ partialReply_empty
  unread := by
    rw [h.reply]
    exact h.unread
  shielded := hsh

section

variable (h : s.Holds encodeBlock c op)

include h

/-- What is written is justified. -/
theorem Holds.wrote {wire : Bytes} (hcmd : Command encodeBlock op.call stage wire)
    (hsh : ∀ o, openedWith s.log = some o → stage.needsTls o.tls = true → c.tls = true) :
    { s with log := .wrote op.id stage wire :: s.log }.Holds encodeBlock c op := by
  refine h.push rfl (fun _ => rfl) (fun _ => rfl) rfl nofun
    ⟨⟨op.call, h.started, h.valid, hcmd⟩, ?_⟩
  obtain ⟨o, ho, -⟩ := h.wire.options
  refine ⟨o, ho, fun hprotected htls => h.wire.tls ?_⟩
  exact hsh o ho (ClientStage.needsTls_of_isProtected hprotected htls)

theorem Holds.command (hrd : Ready s.log c op) {wire : Bytes}
    (hcmd : Command encodeBlock op.call stage wire) (hstage : stage ≠ .body)
    (hsh : ∀ o, openedWith s.log = some o → stage.needsTls o.tls = true → c.tls = true) :
    (s.write op stage wire).Ok encodeBlock := by
  refine Ok.of_holds ((h.wrote hcmd hsh).congr { op with stage, waits := .write } rfl rfl) ?_
  have hrd' : Ready (.wrote op.id stage wire :: s.log) c op :=
    { hrd with noData := noData_cons hrd.noData (beq_eq_false_iff_ne.mpr hstage) }
  refine hrd'.atStage hcmd.fits hstage (fun htls => absurd htls hcmd.stage_ne_tls) nofun nofun ?_
  exact fun _ o ho => hsh o ((openedWith_cons rfl).symm.trans ho)

theorem Holds.body {m : ClientMessage} (hcall : op.call = .send m) (hrd : Ready s.log c op)
    {rest : List ClientEvent} (hlog : eventsOf op.id s.log = .reply op.id .data 354 :: rest)
    {history : List (Nat × Bytes)} {raw : Bytes} (hhist : c.history = history ++ [(354, raw)])
    (hsh : ∀ o, openedWith s.log = some o → ClientStage.body.needsTls o.tls = true →
      c.tls = true) :
    (s.write { op with bodyStarted := true } .body (dataFrame (m.raw.getD []))).Ok encodeBlock := by
  have hcmd : Command encodeBlock op.call .body (dataFrame (m.raw.getD [])) := hcall ▸ .body m
  refine Ok.of_holds ((h.wrote hcmd hsh).congr
    { op with bodyStarted := true, stage := .body, waits := .write } rfl rfl) ?_
  exact
    { fits := hcmd.fits
      connect := nofun
      tls := nofun
      bodyStarted := ⟨fun _ => rfl, fun _ => rfl⟩
      noData := fun hne => absurd rfl hne
      data := fun _ =>
        ⟨m, rest, hcall, (eventsOf_cons_self rfl).trans (congrArg _ hlog), history, raw, hhist⟩
      handshake := nofun
      waits := fun _ => hrd.reply
      partialReply := hrd.reply ▸ partialReply_empty
      unread := by
        rw [hrd.reply]
        exact hrd.unread
      shielded := fun _ o ho => hsh o ((openedWith_cons rfl).symm.trans ho) }

/-- The TLS handshake is started, with nothing left in the buffer. -/
theorem Holds.handshake (hrd : Ready s.log c op) (hcall : op.call = .connect o)
    (hreplies : c.replies = []) (implicit : Bool) : (s.handshake op implicit).Ok encodeBlock := by
  refine Ok.of_holds (h.congr { op with stage := .tls, waits := .handshake implicit } rfl rfl) ?_
  exact hrd.atStage (by rw [hcall]; trivial) nofun (fun _ => ⟨implicit, rfl⟩) nofun
    (fun _ _ => ⟨rfl, hreplies⟩) nofun

theorem Holds.finish_ready (hrd : Ready s.log c op) (ho : openedWith s.log = some o)
    (htls : o.tls ≠ .none → c.tls = true) (code : Nat) :
    ({ s with isOpen := true }.finish op .ready code [] true).Ok encodeBlock := by
  have hopen : { s with isOpen := true }.Holds encodeBlock c op :=
    { h with wire := ⟨h.wire.inOrder, h.wire.tls, o, ho, fun _ => htls⟩ }
  refine hopen.finish_reusable (hopen.justified nofun fun wire hwrote _ => ?_) hrd.unread
  have := hrd.noData _ (mem_eventsOf hwrote rfl)
  cases this

end

/-! ## Replies -/

/-- A reply with this code was read: the operation is at the stage that waited for it. -/
structure Answered (log : List ClientEvent) (c : ClientConnection) (op : ClientOperation)
    (code : Nat) :
    Prop where
  fits : op.stage.Fits op.call
  tls : op.stage ≠ .tls
  bodyStarted : op.bodyStarted = true ↔ op.stage = .body
  noData : op.stage ≠ .body → ∀ e ∈ eventsOf op.id log, e.isData = false
  data : op.stage = .body → ∃ m rest, op.call = .send m ∧
    eventsOf op.id log = .written op.id .body :: .wrote op.id .body (dataFrame (m.raw.getD [])) ::
      .reply op.id .data 354 :: rest ∧
    ∃ history raw raw', c.history = history ++ [(354, raw), (code, raw')]
  last : ∃ history raw, c.history = history ++ [(code, raw)]
  reply : op.reply = {}
  unread : c.stream = c.read ++ c.replies
  shielded : ∀ o, openedWith log = some o → op.stage.needsTls o.tls = true → c.tls = true

namespace Answered

variable {code : Nat}

theorem ready (h : Answered s.log c op code) (hstage : op.stage ≠ .body) :
    Ready (.reply op.id op.stage code :: s.log) c op :=
  { h with
    bodyStarted := Bool.eq_false_iff.mpr fun hb => hstage (h.bodyStarted.mp hb)
    noData := noData_cons (h.noData hstage) (beq_eq_false_iff_ne.mpr hstage) }

end Answered

section

variable (h : s.Holds encodeBlock c op)

include h

theorem Holds.replied (code : Nat) :
    { s with log := .reply op.id op.stage code :: s.log }.Holds encodeBlock c op :=
  h.push rfl (fun _ => rfl) (fun _ => rfl) rfl nofun trivial

theorem Holds.protocolFailed (ha : Answered s.log c op code) (code' : Nat) (reason : Bytes) :
    ({ s with log := .reply op.id op.stage code :: s.log }.protocolFailed op code' reason).Ok
      encodeBlock := by
  have hne : Outcome.protocolError ≠ .accepted := nofun
  refine (h.replied code).failed (fun hb => ?_) hne code' reason
  refine (ha.ready fun hstage => ?_).noData
  rw [ha.bodyStarted.mpr hstage] at hb
  cases hb

theorem Holds.refused (ha : Answered s.log c op code) (error : Bytes) :
    ({ s with log := .reply op.id op.stage code :: s.log }.finish op (refusal op.stage code) code
      error false).Ok encodeBlock := by
  have hrepl := h.replied code
  refine Ok.finish hrepl.log hrepl.id_lt (hrepl.connection ▸ hrepl.justified ?_
    fun wire hwrote hnone => ?_)
  · unfold refusal
    split_ifs <;> nofun
  · by_cases hstage : op.stage = .body
    · -- the reply that refuses is the reply to the message data
      exact absurd (hstage ▸ mem_cons_self) (hnone code)
    · have := (ha.ready hstage).noData _ (mem_eventsOf hwrote rfl)
      cases this

theorem Holds.accepted (ha : Answered s.log c op 250) (hstage : op.stage = .body) :
    ({ s with log := .reply op.id op.stage 250 :: s.log }.finish op .accepted 250 [] true).Ok
      encodeBlock := by
  have hrepl := h.replied 250
  obtain ⟨m, rest, hcall, hevs, history, raw, raw', hhist⟩ := ha.data hstage
  refine hrepl.finish_reusable ?_ ha.unread
  refine
    { started := ⟨op.call, hrepl.started, .inl h.valid⟩
      accepted := fun _ => ?_
      unknown := fun wire _ hnone => absurd (hstage ▸ mem_cons_self) (hnone 250)
      inOrder := fun c' hc' => (by
        obtain rfl := Option.some.inj hc'
        exact hrepl.wire.inOrder) }
  refine ⟨m, c, rest, hcall ▸ hrepl.started, rfl, ?_, ?_⟩
  · rw [hstage]
    exact (eventsOf_cons_self rfl).trans (congrArg _ hevs)
  · obtain ⟨after, hafter⟩ := h.wire.inOrder.stream
    have hreplies := h.wire.inOrder.replies
    rw [hhist] at hreplies
    refine ⟨(history.map (·.2)).flatten, raw, raw', after, ?_, ?_, ?_⟩
    · rw [← hafter, ClientConnection.read, hhist]
      simp
    · exact hreplies (354, raw) (by simp)
    · exact hreplies (250, raw') (by simp)

end

/-- The shield of the stage that is left covers the next one, where that needs no more. -/
theorem Answered.shields (h : Answered s.log c op code)
    (hstage : stage.needsTls .startTlsRequired = true → op.stage.needsTls .startTlsRequired = true)
    (o : ConnectOptions) (ho : openedWith (.reply op.id op.stage code :: s.log) = some o)
    (hneeds : stage.needsTls o.tls = true) : c.tls = true := by
  refine h.shielded o ((openedWith_cons rfl).symm.trans ho) ?_
  cases hmode : o.tls with
  | none =>
    rw [hmode] at hneeds
    cases stage <;> cases hneeds
  | implicit => cases op.stage <;> rfl
  | startTlsRequired => exact hstage (hmode ▸ hneeds)

/-- Behind EHLO, TLS is up if the options ask for it, or STARTTLS comes next. -/
theorem Answered.tls_of_ehlo (h : Answered s.log c op code) (hstage : op.stage = .ehlo)
    (ho : openedWith s.log = some o) (hs : ¬(o.tls = .startTlsRequired ∧ c.tls = false))
    (htls : o.tls ≠ .none) : c.tls = true := by
  cases hmode : o.tls with
  | none => exact absurd hmode htls
  | implicit => exact h.shielded o ho (by rw [hstage, hmode]; rfl)
  | startTlsRequired => exact Bool.not_eq_false _ ▸ fun hfalse => hs ⟨hmode, hfalse⟩

section

variable (h : s.Holds encodeBlock c op)

include h

theorem Holds.rcpt (hrd : Ready s.log c op) {m : ClientMessage} (hcall : op.call = .send m)
    {i : Nat} (hi : i < m.recipients.length)
    (hsh : ∀ o, openedWith s.log = some o → ClientStage.recipient.needsTls o.tls = true →
      c.tls = true) : (s.rcpt op m i).Ok encodeBlock := by
  refine (h.congr { op with recipient := i } rfl rfl).command
    { hrd with } ?_ nofun hsh
  exact hcall ▸ .recipient m i hi

/-- **What follows a reply with the code expected.** -/
theorem Holds.proceed (ha : Answered s.log c op code)
    (hcode : code = expectedCode op.stage ∨ op.stage = .recipient) (lines : List Bytes) :
    ({ s with log := .reply op.id op.stage code :: s.log }.proceed encodeBlock c op code lines).Ok
      encodeBlock := by
  have hrepl := h.replied code
  obtain ⟨n, call, stage, waits, reply, recipient, bodyStarted, recipients⟩ := op
  cases stage <;> cases call <;> try exact ha.fits.elim
  case connect.connect o =>
    exact hrepl.command (ha.ready nofun) (.ehlo o) nofun (ha.shields id)
  case ehlo.connect o =>
    have ho := h.options o rfl
    unfold ClientSession.proceed
    dsimp only
    split
    · split
      · exact hrepl.command (ha.ready nofun) (.starttls o) nofun (ha.shields id)
      · exact h.protocolFailed ha code _
    · rename_i hs
      have htls := ha.tls_of_ehlo rfl ho hs
      split
      · split
        · refine hrepl.command (ha.ready nofun) (.auth o) nofun fun o' ho' hneeds => ?_
          obtain rfl : o = o' :=
            Option.some.inj (ho.symm.trans ((openedWith_cons rfl).symm.trans ho'))
          refine htls fun hnone => ?_
          rw [hnone] at hneeds
          cases hneeds
        · exact h.protocolFailed ha code _
      · exact hrepl.finish_ready (ha.ready nofun) ((openedWith_cons rfl).trans ho) htls code
  case starttls.connect o =>
    unfold ClientSession.proceed
    dsimp only
    split_ifs with hreplies
    · exact h.protocolFailed ha code _
    · exact hrepl.handshake (ha.ready nofun) rfl (not_not.mp hreplies) false
  case tls.connect o => exact absurd rfl ha.tls
  case auth.connect o =>
    exact hrepl.command (ha.ready nofun) (.credentials o _) nofun (ha.shields id)
  case credentials.connect o =>
    have ho := h.options o rfl
    refine hrepl.finish_ready (ha.ready nofun) ((openedWith_cons rfl).trans ho)
      (fun htls => ?_) code
    exact ha.shielded o ho (ClientStage.needsTls_of_isProtected rfl htls)
  case mail.send m =>
    have hlen : 0 < m.recipients.length := by
      have hval := h.valid
      simp only [ClientCall.isValid, ClientMessage.isValid, Bool.and_eq_true, Bool.not_eq_true',
        isEmpty_eq_false_iff] at hval
      exact length_pos_iff.mpr hval.1.1.1.1.2
    exact hrepl.rcpt (ha.ready nofun) rfl hlen (ha.shields id)
  case recipient.send m =>
    unfold ClientSession.proceed
    dsimp only
    split_ifs with hmore
    · exact hrepl.rcpt (ha.ready nofun) rfl hmore (ha.shields id)
    · exact hrepl.command (ha.ready nofun) (.data m) nofun (ha.shields id)
  case data.send m =>
    obtain rfl : code = 354 := hcode.resolve_right nofun
    obtain ⟨history, raw, hhist⟩ := ha.last
    exact hrepl.body rfl (ha.ready nofun) (eventsOf_cons_self rfl) hhist (ha.shields id)
  case body.send m =>
    obtain rfl : code = 250 := hcode.resolve_right nofun
    exact h.accepted ha rfl
  case quit.quit =>
    refine Ok.finish hrepl.log hrepl.id_lt (hrepl.connection ▸ hrepl.justified nofun
      fun wire hwrote _ => ?_)
    have := (ha.ready nofun).noData _ (mem_eventsOf hwrote rfl)
    cases this

/-- **`on_reply` keeps the invariant.** -/
theorem Holds.onReply {reply : ReplyState} (ha : Answered s.log c op reply.code) :
    (s.onReply encodeBlock c op reply).Ok encodeBlock := by
  obtain ⟨recipients, hop⟩ := op.recorded_eq reply.code
  unfold ClientSession.onReply
  rw [hop]
  have hh := h.congr { op with recipients } rfl rfl
  have ha' : Answered s.log c { op with recipients } reply.code :=
    { ha with }
  dsimp only
  split_ifs with href hunexpected
  · exact hh.refused ha' _
  · exact hh.protocolFailed ha' _ _
  · refine hh.proceed ha' ?_ _
    by_contra hno
    rw [not_or] at hno
    exact hunexpected ⟨hno.1, fun hrcpt => hno.2 hrcpt.1⟩

/-- **`read_reply` keeps the invariant.** -/
theorem Holds.readReply (ha : AtStage s.log c { op with waits := .read }) :
    (s.readReply encodeBlock c op).Ok encodeBlock := by
  have hspec : ReplyRead.Spec op.reply.raw
      (joinSep 13 10 (splitSep 13 10 c.replies).1 (splitSep 13 10 c.replies).2)
      (readReplyLines (splitSep 13 10 c.replies).2 (splitSep 13 10 c.replies).1 op.reply) :=
    readReplyLines_spec (fun _ hl => splitSep_of_mem_lines hl) ha.partialReply
  rw [joinSep_splitSep] at hspec
  have htls := ha.stage_ne_tls nofun
  have hinOrder := h.wire.inOrder
  unfold ClientSession.readReply
  dsimp only at hspec ⊢
  split
  · rename_i reply replies heq
    rw [heq] at hspec
    obtain ⟨hpart, hraw⟩ := hspec
    have hrecv := h.receive { c with replies } rfl (prefix_refl _) hinOrder.replies hinOrder.stream
    refine Ok.of_holds (hrecv.congr { op with reply, waits := .read } rfl rfl) ?_
    exact
      { ha with
        connect := nofun
        handshake := nofun
        waits := fun hne => absurd rfl hne
        partialReply := hpart
        unread := ha.unread.trans (congrArg _ hraw.symm) }
  · rename_i code reason replies heq
    have hrecv := h.receive { c with replies } rfl (prefix_refl _) hinOrder.replies hinOrder.stream
    have hne : Outcome.protocolError ≠ .accepted := nofun
    have hnoData := noData_of_bodyStarted ha
    exact hrecv.failed hnoData hne code reason
  · rename_i reply replies heq
    rw [heq] at hspec
    obtain ⟨hrep, hraw⟩ := hspec
    have hstrm : c.stream = (c.history ++ [(reply.code, reply.raw)]).flatMap (·.2) ++ replies := by
      rw [ha.unread, ← hraw, ClientConnection.read]
      simp [List.flatMap]
    have hreplies : ∀ r ∈ c.history ++ [(reply.code, reply.raw)], IsReply r.1 r.2 := by
      intro r hr
      rcases mem_append.mp hr with hr | hr
      · exact hinOrder.replies r hr
      · rw [mem_singleton.mp hr]
        exact hrep
    have hrecv := h.receive
      { c with replies, history := c.history ++ [(reply.code, reply.raw)] } rfl
      (prefix_append _ _) hreplies ⟨replies, hstrm.symm⟩
    refine (hrecv.congr { op with reply := {} } rfl rfl).onReply ?_
    exact
      { ha with
        tls := htls
        data := fun hstage => by
          obtain ⟨m, rest, hcall, hevs, history, raw, hhist⟩ := ha.data hstage
          exact ⟨m, rest, hcall, hevs, history, raw, reply.raw, by simp [hhist]⟩
        last := ⟨c.history, reply.raw, rfl⟩
        reply := rfl
        unread := hstrm
        shielded := ha.shielded (.inr rfl) }

end

/-! ## Steps -/

theorem noData_of_started {n : Nat} (hids : ∀ e ∈ log, e.id < n) (call : ClientCall) :
    ∀ e ∈ eventsOf n (.started n call :: log), e.isData = false := by
  refine noData_cons (fun e he => ?_) rfl
  obtain ⟨hmem, hid⟩ := mem_filter.mp he
  have hlt := hids e hmem
  have heq : e.id = n := beq_iff_eq.mp hid
  omega

theorem Ok.wire (h : s.Ok encodeBlock) (hc : s.connection = some c) :
    ConnectionOk s.log s.isOpen c := by
  cases hcur : s.current with
  | none => exact ((h.idle hcur).wire c hc).1
  | some op =>
    obtain ⟨c', hh, -⟩ := h.running op hcur
    obtain rfl : c' = c := Option.some.inj (hh.connection.symm.trans hc)
    exact hh.wire

/-- An operation that is refused without having done anything. -/
theorem justified_of_started {n : Nat} {call : ClientCall} {conn : Option ClientConnection}
    (hsta : .started n call ∈ log)
    (houtcome : r.outcome = .protocolError ∨ r.outcome = .temporaryFailure ∨
      r.outcome = .ready ∧ call.isValid = true) (hdata : ∀ e ∈ eventsOf n log, e.isData = false)
    (hwire : ∀ c, conn = some c → ReadInOrder log c) : Justified n r conn log where
  started := ⟨call, hsta, by tauto⟩
  accepted hout := by
    rw [hout] at houtcome
    simp at houtcome
  unknown wire hwrote := by
    have := hdata _ (mem_eventsOf hwrote rfl)
    cases this
  inOrder := hwire

theorem Ok.busy (h : s.Ok encodeBlock) (hop : s.current = some op) (call : ClientCall)
    (hr : r.outcome = .protocolError) :
    { s with
      nextId := s.nextId + 1
      log := .completed s.nextId r s.connection :: .started s.nextId call :: s.log }.Ok
        encodeBlock := by
  obtain ⟨c, hh, ha⟩ := h.running op hop
  have hne : s.nextId ≠ op.id := Nat.ne_of_gt hh.id_lt
  have hjust : Justified s.nextId r s.connection (.started s.nextId call :: s.log) := by
    refine justified_of_started mem_cons_self (.inl hr) (noData_of_started h.log.ids call) ?_
    intro c' hc'
    exact (h.wire hc').inOrder.push rfl nofun
  have hwire : ConnectionOk (.started s.nextId call :: s.log) s.isOpen c := hh.wire.push rfl nofun
  refine .of_running hop ?_ (ha.congr_log ?_ ?_)
  · exact
      { hh with
        log := hh.log.busy (fun n hn => Option.some.inj hn ▸ hh.id_lt) call hjust
        started := .tail _ (.tail _ hh.started)
        wire := hwire.push rfl nofun }
  · rw [eventsOf_cons_of_ne (e := .completed s.nextId r s.connection) hne,
      eventsOf_cons_of_ne (e := .started s.nextId call) hne]
  · rfl

/-- **An operation is started**: it is refused if another one is running, and otherwise its task
begins. -/
theorem Ok.start (h : s.Ok encodeBlock) (call : ClientCall) (stage : ClientStage)
    (waits : ClientWait)
    {task : ClientSession → ClientOperation → ClientSession} (htask : s.Idle encodeBlock →
      (task { s with nextId := s.nextId + 1, log := .started s.nextId call :: s.log }
        { id := s.nextId, call, stage, waits }).Ok encodeBlock) :
    (s.start call stage waits task).Ok encodeBlock := by
  unfold ClientSession.start
  dsimp only
  split
  · rename_i op hop
    exact h.busy hop call rfl
  · rename_i hnone
    exact htask (h.idle hnone)

section

variable (h : s.Idle encodeBlock) (hc : s.connection = some c)

include h hc

theorem Idle.holds (call : ClientCall)
    (hval : call.isValid = true) (hcall : ∀ o, call ≠ .connect o) (stage : ClientStage)
    (waits : ClientWait) :
    { s with nextId := s.nextId + 1, log := .started s.nextId call :: s.log }.Holds encodeBlock c
      { id := s.nextId, call, stage, waits } where
  log := h.log.start call
  started := mem_cons_self
  valid := hval
  connection := hc
  wire := (h.wire c hc).1.push rfl nofun
  options o ho := absurd ho (hcall o)

theorem Idle.ready (call : ClientCall) (stage : ClientStage) (waits : ClientWait) :
    Ready (.started s.nextId call :: s.log) c { id := s.nextId, call, stage, waits } where
  reply := rfl
  bodyStarted := rfl
  noData := noData_of_started h.log.ids call
  unread := (h.wire c hc).2

/-- In an open session TLS is up if the options ask for it. -/
theorem Idle.shields (hopen : s.isOpen = true) {call : ClientCall} (o : ConnectOptions)
    (ho : openedWith (.started s.nextId call :: s.log) = some o)
    (hneeds : stage.needsTls o.tls = true) : c.tls = true := by
  obtain ⟨o', ho', htls⟩ := (h.wire c hc).1.options
  obtain rfl : o' = o := Option.some.inj (ho'.symm.trans ((openedWith_cons rfl).symm.trans ho))
  refine htls hopen fun hnone => ?_
  rw [hnone] at hneeds
  cases stage <;> cases hneeds

end

theorem Idle.refused (h : s.Idle encodeBlock) {call : ClientCall} {waits : ClientWait}
    (houtcome : outcome = .protocolError ∨ outcome = .temporaryFailure ∨
      outcome = .ready ∧ call.isValid = true) :
    ({ s with nextId := s.nextId + 1, log := .started s.nextId call :: s.log }.finish
      { id := s.nextId, call, stage, waits } outcome code error false).Ok encodeBlock := by
  refine Ok.finish (h.log.start call) (Nat.lt_succ_self _) ?_
  refine justified_of_started mem_cons_self houtcome (noData_of_started h.log.ids call) ?_
  intro c hc
  exact (h.wire c hc).1.inOrder.push rfl nofun

section

variable (h : s.Ok encodeBlock)

include h

theorem Ok.connect (o : ConnectOptions) : (s.connect o).Ok encodeBlock := by
  refine h.start _ _ _ fun hidle => ?_
  have hlog : LogOk encodeBlock (.opened s.nextId o :: .started s.nextId (.connect o) :: s.log)
      (s.nextId + 1) (some s.nextId) :=
    (hidle.log.start (.connect o)).push (Nat.lt_succ_self _) (fun _ => rfl) (fun _ => rfl) trivial
  have hnoData :=
    noData_cons (e := .opened s.nextId o) (noData_of_started hidle.log.ids (.connect o)) rfl
  split_ifs with hinv
  · refine Ok.finish hlog (Nat.lt_succ_self _) ?_
    refine justified_of_started (.tail _ mem_cons_self) (.inl rfl) hnoData fun c hc => ?_
    obtain rfl := Option.some.inj hc
    exact (connectionOk_opened _ o _).inOrder
  · have hval : o.isValid = true := by simpa using hinv
    refine .of_running rfl (c := {}) ?_ ?_
    · exact
        { log := hlog
          started := .tail _ mem_cons_self
          valid := hval
          connection := rfl
          wire := connectionOk_opened _ o _
          options := fun o' ho' => by rw [← ClientCall.connect.inj ho']; rfl }
    · have hrd : Ready (.opened s.nextId o :: .started s.nextId (.connect o) :: s.log) {}
          { id := s.nextId, call := .connect o, stage := .connect, waits := .connect } :=
        ⟨rfl, rfl, hnoData, rfl⟩
      exact hrd.atStage trivial nofun nofun (fun _ => ⟨rfl, rfl⟩) nofun nofun

theorem Ok.send (m : ClientMessage) : (s.send m).Ok encodeBlock := by
  refine h.start _ _ _ fun hidle => ?_
  split_ifs with hcl hinv
  · exact hidle.refused (.inr (.inl rfl))
  · exact hidle.refused (.inl rfl)
  · have hval : m.isValid = true := by simpa using hinv
    simp only [Bool.not_eq_true', not_or, Bool.not_eq_false] at hcl
    obtain ⟨c, hc⟩ := Option.ne_none_iff_exists'.mp hcl.2
    refine (hidle.holds hc (.send m) hval nofun _ _).command (hidle.ready hc _ _ _)
      (.mail m) nofun ?_
    exact hidle.shields hc hcl.1

theorem Ok.quit : s.quit.Ok encodeBlock := by
  refine h.start _ _ _ fun hidle => ?_
  split_ifs with hcl
  · exact hidle.refused (.inr (.inr ⟨rfl, rfl⟩))
  · simp only [Bool.not_eq_true', not_or, Bool.not_eq_false] at hcl
    obtain ⟨c, hc⟩ := Option.ne_none_iff_exists'.mp hcl.1
    refine (hidle.holds hc .quit rfl nofun _ _).command (hidle.ready hc _ _ _) .quit nofun ?_
    exact hidle.shields hc hcl.2

theorem Ok.close : s.close.Ok encodeBlock := by
  unfold ClientSession.close
  split
  · rename_i op hop
    obtain ⟨c, hh, ha⟩ := h.running op hop
    have hne : Outcome.cancelled ≠ .accepted := nofun
    exact hh.failed (noData_of_bodyStarted ha) hne 0 _
  · rename_i hnone
    exact .of_idle hnone ⟨(h.idle hnone).log, nofun⟩

theorem Ok.waiting {waits : ClientWait → Bool} (hwaiting : s.waiting waits = some (op, c)) :
    s.current = some op ∧ waits op.waits = true ∧ s.Holds encodeBlock c op ∧
      AtStage s.log c op := by
  unfold ClientSession.waiting at hwaiting
  split at hwaiting
  · rename_i op' c' hop hc
    split_ifs at hwaiting with hwaits
    obtain ⟨rfl, rfl⟩ := Prod.mk.inj (Option.some.inj hwaiting)
    obtain ⟨c'', hh, ha⟩ := h.running _ hop
    obtain rfl : c'' = c' := Option.some.inj (hh.connection.symm.trans hc)
    exact ⟨hop, hwaits, hh, ha⟩
  · cases hwaiting

end

/-- An operation at rest may go on. -/
theorem ready_of_atStage (ha : AtStage log c op) (hwaits : op.waits ≠ .read)
    (hstage : op.stage ≠ .body) : Ready log c op where
  reply := ha.waits hwaits
  bodyStarted := Bool.eq_false_iff.mpr fun hb => hstage (ha.bodyStarted.mp hb)
  noData := ha.noData hstage
  unread := by
    have hunread := ha.unread
    rw [ha.waits hwaits] at hunread
    exact hunread

/-- The operation begins to read a reply. -/
theorem Ready.read (h : Ready log c op) (hfits : stage.Fits op.call) (hbody : stage ≠ .body)
    (htls : stage ≠ .tls)
    (hsh : ∀ o, openedWith log = some o → stage.needsTls o.tls = true → c.tls = true) :
    AtStage log c { op with stage, reply := {}, waits := .read } :=
  have hrd : Ready log c { op with reply := {} } := { h with reply := rfl }
  hrd.atStage hfits hbody (fun hstage => absurd hstage htls) nofun nofun fun _ => hsh

theorem Ok.connected (h : s.Ok encodeBlock) (error : Option Bytes) :
    (s.connected encodeBlock error).Ok encodeBlock := by
  unfold ClientSession.connected
  split
  · exact h
  · rename_i op c hwaiting
    obtain ⟨hop, hwaits, hh, ha⟩ := h.waiting hwaiting
    have hconnect : op.waits = .connect := of_decide_eq_true hwaits
    obtain ⟨hstage, hreplies⟩ := ha.connect hconnect
    have hrd : Ready s.log c op :=
      ready_of_atStage ha (by rw [hconnect]; nofun) (by rw [hstage]; nofun)
    split
    · exact h.ioFailed hop _
    · rename_i o hcall
      split_ifs with himplicit
      · exact hh.handshake hrd hcall hreplies true
      · refine (hh.congr { op with reply := {} } rfl rfl).readReply ?_
        have hread : AtStage s.log c
            { op with stage := .connect, reply := {}, waits := .read } := by
          refine hrd.read (by rw [hcall]; trivial) nofun nofun fun o' ho' hneeds => ?_
          obtain rfl : o = o' := Option.some.inj ((hh.options o hcall).symm.trans ho')
          -- without implicit TLS nothing needs TLS before EHLO
          cases hmode : o.tls with
          | implicit => exact absurd hmode himplicit
          | none | startTlsRequired =>
            rw [hmode] at hneeds
            cases hneeds
        rw [← hstage] at hread
        exact hread
    · exact h

theorem Holds.secured (h : s.Holds encodeBlock c op) (hreplies : c.replies = [])
    (hunread : c.stream = c.read ++ c.replies) :
    { s with connection := some { c with tls := true }, log := .secured op.id c :: s.log }.Holds
      encodeBlock { c with tls := true } op where
  log := by
    refine h.log.push h.id_lt (fun _ => rfl) (fun _ => rfl) ⟨hreplies, ?_⟩
    rw [hunread, hreplies, append_nil]
  started := .tail _ h.started
  valid := h.valid
  connection := rfl
  wire := h.wire.secure op.id
  options o ho := (openedWith_cons rfl).trans (h.options o ho)

theorem Ok.handshaken (h : s.Ok encodeBlock) (error : Option Bytes) :
    (s.handshaken encodeBlock error).Ok encodeBlock := by
  unfold ClientSession.handshaken
  split
  · exact h
  · rename_i op c hwaiting
    obtain ⟨hop, hwaits, hh, ha⟩ := h.waiting hwaiting
    have hshake : ∃ b, op.waits = .handshake b := by
      rcases of_decide_eq_true hwaits with hw | hw
      · exact ⟨true, hw⟩
      · exact ⟨false, hw⟩
    obtain ⟨b, hb⟩ := hshake
    obtain ⟨hstage, hreplies⟩ := ha.handshake b hb
    have hrd : Ready s.log c op := ready_of_atStage ha (by rw [hb]; nofun) (by rw [hstage]; nofun)
    split
    · exact h.ioFailed hop _
    · rename_i o hcall
      have hholds' := hh.secured hreplies hrd.unread
      have hrd' : Ready (.secured op.id c :: s.log) { c with tls := true } op :=
        { hrd with noData := noData_cons hrd.noData rfl }
      split_ifs with himplicit
      · refine (hholds'.congr { op with stage := .connect, reply := {} } rfl rfl).readReply ?_
        exact hrd'.read (by rw [hcall]; trivial) nofun nofun fun _ _ _ => rfl
      · exact hholds'.command hrd' (hcall ▸ .ehlo o) nofun fun _ _ _ => rfl
    · exact h

theorem Ok.written (h : s.Ok encodeBlock) (error : Option Bytes) :
    (s.written encodeBlock error).Ok encodeBlock := by
  unfold ClientSession.written
  split
  · exact h
  · rename_i op c hwaiting
    obtain ⟨hop, hwaits, hh, ha⟩ := h.waiting hwaiting
    have hwrite : op.waits = .write := of_decide_eq_true hwaits
    split
    · exact h.ioFailed hop _
    · have hwritten : { s with log := .written op.id op.stage :: s.log }.Holds encodeBlock c op :=
        hh.push rfl (fun _ => rfl) (fun _ => rfl) rfl nofun trivial
      have hunread := ha.unread
      rw [ha.waits (by rw [hwrite]; nofun)] at hunread
      refine (hwritten.congr { op with reply := {} } rfl rfl).readReply ?_
      exact
        { ha with
          connect := nofun
          tls := fun hstage => absurd hstage (ha.stage_ne_tls (by rw [hwrite]; nofun))
          noData := fun hstage => noData_cons (ha.noData hstage) (beq_eq_false_iff_ne.mpr hstage)
          data := fun hstage => by
            obtain ⟨m, rest, hcall, hevs, hhist⟩ := ha.data hstage
            rw [if_pos hwrite] at hevs
            refine ⟨m, rest, hcall, (eventsOf_cons_self rfl).trans ?_, hhist⟩
            have hbody : op.stage = .body := hstage
            rw [hbody]
            exact congrArg _ hevs
          handshake := nofun
          waits := fun hne => absurd rfl hne
          partialReply := partialReply_empty
          unread := hunread
          shielded := fun _ => ha.shielded (.inl hwrite) }

theorem Ok.received (h : s.Ok encodeBlock) (data : Bytes) :
    (s.received encodeBlock data).Ok encodeBlock := by
  unfold ClientSession.received
  split
  · exact h
  · rename_i op c hwaiting
    obtain ⟨hop, hwaits, hh, ha⟩ := h.waiting hwaiting
    have hread : op.waits = .read := of_decide_eq_true hwaits
    split_ifs with hempty
    · exact h.ioFailed hop _
    · have hstrm : c.stream ++ data = c.read ++ (op.reply.raw ++ (c.replies ++ data)) := by
        rw [ha.unread]
        simp
      have hrecv := hh.receive
        { c with replies := c.replies ++ data, stream := c.stream ++ data } rfl (prefix_refl _)
        hh.wire.inOrder.replies (hh.wire.inOrder.stream.trans (prefix_append _ _))
      refine hrecv.readReply ?_
      exact
        { ha with
          connect := nofun
          tls := fun hstage => absurd hstage (ha.stage_ne_tls (by rw [hread]; nofun))
          data := fun hstage => by
            obtain ⟨m, rest, hcall, hevs, hhist⟩ := ha.data hstage
            rw [hread] at hevs
            exact ⟨m, rest, hcall, hevs, hhist⟩
          handshake := nofun
          waits := fun hne => absurd rfl hne
          unread := hstrm
          shielded := fun _ => ha.shielded (.inr hread) }

/-- **Every step keeps the invariant.** -/
theorem Ok.step (h : s.Ok encodeBlock) (i : Input) : (s.step encodeBlock i).Ok encodeBlock := by
  cases i with
  | connect o => exact h.connect o
  | send m => exact h.send m
  | quit => exact h.quit
  | close => exact h.close
  | connected error => exact h.connected error
  | handshaken error => exact h.handshaken error
  | written error => exact h.written error
  | received data => exact h.received data
  | readFailed error =>
    simp only [ClientSession.step]
    split
    · exact h
    · rename_i op c hwaiting
      exact h.ioFailed (h.waiting hwaiting).1 error
  | deadline =>
    simp only [ClientSession.step]
    split
    · exact h
    · rename_i op hop
      exact h.ioFailed hop _

theorem ok_empty : ({} : ClientSession).Ok encodeBlock := by
  refine .of_idle rfl ⟨⟨?_, fun _ => ?_, fun _ => ?_, grounded_nil, grounded_nil⟩, nofun⟩
  · exact fun _ he => absurd he not_mem_nil
  · rfl
  · rfl

/-- **The invariant holds of every session.** -/
theorem ok_run (encodeBlock : Bytes → Bytes) (is : List Input) :
    (run (step encodeBlock) {} is).Ok encodeBlock :=
  run_invariant (Ok encodeBlock) (fun _ i h => h.step i) ok_empty is

end

end ClientSession

end ProtoRelay
