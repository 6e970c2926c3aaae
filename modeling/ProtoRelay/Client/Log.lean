import ProtoRelay.Base.Logs
import ProtoRelay.Client.Replies

/-!
# The log of a client session

The operations of a session are numbered, and everything they do is recorded.  Each event is
justified by the events before it.
-/

namespace ProtoRelay

open List ClientEvent

/-! ## Events -/

namespace ClientEvent

def id : ClientEvent → Nat
  | started id _ | wrote id _ _ | written id _ | reply id _ _ | opened id _ | secured id _
  | completed id _ _ => id

/-- An event of the stage in which the message data is sent. -/
def isData : ClientEvent → Bool
  | wrote _ stage _ | written _ stage | reply _ stage _ => stage == .body
  | _ => false

def isStart (n : Nat) : ClientEvent → Bool
  | started id _ => id == n
  | _ => false

def isCompletion (n : Nat) : ClientEvent → Bool
  | completed id _ _ => id == n
  | _ => false

/-- The options of a connection that is opened. -/
def options? : ClientEvent → Option ConnectOptions
  | opened _ o => some o
  | _ => none

end ClientEvent

def starts (n : Nat) (log : List ClientEvent) : Nat := log.countP (·.isStart n)

def completions (n : Nat) (log : List ClientEvent) : Nat := log.countP (·.isCompletion n)

def eventsOf (n : Nat) (log : List ClientEvent) : List ClientEvent := log.filter (·.id == n)

/-- The options of the connection opened last. -/
def openedWith (log : List ClientEvent) : Option ConnectOptions := log.findSome? (·.options?)

def sinceOpened (log : List ClientEvent) : List ClientEvent := log.takeWhile (·.options?.isNone)

/-- The TLS handshake has succeeded on the connection opened last. -/
def Secured (log : List ClientEvent) : Prop := ∃ id c, .secured id c ∈ sinceOpened log

section

variable {e : ClientEvent} {log : List ClientEvent} {n : Nat}

theorem eventsOf_cons_self (h : e.id = n) : eventsOf n (e :: log) = e :: eventsOf n log := by
  simp [eventsOf, h]

theorem mem_eventsOf (h : e ∈ log) (hid : e.id = n) : e ∈ eventsOf n log :=
  mem_filter.mpr ⟨h, by simp [hid]⟩

theorem noData_cons (h : ∀ e' ∈ eventsOf n log, e'.isData = false) (he : e.isData = false) :
    ∀ e' ∈ eventsOf n (e :: log), e'.isData = false := by
  intro e' he'
  obtain ⟨hmem, hid⟩ := mem_filter.mp he'
  rcases mem_cons.mp hmem with rfl | hmem
  · exact he
  · exact h e' (mem_filter.mpr ⟨hmem, hid⟩)

theorem eventsOf_cons_of_ne (h : e.id ≠ n) : eventsOf n (e :: log) = eventsOf n log := by
  simp [eventsOf, h]

theorem openedWith_cons (h : e.options? = none) : openedWith (e :: log) = openedWith log := by
  simp [openedWith, h]

theorem sinceOpened_cons (h : e.options? = none) :
    sinceOpened (e :: log) = e :: sinceOpened log := by
  simp [sinceOpened, h]

theorem Secured.cons (hs : Secured log) (h : e.options? = none) : Secured (e :: log) := by
  obtain ⟨id, c, hmem⟩ := hs
  exact ⟨id, c, by rw [sinceOpened_cons h]; exact .tail _ hmem⟩

end

/-! ## What justifies an event -/

/-- The check an operation makes of what it was started with. -/
def ClientCall.isValid : ClientCall → Bool
  | .connect o => o.isValid
  | .send m => m.isValid
  | .quit => true

/-- What an operation writes at a stage. -/
inductive Command (encodeBlock : Bytes → Bytes) : ClientCall → ClientStage → Bytes → Prop
  | ehlo (o : ConnectOptions) :
    Command encodeBlock (.connect o) .ehlo (bytes "EHLO " ++ o.helo ++ bytes "\r\n")
  | starttls (o : ConnectOptions) : Command encodeBlock (.connect o) .starttls
      (bytes "STARTTLS\r\n")
  | auth (o : ConnectOptions) : Command encodeBlock (.connect o) .auth (bytes "AUTH PLAIN\r\n")
  | credentials (o : ConnectOptions) (text : Bytes) :
    Command encodeBlock (.connect o) .credentials (encodeBlock text ++ bytes "\r\n")
  | mail (m : ClientMessage) :
    Command encodeBlock (.send m) .mail (bytes "MAIL FROM:<" ++ m.sender ++ bytes ">\r\n")
  | recipient (m : ClientMessage) (i : Nat) (hi : i < m.recipients.length) :
    Command encodeBlock (.send m) .recipient (bytes "RCPT TO:<" ++ m.recipients.getD i [] ++
      bytes ">\r\n")
  | data (m : ClientMessage) : Command encodeBlock (.send m) .data (bytes "DATA\r\n")
  | body (m : ClientMessage) : Command encodeBlock (.send m) .body (dataFrame (m.raw.getD []))
  | quit : Command encodeBlock .quit .quit (bytes "QUIT\r\n")

/-- The stages in which credentials, addresses and message data are written. -/
def ClientStage.isProtected : ClientStage → Bool
  | .auth | .credentials | .mail | .recipient | .data | .body => true
  | _ => false

def ClientConnection.read (c : ClientConnection) : Bytes := (c.history.map (·.2)).flatten

/-- The replies that were read from the connection are at the front of the bytes received, and those
read before a TLS handshake come first. -/
structure ReadInOrder (log : List ClientEvent) (c : ClientConnection) : Prop where
  replies : ∀ h ∈ c.history, IsReply h.1 h.2
  stream : c.read <+: c.stream
  secured : ∀ id c₀, .secured id c₀ ∈ sinceOpened log → c₀.history <+: c.history

/-- The message data was written without error, behind a reply with code 354, and a reply with code
250 was read then, which follows the former in the bytes received. -/
def Delivered (n : Nat) (c : Option ClientConnection) (log : List ClientEvent) : Prop :=
  ∃ m c' rest, .started n (.send m) ∈ log ∧ c = some c' ∧
    eventsOf n log = .reply n .body 250 :: .written n .body ::
      .wrote n .body (dataFrame (m.raw.getD [])) :: .reply n .data 354 :: rest ∧
    ∃ before raw raw' after, c'.stream = before ++ (raw ++ (raw' ++ after)) ∧ IsReply 354 raw ∧
      IsReply 250 raw'

/-- What justifies the result of an operation. -/
structure Justified (n : Nat) (r : ClientResult) (c : Option ClientConnection)
    (log : List ClientEvent) : Prop where
  started : ∃ call, .started n call ∈ log ∧
    (call.isValid = true ∨ r.outcome = .protocolError ∨ r.outcome = .temporaryFailure)
  accepted : r.outcome = .accepted → Delivered n c log
  unknown : ∀ wire, .wrote n .body wire ∈ log → (∀ code, .reply n .body code ∉ log) →
    r.outcome = .outcomeUnknown
  inOrder : ∀ c', c = some c' → ReadInOrder log c'

/-- What justifies an event. -/
def ClientEvent.Sound (encodeBlock : Bytes → Bytes) : ClientEvent → List ClientEvent → Prop
  | .wrote n stage wire, log =>
    (∃ call, .started n call ∈ log ∧ call.isValid = true ∧ Command encodeBlock call stage wire) ∧
      ∃ o, openedWith log = some o ∧ (stage.isProtected = true → o.tls ≠ .none → Secured log)
  | .secured _ c, _ => c.replies = [] ∧ c.stream = c.read
  | .completed n r c, log => Justified n r c log
  | _, _ => True

/-! ## The log -/

/-- The operations are numbered as they are started, and each one is completed once, except for the
one that is running. -/
structure LogOk (encodeBlock : Bytes → Bytes) (log : List ClientEvent) (nextId : Nat)
    (running : Option Nat) : Prop where
  ids : ∀ e ∈ log, e.id < nextId
  starts : ∀ n, starts n log = if n < nextId then 1 else 0
  completions : ∀ n, completions n log = if n < nextId ∧ running ≠ some n then 1 else 0
  sound : Grounded (ClientEvent.Sound encodeBlock) log
  /-- a completion is the last event of its operation -/
  order : Grounded (fun e earlier => ProtoRelay.completions e.id earlier = 0) log

section

variable {encodeBlock : Bytes → Bytes} {log : List ClientEvent} {nextId : Nat}
  {running : Option Nat} {e : ClientEvent}

theorem LogOk.completions_running {n : Nat} (h : LogOk encodeBlock log nextId (some n)) :
    ProtoRelay.completions n log = 0 := by
  rw [h.completions n, if_neg fun hn => hn.2 rfl]

theorem LogOk.completions_nextId (h : LogOk encodeBlock log nextId running) :
    ProtoRelay.completions nextId log = 0 := by
  rw [h.completions nextId, if_neg fun hn => Nat.lt_irrefl _ hn.1]

/-- The operation that is running does something. -/
theorem LogOk.push (h : LogOk encodeBlock log nextId (some e.id)) (hid : e.id < nextId)
    (hstart : ∀ n, e.isStart n = false) (hcompl : ∀ n, e.isCompletion n = false)
    (hsound : e.Sound encodeBlock log) : LogOk encodeBlock (e :: log) nextId (some e.id) where
  ids e' he' := by
    rcases mem_cons.mp he' with rfl | he'
    · exact hid
    · exact h.ids e' he'
  starts n := by
    have hn := h.starts n
    rw [ProtoRelay.starts] at hn ⊢
    rw [countP_cons_of_neg (by simp [hstart n]), hn]
  completions n := by
    have hn := h.completions n
    rw [ProtoRelay.completions] at hn ⊢
    rw [countP_cons_of_neg (by simp [hcompl n]), hn]
  sound := h.sound.cons hsound
  order := h.order.cons h.completions_running

theorem LogOk.complete {n : Nat} (h : LogOk encodeBlock log nextId (some n)) (hid : n < nextId)
    {r : ClientResult} {c : Option ClientConnection} (hr : Justified n r c log) :
    LogOk encodeBlock (.completed n r c :: log) nextId none where
  ids e' he' := by
    rcases mem_cons.mp he' with rfl | he'
    · exact hid
    · exact h.ids e' he'
  starts n' := by
    have hn := h.starts n'
    rw [ProtoRelay.starts] at hn ⊢
    rw [countP_cons_of_neg (by simp [isStart]), hn]
  completions n' := by
    have hn := h.completions n'
    simp only [ProtoRelay.completions, countP_cons, isCompletion, beq_iff_eq] at hn ⊢
    rw [hn]
    -- the completion is the first of this operation, and of no other one
    by_cases heq : n = n'
    · subst heq
      simp [hid]
    · simp [heq]
  sound := h.sound.cons hr
  order := h.order.cons h.completions_running

theorem starts_started (h : ∀ n, starts n log = if n < nextId then 1 else 0) (call : ClientCall)
    (n : Nat) : starts n (.started nextId call :: log) = if n < nextId + 1 then 1 else 0 := by
  have hn := h n
  simp only [starts, countP_cons, isStart, beq_iff_eq] at hn ⊢
  rw [hn]
  split_ifs <;> omega

theorem LogOk.start (h : LogOk encodeBlock log nextId none) (call : ClientCall) :
    LogOk encodeBlock (.started nextId call :: log) (nextId + 1) (some nextId) where
  ids e' he' := by
    rcases mem_cons.mp he' with rfl | he'
    · exact Nat.lt_succ_self _
    · exact Nat.lt_succ_of_lt (h.ids e' he')
  starts := starts_started h.starts call
  completions n := by
    have hn := h.completions n
    rw [ProtoRelay.completions] at hn ⊢
    rw [countP_cons_of_neg (by simp [isCompletion]), hn]
    by_cases heq : n = nextId
    · simp [heq]
    · have hlt : n < nextId + 1 ↔ n < nextId := by omega
      simp [hlt, Ne.symm heq]
  sound := h.sound.cons trivial
  order := h.order.cons h.completions_nextId

theorem LogOk.busy (h : LogOk encodeBlock log nextId running) (hrunning : ∀ n ∈ running, n < nextId)
    (call : ClientCall) {r : ClientResult} {c : Option ClientConnection}
    (hr : Justified nextId r c (.started nextId call :: log)) :
    LogOk encodeBlock (.completed nextId r c :: .started nextId call :: log)
      (nextId + 1) running where
  ids e' he' := by
    rcases mem_cons.mp he' with rfl | he'
    · exact Nat.lt_succ_self _
    rcases mem_cons.mp he' with rfl | he'
    · exact Nat.lt_succ_self _
    · exact Nat.lt_succ_of_lt (h.ids e' he')
  starts n := by
    exact starts_started h.starts call n
  completions n := by
    have hn := h.completions n
    simp only [ProtoRelay.completions, countP_cons, isCompletion, beq_iff_eq] at hn ⊢
    rw [hn]
    by_cases heq : nextId = n
    · subst heq
      have hne : running ≠ some nextId := fun hr => absurd (hrunning nextId hr) (Nat.lt_irrefl _)
      simp [hne]
    · have hlt : n < nextId + 1 ↔ n < nextId := by omega
      simp [hlt, heq]
  sound := by
    have hsta : (started nextId call).Sound encodeBlock log := trivial
    exact (h.sound.cons hsta).cons hr
  order := by
    have hnext := h.completions_nextId
    have hsta : Grounded (fun e earlier => ProtoRelay.completions e.id earlier = 0)
        (.started nextId call :: log) := h.order.cons hnext
    refine hsta.cons ?_
    rw [ProtoRelay.completions] at hnext ⊢
    exact hnext

end

/-! ## The connection -/

/-- The connection opened last: TLS is up only after a handshake, and if the session is open, it is
up if the options ask for it. -/
structure ConnectionOk (log : List ClientEvent) (isOpen : Bool) (c : ClientConnection) : Prop where
  inOrder : ReadInOrder log c
  tls : c.tls = true → Secured log
  options : ∃ o, openedWith log = some o ∧ (isOpen = true → o.tls ≠ .none → c.tls = true)

section

variable {log : List ClientEvent} {e : ClientEvent} {c : ClientConnection} {isOpen : Bool}

theorem ReadInOrder.push (h : ReadInOrder log c) (he : e.options? = none)
    (hsecured : ∀ id c₀, e ≠ .secured id c₀) : ReadInOrder (e :: log) c :=
  { h with
    secured := fun id c₀ hmem => by
      rw [sinceOpened_cons he] at hmem
      rcases mem_cons.mp hmem with heq | hmem
      · exact absurd heq.symm (hsecured id c₀)
      · exact h.secured id c₀ hmem }

theorem ConnectionOk.push (h : ConnectionOk log isOpen c) (he : e.options? = none)
    (hsecured : ∀ id c₀, e ≠ .secured id c₀) : ConnectionOk (e :: log) isOpen c where
  inOrder := h.inOrder.push he hsecured
  tls htls := (h.tls htls).cons he
  options := by
    rw [openedWith_cons he]
    exact h.options

theorem ConnectionOk.secure (h : ConnectionOk log isOpen c) (n : Nat) :
    ConnectionOk (.secured n c :: log) isOpen { c with tls := true } where
  inOrder :=
    { replies := h.inOrder.replies
      stream := h.inOrder.stream
      secured := by
        intro id c₀ hmem
        rcases mem_cons.mp hmem with heq | hmem
        · obtain ⟨-, rfl⟩ := secured.inj heq
          exact prefix_refl _
        · exact h.inOrder.secured id c₀ hmem }
  tls _ := ⟨n, c, by rw [sinceOpened_cons rfl]; exact mem_cons_self⟩
  options := by
    obtain ⟨o, ho, -⟩ := h.options
    exact ⟨o, by rw [openedWith_cons rfl, ho], fun _ _ => rfl⟩

theorem connectionOk_opened (n : Nat) (o : ConnectOptions) (log : List ClientEvent) :
    ConnectionOk (.opened n o :: log) false {} where
  inOrder := ⟨fun _ h => absurd h not_mem_nil, prefix_refl _,
    fun _ _ hmem => absurd hmem not_mem_nil⟩
  tls := nofun
  options := ⟨o, rfl, nofun⟩

theorem ConnectionOk.receive (h : ConnectionOk log isOpen c) {c' : ClientConnection}
    (htls : c'.tls = c.tls) (hhist : c.history <+: c'.history)
    (hreplies : ∀ r ∈ c'.history, IsReply r.1 r.2) (hstrm : c'.read <+: c'.stream) :
    ConnectionOk log isOpen c' where
  inOrder :=
    { replies := hreplies
      stream := hstrm
      secured := fun id c₀ hmem => (h.inOrder.secured id c₀ hmem).trans hhist }
  tls := by
    rw [htls]
    exact h.tls
  options := by
    rw [htls]
    exact h.options

end

end ProtoRelay
