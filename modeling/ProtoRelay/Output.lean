import ProtoRelay.Base.Runs
import ProtoRelay.Framework.View
import ProtoRelay.Smtp.Types

/-!
# The output of a session

A protocol hands its replies to `do_async_write`.  While more input is buffered a reply is held
back, to go out together with a later one.  Nothing is lost, doubled or reordered on this way, as
long as the connection is not given away with replies still to be sent.  But a reply can be held
back for good: `drain_buffered_commands` flushes when the input is used up, the loop in the
completion of a read does not.  So a unit of input that is taken while a reply is held back must be
answered.
-/

namespace ProtoRelay

open List

/-- One call of a protocol, or one event of the executor or the network.  Handlers are sequences of
calls, and those of different threads may interleave.  `Engine::settle` is `setState`, `drain` and
`write`: that it writes its reply before it enters the loop makes no difference to the transport. -/
inductive SessionCall (St : Type)
  | read
  | write (data : Bytes) (callback : Option WriteCallback)
  | setState (st : St)
  | setPaused (paused : Bool)
  /-- `drain_buffered_commands` is entered -/
  | drain
  /-- the innermost loop takes a unit of input, or ends; `auto` is `auto_continue_read` -/
  | take
  | loopEnd (auto : Bool)
  | close
  | closeAfterFlush
  | runTask
  | readDone (data : Option Bytes)
  | writeDone (i : Nat) (ok : Bool)

/-- The bytes a task is going to write. -/
def Task.bytes {St ε : Type} : Task St ε → Bytes
  | .startWrite payload _ => payload
  | _ => []

def Effect.bytes {ε : Type} : Effect ε → Bytes
  | .wrote payload => payload
  | _ => []

namespace SessionBase

variable {St ε : Type} (s : SessionBase St ε)

/-- The bytes the connection was given, in order. -/
def written : Bytes := s.log.reverse.flatMap Effect.bytes

def queued : Bytes := s.posted.flatMap Task.bytes

/-- The bytes on their way to the connection; without one, there are none. -/
def onTheWay : Bytes := if s.hasConnection then s.queued ++ s.pendingWriteBuf else []

variable [LineProtocol St]

/-- `drain_buffered_commands` behind its loop. -/
def drainExit : SessionBase St ε :=
  if !s.paused && !s.closed && !s.hasBufferedInput && !s.pendingWriteBuf.isEmpty then
    s.doAsyncWrite [] none
  else s

def endLoop (auto : Bool) : SessionBase St ε :=
  match s.loops with
  | [] => s
  | l :: ls =>
    if s.canConsume then s
    else
      let s := { s with loops := ls }
      match l with
      | .read dispatched =>
        if (!dispatched || auto) && !s.paused && !s.closed then s.doAsyncRead else s
      | .drain => s.drainExit

def call : SessionCall St → SessionBase St ε
  | .read => s.doAsyncRead
  | .write data callback => s.doAsyncWrite data callback
  | .setState st => { s with state := st }
  | .setPaused paused => { s with paused }
  | .drain => { s with paused := false, loops := .drain :: s.loops }
  | .take => (s.takeLine.map Prod.snd).getD s
  | .loopEnd auto => s.endLoop auto
  | .close => s.close
  | .closeAfterFlush => s.closeAfterFlush
  | .runTask => s.runTask
  | .readDone data => s.readDone data
  | .writeDone i ok => s.writeDone i ok

/-- The bytes a call gives to `do_async_write`, until the session closes. -/
def gives : SessionCall St → Bytes
  | .write data _ => if s.closed then [] else data
  | _ => []

/-- **The calls that leave nothing behind** on an open session.  The connection is given away
when there is nothing to be sent, and nothing is written afterwards.  What is a unit of input
stays one when the state changes or more arrives.  A unit that was taken while a reply was held
back is answered (`owed` is false) before the loop of a read ends with it, or a pause outside of
the loops. -/
def Unhindered (owed : Bool) (c : SessionCall St) : Prop :=
  s.closed = false →
    match c with
    | .write data callback =>
      (s.hasConnection = false → data = []) ∧
        (callback = some .handoff → s.hasConnection = true → s.hasBufferedInput = true →
          s.queued = [] ∧ s.pendingWriteBuf ++ data = [])
    | .writeDone i true =>
      s.hasConnection = true → s.writes[i]? = some (some .handoff) →
        s.queued = [] ∧ s.pendingWriteBuf = []
    | .setState st =>
      s.hasBufferedInput = true → LineProtocol.hasBufferedInput st s.commandReadBuffer = true
    | .readDone (some data) =>
      s.hasBufferedInput = true →
        LineProtocol.hasBufferedInput s.state (s.commandReadBuffer ++ data) = true
    | .setPaused paused => s.loops = [] → paused = false → s.hasBufferedInput = false → owed = false
    | .loopEnd _ =>
      ∀ dispatched, s.loops = [.read dispatched] → s.paused = false → s.hasBufferedInput = false →
        owed = false
    | _ => True

end SessionBase

/-- A session, and all that was given to `do_async_write`.  `owed` says that a reply was held back
when the last unit of input was taken, and that nothing was written since. -/
structure OutputSession (St ε : Type) where
  base : SessionBase St ε
  given : Bytes := []
  owed : Bool := false

namespace OutputSession

variable {St ε : Type} [LineProtocol St]

def owes (s : OutputSession St ε) : SessionCall St → Bool
  | .take => if s.base.takeLine.isSome then !s.base.pendingWriteBuf.isEmpty else s.owed
  | .write _ _ => s.owed && (s.base.closed || !s.base.hasConnection)
  | _ => s.owed

def step (s : OutputSession St ε) (c : SessionCall St) : OutputSession St ε :=
  ⟨s.base.call c, s.given ++ s.base.gives c, s.owes c⟩

/-- **The output is conserved**: what was given has been written, in order and once, up to what is
on its way; and nothing is held back when the session waits for its next read. -/
structure Conserves (s : OutputSession St ε) : Prop where
  bytes : s.base.closed = false → s.given = s.base.written ++ s.base.onTheWay
  flushed : s.base.closed = false → s.base.paused = false → s.base.hasBufferedInput = false →
    s.base.loops = [] → s.base.readInProgress = true → s.base.pendingWriteBuf = []

end OutputSession

/-! ## What the transport keeps -/

/-- The tasks of an open session. -/
def Task.isPlain {St ε : Type} : Task St ε → Bool
  | .startRead | .startWrite .. | .close | .closeSocket => true
  | _ => false

/-- The part of a session its output depends on. -/
structure Outline (St ε : Type) where
  sent : Bytes
  pending : Bytes
  connected : Bool
  paused : Bool
  loops : List Loop
  state : St
  buffer : Bytes
  others : List (Task St ε)

namespace SessionBase

variable {St ε : Type} (s : SessionBase St ε) {s' : SessionBase St ε} {t : Task St ε}

def outline : Outline St ε where
  sent := s.written ++ if s.hasConnection then s.queued else []
  pending := s.pendingWriteBuf
  connected := s.hasConnection
  paused := s.paused
  loops := s.loops
  state := s.state
  buffer := s.commandReadBuffer
  others := s.posted.filter (!·.isPlain)

/-- The session is closed, or its outline stays. -/
def Keeps (s s' : SessionBase St ε) : Prop :=
  s'.closed = false → s.closed = false ∧ s'.outline = s.outline

theorem Keeps.of_closed (h : s'.closed = true) : s.Keeps s' := by
  intro hopen
  cases h.symm.trans hopen

theorem outline_post (hbytes : t.bytes = []) (hpl : t.isPlain = true) :
    (s.post t).outline = s.outline := by
  simp [outline, post, written, queued, hbytes, hpl]

theorem outline_record {e : Effect ε} (h : e.bytes = []) : (s.record e).outline = s.outline := by
  have hwritten : (s.record e).written = s.written := by simp [written, record, h]
  rw [outline, hwritten]
  rfl

theorem outline_popped {ts : List (Task St ε)} (h : s.posted = t :: ts) (hbytes : t.bytes = [])
    (hpl : t.isPlain = true) : { s with posted := ts }.outline = s.outline := by
  simp [outline, written, queued, h, hbytes, hpl]

theorem keeps_closeAfterFlush : s.Keeps s.closeAfterFlush := by
  unfold closeAfterFlush
  split
  · exact fun hopen => ⟨hopen, rfl⟩
  · split
    · exact fun hopen => ⟨hopen, s.outline_post rfl rfl⟩
    · exact .of_closed s s.closed_close

theorem keeps_startWrite {ts : List (Task St ε)} {payload : Bytes} {callback : Option WriteCallback}
    (h : s.posted = .startWrite payload callback :: ts) :
    s.Keeps ({ s with posted := ts }.startWrite payload callback) := by
  unfold startWrite
  split
  · rename_i hgone
    intro hopen
    have hconn : s.hasConnection = false := by simpa [show s.closed = false from hopen] using hgone
    exact ⟨hopen, by simp [outline, written, h, hconn, Task.isPlain]⟩
  · rename_i hthere
    have hconn : s.hasConnection = true := by simp at hthere; exact hthere.2
    intro hopen
    exact ⟨hopen, by
      simp [outline, written, queued, record, h, hconn, Task.bytes, Effect.bytes, Task.isPlain]⟩

variable [LineProtocol St]

theorem keeps_doAsyncRead : s.Keeps s.doAsyncRead := by
  unfold doAsyncRead
  split
  · exact fun hopen => ⟨hopen, rfl⟩
  · split
    · exact fun hopen => ⟨hopen, rfl⟩
    · exact fun hopen => ⟨hopen, s.outline_post rfl rfl⟩

theorem keeps_startRead : s.Keeps s.startRead := by
  unfold startRead
  split
  · exact fun hopen => ⟨hopen, rfl⟩
  · split
    · exact fun hopen => ⟨hopen, rfl⟩
    · split
      · exact fun hopen => ⟨hopen, rfl⟩
      · exact fun hopen => ⟨hopen, outline_record _ rfl⟩

theorem keeps_runTask (hpl : ∀ t ∈ s.posted, t.isPlain = true) : s.Keeps s.runTask := by
  unfold runTask
  cases hpo : s.posted with
  | nil => exact fun hopen => ⟨hopen, rfl⟩
  | cons t ts =>
    have ht := hpl t (by simp [hpo])
    have hpopped := s.outline_popped hpo
    cases t with
    | startRead =>
      intro hopen
      obtain ⟨hpre, hkept⟩ := keeps_startRead _ hopen
      exact ⟨hpre, hkept.trans (hpopped rfl rfl)⟩
    | startWrite payload callback => exact s.keeps_startWrite hpo
    | closeSocket => exact fun hopen => ⟨hopen, hpopped rfl rfl⟩
    | close => exact .of_closed s (closed_close _)
    | flush | settle | settleClosing => cases ht

/-! ## What is true of an open session -/

/-- All that was given is accounted for, nothing is left when the connection is gone, a reply is
held back only with input left or an answer owed, and only for a reason. -/
structure Kept (given : Bytes) (owed : Bool) (o : Outline St ε) : Prop where
  bytes : given = o.sent ++ o.pending
  released : o.connected = false → o.pending = []
  held : o.pending ≠ [] → LineProtocol.hasBufferedInput o.state o.buffer = true ∨ owed = true
  reason : o.paused = false → LineProtocol.hasBufferedInput o.state o.buffer = false →
    o.loops = [] → o.pending = []
  others : o.others = []

def Accounts (given : Bytes) (owed : Bool) : Prop := s.closed = false → Kept given owed s.outline

variable {s} {given data : Bytes} {owed owed' : Bool}

/-- Without input left and without an answer owed, nothing is held back. -/
theorem Kept.pending_eq_nil (h : Kept given owed s.outline) (hin : s.hasBufferedInput = false)
    (howed : owed = false) : s.pendingWriteBuf = [] := by
  by_contra hpend
  rcases h.held hpend with hheld | hheld
  · cases hin.symm.trans hheld
  · cases howed.symm.trans hheld

theorem Accounts.keeps (h : s.Accounts given owed) (hkeeps : s.Keeps s') :
    s'.Accounts given owed := by
  intro hopen
  obtain ⟨hpre, houtline⟩ := hkeeps hopen
  rw [houtline]
  exact h hpre

theorem Kept.isPlain (h : Kept given owed s.outline) : ∀ t ∈ s.posted, t.isPlain = true := by
  have hoth : s.posted.filter (!·.isPlain) = [] := h.others
  simpa using hoth

/-- On the side of the input anything may change, as long as there is a reason to hold back. -/
theorem Accounts.withInput (h : s.Accounts given owed) {paused : Bool} {loops : List Loop}
    {state : St} {buffer : Bytes}
    (hheld : s.closed = false → s.pendingWriteBuf ≠ [] →
      LineProtocol.hasBufferedInput state buffer = true ∨ owed' = true)
    (hreason : s.closed = false → paused = false →
      LineProtocol.hasBufferedInput state buffer = false → loops = [] → s.pendingWriteBuf = []) :
    { s with paused, loops, state, commandReadBuffer := buffer }.Accounts given owed' :=
  fun hopen => ⟨(h hopen).bytes, (h hopen).released, hheld hopen, hreason hopen, (h hopen).others⟩

/-- The same if the input stays. -/
theorem Accounts.withLoops (h : s.Accounts given owed) {paused : Bool} {loops : List Loop}
    (hreason : s.closed = false → paused = false → s.hasBufferedInput = false → loops = [] →
      s.pendingWriteBuf = []) : { s with paused, loops }.Accounts given owed :=
  h.withInput (fun hopen => (h hopen).held) hreason

/-- The connection is given away when there is nothing to be sent. -/
theorem Accounts.releaseConnection (h : s.Accounts given owed)
    (hnone : s.closed = false → s.hasConnection = true → s.queued = [] ∧ s.pendingWriteBuf = []) :
    s.releaseConnection.Accounts given owed := by
  unfold SessionBase.releaseConnection
  split
  · rename_i hconn
    intro hopen
    have hkept := h hopen
    obtain ⟨hqueued, hpend⟩ := hnone hopen hconn
    rw [outline_record _ rfl]
    refine ⟨?_, fun _ => hpend, fun hne => absurd hpend hne, fun _ _ _ => hpend, hkept.others⟩
    rw [hkept.bytes]
    simp [outline, written, hqueued]
  · exact h

/-- Everything held back is posted. -/
theorem Kept.flushed (h : Kept given owed s.outline) (hconn : s.hasConnection = true)
    (callback : Option WriteCallback) :
    Kept (given ++ data) owed' ({ s with pendingWriteBuf := [] }.post
        (.startWrite (s.pendingWriteBuf ++ data) callback)).outline := by
  refine ⟨?_, fun _ => rfl, fun hne => absurd rfl hne, fun _ _ _ => rfl, ?_⟩
  · rw [h.bytes]
    simp [outline, post, written, queued, hconn, Task.bytes]
  · have hoth := h.others
    simpa [outline, post, Task.isPlain] using hoth

section

variable (h : s.Accounts given owed)

include h

/-- Whatever is owed is answered by a write that is taken. -/
theorem Accounts.doAsyncWrite {callback : Option WriteCallback}
    (hc : s.Unhindered owed (.write data callback)) :
    (s.doAsyncWrite data callback).Accounts (given ++ s.gives (.write data callback))
      (owed && (s.closed || !s.hasConnection)) := by
  by_cases hclosed : s.closed = true
  · rw [SessionBase.doAsyncWrite, if_pos (by simp [hclosed])]
    exact fun hopen => nomatch hclosed.symm.trans hopen
  have hopen : s.closed = false := eq_false_of_ne_true hclosed
  have hkept := h hopen
  have hgives : s.gives (.write data callback) = data := if_neg hclosed
  rw [hgives]
  by_cases hconn : s.hasConnection = true
  · have howed : (owed && (s.closed || !s.hasConnection)) = false := by simp [hopen, hconn]
    rw [howed, SessionBase.doAsyncWrite, if_neg (by simp [hopen, hconn])]
    split
    · rename_i hin
      -- more input: the data is held back
      have hheld : { s with pendingWriteBuf := s.pendingWriteBuf ++ data }.Accounts
          (given ++ data) false := by
        refine fun _ => ⟨?_, fun hgone => ?_, fun _ => .inl hin, fun _ hnone => ?_, hkept.others⟩
        · rw [hkept.bytes, append_assoc]
          rfl
        · cases hconn.symm.trans hgone
        · cases hin.symm.trans hnone
      cases callback with
      | none => exact hheld
      | some callback =>
        cases callback with
        | close => exact hheld.keeps (.of_closed _ (closed_close _))
        | handoff => exact hheld.releaseConnection fun hopen hconn => (hc hopen).2 rfl hconn hin
    · exact fun _ => hkept.flushed hconn callback
  · have hgone : s.hasConnection = false := eq_false_of_ne_true hconn
    have howed : (owed && (s.closed || !s.hasConnection)) = owed := by simp [hgone]
    rw [howed, SessionBase.doAsyncWrite, if_pos (by simp [hgone]), (hc hopen).1 hgone, append_nil]
    exact h

theorem Accounts.writeDone {i : Nat} {ok : Bool}
    (hc : s.Unhindered owed (.writeDone i ok)) : (s.writeDone i ok).Accounts given owed := by
  unfold SessionBase.writeDone
  split
  · exact h
  · rename_i callback hcallback
    have hrest : { s with writes := s.writes.eraseIdx i }.Accounts given owed := h
    dsimp only
    split
    · exact h
    · split
      · exact hrest.keeps (.of_closed _ (closed_close _))
      · rename_i hok
        obtain rfl : ok = true := by simpa using hok
        split
        · rename_i callback
          cases callback with
          | close => exact hrest.keeps (.of_closed _ (closed_close _))
          | handoff =>
            exact hrest.releaseConnection fun hopen hconn => hc hopen hconn hcallback
        · exact hrest.keeps (keeps_doAsyncRead _)

theorem Accounts.readDone {data : Option Bytes} (hc : s.Unhindered owed (.readDone data)) :
    (s.readDone data).Accounts given owed := by
  unfold SessionBase.readDone
  have hrest : { s with readInProgress := false }.Accounts given owed := h
  dsimp only
  split
  · exact h
  · split
    · exact hrest.keeps (.of_closed _ (closed_close _))
    · exact hrest.keeps (keeps_doAsyncRead _)
    · split
      · exact hrest.keeps (.of_closed _ (closed_close _))
      · -- the loop that is entered is a reason to hold back
        rename_i data _ _
        have hrec :
            ({ s with readInProgress := false }.record (.received data)).Accounts given owed :=
          hrest.keeps fun hopen => ⟨hopen, outline_record _ rfl⟩
        refine hrec.withInput (fun hopen hpend => ?_) fun _ _ _ hl => nomatch hl
        exact ((h hopen).held hpend).imp_left (hc hopen)

theorem Accounts.drainExit (ls : List Loop) :
    { s with loops := ls }.drainExit.Accounts given owed := by
  unfold SessionBase.drainExit
  split
  · rename_i hflush
    simp only [Bool.and_eq_true, Bool.not_eq_true', isEmpty_eq_false_iff] at hflush
    obtain ⟨⟨⟨-, hopen⟩, hin⟩, hpend⟩ := hflush
    have hconn : s.hasConnection = true := by
      by_contra hgone
      exact hpend ((h hopen).released (Bool.eq_false_iff.mpr hgone))
    have hkept : Kept (given ++ []) owed _ := (h hopen).flushed hconn none
    rw [append_nil] at hkept
    unfold SessionBase.doAsyncWrite
    rw [if_neg (by simp [hopen, hconn]), hin]
    exact fun _ => { hkept with reason := fun _ _ _ => rfl }
  · rename_i hflush
    refine h.withLoops fun hopen hp hin _ => ?_
    by_contra hpend
    refine hflush ?_
    simp only [Bool.and_eq_true, Bool.not_eq_true', isEmpty_eq_false_iff]
    exact ⟨⟨⟨hp, hopen⟩, hin⟩, hpend⟩

theorem Accounts.endLoop {auto : Bool} (hc : s.Unhindered owed (.loopEnd auto)) :
    (s.endLoop auto).Accounts given owed := by
  unfold SessionBase.endLoop
  split
  · exact h
  · rename_i l ls hl
    split
    · exact h
    · cases l with
      | drain => exact h.drainExit ls
      | read dispatched =>
        have hafter : { s with loops := ls }.Accounts given owed :=
          h.withLoops fun hopen hp hin hls =>
            (h hopen).pending_eq_nil hin (hc hopen dispatched (hls ▸ hl) hp hin)
        dsimp only
        split
        · exact hafter.keeps (keeps_doAsyncRead _)
        · exact hafter

theorem Accounts.take :
    ((s.takeLine.map Prod.snd).getD s).Accounts given
      (if s.takeLine.isSome then !s.pendingWriteBuf.isEmpty else owed) := by
  unfold takeLine
  split
  · exact h
  · split
    · exact h.withInput (fun _ hpend => .inr (by simpa using hpend)) fun _ _ _ hl => nomatch hl
    · exact h

end

end SessionBase

namespace OutputSession

variable {St ε : Type} [LineProtocol St] {s : OutputSession St ε}

/-- **One call** that leaves nothing behind. -/
theorem accounts_step (h : s.base.Accounts s.given s.owed) {c : SessionCall St}
    (hc : s.base.Unhindered s.owed c) :
    (s.step c).base.Accounts (s.step c).given (s.step c).owed := by
  cases c
  case write data callback => exact h.doAsyncWrite hc
  all_goals simp only [step, SessionBase.gives, append_nil, owes]
  case read => exact h.keeps (SessionBase.keeps_doAsyncRead _)
  case setState st =>
    refine h.withInput (fun hopen hpend => ((h hopen).held hpend).imp_left (hc hopen)) ?_
    refine fun hopen hp hin hl => (h hopen).reason hp (eq_false_of_ne_true fun hbuffered => ?_) hl
    cases hin.symm.trans (hc hopen hbuffered)
  case setPaused paused =>
    exact h.withLoops fun hopen hp hin hl => (h hopen).pending_eq_nil hin (hc hopen hl hp hin)
  case drain => exact h.withLoops fun _ _ _ hl => nomatch hl
  case take => exact h.take
  case loopEnd auto => exact h.endLoop hc
  case close => exact h.keeps (.of_closed _ s.base.closed_close)
  case closeAfterFlush => exact h.keeps s.base.keeps_closeAfterFlush
  case runTask =>
    cases hopen : s.base.closed with
    | true => exact h.keeps (.of_closed _ (s.base.closed_runTask hopen))
    | false => exact h.keeps (s.base.keeps_runTask (h hopen).isPlain)
  case readDone data => exact h.readDone hc
  case writeDone i ok => exact h.writeDone hc

theorem conserves_of_accounts (h : s.base.Accounts s.given s.owed) : s.Conserves := by
  refine ⟨fun hopen => ?_, fun hopen hp hin hl _ => (h hopen).reason hp hin hl⟩
  rw [(h hopen).bytes, SessionBase.onTheWay]
  cases hconn : s.base.hasConnection with
  | true => simp [SessionBase.outline, hconn]
  | false =>
    have hpend := (h hopen).released hconn
    simpa [SessionBase.outline, hconn] using hpend

end OutputSession

end ProtoRelay
