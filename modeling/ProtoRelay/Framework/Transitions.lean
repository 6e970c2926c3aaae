import ProtoRelay.Base.Runs
import ProtoRelay.Framework.View

/-!
# Transitions and their tokens

A handler that needs asynchronous work calls `begin_transition`.  The session is paused from then
on, and the handler holds an `Engine::Transition`: an object that can be moved but not copied, and
that the first of `finish`, `fail` and `finish_closing` disarms.  That call posts the task that
settles the step, and only a settled step lets the session consume input again.

Here the engine runs under an arbitrary description and with arbitrary handlers: what they do, in
which order, on which thread and how far apart is left to the inputs.  A Transition is settled at
most once.  But an armed Transition has no destructor of its own, and the barrier around a handler
that throws only writes a reply.  So the last armed Transition of a paused session must not die
unused.  And a Transition posts to the executor of the connection without a look at whether there is
one: it must not be completed after the connection of an open session was given away.
-/

namespace ProtoRelay

/-- `Engine::Transition` while it is armed; `id` tells Transitions apart. -/
structure Transition (St : Type) where
  id : Nat
  target : Option St
  reply : Option Bytes

/-- The calls that complete a Transition. -/
inductive Completion (St : Type)
  | finish (ok : Bool)
  /-- `finish(target, reply)` -/
  | finishWith (target : St) (reply : Option Bytes)
  | fail (errorReply : Bytes)
  | finishClosing

/-- The task a completion posts. -/
def Transition.task {St ε : Type} (t : Transition St) : Completion St → Task St ε
  | .finish true => .settle t.target t.reply []
  | .finish false => .settle none none []
  | .finishWith target reply => .settle (some target) reply []
  | .fail errorReply => .settle none (some errorReply) []
  | .finishClosing => .settleClosing t.target

/-- What the network, the input loops and the handlers do to the transport, apart from
transitions. -/
inductive Move (St Ev : Type)
  | read
  | readDone (data : Option Bytes)
  | write (data : Bytes) (callback : Option WriteCallback)
  | writeDone (i : Nat) (ok : Bool)
  /-- the innermost loop takes a line, whose event is `event` -/
  | dispatch (event : Ev) (refusal : Bytes)
  | loopEnd
  | apply (target : St) (reply : Option Bytes)
  | applyClosing (target : St)
  | replyThenSettle (text : Bytes) (target : St)
  | close
  /-- also what follows a refusal that exhausts the error budget -/
  | closeAfterFlush

/-- A session under the engine, with the Transitions that are armed for it.  `posted` is history:
the Transitions for which a settle task was posted, newest first.  The executor runs a task once. -/
structure EngineSession (St ε : Type) where
  base : SessionBase St ε
  armed : List (Transition St) := []
  issued : Nat := 0
  posted : List Nat := []

inductive EngineInput (St Ev : Type)
  | move (m : Move St Ev)
  | runTask
  | beginTransition (target : Option St) (reply : Option Bytes)
  | complete (id : Nat) (c : Completion St)
  /-- the objects go out of scope -/
  | destroy (ids : List Nat)
  /-- a handler throws: the objects in its frame die, and the barrier replies -/
  | throw (ids : List Nat) (internalError : Bytes)

variable {St Ev ε : Type}

/-! ## The transport under the tokens -/

namespace SessionBase

variable {b b' : SessionBase St ε}

/-- What a move leaves to hold: it queues and removes no settle task, pauses nothing, a closed
session stays closed, and no null connection is dereferenced. -/
structure Calm (b b' : SessionBase St ε) : Prop where
  settles : b'.view.settles = b.view.settles
  paused : b'.paused = true → b.paused = true
  closed : b.closed = true → b'.closed = true
  crashed : b'.crashed = b.crashed

theorem Calm.of_view (h : b'.view = b.view) (hcl : b.closed = true → b'.closed = true)
    (hcr : b'.crashed = b.crashed) : b.Calm b' where
  settles := congrArg View.settles h
  paused hp := (congrArg View.paused h).symm.trans hp
  closed := hcl
  crashed := hcr

/-- A write point does nothing to a closed session, and lifts the pause of an open one. -/
theorem Calm.of_settled {v : View St ε} (h : b'.view = if b.closed then b.view else v)
    (hsettles : v.settles = b.view.settles) (hpa : v.paused = false)
    (hcl : b.closed = true → b'.closed = true) (hcr : b'.crashed = b.crashed) : b.Calm b' := by
  cases hb : b.closed with
  | true => exact .of_view (h.trans (if_pos hb)) hcl hcr
  | false =>
    have hv : b'.view = v := h.trans (if_neg (by simp [hb]))
    refine ⟨(congrArg View.settles hv).trans hsettles, fun hp => ?_, hcl, hcr⟩
    cases hpa.symm.trans ((congrArg View.paused hv).symm.trans hp)

/-! Only `postTransition` takes the connection for granted. -/

section Crash

variable (b)

@[simp] theorem crashed_close : b.close.crashed = b.crashed := by
  unfold close
  dsimp only
  repeat' split
  all_goals rfl

theorem crashed_closeAfterFlush : b.closeAfterFlush.crashed = b.crashed := by
  unfold closeAfterFlush
  repeat' split
  all_goals first | rfl | exact crashed_close b

@[simp] theorem crashed_runCallback (cb : WriteCallback) :
    (b.runCallback cb).crashed = b.crashed := by
  cases cb with
  | close => exact crashed_close b
  | handoff =>
    change b.releaseConnection.crashed = b.crashed
    unfold releaseConnection
    split <;> rfl

variable [LineProtocol St]

@[simp] theorem crashed_doAsyncRead : b.doAsyncRead.crashed = b.crashed := by
  unfold doAsyncRead
  repeat' split
  all_goals rfl

@[simp] theorem crashed_doAsyncWrite (data : Bytes) (callback : Option WriteCallback) :
    (b.doAsyncWrite data callback).crashed = b.crashed := by
  unfold doAsyncWrite
  split
  · rfl
  · split
    · cases callback with
      | none => rfl
      | some cb => exact crashed_runCallback _ cb
    · rfl

@[simp] theorem crashed_writeReply (text : Bytes) : (b.writeReply text).crashed = b.crashed := by
  unfold writeReply
  repeat' split
  all_goals simp

@[simp] theorem crashed_settle (target : Option St) (reply : Option Bytes) (report : List ε) :
    (b.settle target reply report).crashed = b.crashed := by
  unfold settle settleEnter
  split
  · rfl
  · cases reply with
    | none => rfl
    | some text => exact crashed_writeReply _ _

omit [LineProtocol St] in
@[simp] theorem crashed_settleClosing (target : Option St) :
    (b.settleClosing target).crashed = b.crashed := by
  unfold settleClosing
  split <;> rfl

@[simp] theorem crashed_replyThenSettle (text : Bytes) (target : St) (report : List ε) :
    (b.replyThenSettle text target report).crashed = b.crashed := by
  unfold replyThenSettle
  split
  · rfl
  · exact (crashed_doAsyncRead _).trans (crashed_writeReply _ _)

@[simp] theorem crashed_loopEnd : b.loopEnd.crashed = b.crashed := by
  unfold loopEnd settleExit
  dsimp only
  repeat' split
  all_goals simp

@[simp] theorem crashed_readDone (data : Option Bytes) : (b.readDone data).crashed = b.crashed := by
  unfold readDone
  dsimp only
  split
  · rfl
  · split
    · exact crashed_close _
    · exact crashed_doAsyncRead _
    · split
      · exact crashed_close _
      · rfl

@[simp] theorem crashed_writeDone (i : Nat) (ok : Bool) :
    (b.writeDone i ok).crashed = b.crashed := by
  unfold writeDone
  dsimp only
  repeat' split
  all_goals simp

variable {b} in
theorem crashed_of_takeLine {line : Bytes} (h : b.takeLine = some (line, b')) :
    b'.crashed = b.crashed := by
  unfold takeLine at h
  split at h
  · cases h
  · split at h
    · cases h
      rfl
    · cases h

theorem crashed_runTask : b.runTask.crashed = b.crashed := by
  unfold runTask
  split
  · rfl
  · rename_i t ts _
    cases t with
    | startRead =>
      dsimp only [startRead]
      repeat' split
      all_goals rfl
    | startWrite | flush =>
      dsimp only [startWrite, flush]
      split <;> rfl
    | closeSocket => rfl
    | _ => simp

end Crash

end SessionBase

open List SessionBase

/-! ## Tokens -/

namespace EngineSession

/-- The Transitions `ids` are armed no more. -/
def disarm (s : EngineSession St ε) (ids : List Nat) : EngineSession St ε :=
  { s with armed := s.armed.filter (·.id ∉ ids) }

/-- A call of `c` on the Transition `id`: `release()`, then the task unless the session is
closed. -/
def complete (s : EngineSession St ε) (id : Nat) (c : Completion St) : EngineSession St ε :=
  match s.armed.find? (·.id = id) with
  | none => s
  | some t =>
    let s := s.disarm [id]
    if s.base.closed then s
    else { s with base := s.base.postTransition (t.task c), posted := id :: s.posted }

/-- **The session is not wedged**: the process goes on, and while the session is open and paused, a
Transition is armed or a settle task is queued. -/
structure Live (s : EngineSession St ε) : Prop where
  running : s.base.crashed = false
  awaited : s.base.closed = false → s.base.paused = true → s.armed ≠ [] ∨ s.base.view.settles ≠ []

/-- The Transitions `ids` are not the last ones a paused session waits for. -/
def Spares (s : EngineSession St ε) (ids : List Nat) : Prop :=
  s.base.closed = false → s.base.paused = true → s.base.view.settles = [] →
    ∃ t ∈ s.armed, t.id ∉ ids

/-- The step does not destroy the last armed Transition of a session that waits for it, and
completes none of an open session whose connection was given away. -/
def KeepsToken (s : EngineSession St ε) : EngineInput St Ev → Prop
  | .destroy ids | .throw ids _ => s.Spares ids
  | .complete id _ => id ∈ s.armed.map (·.id) → s.base.closed = false → s.base.hasConnection = true
  | _ => True

/-- No Transition is armed or posted twice, and all have been issued. -/
structure Ledger (s : EngineSession St ε) : Prop where
  nodup : (s.armed.map (·.id) ++ s.posted).Nodup
  issued : ∀ id ∈ s.armed.map (·.id) ++ s.posted, id < s.issued

/-- The Transition `id` has been issued and is not armed any more. -/
structure Spent (id : Nat) (s : EngineSession St ε) : Prop where
  issued : id < s.issued
  disarmed : ∀ t ∈ s.armed, t.id ≠ id

variable {s s' : EngineSession St ε} {id : Nat}

theorem mem_disarm {ids : List Nat} {t : Transition St} :
    t ∈ (s.disarm ids).armed ↔ t ∈ s.armed ∧ t.id ∉ ids := by
  simp [disarm]

theorem Ledger.disarm (h : s.Ledger) (ids : List Nat) : (s.disarm ids).Ledger := by
  have hsub : ((s.disarm ids).armed.map (·.id) ++ s.posted).Sublist
      (s.armed.map (·.id) ++ s.posted) :=
    (filter_sublist.map _).append_right _
  exact ⟨h.nodup.sublist hsub, fun id hid => h.issued id (hsub.subset hid)⟩

theorem isSettle_task (t : Transition St) (c : Completion St) :
    (t.task c : Task St ε).isSettle = true := by
  cases c with
  | finish ok => cases ok <;> rfl
  | _ => rfl

/-- What a call does: the Transition is disarmed, and if it was armed in an open session, its task
is posted. -/
theorem complete_cases (s : EngineSession St ε) (id : Nat) (c : Completion St) :
    s.complete id c = s.disarm [id] ∧ (id ∈ s.armed.map (·.id) → s.base.closed = true) ∨
      id ∈ s.armed.map (·.id) ∧ s.base.closed = false ∧ ∃ t : Task St ε, t.isSettle = true ∧
        s.complete id c =
          { s.disarm [id] with base := s.base.postTransition t, posted := id :: s.posted } := by
  unfold complete
  split
  · rename_i hnone
    have hother : ∀ t ∈ s.armed, t.id ≠ id := fun t ht => by simpa using find?_eq_none.mp hnone t ht
    have hall : s.armed.filter (·.id ∉ [id]) = s.armed :=
      filter_eq_self.mpr fun t ht => by simpa using hother t ht
    refine .inl ⟨by rw [disarm, hall], fun hid => ?_⟩
    obtain ⟨t, ht, rfl⟩ := mem_map.mp hid
    exact absurd rfl (hother t ht)
  · rename_i t hfind
    dsimp only
    split
    · rename_i hcl
      exact .inl ⟨rfl, fun _ => hcl⟩
    · rename_i hopen
      refine .inr ⟨?_, eq_false_of_ne_true hopen, t.task c, isSettle_task t c, rfl⟩
      exact mem_map.mpr ⟨t, mem_of_find?_eq_some hfind, by simpa using find?_some hfind⟩

theorem Ledger.complete (h : s.Ledger) (id : Nat) (c : Completion St) :
    (s.complete id c).Ledger := by
  have hrest := h.disarm [id]
  rcases complete_cases s id c with ⟨heq, -⟩ | ⟨hmem, -, t, -, heq⟩
  · exact heq ▸ hrest
  · rw [heq]
    constructor
    · -- the Transition is no longer armed, and had not been posted
      refine perm_middle.nodup_iff.mpr (nodup_cons.mpr ⟨fun hid => ?_, hrest.nodup⟩)
      rcases mem_append.mp hid with hid | hid
      · obtain ⟨t', ht', rfl⟩ := mem_map.mp hid
        exact (mem_disarm.mp ht').2 (mem_singleton.mpr rfl)
      · exact (nodup_append.mp h.nodup).2.2 id hmem id hid rfl
    · intro id' hid
      rcases mem_cons.mp (perm_middle.mem_iff.mp hid) with rfl | hid
      · exact h.issued id' (mem_append_left _ hmem)
      · exact hrest.issued id' hid

theorem Spent.complete {id' : Nat} (h : Spent id (s.disarm [id'])) (c : Completion St) :
    Spent id (s.complete id' c) := by
  rcases complete_cases s id' c with ⟨heq, -⟩ | ⟨-, -, t, -, heq⟩
  · exact heq ▸ h
  · exact heq ▸ { h with }

theorem Spent.complete_eq (h : Spent id s) (c : Completion St) : s.complete id c = s := by
  have hnone : s.armed.find? (·.id = id) = none :=
    find?_eq_none.mpr fun t ht => by simpa using h.disarmed t ht
  rw [EngineSession.complete, hnone]

/-- A session stays live while its transport does what leaves the settles alone. -/
theorem Live.of_calm (h : s.Live) (hcalm : s.base.Calm s'.base) (ha : s'.armed = s.armed) :
    s'.Live := by
  refine ⟨hcalm.crashed.trans h.running, fun hopen hpa => ?_⟩
  rw [ha, hcalm.settles]
  refine h.awaited (eq_false_of_ne_true fun hcl => ?_) (hcalm.paused hpa)
  rw [hcalm.closed hcl] at hopen
  cases hopen

theorem live_disarm_iff {ids : List Nat} (h : s.Live) : (s.disarm ids).Live ↔ s.Spares ids := by
  constructor
  · intro hlive hopen hpa hnone
    obtain ⟨t, ht⟩ :=
      exists_mem_of_ne_nil _ ((hlive.awaited hopen hpa).resolve_right (not_not.mpr hnone))
    exact ⟨t, mem_disarm.mp ht⟩
  · refine fun hspares => ⟨h.running, fun hopen hpa => ?_⟩
    by_cases hnone : s.base.view.settles = []
    · obtain ⟨t, ht⟩ := hspares hopen hpa hnone
      exact .inl (ne_nil_of_mem (mem_disarm.mpr ht))
    · exact .inr hnone

theorem live_complete_iff (h : s.Live) (c : Completion St) :
    (s.complete id c).Live ↔
      (id ∈ s.armed.map (·.id) → s.base.closed = false → s.base.hasConnection = true) := by
  rcases complete_cases s id c with ⟨heq, hcl⟩ | ⟨hmem, hopen, t, ht, heq⟩
  · rw [heq, live_disarm_iff h]
    refine iff_of_true (fun hopen hpa hnone => ?_) fun hmem hopen => ?_
    · -- the Transition was not armed
      obtain ⟨t, ht⟩ :=
        exists_mem_of_ne_nil _ ((h.awaited hopen hpa).resolve_right (not_not.mpr hnone))
      refine ⟨t, ht, fun hid => ?_⟩
      have hmem := mem_map.mpr ⟨t, ht, mem_singleton.mp hid⟩
      cases hopen.symm.trans (hcl hmem)
    · cases hopen.symm.trans (hcl hmem)
  · rw [heq]
    constructor
    · intro hlive _ _
      simpa [postTransition, SessionBase.post, h.running] using hlive.running
    · intro hconn
      refine ⟨?_, fun _ _ => .inr ?_⟩
      · simp [postTransition, SessionBase.post, h.running, hconn hmem hopen]
      · rw [view_postTransition, view_post, if_pos ht]
        simp

end EngineSession

/-! ## The machine -/

variable [LineProtocol St] [DecidableEq St] [DecidableEq Ev] (d : Desc St Ev)
  (handled : St → Ev → Bool)

/-- `dispatch` up to the handler, whose own moves follow. -/
def SessionBase.dispatch (b : SessionBase St ε) (event : Ev) (refusal : Bytes) : SessionBase St ε :=
  if b.closed then b
  else if d.isTerminal b.state then b.close
  else if (d.guardTarget b.state event).isSome && handled b.state event then b
  else b.writeReply refusal

def Move.run (b : SessionBase St ε) : Move St Ev → SessionBase St ε
  | .read => b.doAsyncRead
  | .readDone data => b.readDone data
  | .write data callback => b.doAsyncWrite data callback
  | .writeDone i ok => b.writeDone i ok
  | .dispatch event refusal =>
    match b.takeLine with
    | none => b
    | some (_, b) => b.dispatch d handled event refusal
  | .loopEnd => b.loopEnd
  | .apply target reply => b.apply target reply []
  | .applyClosing target => b.applyClosing target
  | .replyThenSettle text target => b.replyThenSettle text target []
  | .close => b.close
  | .closeAfterFlush => b.closeAfterFlush

namespace EngineSession

def step (s : EngineSession St ε) : EngineInput St Ev → EngineSession St ε
  | .move m => { s with base := m.run d handled s.base }
  | .runTask => { s with base := s.base.runTask }
  | .beginTransition target reply =>
    { s with
      base := s.base.beginTransition
      armed := ⟨s.issued, target, reply⟩ :: s.armed
      issued := s.issued + 1 }
  | .complete id c => s.complete id c
  | .destroy ids => s.disarm ids
  | .throw ids internalError => { s.disarm ids with base := s.base.writeReply internalError }

variable {d handled}

theorem calm_run (m : Move St Ev) (b : SessionBase St ε) : b.Calm (m.run d handled b) := by
  cases m with
  | read =>
    exact .of_view (view_doAsyncRead b) (fun h => by simp [Move.run, doAsyncRead, h])
      (crashed_doAsyncRead b)
  | readDone data =>
    exact .of_view (view_readDone b data) (fun h => by simp [Move.run, readDone, h])
      (crashed_readDone b data)
  | write data callback =>
    exact .of_view (view_doAsyncWrite b data callback)
      (fun h => by simp [Move.run, doAsyncWrite, h])
      (crashed_doAsyncWrite b data callback)
  | writeDone i ok =>
    refine .of_view (view_writeDone b i ok) (fun h => ?_) (crashed_writeDone b i ok)
    simp only [Move.run, writeDone]
    split <;> simp [h]
  | dispatch event refusal =>
    simp only [Move.run]
    split
    · exact .of_view rfl id rfl
    · rename_i b' htake
      obtain ⟨-, hview, hcl⟩ := takeLine_eq_some htake
      refine .of_view (Eq.trans ?_ hview) (fun h => by simp [dispatch, hcl, h])
        (Eq.trans ?_ (crashed_of_takeLine htake))
      all_goals
        unfold dispatch
        repeat' split
        all_goals simp
  | loopEnd =>
    refine .of_view (view_loopEnd b) (fun h => ?_) (crashed_loopEnd b)
    simp only [Move.run, loopEnd]
    repeat' split
    all_goals simp [settleExit, doAsyncRead, h]
  | apply target reply =>
    exact .of_settled (view_settle b _ reply []) rfl rfl
      (fun h => by simp [Move.run, SessionBase.apply, settle, h]) (crashed_settle b _ reply [])
  | applyClosing target =>
    exact .of_settled (view_settleClosing b _) rfl rfl
      (fun h => by simp [Move.run, applyClosing, settleClosing, h]) (crashed_settleClosing b _)
  | replyThenSettle text target =>
    exact .of_settled (view_replyThenSettle b text target []) rfl rfl
      (fun h => by simp [Move.run, replyThenSettle, h]) (crashed_replyThenSettle b text target [])
  | close => exact .of_view (view_close b) (fun h => by simp [Move.run, close, h]) (crashed_close b)
  | closeAfterFlush =>
    exact .of_view (view_closeAfterFlush b) (fun h => by simp [Move.run, closeAfterFlush, h])
      (crashed_closeAfterFlush b)

variable {s : EngineSession St ε} {id : Nat} {i : EngineInput St Ev}

theorem ledger_step (h : s.Ledger) (i : EngineInput St Ev) : (s.step d handled i).Ledger := by
  cases i with
  | move | runTask => exact { h with }
  | beginTransition target reply =>
    refine ⟨nodup_cons.mpr ⟨fun hid => (h.issued _ hid).false, h.nodup⟩, fun id hid => ?_⟩
    rcases mem_cons.mp hid with rfl | hid
    · exact Nat.lt_succ_self _
    · exact (h.issued id hid).trans (Nat.lt_succ_self _)
  | complete id c => exact h.complete id c
  | destroy ids => exact h.disarm ids
  | throw ids internalError => exact { h.disarm ids with }

theorem spent_step (h : Spent id s) (i : EngineInput St Ev) : Spent id (s.step d handled i) := by
  have hdisarm (ids : List Nat) : Spent id (s.disarm ids) :=
    ⟨h.issued, fun t ht => h.disarmed t (mem_disarm.mp ht).1⟩
  cases i with
  | move | runTask => exact { h with }
  | beginTransition target reply =>
    refine ⟨h.issued.trans (Nat.lt_succ_self _), fun t ht => ?_⟩
    rcases mem_cons.mp ht with rfl | ht
    · exact h.issued.ne'
    · exact h.disarmed t ht
  | complete id' c => exact (hdisarm [id']).complete c
  | destroy ids => exact hdisarm ids
  | throw ids internalError => exact { hdisarm ids with }

omit [DecidableEq St] in
theorem Live.runTask (h : s.Live) :
    ({ s with base := s.base.runTask } : EngineSession St ε).Live := by
  have hcalm (hview : s.base.runTask.view = s.base.view) :
      { s with base := s.base.runTask }.Live :=
    h.of_calm (.of_view hview (closed_runTask _) (crashed_runTask _)) rfl
  cases hpo : s.base.posted with
  | nil => exact hcalm (by simp [SessionBase.runTask, hpo])
  | cons t ts =>
    have hview := view_runTask_cons s.base hpo
    cases ht : t.isSettle with
    | false =>
      rw [View.settled_of_not_isSettle _ ht] at hview
      exact hcalm (hview.trans (by simp [SessionBase.view, hpo, ht]))
    | true =>
      -- the task settles its transition, so the session is not paused any more
      refine ⟨(crashed_runTask _).trans h.running, fun hopen hpa => ?_⟩
      have hb : ¬ s.base.closed = true := fun hb => by simp [closed_runTask _ hb] at hopen
      rw [if_neg hb] at hview
      have hp := (congrArg View.paused hview).symm.trans hpa
      rw [View.paused_settled _ ht] at hp
      cases hp

omit [DecidableEq St] in
/-- The reply of the barrier changes nothing. -/
theorem live_writeReply_iff (text : Bytes) :
    ({ s with base := s.base.writeReply text } : EngineSession St ε).Live ↔ s.Live := by
  have hcl : (s.base.writeReply text).closed = s.base.closed := by
    simp only [writeReply, doAsyncWrite]
    repeat' split
    all_goals rfl
  constructor
  · intro h
    refine ⟨(crashed_writeReply s.base text).symm.trans h.running, fun hopen hpa => ?_⟩
    have hawaited := h.awaited (hcl.trans hopen)
    rw [← view_paused, view_writeReply, view_paused] at hawaited
    exact hawaited hpa
  · intro h
    exact h.of_calm (.of_view (view_writeReply _ _) hcl.trans (crashed_writeReply _ _)) rfl

theorem live_step (h : s.Live) (hi : s.KeepsToken i) : (s.step d handled i).Live := by
  cases i with
  | move m => exact h.of_calm (calm_run m s.base) rfl
  | runTask => exact h.runTask
  | beginTransition target reply => exact ⟨h.running, fun _ _ => .inl (cons_ne_nil _ _)⟩
  | complete id c => exact (live_complete_iff h c).mpr hi
  | destroy ids => exact (live_disarm_iff h).mpr hi
  | throw ids internalError =>
    exact (live_writeReply_iff internalError).mpr ((live_disarm_iff h).mpr hi)

/-- The last armed Transition dies, and nothing will lift the pause; or the process ends. -/
theorem not_live_step (h : s.Live) (hi : ¬ s.KeepsToken i) : ¬ (s.step d handled i).Live := by
  cases i with
  | complete id c => exact fun hlive => hi ((live_complete_iff h c).mp hlive)
  | destroy ids => exact fun hlive => hi ((live_disarm_iff h).mp hlive)
  | throw ids internalError =>
    exact fun hlive => hi ((live_disarm_iff h).mp ((live_writeReply_iff internalError).mp hlive))
  | _ => exact absurd trivial hi

/-- **Transitions settle at most once, and who wedges a session**: for every description and handler
table, every initial state and every run, each Transition posts at most one settle task and
completing it again does nothing; and the runs in which the process goes on and a paused session
always has an armed Transition or a queued task are those that do not destroy the last armed one and
complete none without a connection. -/
theorem transitions_settle (d : Desc St Ev) (handled : St → Ev → Bool) (state : St)
    (is : List (EngineInput St Ev)) :
    let s₀ : EngineSession St ε := { base := { state } }
    (run (step d handled) s₀ is).posted.Nodup ∧
      (∀ id c js c', id < (run (step d handled) s₀ is).issued →
        let s := run (step d handled) s₀ (is ++ .complete id c :: js)
        s.complete id c' = s) ∧
      (StepsMeet (step d handled) KeepsToken s₀ is ↔
        ∀ js, js <+: is → (run (step d handled) s₀ js).Live) := by
  intro s₀
  have hledger : Ledger (run (step d handled) s₀ is) :=
    run_invariant Ledger (fun _ i h => ledger_step h i) ⟨by simp [s₀], by simp [s₀]⟩ is
  refine ⟨(nodup_append.mp hledger.nodup).2.1, fun id c js c' hid => ?_, ?_⟩
  · have hspent : Spent id ((run (step d handled) s₀ is).disarm [id]) :=
      ⟨hid, fun t ht => by simpa using (mem_disarm.mp ht).2⟩
    rw [run_append]
    exact (run_invariant (Spent id) (fun _ i h => spent_step h i)
      (hspent.complete c) js).complete_eq c'
  · exact stepsMeet_iff_forall_good Live Live (fun _ h => h) (fun _ _ h => live_step h)
      (fun _ _ h => not_live_step h) ⟨rfl, fun _ hpa => by cases hpa⟩ is

/-- A handler calls `begin_transition` and then throws: nobody settles the transition. -/
theorem not_forall_live : ¬ ∀ is : List (EngineInput Unit Unit),
    letI : LineProtocol Unit := ⟨fun _ buffer => buffer.contains 10, fun _ buffer => (buffer, [])⟩
    (run (step ⟨[⟨(), (), none⟩], [], [], []⟩ fun _ _ => true)
      ({ base := { state := () } } : EngineSession Unit Empty) is).Live := by
  intro h
  have hlive := h [.move .read, .runTask, .move (.readDone (some [65, 10])),
    .move (.dispatch () []), .beginTransition none none, .throw [0] [53, 48, 48]]
  have hwedged := hlive.awaited (by decide) (by decide)
  revert hwedged
  decide

end EngineSession

end ProtoRelay
