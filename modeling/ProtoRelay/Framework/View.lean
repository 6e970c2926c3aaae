import ProtoRelay.Framework.Engine

/-!
# What a protocol sees of its transport

Most of what the transport does is invisible to the protocol: it moves bytes and posts reads and
writes.  What matters above it is whether consumption is paused, the protocol state, the transitions
that wait to be settled and the protocol's own reports.  `SessionBase.view` is that part, and the
lemmas here say for every operation what it does to the view.  Reads, writes and closing leave it
alone; only the engine's write points change it.
-/

namespace ProtoRelay

variable {St ε : Type}

def Task.isSettle : Task St ε → Bool
  | .settle .. => true
  | .settleClosing _ => true
  | _ => false

def Effect.report? : Effect ε → Option ε
  | .report e => some e
  | _ => none

/-- The part of a session's transport the protocol depends on; reports are newest first. -/
structure View (St ε : Type) where
  paused : Bool
  state : St
  settles : List (Task St ε)
  reported : List ε

def View.settled (v : View St ε) : Task St ε → View St ε
  | .settle target _ report =>
    { v with
      state := target.getD v.state
      paused := false
      reported := report.reverse ++ v.reported }
  | .settleClosing target => { v with state := target.getD v.state, paused := false }
  | _ => v

theorem View.settled_of_not_isSettle (v : View St ε) {t : Task St ε} (h : t.isSettle = false) :
    v.settled t = v := by
  cases t <;> first | rfl | cases h

theorem View.paused_settled (v : View St ε) {t : Task St ε} (h : t.isSettle = true) :
    (v.settled t).paused = false := by
  cases t <;> first | rfl | cases h

namespace SessionBase

def view (s : SessionBase St ε) : View St ε where
  paused := s.paused
  state := s.state
  settles := s.posted.filter Task.isSettle
  reported := s.log.filterMap Effect.report?

variable (s : SessionBase St ε)

@[simp] theorem view_paused : s.view.paused = s.paused := rfl

theorem view_post (t : Task St ε) :
    (s.post t).view =
      if t.isSettle then { s.view with settles := s.view.settles ++ [t] } else s.view := by
  cases h : t.isSettle <;> simp [view, post, List.filter_append, h]

@[simp] theorem view_post_of_not_isSettle {t : Task St ε} (h : t.isSettle = false) :
    (s.post t).view = s.view := by
  simp [view_post, h]

@[simp] theorem view_reports (es : List ε) :
    (s.reports es).view = { s.view with reported := es.reverse ++ s.view.reported } := by
  have h : (es.reverse.map Effect.report).filterMap Effect.report? = es.reverse := by
    rw [List.filterMap_map]
    exact List.filterMap_some
  simp only [view, reports, List.filterMap_append, h]

/-! ## Operations of the transport -/

@[simp] theorem view_close : s.close.view = s.view := by
  unfold close
  split
  · rfl
  · dsimp only
    split
    · split
      · exact view_post_of_not_isSettle _ rfl
      · rw [view_post_of_not_isSettle _ rfl, view_post_of_not_isSettle _ rfl]
        rfl
    · rfl

theorem closed_close : s.close.closed = true := by
  unfold close
  by_cases hcl : s.closed = true
  · rw [if_pos hcl]
    exact hcl
  · rw [if_neg hcl]
    dsimp only
    split
    · split <;> rfl
    · rfl

@[simp] theorem view_closeAfterFlush : s.closeAfterFlush.view = s.view := by
  unfold closeAfterFlush
  split
  · rfl
  · split
    · exact view_post_of_not_isSettle _ rfl
    · exact view_close s

@[simp] theorem view_releaseConnection : s.releaseConnection.view = s.view := by
  unfold releaseConnection
  split <;> rfl

@[simp] theorem view_runCallback (cb : WriteCallback) : (s.runCallback cb).view = s.view := by
  cases cb
  · exact view_close s
  · exact view_releaseConnection s

@[simp] theorem view_startWrite (payload : Bytes) (callback : Option WriteCallback) :
    (s.startWrite payload callback).view = s.view := by
  unfold startWrite
  split <;> rfl

@[simp] theorem view_flush (payload : Bytes) : (s.flush payload).view = s.view := by
  unfold flush
  split <;> rfl

theorem view_settleClosing (target : Option St) :
    (s.settleClosing target).view =
      if s.closed then s.view
        else { s.view with state := target.getD s.state, paused := false } := by
  unfold settleClosing
  split <;> rfl

theorem view_postTransition (t : Task St ε) : (s.postTransition t).view = (s.post t).view := rfl

theorem view_finish (target : St) (reply : Bytes) (report : List ε) :
    (s.finish target reply report).view =
      if s.closed then s.view
      else { s.view with
        settles := s.view.settles ++ [.settle (some target) (some reply) report] } := by
  unfold finish
  split
  · rfl
  · rw [view_postTransition, view_post]; rfl

theorem view_finishClosing (target : St) :
    (s.finishClosing target).view =
      if s.closed then s.view
      else { s.view with settles := s.view.settles ++ [.settleClosing (some target)] } := by
  unfold finishClosing
  split
  · rfl
  · rw [view_postTransition, view_post]; rfl

variable [LineProtocol St]

@[simp] theorem view_doAsyncRead : s.doAsyncRead.view = s.view := by
  unfold doAsyncRead
  split
  · rfl
  · split
    · rfl
    · exact view_post_of_not_isSettle _ rfl

@[simp] theorem view_doAsyncWrite (data : Bytes) (callback : Option WriteCallback) :
    (s.doAsyncWrite data callback).view = s.view := by
  unfold doAsyncWrite
  split
  · rfl
  · split
    · cases callback with
      | none => rfl
      | some cb => exact view_runCallback _ cb
    · exact view_post_of_not_isSettle _ rfl

@[simp] theorem view_startRead : s.startRead.view = s.view := by
  unfold startRead
  split
  · rfl
  · split
    · rfl
    · split <;> rfl

@[simp] theorem view_readDone (data : Option Bytes) : (s.readDone data).view = s.view := by
  unfold readDone
  dsimp only
  split
  · rfl
  · split
    · exact view_close _
    · exact view_doAsyncRead _
    · split
      · exact view_close _
      · rfl

@[simp] theorem view_writeDone (i : Nat) (ok : Bool) : (s.writeDone i ok).view = s.view := by
  unfold writeDone
  split
  · rfl
  · dsimp only
    split
    · rfl
    · split
      · exact view_close _
      · split
        · exact view_runCallback _ _
        · exact view_doAsyncRead _

@[simp] theorem view_writeReply (text : Bytes) : (s.writeReply text).view = s.view := by
  unfold writeReply
  split
  · rfl
  · split <;> exact view_doAsyncWrite _ _ _

@[simp] theorem view_settleExit : s.settleExit.view = s.view := by
  unfold settleExit
  dsimp only
  split
  · split <;> simp
  · split <;> simp

@[simp] theorem view_loopEnd : s.loopEnd.view = s.view := by
  unfold loopEnd
  split
  · rfl
  · split
    · rfl
    · dsimp only
      split
      · split
        · exact view_doAsyncRead _
        · rfl
      · exact view_settleExit _

variable {s} in
theorem takeLine_eq_some {s' : SessionBase St ε} {line : Bytes} (h : s.takeLine = some (line, s')) :
    s.paused = false ∧ s'.view = s.view ∧ s'.closed = s.closed := by
  unfold takeLine at h
  split at h
  · cases h
  · split at h
    · rename_i hc
      cases h
      exact ⟨by simpa [canConsume] using (Bool.and_eq_true_iff.mp hc).2, rfl, rfl⟩
    · cases h

/-! ## Write points of the engine -/

theorem view_settleEnter (target : Option St) (reply : Option Bytes) :
    (s.settleEnter target reply).view =
    { s.view with state := target.getD s.state, paused := false } := by
  cases reply with
  | none => rfl
  | some text => exact view_writeReply _ text

theorem view_settle (target : Option St) (reply : Option Bytes) (report : List ε) :
    (s.settle target reply report).view =
      if s.closed then s.view
      else
        { s.view with
          state := target.getD s.state
          paused := false
          reported := report.reverse ++ s.view.reported } := by
  unfold settle
  split
  · rfl
  · have h := view_reports (s.settleEnter target reply) report
    rw [view_settleEnter] at h
    exact h

theorem view_replyThenSettle (text : Bytes) (target : St) (report : List ε) :
    (s.replyThenSettle text target report).view =
      if s.closed then s.view
      else
        { s.view with
          state := target
          paused := false
          reported := report.reverse ++ s.view.reported } := by
  unfold replyThenSettle
  split
  · rfl
  · have h := view_writeReply s text
    simp only [view_doAsyncRead, view_reports]
    simp only [view, View.mk.injEq] at h ⊢
    simp [h]

/-- **What the executor's first task does to the view**: it is no longer posted, and it settles its
transition unless the session is closed. -/
theorem view_runTask_cons {t : Task St ε} {ts : List (Task St ε)} (h : s.posted = t :: ts) :
    s.runTask.view =
      if s.closed then { s.view with settles := ts.filter Task.isSettle }
      else { s.view with settles := ts.filter Task.isSettle }.settled t := by
  unfold runTask
  rw [h]
  cases t with
  | startRead => exact (view_startRead _).trans (ite_self _).symm
  | startWrite payload callback => exact (view_startWrite _ _ _).trans (ite_self _).symm
  | flush payload => exact (view_flush _ _).trans (ite_self _).symm
  | closeSocket => exact (ite_self _).symm
  | close => exact (view_close _).trans (ite_self _).symm
  | settle target reply report => exact view_settle _ target reply report
  | settleClosing target => exact view_settleClosing _ target

/-- The view changes only with a task that settles a transition. -/
theorem view_runTask :
    s.runTask.view = s.view ∨
      ∃ t ts, s.view.settles = t :: ts ∧
        s.runTask.view =
          if s.closed then { s.view with settles := ts }
            else { s.view with settles := ts }.settled t := by
  cases hp : s.posted with
  | nil => exact .inl (by simp [runTask, hp])
  | cons t ts =>
    cases ht : t.isSettle with
    | true => exact .inr ⟨t, _, by simp [view, hp, ht], view_runTask_cons s hp⟩
    | false =>
      left
      rw [view_runTask_cons s hp, View.settled_of_not_isSettle _ ht]
      simp [view, hp, ht]

theorem closed_runTask (h : s.closed = true) : s.runTask.closed = true := by
  cases hp : s.posted with
  | nil => simp [runTask, hp, h]
  | cons t ts =>
    cases t with
    | flush payload =>
      simp only [runTask, hp, flush]
      split <;> exact h
    | _ => simp [runTask, hp, startRead, startWrite, close, settle, settleClosing, h]

end SessionBase

end ProtoRelay
