import ProtoRelay.Framework.Engine

/-!
# Sessions that listen

A session reads only when something has started a read: the completion of a write, a loop over
the input that has dispatched nothing, the end of a transition.  It *listens* if it is not one
of those that have nothing of the kind to expect: while it is open, not paused, and has no
complete input, a read or a write is under way, a task is posted, or a loop is running that
starts a read when it ends.

Reading and writing make every session listen.  So what can make it deaf is only a step that takes a
line and does neither; this module leaves these to the protocols.
-/

namespace ProtoRelay

open List

variable {St ε : Type}

/-- The loop starts a read when it ends. -/
def Loop.rearms : Loop → Bool
  | .read dispatched => !dispatched
  | .drain => true

/-- What is known when a task waits: the tasks that close the socket belong to a closed session, and
there is none that settles a transition without starting a read. -/
def Task.Leads (closed : Bool) : Task St ε → Prop
  | .flush _ => closed = true
  | .closeSocket => closed = true
  | .settleClosing _ => False
  | _ => True

theorem Task.Leads.of_closed {closed : Bool} {t : Task St ε} (h : t.Leads closed) :
    t.Leads true := by
  cases t with
  | flush | closeSocket => exact rfl
  | settleClosing target => exact h
  | startRead | startWrite | close | settle => trivial

namespace SessionBase

/-- Every posted task leads somewhere. -/
def TasksLead (s : SessionBase St ε) : Prop := ∀ t ∈ s.posted, t.Leads s.closed

variable [LineProtocol St]

/-- **The session listens**, or has no reason to. -/
inductive Listens (s : SessionBase St ε) : Prop
  | closed (h : s.closed = true)
  | handedOver (h : s.hasConnection = false)
  | paused (h : s.paused = true)
  | buffered (h : s.hasBufferedInput = true)
  | reading (h : s.readInProgress = true)
  | writing (h : s.writes ≠ [])
  | posted (h : s.posted ≠ [])
  | looping {l : Loop} (hmem : l ∈ s.loops) (h : l.rearms = true)

/-- It listens, and every task it waits for leads somewhere. -/
structure Attentive (s : SessionBase St ε) : Prop where
  listens : s.Listens
  tasks : s.TasksLead

variable {s : SessionBase St ε}

/-! ## Tasks -/

omit [LineProtocol St] in
theorem TasksLead.post (h : s.TasksLead) {t : Task St ε} (ht : t.Leads s.closed) :
    (s.post t).TasksLead := by
  intro t' ht'
  rcases mem_append.mp ht' with ht' | ht'
  · exact h t' ht'
  · obtain rfl := mem_singleton.mp ht'
    exact ht

theorem attentive_post (h : s.TasksLead) {t : Task St ε} (ht : t.Leads s.closed) :
    (s.post t).Attentive :=
  ⟨.posted (append_ne_nil_of_right_ne_nil _ (cons_ne_nil _ _)), h.post ht⟩

omit [LineProtocol St] in
theorem TasksLead.markClosed (h : s.TasksLead) :
    ({ s with closed := true } : SessionBase St ε).TasksLead :=
  fun t ht => (h t ht).of_closed

/-! ## Operations after which a session listens -/

/-- A guard under which the session is left as it is. -/
theorem attentive_unless {p : Prop} [Decidable p] {t : SessionBase St ε} (h : s.TasksLead)
    (hp : p → s.Listens) (hrest : ¬ p → t.Attentive) : (if p then s else t).Attentive := by
  split
  case isTrue hguard => exact ⟨hp hguard, h⟩
  case isFalse hguard => exact hrest hguard

theorem attentive_close (h : s.TasksLead) : s.close.Attentive := by
  refine attentive_unless h .closed fun _ => ?_
  dsimp only
  split
  · split
    · exact ⟨.closed rfl, h.markClosed.post rfl⟩
    · refine ⟨.closed rfl, ?_⟩
      have hclosing : { s with closed := true, pendingWriteBuf := [] }.TasksLead :=
        h.markClosed
      exact (hclosing.post (t := .flush s.pendingWriteBuf) rfl).post rfl
  · exact ⟨.closed rfl, h.markClosed⟩

theorem attentive_closeAfterFlush (h : s.TasksLead) : s.closeAfterFlush.Attentive := by
  refine attentive_unless h .closed fun _ => ?_
  split
  · exact attentive_post h trivial
  · exact attentive_close h

theorem attentive_runCallback (h : s.TasksLead) (cb : WriteCallback) :
    (s.runCallback cb).Attentive := by
  cases cb with
  | close => exact attentive_close h
  | handoff =>
    change s.releaseConnection.Attentive
    unfold releaseConnection
    by_cases hconn : s.hasConnection = true
    · rw [if_pos hconn]
      exact ⟨.handedOver rfl, h⟩
    · rw [if_neg hconn]
      exact ⟨.handedOver (eq_false_of_ne_true hconn), h⟩

/-- A session that is closed or has no connection has no reason to listen. -/
theorem listens_of_gone (h : (s.closed || !s.hasConnection) = true) : s.Listens := by
  rcases (Bool.or_eq_true _ _).mp h with h | h
  · exact .closed h
  · exact .handedOver (by simpa using h)

section

variable (h : s.TasksLead)

include h

/-- **Asking for a read.** -/
theorem attentive_doAsyncRead : s.doAsyncRead.Attentive := by
  refine attentive_unless h listens_of_gone fun _ => ?_
  refine attentive_unless h .buffered fun _ => ?_
  exact attentive_post h trivial

/-- **Writing**, whatever the callback is. -/
theorem attentive_doAsyncWrite (data : Bytes) (callback : Option WriteCallback) :
    (s.doAsyncWrite data callback).Attentive := by
  refine attentive_unless h listens_of_gone fun _ => ?_
  by_cases hbuf : s.hasBufferedInput = true
  · rw [if_pos hbuf]
    cases callback with
    | none => exact ⟨.buffered hbuf, h⟩
    | some cb =>
      exact attentive_runCallback
        (s := { s with pendingWriteBuf := s.pendingWriteBuf ++ data }) h cb
  · rw [if_neg hbuf]
    exact attentive_post (s := { s with pendingWriteBuf := [] }) h trivial

theorem attentive_writeReply {text : Bytes} (hne : text ≠ []) : (s.writeReply text).Attentive := by
  have he : text.isEmpty = false := by simpa using hne
  unfold writeReply
  rw [he, Bool.or_false]
  refine attentive_unless h .closed fun _ => ?_
  split
  · exact attentive_doAsyncWrite h text none
  · exact attentive_doAsyncWrite h (text ++ [13, 10]) none

theorem tasksLead_writeReply (text : Bytes) : (s.writeReply text).TasksLead := by
  by_cases hne : text = []
  · unfold writeReply
    rw [hne, isEmpty_nil, Bool.or_true]
    exact h
  · exact (attentive_writeReply h hne).tasks

theorem tasksLead_settleEnter (target : Option St) (reply : Option Bytes) :
    (s.settleEnter target reply).TasksLead := by
  cases reply with
  | none => exact h
  | some text => exact tasksLead_writeReply (s := { s with state := _, paused := false }) h text

theorem attentive_settleExit : s.settleExit.Attentive := by
  have hrearm {t : SessionBase St ε} (ht : t.TasksLead) :
      (if t.paused then t else t.doAsyncRead).Attentive := by
    refine attentive_unless ht .paused fun _ => ?_
    exact attentive_doAsyncRead ht
  unfold settleExit
  split
  · exact hrearm (attentive_doAsyncWrite h [] none).tasks
  · exact hrearm h

/-- **Settling a transition**: the loop that is entered starts a read when it ends. -/
theorem attentive_settle (target : Option St) (reply : Option Bytes) (report : List ε) :
    (s.settle target reply report).Attentive := by
  refine attentive_unless h .closed fun _ => ?_
  exact ⟨.looping mem_cons_self rfl, tasksLead_settleEnter h target reply⟩

theorem attentive_finish (target : St) (reply : Bytes) (report : List ε) :
    (s.finish target reply report).Attentive := by
  refine attentive_unless h .closed fun _ => ?_
  have hmarked :
    ({ s with crashed := s.crashed || !s.hasConnection } : SessionBase St ε).TasksLead := h
  exact attentive_post hmarked trivial

theorem attentive_readDone (data : Option Bytes) : (s.readDone data).Attentive := by
  refine attentive_unless h .closed fun _ => ?_
  cases data with
  | none => exact attentive_close h
  | some data =>
    cases data with
    | nil => exact attentive_doAsyncRead h
    | cons b data =>
      dsimp only
      split
      · exact attentive_close h
      · exact ⟨.looping mem_cons_self rfl, h⟩

theorem attentive_startRead : s.startRead.Attentive := by
  refine attentive_unless h listens_of_gone fun _ => ?_
  refine attentive_unless h .buffered fun _ => ?_
  refine attentive_unless h .reading fun _ => ?_
  exact ⟨.reading rfl, h⟩

theorem attentive_startWrite (payload : Bytes) (callback : Option WriteCallback) :
    (s.startWrite payload callback).Attentive := by
  refine attentive_unless h listens_of_gone fun _ => ?_
  exact ⟨.writing (append_ne_nil_of_right_ne_nil _ (cons_ne_nil _ _)), h⟩

end

/-! ## Operations that may have nothing to do -/

theorem runTask_eq_or_attentive (h : s.TasksLead) : s.runTask = s ∨ s.runTask.Attentive := by
  unfold TasksLead at h
  unfold runTask
  cases hpo : s.posted with
  | nil => exact .inl rfl
  | cons t ts =>
    rw [hpo] at h
    have hrest : { s with posted := ts }.TasksLead :=
      fun t' ht' => h t' (mem_cons_of_mem _ ht')
    have hlead := h t mem_cons_self
    refine .inr ?_
    cases t with
    | startRead => exact attentive_startRead hrest
    | startWrite payload callback => exact attentive_startWrite hrest payload callback
    | flush payload =>
      change ((if s.hasConnection then _ else _) : SessionBase St ε).Attentive
      split
      · exact ⟨.closed hlead, hrest⟩
      · exact ⟨.closed hlead, hrest⟩
    | closeSocket => exact ⟨.closed hlead, hrest⟩
    | close => exact attentive_close hrest
    | settle target reply report => exact attentive_settle hrest target reply report
    | settleClosing target => exact hlead.elim

theorem writeDone_eq_or_attentive (h : s.TasksLead) (i : Nat) (ok : Bool) :
    s.writeDone i ok = s ∨ (s.writeDone i ok).Attentive := by
  unfold writeDone
  cases s.writes[i]? with
  | none => exact .inl rfl
  | some callback =>
    refine .inr ?_
    refine attentive_unless h (fun hcl => .closed hcl) fun _ => ?_
    cases ok with
    | false => exact attentive_close h
    | true =>
      cases callback with
      | none => exact attentive_doAsyncRead h
      | some cb => exact attentive_runCallback (s := { s with writes := s.writes.eraseIdx i }) h cb

end SessionBase

end ProtoRelay
