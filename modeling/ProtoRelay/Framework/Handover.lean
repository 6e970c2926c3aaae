import ProtoRelay.Framework.View

/-!
# Handing a connection over

A session that upgrades to TLS writes a positive reply and gives its connection away when that write
is done.  In between it must not touch the connection: a read would take bytes that belong to the
new session.  This module follows a session from that write on.  If nothing else was going on when
the reply was written, then the reply goes out, the connection is released, and nothing else is ever
recorded.
-/

namespace ProtoRelay

open List

namespace SessionBase

variable {St ε : Type} [LineProtocol St]

/-- The command being handled was the only unit in the buffer and came from the loop of a completed
read; no task, no read and no write is outstanding. -/
structure Quiet (s : SessionBase St ε) : Prop where
  posted : s.posted = []
  writes : s.writes = []
  readInProgress : s.readInProgress = false
  loops : s.loops = [.read true]
  buffer : s.hasBufferedInput = false

instance (s : SessionBase St ε) : Decidable s.Quiet :=
  decidable_of_iff (s.posted = [] ∧ s.writes = [] ∧ s.readInProgress = false ∧
    s.loops = [.read true] ∧
      s.hasBufferedInput = false) ⟨fun ⟨hp, hw, hr, hl, hb⟩ => ⟨hp, hw, hr, hl, hb⟩,
      fun h => ⟨h.posted, h.writes, h.readInProgress, h.loops, h.buffer⟩⟩

/-- The stages of a handover: what is queued, in flight and recorded. -/
inductive HandoverStage (payload : Bytes) (before : List (Effect ε)) (closed hasConnection : Bool)
    (posted : List (Task St ε)) (writes : List (Option WriteCallback))
    (log : List (Effect ε)) : Prop
  | queued (hopen : closed = false) (hconnection : hasConnection = true)
      (hposted : posted = [.startWrite payload (some .handoff)]) (hwrites : writes = [])
      (hlog : log = before)
  | inFlight (hopen : closed = false) (hconnection : hasConnection = true) (hposted : posted = [])
      (hwrites : writes = [some .handoff]) (hlog : log = .wrote payload :: before)
  | gone (hopen : closed = false) (hconnection : hasConnection = false) (hposted : posted = [])
      (hwrites : writes = []) (hlog : log = .released :: .wrote payload :: before ∨ log = before)
  | closed (hclosed : closed = true)
      (hposted : ∀ t ∈ posted, t = .startWrite payload (some .handoff) ∨ t = .closeSocket)
      (hwrites : hasConnection = false → writes = [])
      (hlog : log = before ∨ log = .wrote payload :: before ∨
        log = .released :: .wrote payload :: before)

/-- The session hands its connection over once `payload` is written; `before` is what had been
recorded when it started to. -/
structure HandingOver (payload : Bytes) (before : List (Effect ε)) (s : SessionBase St ε) :
    Prop where
  readInProgress : s.readInProgress = false
  pendingWriteBuf : s.hasConnection = true → s.pendingWriteBuf = []
  buffer : s.hasBufferedInput = false
  loops : s.loops = [.read true] ∨ s.loops = []
  stage : HandoverStage payload before s.closed s.hasConnection s.posted s.writes s.log

variable {payload : Bytes} {before : List (Effect ε)} {s : SessionBase St ε}

omit [LineProtocol St] in
section

variable {closed hasConnection : Bool} {posted : List (Task St ε)}
  {writes : List (Option WriteCallback)}
  {log : List (Effect ε)} (h : HandoverStage payload before closed hasConnection posted writes log)

include h

theorem HandoverStage.log_cases :
    log = before ∨ log = .wrote payload :: before ∨
      log = .released :: .wrote payload :: before := by
  cases h with
  | queued _ _ _ _ hlog => exact .inl hlog
  | inFlight _ _ _ _ hlog => exact .inr (.inl hlog)
  | gone _ _ _ _ hlog =>
    rcases hlog with hlog | hlog
    · exact .inr (.inr hlog)
    · exact .inl hlog
  | closed _ _ _ hlog => exact hlog

omit [LineProtocol St] in
theorem HandoverStage.writes_eq_nil (hnone : hasConnection = false) : writes = [] := by
  cases h with
  | queued _ _ _ hwrites | gone _ _ _ hwrites => exact hwrites
  | inFlight _ hconnection =>
    rw [hconnection] at hnone
    cases hnone
  | closed _ _ hwrites => exact hwrites hnone

end

/-! ## The start -/

/-- **The positive reply, written when nothing else is going on.** -/
theorem Quiet.handingOver (h : s.Quiet) (hopen : s.closed = false) (reply : Bytes) :
    (s.doAsyncWrite reply (some .handoff)).HandingOver (s.pendingWriteBuf ++ reply) s.log := by
  unfold doAsyncWrite
  cases hconnection : s.hasConnection with
  | false =>
    rw [if_pos (by simp)]
    exact ⟨h.readInProgress, by simp [hconnection], h.buffer, .inl h.loops,
      .gone hopen hconnection h.posted h.writes (.inr rfl)⟩
  | true =>
    rw [if_neg (by simp [hopen]), if_neg (by simp [h.buffer])]
    refine ⟨h.readInProgress, fun _ => rfl, h.buffer, .inl h.loops,
      .queued hopen rfl ?_ h.writes rfl⟩
    rw [h.posted]
    rfl

/-! ## The way -/

/-- No unit of input is taken any more. -/
theorem HandingOver.takeLine_eq_none (h : s.HandingOver payload before) : s.takeLine = none := by
  have hcan : s.canConsume = false := by simp [canConsume, h.buffer]
  unfold takeLine
  rcases h.loops with hloops | hloops
  · rw [hloops]
    simp [hcan]
  · rw [hloops]

theorem HandingOver.loopEnd (h : s.HandingOver payload before) :
    s.loopEnd.HandingOver payload before := by
  have hcan : s.canConsume = false := by simp [canConsume, h.buffer]
  unfold SessionBase.loopEnd
  rcases h.loops with hloops | hloops
  · -- the loop has dispatched a command, so the read is not re-armed
    simp only [hloops, hcan]
    exact { h with loops := .inr rfl }
  · rw [hloops]
    exact h

/-- A session with nothing but the reply on its way can be closed at any time. -/
theorem handingOver_close (hread : s.readInProgress = false)
    (hpend : s.hasConnection = true → s.pendingWriteBuf = [])
    (hbuf : s.hasBufferedInput = false) (hloops : s.loops = [.read true] ∨ s.loops = [])
    (hposted : ∀ t ∈ s.posted, t = .startWrite payload (some .handoff) ∨ t = .closeSocket)
    (hwrites : s.hasConnection = false → s.writes = [])
    (hlog : s.log = before ∨ s.log = .wrote payload :: before ∨
      s.log = .released :: .wrote payload :: before) : s.close.HandingOver payload before := by
  unfold SessionBase.close
  split
  · next hclosed => exact ⟨hread, hpend, hbuf, hloops, .closed hclosed hposted hwrites hlog⟩
  · dsimp only
    split
    · next hconnection =>
      rw [if_pos (by simp [hpend hconnection])]
      refine ⟨hread, hpend, hbuf, hloops, .closed rfl ?_ hwrites hlog⟩
      intro t ht
      rcases mem_append.mp ht with hmem | hmem
      · exact hposted t hmem
      · exact .inr (mem_singleton.mp hmem)
    · exact ⟨hread, hpend, hbuf, hloops, .closed rfl hposted hwrites hlog⟩

section

variable (h : s.HandingOver payload before)

include h

theorem HandingOver.close : s.close.HandingOver payload before := by
  refine handingOver_close h.readInProgress h.pendingWriteBuf h.buffer h.loops ?_
    h.stage.writes_eq_nil h.stage.log_cases
  cases h.stage with
  | queued _ _ hposted | inFlight _ _ hposted | gone _ _ hposted => simp [hposted]
  | closed _ hposted => exact hposted

theorem HandingOver.runTask : s.runTask.HandingOver payload before := by
  unfold SessionBase.runTask
  cases h.stage with
  | queued hopen hconnection hposted hwrites hlog =>
    rw [hposted]
    dsimp only [startWrite]
    rw [if_neg (by simp [hopen, hconnection])]
    refine { h with stage := .inFlight hopen hconnection rfl ?_ ?_ }
    · simp [record, hwrites]
    · simp [record, hlog]
  | inFlight hopen hconnection hposted | gone hopen hconnection hposted =>
    rw [hposted]
    exact h
  | closed hclosed hposted hwrites hlog =>
    cases hs : s.posted with
    | nil => exact h
    | cons t ts =>
      rw [hs] at hposted
      -- a task of a closed session does nothing
      have hrest : { s with posted := ts }.HandingOver payload before :=
        ⟨h.readInProgress, h.pendingWriteBuf, h.buffer, h.loops,
          .closed hclosed (fun t' ht' => hposted t' (.tail t ht')) hwrites hlog⟩
      rcases hposted t mem_cons_self with rfl | rfl
      · simpa [startWrite, hclosed] using hrest
      · exact hrest

theorem HandingOver.settles_eq_nil : s.view.settles = [] := by
  change s.posted.filter Task.isSettle = []
  cases h.stage with
  | queued _ _ hposted | inFlight _ _ hposted | gone _ _ hposted =>
    rw [hposted]
    rfl
  | closed _ hposted =>
    refine filter_eq_nil_iff.mpr fun t ht => ?_
    rcases hposted t ht with rfl | rfl <;> simp [Task.isSettle]

/-- No transition is waiting, so the protocol state stays. -/
theorem HandingOver.state_runTask : s.runTask.state = s.state := by
  rcases s.view_runTask with hview | ⟨t, ts, hsettles, -⟩
  · exact congrArg View.state hview
  · rw [h.settles_eq_nil] at hsettles
    cases hsettles

theorem HandingOver.writeDone (i : Nat) (ok : Bool) :
    (s.writeDone i ok).HandingOver payload before := by
  unfold SessionBase.writeDone
  cases hi : s.writes[i]? with
  | none => exact h
  | some callback =>
    cases h.stage with
    | queued hopen hconnection hposted hwrites | gone hopen hconnection hposted hwrites =>
      simp [hwrites] at hi
    | inFlight hopen hconnection hposted hwrites hlog =>
      rw [hwrites] at hi
      obtain ⟨rfl, rfl⟩ : i = 0 ∧ some .handoff = callback := by
        cases i with
        | zero => exact ⟨rfl, Option.some.inj hi⟩
        | succ i => simp at hi
      dsimp only
      rw [if_neg (by simp [hopen])]
      cases ok with
      | false =>
        refine handingOver_close h.readInProgress h.pendingWriteBuf h.buffer h.loops ?_ ?_
          (.inr (.inl hlog))
        · simp [hposted]
        · intro _
          simp [hwrites]
      | true =>
        -- the connection is released, and nothing is left to do
        simp only [Bool.not_true, Bool.false_eq_true, if_false, runCallback, releaseConnection,
          hconnection, if_true]
        refine ⟨h.readInProgress, nofun, h.buffer, h.loops, .gone hopen rfl hposted ?_ (.inl ?_)⟩
        · simp [record, hwrites]
        · simp [record, hlog]
    | closed hclosed hposted hwrites hlog =>
      -- the callback of a closed session is not run
      dsimp only
      rw [if_pos hclosed]
      refine { h with stage := .closed hclosed hposted ?_ hlog }
      intro hnone
      simp [hwrites hnone] at hi

end

/-! ## What is expected -/

/-- What a session that has accepted a handover does from `s₁` on until `s`: it reports nothing, so
it dispatches no command; the connection is released only behind the reply, and nothing happens on
it afterwards; and no read or write is outstanding on a connection given away. -/
structure SafeHandover (reply : Bytes) (s₁ s : SessionBase St ε) : Prop where
  since : ∃ recorded, s.log = recorded ++ s₁.log ∧ (∀ e ∈ recorded, e.report? = none) ∧
    ∀ later earlier, recorded = later ++ .released :: earlier →
      later = [] ∧ ∃ payload, .wrote payload ∈ earlier ∧ reply <:+ payload
  outstanding : s.hasConnection = false → s.readInProgress = false ∧ s.writes = []

omit [LineProtocol St] in
theorem SafeHandover.reported_eq {reply : Bytes} {s₁ s : SessionBase St ε}
    (h : SafeHandover reply s₁ s) : s.view.reported = s₁.view.reported := by
  obtain ⟨recorded, hlog, hnone, -⟩ := h.since
  change s.log.filterMap Effect.report? = s₁.log.filterMap Effect.report?
  rw [hlog, filterMap_append, filterMap_eq_nil_iff.mpr hnone, nil_append]

/-- **A session on its way does what is expected.** -/
theorem HandingOver.safe {reply : Bytes} {s₁ : SessionBase St ε}
    (h : s.HandingOver payload s₁.log) (hrep : reply <:+ payload) : SafeHandover reply s₁ s where
  since := by
    rcases h.stage.log_cases with hlog | hlog | hlog
    · exact ⟨[], hlog, by simp, by simp⟩
    · refine ⟨[.wrote payload], hlog, by simp [Effect.report?], ?_⟩
      intro later earlier heq
      have hmem : Effect.released ∈ ([Effect.wrote payload] : List (Effect ε)) := by simp [heq]
      simp at hmem
    · refine ⟨[.released, .wrote payload], hlog, by simp [Effect.report?], ?_⟩
      intro later earlier heq
      cases later with
      | nil =>
        obtain rfl := (List.cons.inj heq).2
        exact ⟨rfl, payload, mem_singleton_self _, hrep⟩
      | cons e later =>
        have hmem : Effect.released ∈ ([Effect.wrote payload] : List (Effect ε)) := by
          rw [(List.cons.inj heq).2]
          simp
        simp at hmem
  outstanding hnone := ⟨h.readInProgress, h.stage.writes_eq_nil hnone⟩

end SessionBase

end ProtoRelay
