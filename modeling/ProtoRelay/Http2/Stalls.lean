import ProtoRelay.Http2.Windows

/-!
# Responses that wait for credit

A response body that is not sent completely waits in its stream.  It should wait only for credit: as
long as its window and that of the connection are positive, there is something to send.
WINDOW_UPDATE resumes the streams it concerns.  SETTINGS shifts the windows of all open streams and
resumes none of them.
-/

namespace ProtoRelay.Http2

open ProtoRelay OrderedMap H2Session

namespace H2Session

/-- **No stream waits without need**: one with a part of its body left has no window. -/
def NeverStalled (s : H2Session) : Prop :=
  ∀ id st, s.streams.get? id = some st → st.pendingBody ≠ [] →
    availableWindow st.sendWindow s.tx.connSendWindow = 0

/-- The last initial window of a list of settings. -/
def lastInitialWindow : List (Nat × Nat) → Option Nat
  | [] => none
  | e :: es =>
    (lastInitialWindow es).or (if e.1 = initialWindowSizeId then some e.2 else none)

/-- A SETTINGS frame that is taken into account does not give a stream that waits a positive window
while that of the connection is positive. -/
def SettingsGiveNoCredit (s : H2Session) (f : Frame) : Prop :=
  s.closed = false → f.streamId = 0 → f.type = .settings →
    hasFlag f.flags endStreamFlag = false →
    ∀ v, lastInitialWindow (settingsEntries f.payload) = some v →
      ∀ id st, s.streams.get? id = some st → st.pendingBody ≠ [] →
        int32 (st.sendWindow + (v - s.peerStreamWindow)) ≤ 0 ∨ s.tx.connSendWindow ≤ 0

/-! ## The invariant -/

/-- What holds as long as settings give no credit: all streams but those of a list wait for credit
only.  An entry is never idle, so that its window is not set again. -/
structure StallFree (s : H2Session) (ids : List Nat) : Prop where
  conn_fits : FitsInt32 s.tx.connSendWindow
  entry : ∀ id st, s.streams.get? id = some st → st.state ≠ .idle ∧
    (id ∉ ids → st.pendingBody ≠ [] → availableWindow st.sendWindow s.tx.connSendWindow = 0)

theorem StallFree.start : StallFree {} [] where
  conn_fits := by decide
  entry id st hget := by cases hget

/-- A window that is used up stays so when the connection has less. -/
theorem availableWindow_eq_zero_of_le {w c c' : Int} (h : availableWindow w c = 0) (hle : c' ≤ c) :
    availableWindow w c' = 0 := by
  rw [availableWindow_eq_zero_iff] at h ⊢
  omega

/-- Sending uses up the connection window, and makes no stream idle. -/
theorem conn_drainStream {c : Int} (limit : FrameSize) (id : Nat) {p : Sender × H2Stream}
    (hfits : FitsInt32 p.1.connSendWindow) (hle : p.1.connSendWindow ≤ c)
    (hstate : p.2.state ≠ .idle) :
    FitsInt32 (drainStream limit id p).1.connSendWindow ∧
      (drainStream limit id p).1.connSendWindow ≤ c ∧ (drainStream limit id p).2.state ≠ .idle := by
  refine drainStream_invariant limit id (fun p => FitsInt32 p.1.connSendWindow ∧
    p.1.connSendWindow ≤ c ∧ p.2.state ≠ .idle) ?_ ⟨hfits, hle, hstate⟩
  rintro tx st n ⟨hfits, hle, hstate⟩ hchunk
  dsimp only at hfits hle hstate
  have hconn := hchunk.le_conn
  have hrest : FitsInt32 (tx.connSendWindow - n) := ⟨by omega, by have := hfits.2; omega⟩
  dsimp only [sendChunk]
  rw [int32_of_fits hrest]
  refine ⟨hrest, by omega, ?_⟩
  split
  · exact StreamState.noConfusion
  · exact hstate

variable {s : H2Session} {id : Nat} {ids ids' : List Nat} {st : H2Stream} {f : Frame}

/-- The entry of one stream is replaced, and the connection window may shrink. -/
theorem StallFree.set (h : StallFree s ids) (tx : Sender) (hfits : FitsInt32 tx.connSendWindow)
    (hle : tx.connSendWindow ≤ s.tx.connSendWindow) (hids : ∀ id' ∈ ids, id' ≠ id → id' ∈ ids')
    (hst : st.state ≠ .idle ∧ (id ∉ ids' → st.pendingBody ≠ [] →
      availableWindow st.sendWindow tx.connSendWindow = 0)) :
    StallFree { s with tx, streams := s.streams.set id st } ids' := by
  refine ⟨hfits, fun id' st' hget => ?_⟩
  rw [get?_set] at hget
  split at hget
  · cases hget
    subst id'
    exact hst
  · rename_i hne
    obtain ⟨hstate, hwait⟩ := h.entry id' st' hget
    exact ⟨hstate, fun hnot hbody =>
      availableWindow_eq_zero_of_le (hwait (fun hmem => hnot (hids id' hmem hne)) hbody) hle⟩

/-- **Draining a stream** takes it off the list. -/
theorem StallFree.drain (h : StallFree s (id :: ids)) : StallFree (s.drain id) ids := by
  have hids : ∀ id' ∈ id :: ids, id' ≠ id → id' ∈ ids := fun _ hmem hne =>
    (List.mem_cons.mp hmem).resolve_left hne
  rw [H2Session.drain]
  split
  · rename_i hnone
    refine { h with entry := fun id' st hget => ⟨(h.entry id' st hget).1, fun hnot => ?_⟩ }
    refine (h.entry id' st hget).2 fun hmem => hnot (hids id' hmem ?_)
    rintro rfl
    cases hnone.symm.trans hget
  · rename_i st hget
    obtain ⟨hfits, hle, hstate⟩ := conn_drainStream s.maxFrameSize id (p := (s.tx, st))
      h.conn_fits (Int.le_refl _) (h.entry id st hget).1
    refine h.set _ hfits hle hids ⟨hstate, fun _ hbody => ?_⟩
    -- the loop was left with a part of the body, so a window is used up
    exact (drainTurn_eq_none_iff.mp (drainTurn_drainStream _ _ _)).resolve_left hbody

theorem StallFree.drains (h : StallFree s ids) : StallFree (ids.foldl H2Session.drain s) [] := by
  induction ids generalizing s with
  | nil => exact h
  | cons id ids ih => exact ih h.drain

section

variable (h : StallFree s [])

include h

theorem StallFree.sendFrame (f : OutFrame) : StallFree (s.sendFrame f) [] :=
  { h with }

theorem StallFree.closeProtocol (code : ErrorCode) : StallFree (s.closeProtocol code) [] :=
  { h with entry := fun id st hget => by cases hget }

theorem StallFree.dropStream (id : Nat) : StallFree (s.dropStream id) [] :=
  { h with entry := fun id' st hget => h.entry id' st (get?_of_get?_erase hget).1 }

theorem StallFree.pruneStreams : StallFree s.pruneStreams [] :=
  { h with entry := fun id st hget => h.entry id st (get?_of_get?_filter hget).1 }

/-- The connection window is left alone.  A stream on the list is drained next. -/
theorem StallFree.replace (id : Nat) (tx : Sender) (st : H2Stream)
    (htx : tx.connSendWindow = s.tx.connSendWindow) (hst : st.state ≠ .idle)
    (hstall : id ∉ ids → st.pendingBody ≠ [] →
      availableWindow st.sendWindow s.tx.connSendWindow = 0) :
    StallFree { s with tx, streams := s.streams.set id st } ids :=
  h.set tx (htx ▸ h.conn_fits) (Int.le_of_eq htx) (fun _ hmem => absurd hmem List.not_mem_nil)
    ⟨hst, htx ▸ hstall⟩

/-- The entry of a frame has the body and the window it had. -/
theorem StallFree.acceptedEntry (f : Frame) :
    (s.acceptedEntry f).state ≠ .idle ∧ ((s.acceptedEntry f).pendingBody ≠ [] →
      availableWindow (s.acceptedEntry f).sendWindow s.tx.connSendWindow = 0) := by
  have hent : (s.streamEntry f.streamId).state ≠ .idle ∧
      ((s.streamEntry f.streamId).pendingBody ≠ [] →
        availableWindow (s.streamEntry f.streamId).sendWindow s.tx.connSendWindow = 0) := by
    rw [streamEntry]
    cases hget : s.streams.get? f.streamId with
    | none => exact ⟨StreamState.noConfusion, fun hne => absurd rfl hne⟩
    | some st =>
      obtain ⟨hstate, hwait⟩ := h.entry _ st hget
      dsimp only [Option.getD_some]
      rw [if_neg hstate]
      exact ⟨hstate, hwait List.not_mem_nil⟩
  rw [H2Session.acceptedEntry]
  split
  · exact hent
  · exact hent

theorem StallFree.sendResponse (id : Nat) (st : H2Stream) (hst : st.state ≠ .idle)
    (hstall : st.pendingBody ≠ [] → availableWindow st.sendWindow s.tx.connSendWindow = 0)
    (hdrs : List Header) (body : Bytes) (headOnly : Bool) :
    StallFree (s.sendResponse id st hdrs body headOnly) [] := by
  rw [H2Session.sendResponse]
  split
  · have hset : StallFree _ [] :=
      h.replace id (s.tx.send (.headers id (encodeResponseHeaders hdrs) true))
      { st with state := .closed, done := true } rfl StreamState.noConfusion fun _ => hstall
    exact { hset with }
  · have hset : StallFree _ [id] := h.replace id
      (s.tx.send (.headers id (encodeResponseHeaders hdrs) false))
      { st with pendingBody := body } rfl hst
      fun hnot => absurd List.mem_cons_self hnot
    exact StallFree.drain { hset with }

end

/-! ## Settings -/

/-- The window of a stream after a list of settings. -/
def shiftedWindow (s : H2Session) (es : List (Nat × Nat)) (st : H2Stream) : Int :=
  match lastInitialWindow es with
  | none => st.sendWindow
  | some v => int32 (st.sendWindow + (v - s.peerStreamWindow))

theorem int32_shift (w p v : Int) : int32 (w + int32 (int32 v - p)) = int32 (w + (v - p)) := by
  unfold int32
  omega

theorem int32_shift_shift (w p v v' : Int) :
    int32 (int32 (w + int32 (int32 v - p)) + (v' - int32 v)) = int32 (w + (v' - p)) := by
  unfold int32
  omega

/-- One initial window, and the settings behind it. -/
theorem shiftedWindow_setInitialWindow (s : H2Session) (v : Nat) (es : List (Nat × Nat))
    (st : H2Stream) (credit : Int) : (s.setInitialWindow v).shiftedWindow es { st with
        sendWindow := int32 (st.sendWindow + int32 (int32 v - s.peerStreamWindow)), credit } =
      s.shiftedWindow ((initialWindowSizeId, v) :: es) st := by
  rw [shiftedWindow, shiftedWindow, lastInitialWindow]
  cases lastInitialWindow es with
  | none => exact int32_shift _ _ _
  | some v' => exact int32_shift_shift _ _ _ _

theorem applySettings_conn (es : List (Nat × Nat)) (s : H2Session) :
    (es.foldl applySetting s).tx.connSendWindow = s.tx.connSendWindow :=
  applySettings_invariant (·.tx.connSendWindow = s.tx.connSendWindow) (fun _ _ h => h)
    (fun _ _ _ h => h) rfl es

/-- What settings leave of the streams.  The windows are 32-bit integers, so that only the last
initial window counts. -/
theorem applySettings_get? (es : List (Nat × Nat)) (s : H2Session) (id : Nat) :
    (es.foldl applySetting s).streams.get? id = (s.streams.get? id).map fun st =>
      { st with
        sendWindow := s.shiftedWindow es st
        credit := st.credit + ((es.foldl applySetting s).peerCredit - s.peerCredit) } := by
  induction es generalizing s with
  | nil => simp [shiftedWindow, lastInitialWindow]
  | cons e es ih =>
    rw [List.foldl_cons, ih]
    by_cases he : e.1 = initialWindowSizeId
    · have hset : s.applySetting e = s.setInitialWindow e.2 := if_pos he
      have hent : e = (initialWindowSizeId, e.2) := Prod.ext he rfl
      have hcredit (c c' : Int) :
          c + (e.2 - s.peerCredit) + (c' - e.2) = c + (c' - s.peerCredit) := by
        omega
      rw [hset, get?_setInitialWindow, Option.map_map]
      congr 1
      funext st
      dsimp only [Function.comp]
      rw [shiftedWindow_setInitialWindow, ← hent]
      congr 1
      exact hcredit _ _
    · obtain ⟨decoder, limit, heq⟩ := s.applySetting_of_ne he
      have hshift : (s.applySetting e).shiftedWindow es = s.shiftedWindow (e :: es) := by
        funext st
        rw [heq, shiftedWindow, shiftedWindow, lastInitialWindow, if_neg he, Option.or_none]
      rw [hshift, heq]

theorem StallFree.applySettings (h : StallFree s []) {es : List (Nat × Nat)}
    (hcred : ∀ v, lastInitialWindow es = some v → ∀ id st, s.streams.get? id = some st →
      st.pendingBody ≠ [] → int32 (st.sendWindow + (v - s.peerStreamWindow)) ≤ 0 ∨
        s.tx.connSendWindow ≤ 0) : StallFree (es.foldl applySetting s) [] := by
  have hconn := applySettings_conn es s
  refine ⟨hconn ▸ h.conn_fits, fun id st' hget' => ?_⟩
  rw [applySettings_get?, Option.map_eq_some_iff] at hget'
  obtain ⟨st, hget, rfl⟩ := hget'
  refine ⟨(h.entry id st hget).1, fun hnot hne => ?_⟩
  rw [hconn]
  dsimp only [shiftedWindow]
  cases hlast : lastInitialWindow es with
  | none => exact (h.entry id st hget).2 hnot hne
  | some v => exact availableWindow_eq_zero_iff.mpr (hcred v hlast id st hget hne)

/-! ## Frames -/

theorem StallFree.step (h : StallFree s []) (fs : FileSystem) (hcred : s.SettingsGiveNoCredit f) :
    StallFree (s.step fs f) [] := by
  have hfed : StallFree (s.fed f) [] := StallFree.pruneStreams { h with }
  have ho : StallFree ((s.fed f).noteOpened f) [] := { hfed with }
  obtain ⟨hstate, hstall⟩ := hfed.acceptedEntry f
  have hout := s.step_outcome fs f
  generalize s.step fs f = s' at hout
  cases hout with
  | same => exact h
  | settings hopen hid htype hack =>
    exact (h.applySettings (hcred hopen hid htype hack)).sendFrame _
  | ping payload => exact h.sendFrame _
  | goaway => exact { h with }
  | failed code => exact h.closeProtocol code
  | connection inc =>
    -- every stream that is left is drained
    refine StallFree.drains ⟨fits_int32 _, fun id st hget => ⟨?_, fun hnot => ?_⟩⟩
    · exact (h.pruneStreams.entry id st hget).1
    · exact absurd (mem_keys_of_get? hget) hnot
  | dropped => exact h.dropStream _
  | reset code => exact (h.sendFrame _).dropStream _
  | window st inc hget =>
    exact StallFree.drain (h.replace f.streamId
      { s.tx with computed := (st.sendWindow + inc) :: s.tx.computed }
      { st with sendWindow := int32 (st.sendWindow + inc), credit := st.credit + inc } rfl
      (h.entry _ st hget).1 fun hnot => absurd List.mem_cons_self hnot)
  | rejected code =>
    exact StallFree.closeProtocol (s := s.noteFrame f) { h with } code
  | refused => exact { hfed with }
  | tooLarge hok code => exact (hfed.sendFrame _).dropStream _
  | kept => exact ho.replace _ _ _ rfl hstate fun _ => hstall
  | answered _ _ hdrs body headOnly =>
    exact ho.sendResponse _ { (s.fed f).acceptedEntry f with served := true } hstate hstall _ _ _

/-- A SETTINGS frame that gives credit leaves a stream waiting that could send. -/
theorem not_neverStalled_step (s : H2Session) (fs : FileSystem)
    (hcred : ¬ s.SettingsGiveNoCredit f) : ¬ (s.step fs f).NeverStalled := by
  unfold SettingsGiveNoCredit at hcred
  simp only [Classical.not_imp, not_forall, not_or] at hcred
  obtain ⟨hopen, hid, htype, hack, v, hlast, id, st, hget, hne, hwin, hconn⟩ := hcred
  have hstep : s.step fs f = (s.applyPeerSettings f.payload).sendFrame .settingsAck := by
    unfold step dispatchFrame handleConnectionFrame
    rw [hopen, if_pos hid, htype]
    rw [hack]
    rfl
  have hget' := applySettings_get? (settingsEntries f.payload) s id
  rw [hget] at hget'
  intro hstall
  rw [hstep] at hstall
  have hzero := hstall id _ hget' hne
  dsimp only [shiftedWindow] at hzero
  rw [hlast] at hzero
  rcases availableWindow_eq_zero_iff.mp hzero with hle | hle
  · exact hwin hle
  · exact hconn (applySettings_conn (settingsEntries f.payload) s ▸ hle)

/-- **No stream waits without need** in any state of a run if and only if no SETTINGS frame of it
gives a stream that waits a positive window while the connection has one. -/
theorem neverStalled_iff (fs : FileSystem) (frames : List Frame) :
    StepsMeet (step fs) SettingsGiveNoCredit {} frames ↔
      ∀ js, js <+: frames → (run (step fs) {} js).NeverStalled :=
  stepsMeet_iff_forall_good (StallFree · []) NeverStalled
    (fun _ h id st hget => (h.entry id st hget).2 List.not_mem_nil)
    (fun _ _ h hcred => h.step fs hcred) (fun s _ _ hcred => s.not_neverStalled_step fs hcred)
    StallFree.start frames

/-- A response that was begun with an initial window of 0 is not resumed when SETTINGS raise it. -/
theorem not_forall_neverStalled : ¬ ∀ (fs : FileSystem) (frames : List Frame),
    (run (step fs) {} frames).NeverStalled := by
  intro hall
  have hstall := hall (fun _ _ => ⟨404, [], 1, [110], none⟩)
    [⟨.settings, 0, 0, [0, 4, 0, 0, 0, 0]⟩, ⟨.headers, 5, 1, [0x82]⟩,
      ⟨.settings, 0, 0, [0, 4, 0, 0, 0, 1]⟩] 1
    { state := .opened, pendingBody := [110], served := true, sendWindow := 1, credit := 1 }
    (by decide +kernel) (List.cons_ne_nil _ _)
  revert hstall
  decide +kernel

end H2Session

end ProtoRelay.Http2
