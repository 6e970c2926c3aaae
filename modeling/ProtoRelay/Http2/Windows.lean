import ProtoRelay.Http2.Session

/-!
# Send windows

The windows of a session are signed 32-bit integers, and what they stand for are the credits the
peer has given: the initial values, raised by updates, shifted by settings, and lowered by the bytes
sent.  Updates are checked against the greatest window before they are added.  Settings are not:
neither the new initial window nor the windows of the open streams after the shift.
-/

namespace ProtoRelay.Http2

open List OrderedMap

open ProtoRelay

/-! ## Sender and stream -/

/-- The connection window is its credit, and nothing computed so far was out of range. -/
structure Sender.Exact (tx : Sender) : Prop where
  computed : ∀ x ∈ tx.computed, FitsInt32 x
  window : tx.connSendWindow = tx.connCredit
  nonneg : 0 ≤ tx.connCredit
  lt : tx.connCredit < 2 ^ 31

/-- The window of a stream is its credit.  It can be negative, after the initial window was lowered,
but not by more than the initial window ever was. -/
structure H2Stream.Exact (peer : Int) (st : H2Stream) : Prop where
  window : st.sendWindow = st.credit
  lt : st.credit < 2 ^ 31
  ge : peer - (2 ^ 31 - 1) ≤ st.credit

theorem Sender.Exact.send {tx : Sender} (h : tx.Exact) (f : OutFrame) : (tx.send f).Exact :=
  { h with }

/-- A chunk is within both windows. -/
theorem exact_drainStream {peer : Int} (hpeer : peer < 2 ^ 31) (limit : FrameSize) (id : Nat)
    {p : Sender × H2Stream} (h : p.1.Exact ∧ p.2.Exact peer) :
    (drainStream limit id p).1.Exact ∧ (drainStream limit id p).2.Exact peer := by
  refine drainStream_invariant limit id (fun p => p.1.Exact ∧ p.2.Exact peer) ?_ h
  rintro tx st n (⟨htx, hst⟩ : tx.Exact ∧ st.Exact peer) hchunk
  obtain ⟨hcomputed, hwtx, -, hlttx⟩ := htx
  obtain ⟨hwst, hltst, -⟩ := hst
  have hsend := hchunk.le_window
  have hconn := hchunk.le_conn
  have hfst : FitsInt32 (st.sendWindow - n) := ⟨by omega, by omega⟩
  have hftx : FitsInt32 (tx.connSendWindow - n) := ⟨by omega, by omega⟩
  refine ⟨⟨?_, ?_, ?_, ?_⟩, ⟨?_, ?_, ?_⟩⟩ <;> dsimp only [sendChunk]
  · exact forall_mem_cons.mpr ⟨hftx, forall_mem_cons.mpr ⟨hfst, hcomputed⟩⟩
  · rw [int32_of_fits hftx, hwtx]
  · omega
  · omega
  · rw [int32_of_fits hfst, hwst]
  · omega
  · omega

namespace H2Session

/-- **The windows are exact**: every computation with windows so far has had a 32-bit result, and
the windows are the credits the peer has given, at most 2^31 - 1. -/
structure WindowsExact (s : H2Session) : Prop where
  computed : ∀ x ∈ s.tx.computed, FitsInt32 x
  connection : s.tx.connSendWindow = s.tx.connCredit ∧ s.tx.connCredit ≤ 2 ^ 31 - 1
  peer : s.peerStreamWindow = s.peerCredit ∧ s.peerCredit ≤ 2 ^ 31 - 1
  streams : ∀ id st, s.streams.get? id = some st →
    st.sendWindow = st.credit ∧ st.credit ≤ 2 ^ 31 - 1

/-- The initial windows of a list of settings, and what they make of the windows of the open
streams, are at most 2^31 - 1. -/
def SettingsFit (s : H2Session) (entries : List (Nat × Nat)) : Prop :=
  ∀ e ∈ entries, e.1 = initialWindowSizeId →
    e.2 ≤ 2 ^ 31 - 1 ∧
      ∀ id st, s.streams.get? id = some st →
        st.sendWindow + (e.2 - s.peerStreamWindow) ≤ 2 ^ 31 - 1

/-- A SETTINGS frame that is taken into account carries such settings. -/
def InitialWindowsFit (s : H2Session) (f : Frame) : Prop :=
  s.closed = false → f.streamId = 0 → f.type = .settings →
    hasFlag f.flags endStreamFlag = false → s.SettingsFit (settingsEntries f.payload)

/-! ## The invariant -/

/-- What holds as long as the settings fit. -/
structure WindowsOk (s : H2Session) : Prop where
  tx : s.tx.Exact
  peer : s.peerStreamWindow = s.peerCredit
  peer_nonneg : 0 ≤ s.peerCredit
  peer_lt : s.peerCredit < 2 ^ 31
  streams : ∀ id st, s.streams.get? id = some st → st.Exact s.peerCredit

theorem WindowsOk.windowsExact {s : H2Session} (h : WindowsOk s) : s.WindowsExact :=
  { h.tx with
    connection := ⟨h.tx.window, by have := h.tx.lt; omega⟩
    peer := ⟨h.peer, by have := h.peer_lt; omega⟩
    streams := fun id st hget =>
      ⟨(h.streams id st hget).window, by have := (h.streams id st hget).lt; omega⟩ }

theorem WindowsOk.start : WindowsOk {} where
  tx := ⟨fun x hx => absurd hx not_mem_nil, rfl, by decide, by decide⟩
  peer := rfl
  peer_nonneg := by decide
  peer_lt := by decide
  streams id st hget := by cases hget

variable {s : H2Session}

theorem WindowsOk.sendFrame (h : WindowsOk s) (f : OutFrame) : WindowsOk (s.sendFrame f) :=
  { h with tx := h.tx.send f }

theorem WindowsOk.closeProtocol (h : WindowsOk s) (code : ErrorCode) :
    WindowsOk (s.closeProtocol code) :=
  { h with tx := h.tx.send _, streams := fun id st hget => by cases hget }

theorem WindowsOk.dropStream (h : WindowsOk s) (id : Nat) : WindowsOk (s.dropStream id) :=
  { h with streams := fun id' st hget => h.streams id' st (get?_of_get?_erase hget).1 }

theorem WindowsOk.pruneStreams (h : WindowsOk s) : WindowsOk s.pruneStreams :=
  { h with streams := fun id st hget => h.streams id st (get?_of_get?_filter hget).1 }

variable {id inc : Nat} {st : H2Stream} {e : Nat × Nat} {es : List (Nat × Nat)} {f : Frame}

theorem WindowsOk.set (h : WindowsOk s) {tx : Sender} (htx : tx.Exact)
    (hst : st.Exact s.peerCredit) :
    WindowsOk { s with tx := tx, streams := s.streams.set id st } := by
  refine { h with tx := htx, streams := fun id' st' hget => ?_ }
  rw [get?_set] at hget
  split at hget
  · cases hget
    exact hst
  · exact h.streams id' st' hget

theorem WindowsOk.drain (h : WindowsOk s) (id : Nat) : WindowsOk (s.drain id) := by
  rw [H2Session.drain]
  split
  · exact h
  · rename_i st hget
    obtain ⟨htx, hst⟩ := exact_drainStream h.peer_lt s.maxFrameSize id (p := (s.tx, st))
      ⟨h.tx, h.streams id st hget⟩
    exact h.set htx hst

theorem WindowsOk.drainAll (h : WindowsOk s) : WindowsOk s.drainAll := by
  rw [H2Session.drainAll]
  generalize s.streams.keys = ids
  induction ids generalizing s with
  | nil => exact h
  | cons id ids ih => exact ih (h.drain id)

/-! ## Updates -/

/-- The comparison of the source is the one of the exact numbers, for a window of 32 bits. -/
theorem exceedsWindow_eq_false_iff {w : Int} (hw : FitsInt32 w) (hinc : inc < 2 ^ 31) :
    exceedsWindow w inc = false ↔ w + inc < 2 ^ 31 := by
  obtain ⟨hlow, hhigh⟩ := hw
  rw [exceedsWindow, decide_eq_false_iff_not]
  omega

theorem WindowsOk.raiseConnection (h : WindowsOk s) (hinc : inc < 2 ^ 31)
    (hfit : exceedsWindow s.tx.connSendWindow inc = false) : WindowsOk (s.raiseConnection inc) := by
  obtain ⟨hcomputed, hwin, hnonneg, hlt⟩ := h.tx
  rw [exceedsWindow_eq_false_iff ⟨by omega, by omega⟩ hinc] at hfit
  have hfits : FitsInt32 (s.tx.connSendWindow + inc) := ⟨by omega, hfit⟩
  refine { h with tx := ⟨forall_mem_cons.mpr ⟨hfits, hcomputed⟩, ?_, ?_, ?_⟩ } <;>
    dsimp only [H2Session.raiseConnection]
  · rw [int32_of_fits hfits, hwin]
  · omega
  · omega

theorem WindowsOk.raiseStream (h : WindowsOk s) (hget : s.streams.get? id = some st)
    (hinc : inc < 2 ^ 31) (hfit : exceedsWindow st.sendWindow inc = false) :
    WindowsOk (s.raiseStream id st inc) := by
  obtain ⟨hwin, hlt, hge⟩ := h.streams id st hget
  have hpeer := h.peer_nonneg
  rw [exceedsWindow_eq_false_iff ⟨by omega, by omega⟩ hinc] at hfit
  have hfits : FitsInt32 (st.sendWindow + inc) := ⟨by omega, hfit⟩
  refine h.set { h.tx with computed := forall_mem_cons.mpr ⟨hfits, h.tx.computed⟩ } ⟨?_, ?_, ?_⟩ <;>
    dsimp only
  · rw [int32_of_fits hfits, hwin]
  · omega
  · omega

/-! ## Settings -/

/-- How far the credits of the open streams are from the initial window.  No setting
changes this. -/
def Shifted (s : H2Session) (d : Int) : Prop :=
  ∃ id st, s.streams.get? id = some st ∧ st.credit - s.peerCredit = d

/-- A setting that keeps the windows within the bound. -/
def SettingFits (Shifted : Int → Prop) (e : Nat × Nat) : Prop :=
  e.1 = initialWindowSizeId → e.2 ≤ 2 ^ 31 - 1 ∧ ∀ d, Shifted d → d + e.2 ≤ 2 ^ 31 - 1

theorem WindowsOk.settingsFit_iff (h : WindowsOk s) :
    s.SettingsFit es ↔ ∀ e ∈ es, SettingFits s.Shifted e := by
  refine forall_congr' fun e => forall_congr' fun _ => forall_congr' fun _ =>
    and_congr_right fun _ => ?_
  constructor
  · rintro hall d ⟨id, st, hget, rfl⟩
    have hle := hall id st hget
    rw [(h.streams id st hget).window, h.peer] at hle
    omega
  · intro hall id st hget
    have hle := hall _ ⟨id, st, hget, rfl⟩
    rw [(h.streams id st hget).window, h.peer]
    omega

theorem shifted_applySetting (s : H2Session) (e : Nat × Nat) :
    (s.applySetting e).Shifted = s.Shifted := by
  by_cases he : e.1 = initialWindowSizeId
  · rw [H2Session.applySetting, if_pos he]
    funext d
    have hd (x : Int) : x + (e.2 - s.peerCredit) - e.2 = x - s.peerCredit := by omega
    simp only [Shifted, get?_setInitialWindow, Option.map_eq_some_iff, eq_iff_iff]
    constructor
    · rintro ⟨id, -, ⟨st, hget, rfl⟩, rfl⟩
      exact ⟨id, st, hget, (hd _).symm⟩
    · rintro ⟨id, st, hget, rfl⟩
      exact ⟨id, _, ⟨st, hget, rfl⟩, hd _⟩
  · obtain ⟨decoder, limit, heq⟩ := s.applySetting_of_ne he
    rw [heq]
    rfl

theorem WindowsOk.setInitialWindow (h : WindowsOk s) {val : Nat} (hval : val ≤ 2 ^ 31 - 1)
    (hfit : ∀ d, s.Shifted d → d + val ≤ 2 ^ 31 - 1) : WindowsOk (s.setInitialWindow val) := by
  obtain ⟨htx, hpeer, hnonneg, hlt, hstreams⟩ := h
  have hfval : FitsInt32 val := ⟨by omega, by omega⟩
  have hfdelta : FitsInt32 (val - s.peerStreamWindow) := ⟨by omega, by omega⟩
  have hfits : ∀ id st, s.streams.get? id = some st →
      FitsInt32 (st.sendWindow + (val - s.peerStreamWindow)) := by
    intro id st hget
    obtain ⟨hwin, -, hge⟩ := hstreams id st hget
    have hle := hfit _ ⟨id, st, hget, rfl⟩
    exact ⟨by omega, by omega⟩
  refine ⟨{ htx with computed := ?_ }, int32_of_fits hfval, Int.natCast_nonneg val, ?_, ?_⟩
  · intro x hx
    dsimp only [H2Session.setInitialWindow] at hx
    rw [int32_of_fits hfval, int32_of_fits hfdelta] at hx
    rcases mem_append.mp hx with hx | hx
    · obtain ⟨e, he, rfl⟩ := mem_map.mp hx
      exact hfits e.1 e.2 (get?_eq_some_iff.mpr he)
    · exact forall_mem_cons.mpr ⟨hfdelta, forall_mem_cons.mpr ⟨hfval, htx.computed⟩⟩ x hx
  · dsimp only [H2Session.setInitialWindow]
    omega
  · intro id st' hget
    rw [get?_setInitialWindow, Option.map_eq_some_iff] at hget
    obtain ⟨st, hget, rfl⟩ := hget
    obtain ⟨hwin, -, hge⟩ := hstreams id st hget
    have hle := hfit _ ⟨id, st, hget, rfl⟩
    refine ⟨?_, ?_, ?_⟩ <;> dsimp only [H2Session.setInitialWindow]
    · rw [int32_of_fits hfval, int32_of_fits hfdelta, int32_of_fits (hfits id st hget), hwin, hpeer]
    · omega
    · omega

theorem mem_computed_applySettings (es : List (Nat × Nat)) (s : H2Session) {x : Int}
    (hx : x ∈ s.tx.computed) : x ∈ (es.foldl H2Session.applySetting s).tx.computed :=
  applySettings_invariant (x ∈ ·.tx.computed)
    (fun _ _ hmem => mem_append_right _ (.tail _ (.tail _ hmem))) (fun _ _ _ hmem => hmem) hx es

section

variable (h : WindowsOk s)

include h

theorem WindowsOk.applySetting (hfit : SettingFits s.Shifted e) : WindowsOk (s.applySetting e) := by
  by_cases he : e.1 = initialWindowSizeId
  · rw [H2Session.applySetting, if_pos he]
    exact h.setInitialWindow (hfit he).1 (hfit he).2
  · obtain ⟨decoder, limit, heq⟩ := s.applySetting_of_ne he
    rw [heq]
    exact { h with }

theorem WindowsOk.overflow_applySetting (hfit : ¬ SettingFits s.Shifted e) :
    ∃ x ∈ (s.applySetting e).tx.computed, ¬ FitsInt32 x := by
  obtain ⟨hkey, hbad⟩ := Classical.not_imp.mp hfit
  obtain ⟨-, hpeer, hnonneg, hlt, hstreams⟩ := h
  rw [H2Session.applySetting, if_pos hkey]
  dsimp only [H2Session.setInitialWindow]
  by_cases hval : e.2 ≤ 2 ^ 31 - 1
  · have hfval : FitsInt32 e.2 := ⟨by omega, by omega⟩
    have hfdelta : FitsInt32 (e.2 - s.peerStreamWindow) := ⟨by omega, by omega⟩
    simp only [hval, true_and, not_forall] at hbad
    obtain ⟨d, ⟨id, st, hget, rfl⟩, hgt⟩ := hbad
    have hwin := (hstreams id st hget).window
    refine ⟨st.sendWindow + (e.2 - s.peerStreamWindow), ?_, fun hfits => ?_⟩
    · rw [int32_of_fits hfval, int32_of_fits hfdelta]
      exact mem_append_left _ (mem_map.mpr ⟨(id, st), get?_eq_some_iff.mp hget, rfl⟩)
    · have hhigh := hfits.2
      omega
  · refine ⟨e.2, mem_append_right _ (.tail _ mem_cons_self), fun hfits => ?_⟩
    have hhigh := hfits.2
    omega

/-- **Settings that fit** keep the windows exact. -/
theorem WindowsOk.applySettings (hfit : s.SettingsFit es) :
    WindowsOk (es.foldl H2Session.applySetting s) := by
  rw [h.settingsFit_iff] at hfit
  induction es generalizing s with
  | nil => exact h
  | cons e es ih =>
    obtain ⟨he, hes⟩ := forall_mem_cons.mp hfit
    exact ih (h.applySetting he) (by rwa [shifted_applySetting])

/-- **Settings that do not** lead to a computation that is out of range. -/
theorem WindowsOk.exists_overflow (hfit : ¬ s.SettingsFit es) :
    ∃ x ∈ (es.foldl H2Session.applySetting s).tx.computed, ¬ FitsInt32 x := by
  rw [h.settingsFit_iff] at hfit
  induction es generalizing s with
  | nil => exact absurd (forall_mem_nil _) hfit
  | cons e es ih =>
    by_cases he : SettingFits s.Shifted e
    · refine ih (h.applySetting he) fun hes => hfit (forall_mem_cons.mpr ⟨he, ?_⟩)
      rwa [shifted_applySetting] at hes
    · obtain ⟨x, hx, hnot⟩ := h.overflow_applySetting he
      exact ⟨x, mem_computed_applySettings es _ hx, hnot⟩

/-! ## Frames -/

theorem WindowsOk.acceptedEntry (f : Frame) : (s.acceptedEntry f).Exact s.peerCredit := by
  have hent : (s.streamEntry f.streamId).Exact s.peerCredit := by
    have hlt := h.peer_lt
    rw [H2Session.streamEntry]
    split
    · exact ⟨h.peer, hlt, by dsimp only; omega⟩
    · rename_i hstate
      cases hget : s.streams.get? f.streamId with
      | none =>
        rw [hget] at hstate
        exact absurd rfl hstate
      | some st => exact h.streams f.streamId st hget
  rw [H2Session.acceptedEntry]
  split
  · exact { hent with }
  · exact hent

theorem WindowsOk.sendResponse {id : Nat} {st : H2Stream}
    (hst : st.Exact s.peerCredit) (hdrs : List Header) (body : Bytes) (headOnly : Bool) :
    WindowsOk (s.sendResponse id st hdrs body headOnly) := by
  rw [H2Session.sendResponse]
  split
  · have hcl : H2Stream.Exact s.peerCredit { st with state := .closed, done := true } :=
      { hst with }
    exact { h.set (h.tx.send _) hcl with }
  · have hpend : H2Stream.Exact s.peerCredit { st with pendingBody := body } :=
      { hst with }
    apply WindowsOk.drain
    exact { h.set (h.tx.send _) hpend with }

theorem WindowsOk.step (fs : FileSystem) {f : Frame}
    (hfit : s.InitialWindowsFit f) : WindowsOk (s.step fs f) := by
  have hnoted : WindowsOk (s.noteFrame f) := { h with }
  have hfed : WindowsOk (s.fed f) := hnoted.pruneStreams
  have ho : WindowsOk ((s.fed f).noteOpened f) :=
    { hfed with }
  have hent := hfed.acceptedEntry f
  have hout := s.step_outcome fs f
  generalize s.step fs f = s' at hout
  cases hout with
  | same => exact h
  | settings hopen hid htype hack =>
    exact (h.applySettings (hfit hopen hid htype hack)).sendFrame _
  | ping payload => exact h.sendFrame _
  | goaway => exact { h with }
  | failed code => exact h.closeProtocol code
  | connection inc hinc hexceeds => exact (h.raiseConnection hinc hexceeds).pruneStreams.drainAll
  | dropped => exact h.dropStream _
  | reset code => exact (h.sendFrame _).dropStream _
  | window st inc hget hinc hexceeds => exact (h.raiseStream hget hinc hexceeds).drain _
  | rejected code => exact hnoted.closeProtocol code
  | refused => exact { hfed with tx := hfed.tx.send _ }
  | tooLarge hok code => exact (hfed.sendFrame _).dropStream _
  | kept => exact ho.set ho.tx hent
  | answered _ _ hdrs body headOnly =>
    apply ho.sendResponse
    exact { hent with }

theorem WindowsOk.not_windowsExact_step (fs : FileSystem)
    (hfit : ¬ s.InitialWindowsFit f) : ¬ (s.step fs f).WindowsExact := by
  unfold InitialWindowsFit at hfit
  simp only [Classical.not_imp] at hfit
  obtain ⟨hopen, hid, htype, hack, hfit⟩ := hfit
  obtain ⟨x, hx, hnot⟩ := h.exists_overflow hfit
  intro hexact
  apply hnot
  apply hexact.computed
  unfold H2Session.step dispatchFrame H2Session.handleConnectionFrame
  rw [hopen, if_pos hid, htype]
  rw [hack]
  exact hx

end

/-- **The windows are exact** in every state of a run if and only if every SETTINGS frame of it
carries only initial windows up to 2^31 - 1, which keep the windows of the open streams within this
bound. -/
theorem windowsExact_iff (fs : FileSystem) (frames : List Frame) :
    StepsMeet (H2Session.step fs) InitialWindowsFit {} frames ↔
      ∀ fs', fs' <+: frames → (run (H2Session.step fs) {} fs').WindowsExact :=
  stepsMeet_iff_forall_good WindowsOk WindowsExact (fun _ h => h.windowsExact)
    (fun _ _ h hfit => h.step fs hfit) (fun _ _ h hfit => h.not_windowsExact_step fs hfit)
    WindowsOk.start frames

/-- An initial window of 2^31 is taken for a negative number. -/
theorem not_forall_windowsExact : ¬ ∀ (fs : FileSystem) (frames : List Frame),
    (run (H2Session.step fs) {} frames).WindowsExact := by
  intro hall
  have hexact := hall (fun _ _ => ⟨404, [], 0, [], none⟩) [⟨.settings, 0, 0, [0, 4, 0x80, 0, 0, 0]⟩]
  have hfits : FitsInt32 (2 ^ 31) := hexact.computed _ (by decide)
  exact absurd hfits (by decide)

end H2Session

end ProtoRelay.Http2
