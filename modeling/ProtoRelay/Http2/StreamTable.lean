import ProtoRelay.Http2.Session

/-!
# The stream table

A connection may have `kMaxConcurrentStreams` streams at a time.  HEADERS that would open one more
is refused.  The other frames of requests make an entry for their stream without a look at the
limit: a CONTINUATION needs a stream whose request is being assembled, and so has one, but DATA and
the frames that have no business on a stream are accepted anywhere.
-/

namespace ProtoRelay.Http2

open List OrderedMap H2Codec H2Session

open ProtoRelay

/-- Nothing was answered on the stream, so that sending and pruning leave it alone. -/
def H2Stream.Fresh (st : H2Stream) : Prop := st.done = false ∧ st.pendingBody = []

namespace H2Session

/-- **The tables are bounded**, and every entry belongs to a stream that HEADERS opened. -/
structure Bounded (s : H2Session) : Prop where
  streams_le : s.streams.size ≤ kMaxConcurrentStreams
  heads_le : s.codec.heads.size ≤ kMaxConcurrentStreams
  opened : ∀ id ∈ s.streams.keys, id ∈ s.opened

/-- A frame of a request that is neither HEADERS nor CONTINUATION comes on a stream that was opened,
and finds its entry or room for a new one. -/
def FindsEntry (s : H2Session) (f : Frame) : Prop :=
  s.IsRequestFrame f → f.type ≠ .headers → f.type ≠ .continuation →
    f.streamId ∈ s.opened ∧ (f.streamId ∈ s.pruneStreams.streams.keys ∨
      s.pruneStreams.streams.size < kMaxConcurrentStreams)

/-! ## The invariant -/

/-- What holds as long as frames find their entries, but for the streams of a list: a request that
is assembled has a fresh entry. -/
structure TableOk (s : H2Session) (ids : List Nat) : Prop where
  size_le : s.streams.size ≤ kMaxConcurrentStreams
  opened : ∀ id ∈ s.streams.keys, id ∈ s.opened
  opened_le : s.closed = false → ∀ id ∈ s.opened, id ≤ s.codec.lastClientStream
  fresh : ∀ id ∈ s.codec.heads.keys, id ∉ ids → ∃ st, s.streams.get? id = some st ∧ st.Fresh

theorem TableOk.start : TableOk {} [] :=
  ⟨Nat.zero_le _, fun _ hid => absurd hid not_mem_nil, fun _ _ hid => absurd hid not_mem_nil,
    fun _ hid => absurd hid not_mem_nil⟩

variable {s s' : H2Session} {f : Frame} {ids : List Nat}

theorem TableOk.bounded (h : TableOk s []) : Bounded s := by
  refine ⟨h.size_le, le_trans (size_le_of_keys_subset fun id hid => ?_) h.size_le, h.opened⟩
  obtain ⟨st, hget, -⟩ := h.fresh id hid not_mem_nil
  exact mem_keys_of_get? hget

/-- No stream is added, and fresh entries of requests that are assembled stay. -/
structure Narrows (s s' : H2Session) : Prop where
  opened : s'.opened = s.opened
  last : s'.codec.lastClientStream = s.codec.lastClientStream
  closed : s'.closed = s.closed
  keys : ∀ id ∈ s'.streams.keys, id ∈ s.streams.keys
  heads : ∀ id ∈ s'.codec.heads.keys, id ∈ s.codec.heads.keys
  fresh : ∀ id ∈ s'.codec.heads.keys, ∀ st, s.streams.get? id = some st → st.Fresh →
    ∃ st', s'.streams.get? id = some st' ∧ st'.Fresh

theorem TableOk.narrows (h : TableOk s ids) (hn : s.Narrows s') : TableOk s' ids := by
  refine ⟨?_, fun id hid => ?_, ?_, fun id hid hnot => ?_⟩
  · exact (size_le_of_keys_subset hn.keys).trans h.size_le
  · exact hn.opened ▸ h.opened id (hn.keys id hid)
  · rw [hn.opened, hn.last, hn.closed]
    exact h.opened_le
  · obtain ⟨st, hget, hst⟩ := h.fresh id (hn.heads id hid) hnot
    exact hn.fresh id hid st hget hst

theorem narrows_pruneStreams (s : H2Session) : s.Narrows s.pruneStreams := by
  refine ⟨rfl, rfl, rfl, fun id hid => ?_, fun _ hid => hid, fun id _ st hget hst => ?_⟩
  · obtain ⟨st, hget⟩ := mem_keys_iff.mp hid
    exact mem_keys_of_get? (get?_of_get?_filter hget).1
  · refine ⟨st, ?_, hst⟩
    dsimp only [pruneStreams]
    rw [get?_filter, hget, Option.filter_some, hst.1]
    rfl

theorem narrows_dropStream (s : H2Session) (id : Nat) : s.Narrows (s.dropStream id) := by
  refine ⟨rfl, rfl, rfl, fun id' hid => (mem_keys_erase.mp hid).2,
    fun id' hid => (mem_keys_erase.mp hid).2, fun id' hid st hget hst => ⟨st, ?_, hst⟩⟩
  dsimp only [dropStream]
  rwa [get?_erase, if_neg (mem_keys_erase.mp hid).1]

theorem narrows_set {id : Nat} {st : H2Stream} (hget : s.streams.get? id = some st) (st' : H2Stream)
    (tx : Sender) (hst' : st.Fresh → st'.Fresh) :
    s.Narrows { s with streams := s.streams.set id st', tx } := by
  refine ⟨rfl, rfl, rfl, fun id' hid => ?_, fun _ hid => hid, fun id' _ st₁ hget₁ hst₁ => ?_⟩
  · rcases mem_keys_set.mp hid with rfl | hid
    · exact mem_keys_of_get? hget
    · exact hid
  · by_cases hid : id' = id
    · subst hid
      cases hget.symm.trans hget₁
      exact ⟨st', get?_set_self _ _ _, hst' hst₁⟩
    · exact ⟨st₁, (get?_set_of_ne hid _ _).trans hget₁, hst₁⟩

theorem TableOk.drain (h : TableOk s ids) (id : Nat) : TableOk (s.drain id) ids := by
  rw [H2Session.drain]
  split
  · exact h
  · rename_i st hget
    refine h.narrows (narrows_set hget _ _ fun hst => ?_)
    rwa [drainStream_of_done (drainTurn_eq_none_iff.mpr (.inl hst.2))]

theorem TableOk.applyPeerSettings (h : TableOk s ids) (payload : Bytes) :
    TableOk (s.applyPeerSettings payload) ids := by
  refine applySettings_invariant (TableOk · ids) (fun s v h => h.narrows ?_)
    (fun s _ _ h => { h with }) h _
  refine ⟨rfl, rfl, rfl, fun id hid => ?_, fun _ hid => hid, fun id _ st hget hst => ?_⟩
  · rwa [setInitialWindow, keys_mapValues] at hid
  · rw [get?_setInitialWindow, hget]
    exact ⟨_, rfl, hst⟩

/-! ## Frames of requests -/

/-- The codec has taken a frame: its stream is the one to look after. -/
theorem TableOk.fed (h : TableOk s []) (htakes : s.codec.Takes f) :
    TableOk (s.fed f) [f.streamId] := by
  obtain ⟨hsize, ho, hle, hfr⟩ := h.narrows s.narrows_pruneStreams
  refine ⟨hsize, ho, fun hcl id hid => ?_, fun id hid hnot => ?_⟩
  · refine (hle hcl id hid).trans (le_of_le_of_eq ?_ htakes.last.symm)
    split
    · exact (htakes.newer ‹_›).le
    · exact le_rfl
  · refine hfr id ?_ not_mem_nil
    obtain ⟨hd, hget⟩ := mem_keys_iff.mp hid
    exact mem_keys_of_get?
      ((htakes.others id fun heq => hnot (mem_singleton.mpr heq)).symm.trans hget)

theorem TableOk.noteOpened (h : TableOk s ids)
    (hlast : f.type = .headers → s.codec.lastClientStream = f.streamId) :
    TableOk (s.noteOpened f) ids := by
  refine ⟨h.size_le, fun id hid => ?_, fun hcl id hid => ?_, h.fresh⟩
  · have hmem := h.opened id hid
    dsimp only [H2Session.noteOpened]
    split
    · exact .tail _ hmem
    · exact hmem
  · dsimp only [H2Session.noteOpened] at hid
    split at hid
    · rcases mem_cons.mp hid with rfl | hid
      · exact (hlast ‹_›).ge
      · exact h.opened_le hcl id hid
    · exact h.opened_le hcl id hid

/-- The stream to look after assembles nothing, or is fresh. -/
theorem TableOk.settled {id : Nat} (h : TableOk s [id])
    (hself : id ∈ s.codec.heads.keys → ∃ st, s.streams.get? id = some st ∧ st.Fresh) :
    TableOk s [] := by
  refine ⟨h.size_le, h.opened, h.opened_le, fun id' hid _ => ?_⟩
  by_cases heq : id' = id
  · exact heq ▸ hself (heq ▸ hid)
  · exact h.fresh id' hid fun hmem => heq (mem_singleton.mp hmem)

theorem TableOk.set {id : Nat} (h : TableOk s ids) (ho : id ∈ s.opened)
    (hroom : id ∈ s.streams.keys ∨ s.streams.size < kMaxConcurrentStreams) (st : H2Stream)
    (hids : id ∈ ids) : TableOk { s with streams := s.streams.set id st } ids := by
  refine ⟨?_, fun id' hid => ?_, h.opened_le, fun id' hid hnot => ?_⟩
  · by_cases hmem : id ∈ s.streams.keys
    · exact (size_set_of_mem hmem st).trans_le h.size_le
    · exact (size_set_of_not_mem hmem st).trans_le (hroom.resolve_left hmem)
  · rcases mem_keys_set.mp hid with rfl | hid
    · exact ho
    · exact h.opened id' hid
  · obtain ⟨st', hget, hst'⟩ := h.fresh id' hid hnot
    exact ⟨st', (get?_set_of_ne (by rintro rfl; exact hnot hids) _ _).trans hget, hst'⟩

/-- A request that is assembled has its entry when the finished streams are gone. -/
theorem TableOk.finds (h : TableOk s []) {id : Nat} (hid : id ∈ s.codec.heads.keys) :
    id ∈ s.opened ∧ ∃ st, s.pruneStreams.streams.get? id = some st ∧ st.Fresh := by
  obtain ⟨st, hget, hst⟩ := h.fresh id hid not_mem_nil
  exact ⟨h.opened id (mem_keys_of_get? hget), s.narrows_pruneStreams.fresh id hid st hget hst⟩

/-- **An accepted frame** has its stream opened, and its entry or room for one. -/
theorem TableOk.admits (h : TableOk s []) (hacc : s.Accepts f) (hfinds : s.FindsEntry f) :
    f.streamId ∈ ((s.fed f).noteOpened f).opened ∧ (f.streamId ∈ s.pruneStreams.streams.keys ∨
      s.pruneStreams.streams.size < kMaxConcurrentStreams) := by
  have htakes := takes_of_ok hacc.ok
  dsimp only [H2Session.noteOpened]
  by_cases htype : f.type = .headers
  · rw [if_pos htype]
    refine ⟨mem_cons_self, ?_⟩
    by_cases hmem : f.streamId ∈ s.pruneStreams.streams.keys
    · exact .inl hmem
    · exact .inr (hacc.room htype (get?_eq_none_iff.mpr hmem))
  · rw [if_neg htype]
    by_cases hcont : f.type = .continuation
    · -- its request is being assembled
      have hok := hacc.ok
      rw [feed, hcont] at hok
      obtain ⟨hd, hget, -⟩ := feedContinuation_of_ok hok
      obtain ⟨ho, st, hget', -⟩ := h.finds (mem_keys_of_get? hget)
      exact ⟨ho, .inl (mem_keys_of_get? hget')⟩
    · exact hfinds hacc.toIsRequestFrame htype hcont

/-- The entry of an accepted frame is fresh while its request is assembled. -/
theorem TableOk.fresh_acceptedEntry (h : TableOk s []) (hacc : s.Accepts f)
    (hmem : f.streamId ∈ (s.codec.feed f).1.heads.keys) : ((s.fed f).acceptedEntry f).Fresh := by
  have htakes := takes_of_ok hacc.ok
  have hpre : (((s.fed f).streams.get? f.streamId).getD {}).Fresh := by
    rcases htakes.begun (.inl hmem) with htype | hmem
    · cases hget : (s.fed f).streams.get? f.streamId with
      | none => exact ⟨rfl, rfl⟩
      | some st =>
        -- a stream with an entry is not newer than the last one
        have hkey := mem_keys_of_get? (get?_of_get?_filter hget).1
        have hle := h.opened_le hacc.isOpen _ (h.opened _ hkey)
        exact absurd hle (htakes.newer htype).not_ge
    · obtain ⟨-, st, hget, hst⟩ := h.finds hmem
      exact (congrArg (·.getD {}) hget : ((s.fed f).streams.get? f.streamId).getD {} = st) ▸ hst
  have hent : ((s.fed f).streamEntry f.streamId).Fresh := by
    rw [streamEntry]
    split
    · exact hpre
    · exact hpre
  rw [acceptedEntry]
  split
  · exact hent
  · exact hent

theorem TableOk.closeProtocol (s : H2Session) (code : ErrorCode) :
    TableOk (s.closeProtocol code) [] :=
  ⟨Nat.zero_le _, fun _ hid => absurd hid not_mem_nil, Bool.noConfusion,
    fun _ hid => absurd hid not_mem_nil⟩

theorem TableOk.step (h : TableOk s []) (fs : FileSystem) (hfinds : s.FindsEntry f) :
    TableOk (s.step fs f) [] := by
  have hset : s.Accepts f → ∀ st, TableOk { (s.fed f).noteOpened f with
      streams := (s.fed f).streams.set f.streamId st } [f.streamId] := fun hacc st => by
    obtain ⟨ho, hroom⟩ := h.admits hacc hfinds
    have htakes := takes_of_ok hacc.ok
    refine ((h.fed htakes).noteOpened fun htype => ?_).set ho hroom st mem_cons_self
    exact htakes.last.trans (if_pos htype)
  have hout := s.step_outcome fs f
  generalize s.step fs f = s' at hout
  cases hout with
  | same => exact h
  | settings => exact { h.applyPeerSettings f.payload with }
  | ping => exact { h with }
  | goaway => exact { h with opened_le := Bool.noConfusion }
  | failed code => exact .closeProtocol s code
  | connection inc =>
    have hraised : TableOk (s.raiseConnection inc) [] := { h with }
    exact run_invariant (TableOk · []) (fun _ id hs => hs.drain id)
      (hraised.narrows (narrows_pruneStreams _)) _
  | dropped => exact h.narrows (narrows_dropStream s _)
  | reset code =>
    exact TableOk.narrows (s := s.sendFrame _) { h with } (narrows_dropStream _ _)
  | window st inc hget => exact (h.narrows (narrows_set hget { st with
      sendWindow := int32 (st.sendWindow + inc), credit :=
        st.credit + inc } _ fun hst => hst)).drain _
  | rejected code => exact .closeProtocol _ code
  | refused hok =>
    have hfed := h.fed (takes_of_ok hok)
    exact TableOk.settled
      { hfed with fresh := fun id hid => hfed.fresh id (mem_keys_erase.mp hid).2 }
      fun hmem => absurd rfl (mem_keys_erase.mp hmem).1
  | tooLarge hok code =>
    have hdropped := (h.fed (takes_of_ok hok)).narrows (narrows_dropStream _ f.streamId)
    exact TableOk.settled { hdropped with } fun hmem => absurd rfl (mem_keys_erase.mp hmem).1
  | kept hacc =>
    exact (hset hacc _).settled fun hmem =>
      ⟨_, get?_set_self _ _ _, h.fresh_acceptedEntry hacc hmem⟩
  | answered hacc hrequest hdrs body headOnly =>
    -- the request is assembled no longer
    have ht := (takes_of_ok hacc.ok).taken hrequest
    rw [sendResponse]
    split
    · have hclosed := hset hacc
        { (s.fed f).acceptedEntry f with served := true, state := .closed, done := true }
      exact TableOk.settled { hclosed with } fun hmem => absurd hmem ht
    · have hbegun :=
        hset hacc { (s.fed f).acceptedEntry f with served := true, pendingBody := body }
      apply TableOk.drain
      exact TableOk.settled { hbegun with } fun hmem => absurd hmem ht

/-- The frames that need no request to be assembled: their stream gets an entry. -/
theorem step_of_not_begun (fs : FileSystem) (hframe : s.IsRequestFrame f)
    (htype : f.type ≠ .headers)
    (hcont : f.type ≠ .continuation) (hhead : s.codec.heads.get? f.streamId = none) :
    s.step fs f = { (s.fed f).noteOpened f with
      streams := (s.fed f).streams.set f.streamId ((s.fed f).acceptedEntry f) } := by
  obtain ⟨hopen, hid, hoth, hfits⟩ := hframe
  have hfeed : s.codec.feed f = (s.codec, {}) := by
    rw [feed]
    split
    · exact absurd ‹_› htype
    · exact absurd ‹_› hcont
    · rw [feedData, hhead]
    · rfl
  have hrequest : s.step fs f = s.handleRequestFrame fs f := by
    unfold step dispatchFrame
    rw [hopen, if_neg Bool.false_ne_true, if_neg hid, handleStreamFrame]
    split
    · exact absurd ‹_› hoth.1
    · exact absurd ‹_› hoth.2.1
    · exact absurd ‹_› hoth.2.2
    · rfl
  rw [hrequest, handleRequestFrame, hfeed]
  rw [if_neg fun h => htype h.1]
  unfold handleAccepted
  rw [if_neg fun h => absurd (hfits h.1) (Nat.not_le.mpr h.2)]
  rfl

/-- A frame that does not find its entry makes one that is too many or not opened. -/
theorem TableOk.not_bounded_step (h : TableOk s []) (fs : FileSystem) (hfinds : ¬ s.FindsEntry f) :
    ¬ (s.step fs f).Bounded := by
  unfold FindsEntry at hfinds
  simp only [Classical.not_imp] at hfinds
  obtain ⟨hframe, htype, hcont, hnot⟩ := hfinds
  have hhead : f.streamId ∉ s.codec.heads.keys := fun hmem => by
    obtain ⟨ho, st, hget, -⟩ := h.finds hmem
    exact hnot ⟨ho, .inl (mem_keys_of_get? hget)⟩
  have hstep : s.step fs f = { (s.fed f).noteOpened f with
      streams := (s.fed f).streams.set f.streamId ((s.fed f).acceptedEntry f) } :=
    step_of_not_begun fs hframe htype hcont (get?_eq_none_iff.mpr hhead)
  intro hbounded
  rw [hstep] at hbounded
  refine hnot ⟨?_, ?_⟩
  · have hmem := hbounded.opened f.streamId (mem_keys_set.mpr (.inl rfl))
    exact (if_neg htype : (if f.type = .headers then f.streamId :: s.opened else s.opened) =
      _) ▸ hmem
  · by_contra hfull
    rw [not_or] at hfull
    have hle := hbounded.streams_le
    have hsize := size_set_of_not_mem hfull.1 ((s.fed f).acceptedEntry f)
    exact hfull.2 (hsize.symm.trans_le hle)

/-- **The stream table stays bounded** in a run, with entries for opened streams only, if and only
if its frames find their entries. -/
theorem bounded_iff (fs : FileSystem) (frames : List Frame) :
    StepsMeet (step fs) FindsEntry {} frames ↔
      ∀ js, js <+: frames → (run (step fs) {} js).Bounded :=
  stepsMeet_iff_forall_good (TableOk · []) Bounded (fun _ h => h.bounded)
    (fun _ _ h hfinds => h.step fs hfinds) (fun _ _ h hfinds => h.not_bounded_step fs hfinds)
    TableOk.start frames

/-- DATA on a stream that was never opened makes an entry. -/
theorem not_forall_bounded : ¬ ∀ (fs : FileSystem) (frames : List Frame),
    (run (step fs) {} frames).Bounded := by
  intro hall
  have ho := (hall (fun _ _ => ⟨404, [], 0, [], none⟩) [⟨.data, 0, 1, []⟩]).opened 1 (by decide)
  revert ho
  decide

end H2Session

end ProtoRelay.Http2
