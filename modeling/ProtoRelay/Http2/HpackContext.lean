import ProtoRelay.Base.Runs
import ProtoRelay.Http2.Codec

/-!
# The header compression context

The peer compresses its header blocks in the order in which it sends them, so the decoder has to
decode every block of the connection, in the order in which END_HEADERS completes them.  `H2Codec`
decodes a block only once its stream has ended, and it does not decode the block of a stream that is
aborted before.  A block that waits for the end of its stream while another one is completed is
decoded too late, and what the dynamic table holds is then not what the peer assumes.

The system here is one codec under any frames and aborts.  Beside it the blocks of the connection
are collected from the frames alone, in the order in which they are completed.  A frame that is
rejected ends the connection.
-/

namespace ProtoRelay.Http2

open ProtoRelay OrderedMap

/-- The decoder after a list of blocks, newest first. -/
def decoderAfter : List (Nat × Bytes) → HeaderDecoder
  | [] => {}
  | (_, b) :: earlier => ((decoderAfter earlier).decode b []).decoder

/-- The headers of the block of a stream, if the blocks are decoded in their order. -/
def referenceHeaders : List (Nat × Bytes) → Nat → Option (List Header)
  | [], _ => none
  | (id', b) :: earlier, id =>
    if id = id' then
      let r := (decoderAfter earlier).decode b []
      if r.ok then some r.headers else none
    else referenceHeaders earlier id

/-- A codec under frames and aborts.  `opened` has the blocks that are not complete yet, `blocks`
the complete ones, newest first, and `produced` the headers of the requests handed out. -/
structure CodecRun where
  codec : H2Codec := {}
  closed : Bool := false
  opened : OrderedMap Bytes := .empty
  blocks : List (Nat × Bytes) := []
  produced : List (Nat × List Header) := []

/-- What the session does with the codec. -/
inductive CodecInput
  | feed (f : Frame)
  | abort (id : Nat)

namespace CodecRun

/-- A fragment of a block, complete if the frame says so. -/
def fragment (s : CodecRun) (id : Nat) (flags : UInt8) (block : Bytes) : CodecRun :=
  if hasFlag flags endHeadersFlag then
    { s with opened := s.opened.erase id, blocks := (id, block) :: s.blocks }
  else { s with opened := s.opened.set id block }

/-- The blocks of the connection after a frame. -/
def note (s : CodecRun) (f : Frame) : CodecRun :=
  match f.type with
  | .headers =>
    match stripHeaders f.flags f.payload with
    | none => s
    | some hp => s.fragment f.streamId f.flags hp
  | .continuation =>
    match s.opened.get? f.streamId with
    | none => s
    | some b => s.fragment f.streamId f.flags (b ++ f.payload)
  | _ => s

/-- The codec and the requests after a frame was accepted. -/
def accept (s : CodecRun) (id : Nat) (fed : H2Codec × FeedResult) : CodecRun :=
  { s with
    codec := fed.1
    produced :=
      match fed.2.request with
      | none => s.produced
      | some (_, hs) => (id, hs) :: s.produced }

/-- One frame, or one abort.  An error closes the connection. -/
def step (s : CodecRun) (i : CodecInput) : CodecRun :=
  if s.closed then s
  else
    match i with
    | .feed f =>
      if (s.codec.feed f).2.error.isSome then
        { s with codec := (s.codec.feed f).1.clear, closed := true }
      else (s.note f).accept f.streamId (s.codec.feed f)
    | .abort id => { s with codec := s.codec.abortStream id }

/-- **The requests have the headers** that decoding in the order of completion gives. -/
def HeadersAgree (s : CodecRun) : Prop :=
  ∀ p ∈ s.produced, referenceHeaders s.blocks p.1 = some p.2

instance (s : CodecRun) : Decidable s.HeadersAgree := by
  unfold HeadersAgree
  infer_instance

/-- Block order is kept: a frame with END_HEADERS comes when no complete block waits for the end of
its stream; a complete block that waits gets no CONTINUATION, and its stream is not aborted. -/
def InOrder (s : CodecRun) : CodecInput → Prop
  | .feed f =>
    ((f.type = .headers ∨ f.type = .continuation) → hasFlag f.flags endHeadersFlag = true →
      ∀ e ∈ s.codec.heads.entries, e.2.headersDone = false) ∧
    (f.type = .continuation → ∀ e ∈ s.codec.heads.entries, e.1 = f.streamId →
      e.2.headersDone = false)
  | .abort id => ∀ e ∈ s.codec.heads.entries, e.1 = id → e.2.headersDone = false

instance (s : CodecRun) (i : CodecInput) : Decidable (s.InOrder i) := by
  cases i <;> (unfold InOrder; infer_instance)

/-! ## The invariant -/

/-- A complete block of a stream waits for the end of the stream. -/
def Waits (heads : OrderedMap Head) (id : Nat) (block : Bytes) : Prop :=
  ∃ h, heads.get? id = some h ∧ h.headersDone = true ∧ h.block = block

/-- Which blocks the codec has decoded: all but the one that waits, if there is one, the newest. -/
def Decodes (c : H2Codec) (blocks : List (Nat × Bytes)) : Prop :=
  ∃ (waiting : Option (Nat × Bytes)) (earlier : List (Nat × Bytes)),
    blocks = waiting.toList ++ earlier ∧ c.decoder = decoderAfter earlier ∧
      ∀ id b, Waits c.heads id b ↔ waiting = some (id, b)

/-- What holds of the entry of a stream. -/
structure Entry (s : CodecRun) (id : Nat) (h : Head) : Prop where
  le : id ≤ s.codec.lastClientStream
  undecoded : h.headers = []
  opened : h.headersDone = false → s.opened.get? id = some h.block

/-- What holds of a codec whose frames came in order. -/
structure Ok (s : CodecRun) : Prop where
  entry : ∀ id h, s.codec.heads.get? id = some h → s.Entry id h
  decodes : Decodes s.codec s.blocks
  gone : ∀ p ∈ s.produced, p.1 ≤ s.codec.lastClientStream ∧ s.codec.heads.get? p.1 = none
  agree : s.HeadersAgree

variable {id id' last : Nat} {s : CodecRun} {hd : Head} {flags : UInt8} {heads : OrderedMap Head}
  {b : Bytes} {blocks : List (Nat × Bytes)} {c c' : H2Codec}

theorem Ok.start : Ok {} where
  entry id h hget := by cases hget
  decodes := by
    refine ⟨none, [], rfl, rfl, fun id b => iff_of_false ?_ (by simp)⟩
    rintro ⟨h, hget, -⟩
    cases hget
  gone p hp := absurd hp List.not_mem_nil
  agree p hp := absurd hp List.not_mem_nil

theorem waits_set : Waits (heads.set id hd) id' b ↔
    if id' = id then hd.headersDone = true ∧ hd.block = b else Waits heads id' b := by
  unfold Waits
  rw [get?_set]
  split
  · simp
  · rfl

theorem waits_erase : Waits (heads.erase id) id' b ↔ id' ≠ id ∧ Waits heads id' b := by
  unfold Waits
  rw [get?_erase]
  split <;> simp [*]

theorem not_waits (h : ∀ h', heads.get? id = some h' → h'.headersDone = false) (b : Bytes) :
    ¬ Waits heads id b := by
  rintro ⟨h', hget, hdone, -⟩
  rw [h h' hget] at hdone
  cases hdone

theorem Decodes.congr (h : Decodes c blocks) (hdecoder : c'.decoder = c.decoder)
    (hwaits : ∀ id b, Waits c'.heads id b ↔ Waits c.heads id b) : Decodes c' blocks := by
  obtain ⟨waiting, earlier, rfl, hearlier, hwaiting⟩ := h
  exact ⟨waiting, earlier, rfl, hdecoder.trans hearlier,
    fun id b => (hwaits id b).trans (hwaiting id b)⟩

/-- A block is complete while no other one waits. -/
theorem Decodes.cons (h : Decodes c blocks) (hwait : ∀ id b, ¬ Waits c.heads id b)
    (hdone : hd.headersDone = true) :
    Decodes { c with lastClientStream := last, heads := c.heads.set id hd }
      ((id, hd.block) :: blocks) := by
  obtain ⟨waiting, earlier, rfl, hdecoder, hwaiting⟩ := h
  cases waiting with
  | some w => exact absurd ((hwaiting w.1 w.2).mpr rfl) (hwait _ _)
  | none =>
    refine ⟨some (id, hd.block), earlier, rfl, hdecoder, fun id' b => ?_⟩
    rw [waits_set]
    split
    · simp_all
    · rename_i hne
      exact iff_of_false (hwait id' b) fun heq => hne (congrArg Prod.fst (Option.some.inj heq)).symm

theorem Ok.gone_erase (h : Ok s) (id : Nat) :
    ∀ p ∈ s.produced, p.1 ≤ s.codec.lastClientStream ∧
      (s.codec.heads.erase id).get? p.1 = none := by
  intro p hp
  refine ⟨(h.gone p hp).1, ?_⟩
  rw [get?_erase, (h.gone p hp).2, ite_self]

/-- **The end of `feed`** decodes the newest block, or nothing. -/
theorem Ok.finish (h : Ok s) (id : Nat) (hok : (s.codec.finish id).2.error = none) :
    Ok (s.accept id (s.codec.finish id)) := by
  cases hget : s.codec.heads.get? id with
  | none =>
    have hfin : s.codec.finish id = (s.codec, {}) := by rw [H2Codec.finish, hget]
    rw [hfin]
    exact { h with }
  | some hd =>
    by_cases hdone : (hd.headersDone && hd.endStream) = true
    · obtain ⟨hdecode, hfin⟩ := H2Codec.finish_of_complete hget hdone hok
      rw [hfin]
      rw [(h.entry id hd hget).undecoded] at hdecode ⊢
      -- the block that is decoded is the one that waits, which is the newest
      obtain ⟨waiting, earlier, hblocks, hdecoder, hwaiting⟩ := h.decodes
      obtain rfl := (hwaiting id hd.block).mp ⟨hd, hget, (Bool.and_eq_true_iff.mp hdone).1, rfl⟩
      change s.blocks = (id, hd.block) :: earlier at hblocks
      constructor
      · exact fun id' h' hget' => { h.entry id' h' (get?_of_get?_erase hget').1 with }
      · refine ⟨none, s.blocks, rfl, ?_, fun id' b => iff_of_false (fun hw => ?_) (by simp)⟩
        · dsimp only [accept]
          rw [hblocks, decoderAfter, ← hdecoder]
        · obtain ⟨hne, hw⟩ := waits_erase.mp hw
          exact hne (congrArg Prod.fst (Option.some.inj ((hwaiting id' b).mp hw))).symm
      · intro p hp
        rcases List.mem_cons.mp hp with rfl | hp
        · exact ⟨(h.entry id hd hget).le, by simp [accept, get?_erase]⟩
        · exact h.gone_erase id p hp
      · intro p hp
        rcases List.mem_cons.mp hp with rfl | hp
        · dsimp only [accept]
          rw [hblocks, referenceHeaders, if_pos rfl, ← hdecoder]
          rw [if_pos hdecode]
        · exact h.agree p hp
    · rw [H2Codec.finish_of_incomplete hget (by simpa using hdone)]
      exact { h with }

/-- A codec with another entry for one stream. -/
def withHead (s : CodecRun) (last id : Nat) (hd : Head) : CodecRun :=
  { s with codec := { s.codec with lastClientStream := last, heads := s.codec.heads.set id hd } }

/-- The entry of a stream that has made no request is replaced. -/
theorem Ok.replace {opened : OrderedMap Bytes} (h : Ok s) (hlast : s.codec.lastClientStream ≤ last)
    (hid : ∀ p ∈ s.produced, p.1 ≠ id)
    (hothers : ∀ id', id' ≠ id → opened.get? id' = s.opened.get? id')
    (hentry : ({ s with opened, blocks }.withHead last id hd).Entry id hd)
    (hdecodes : Decodes
      { s.codec with lastClientStream := last, heads := s.codec.heads.set id hd } blocks)
    (hagree : ∀ p ∈ s.produced, referenceHeaders blocks p.1 = some p.2) :
    Ok ({ s with opened, blocks }.withHead last id hd) := by
  constructor
  · intro id' h' hget
    dsimp only [CodecRun.withHead] at hget
    rw [get?_set] at hget
    split at hget
    · cases hget
      subst id'
      exact hentry
    · obtain ⟨hle, hundecoded, hopened⟩ := h.entry id' h' hget
      exact ⟨hle.trans hlast, hundecoded, fun hnot => (hothers id' ‹_›).trans (hopened hnot)⟩
  · exact hdecodes
  · intro p hp
    obtain ⟨hle, hnone⟩ := h.gone p hp
    exact ⟨hle.trans hlast, (get?_set_of_ne (hid p hp) ..).trans hnone⟩
  · exact hagree

/-- A fragment is added to the block of a stream, and perhaps completes it. -/
theorem Ok.fragment (h : Ok s) (hlast : s.codec.lastClientStream ≤ last) (hle : id ≤ last)
    (hid : ∀ p ∈ s.produced, p.1 ≠ id) (hhdrs : hd.headers = [])
    (hold : ∀ h', s.codec.heads.get? id = some h' → h'.headersDone = false)
    (hdone : hd.headersDone = hasFlag flags endHeadersFlag)
    (hwait : hasFlag flags endHeadersFlag = true →
      ∀ id' h', s.codec.heads.get? id' = some h' → h'.headersDone = false)
    (hok : (H2Codec.finish { s.codec with
      lastClientStream := last, heads := s.codec.heads.set id hd } id).2.error = none) :
    Ok ((s.fragment id flags hd.block).accept id (H2Codec.finish { s.codec with
      lastClientStream := last, heads := s.codec.heads.set id hd } id)) := by
  rw [CodecRun.fragment]
  split
  · rename_i hflag
    refine (h.replace hlast hid (fun id' hne => (get?_erase ..).trans (if_neg hne)) ⟨hle, hhdrs, ?_⟩
      (h.decodes.cons (fun id' => not_waits (hwait hflag id')) (hdone.trans hflag)) ?_).finish
        id hok
    · simp [hdone, hflag]
    · intro p hp
      rw [referenceHeaders, if_neg (hid p hp)]
      exact h.agree p hp
  · rename_i hflag
    refine (h.replace hlast hid (fun id' hne => get?_set_of_ne hne ..) ⟨hle, hhdrs,
      fun _ => get?_set_self ..⟩ (h.decodes.congr rfl fun id' b => ?_) h.agree).finish id hok
    rw [waits_set]
    split
    · subst id'
      exact iff_of_false (by simp [hdone, hflag]) (not_waits hold b)
    · rfl

theorem Ok.produced_ne (h : Ok s) (hget : s.codec.heads.get? id = some hd) :
    ∀ p ∈ s.produced, p.1 ≠ id := by
  rintro p hp rfl
  rw [(h.gone p hp).2] at hget
  cases hget

/-- DATA can end a stream; it leaves its block alone. -/
theorem Ok.endStream (h : Ok s) (hget : s.codec.heads.get? id = some hd) (ended : Bool) :
    Ok (s.withHead s.codec.lastClientStream id { hd with endStream := ended }) := by
  refine h.replace le_rfl (h.produced_ne hget) (fun _ _ => rfl) { h.entry id hd hget with }
    (h.decodes.congr rfl fun id' b => ?_) h.agree
  rw [waits_set]
  split
  · subst id'
    simp [Waits, hget]
  · rfl

theorem Ok.abort (h : Ok s)
    (hwait : ∀ h', s.codec.heads.get? id = some h' → h'.headersDone = false) :
    Ok { s with codec := s.codec.abortStream id } := by
  constructor
  · exact fun id' h' hget' => { h.entry id' h' (get?_of_get?_erase hget').1 with }
  · refine h.decodes.congr rfl fun id' b => waits_erase.trans (and_iff_right_of_imp ?_)
    rintro hw rfl
    exact not_waits hwait b hw
  · exact h.gone_erase id
  · exact h.agree

/-! ## Steps and runs -/

section

variable (h : Ok s) {payload : Bytes}
  (hwait : hasFlag flags endHeadersFlag = true → ∀ id' h', s.codec.heads.get? id' = some h' →
    h'.headersDone = false)

include h hwait

/-- HEADERS opens a stream of a number not seen before. -/
theorem Ok.feedHeaders (hok : (s.codec.feedHeaders id flags payload).2.error = none) :
    ∃ hp, stripHeaders flags payload = some hp ∧
      Ok ((s.fragment id flags hp).accept id (s.codec.feedHeaders id flags payload)) := by
  obtain ⟨hlt, hp, hstrip, hfeed⟩ := H2Codec.feedHeaders_of_ok hok
  refine ⟨hp, hstrip, ?_⟩
  have hnone : s.codec.heads.get? id = none := by
    by_contra hne
    obtain ⟨hd, hget⟩ := Option.ne_none_iff_exists'.mp hne
    exact absurd (h.entry _ hd hget).le (by omega)
  rw [hfeed] at hok ⊢
  simp only [hnone, Option.getD_none, List.nil_append, Bool.false_or] at hok ⊢
  refine h.fragment hlt.le le_rfl (fun p hp' => ?_) rfl (fun h' hget => ?_) rfl hwait hok
  · have hle := (h.gone p hp').1
    omega
  · rw [hnone] at hget
    cases hget

theorem Ok.feedContinuation (hopen : ∀ h', s.codec.heads.get? id = some h' → h'.headersDone = false)
    (hok : (s.codec.feedContinuation id flags payload).2.error = none) :
    ∃ b, s.opened.get? id = some b ∧
      Ok ((s.fragment id flags (b ++ payload)).accept id
        (s.codec.feedContinuation id flags payload)) := by
  obtain ⟨hd, hget, hfeed⟩ := H2Codec.feedContinuation_of_ok hok
  have hentry := h.entry id hd hget
  refine ⟨hd.block, hentry.opened (hopen hd hget), ?_⟩
  rw [hfeed] at hok ⊢
  simp only [hopen hd hget, Bool.false_or] at hok ⊢
  exact h.fragment le_rfl hentry.le (h.produced_ne hget) hentry.undecoded hopen rfl hwait hok

end

theorem Ok.ignore (h : Ok s) (id : Nat) : Ok (s.accept id (s.codec, {})) :=
  { h with }

theorem Ok.feedData (h : Ok s) (hok : (s.codec.feedData id flags).2.error = none) :
    Ok (s.accept id (s.codec.feedData id flags)) := by
  rw [H2Codec.feedData] at hok ⊢
  cases hget : s.codec.heads.get? id with
  | none => exact h.ignore id
  | some hd =>
    rw [hget] at hok
    exact (h.endStream hget (hd.endStream || hasFlag flags endStreamFlag)).finish id hok

/-- **An accepted frame that is in order.** -/
theorem Ok.feed (h : Ok s) {f : Frame} (hord : s.InOrder (.feed f))
    (hok : (s.codec.feed f).2.error = none) :
    Ok ((s.note f).accept f.streamId (s.codec.feed f)) := by
  obtain ⟨hsettled, hcont⟩ := hord
  have hwait : (f.type = .headers ∨ f.type = .continuation) →
      hasFlag f.flags endHeadersFlag = true →
      ∀ id' h', s.codec.heads.get? id' = some h' → h'.headersDone = false :=
    fun htype hflag id' h' hget => hsettled htype hflag _ (get?_eq_some_iff.mp hget)
  rw [H2Codec.feed] at hok ⊢
  rw [note]
  cases htype : f.type with
  | headers =>
    rw [htype] at hok
    obtain ⟨hp, hstrip, hnew⟩ := h.feedHeaders (hwait (.inl htype)) hok
    rw [hstrip]
    exact hnew
  | continuation =>
    rw [htype] at hok
    obtain ⟨b, hb, hnew⟩ := h.feedContinuation (hwait (.inr htype))
      (fun h' hget => hcont htype _ (get?_eq_some_iff.mp hget) rfl) hok
    dsimp only
    rw [hb]
    exact hnew
  | data =>
    rw [htype] at hok
    exact h.feedData hok
  | priority | rstStream | settings | pushPromise | ping | goaway | windowUpdate | unknown =>
    exact h.ignore _

/-- What holds of every run in order, open or closed. -/
def Sound (s : CodecRun) : Prop := s.HeadersAgree ∧ (s.closed = false → Ok s)

theorem Sound.step (h : s.Sound) {i : CodecInput} (hord : s.InOrder i) : (s.step i).Sound := by
  unfold CodecRun.step
  split
  · exact h
  · rename_i hopen
    have hok : Ok s := h.2 (by simpa using hopen)
    cases i with
    | feed f =>
      dsimp only
      split
      · refine ⟨hok.agree, fun hcl => ?_⟩
        cases hcl
      · rename_i herr
        have hnew := hok.feed hord (by simpa using herr)
        exact ⟨hnew.agree, fun _ => hnew⟩
    | abort id =>
      have hnew : Ok { s with codec := s.codec.abortStream id } :=
        hok.abort fun h' hget => hord _ (get?_eq_some_iff.mp hget) rfl
      exact ⟨hnew.agree, fun _ => hnew⟩

/-- **The context stays in step** as long as blocks are completed in order: after any frames and
aborts that keep the order, every request has had the headers that decoding the blocks of the
connection in the order of their completion gives. -/
theorem headersAgree_of_inOrder {is : List CodecInput} (his : StepsMeet step InOrder {} is) :
    (run step {} is).HeadersAgree :=
  (run_invariant_of_stepsMeet Sound (fun _ _ h hord => h.step hord) ⟨Ok.start.agree,
    fun _ => Ok.start⟩ his).1

/-- A request with a body, and one after it that refers to the entry the first one added. -/
def uploadThenIndexed : List CodecInput :=
  [.feed ⟨.headers, 0x04, 1, [0x40, 1, 97, 1, 98]⟩, .feed ⟨.data, 0x01, 1, [120]⟩,
    .feed ⟨.headers, 0x05, 3, [0xbe]⟩]

theorem headersAgree_uploadThenIndexed :
    StepsMeet step InOrder {} uploadThenIndexed ∧
      (run step {} uploadThenIndexed).produced =
        [(3, [(bytes "a", bytes "b")]), (1, [(bytes "a", bytes "b")])] ∧
      (run step {} uploadThenIndexed).HeadersAgree := by
  have hmeet : StepsMeet step InOrder {} uploadThenIndexed := by decide +kernel
  exact ⟨hmeet, by decide +kernel, headersAgree_of_inOrder hmeet⟩

/-- While the first request has a body to come, the second one completes its block and is decoded
first; the third one then gets the header of the first in the place of that of the second. -/
theorem not_forall_headersAgree : ¬ ∀ is, (run step {} is).HeadersAgree := by
  intro hall
  have hbad := hall
    [.feed ⟨.headers, 0x04, 1, [0x40, 1, 97, 1, 98]⟩,
      .feed ⟨.headers, 0x05, 3, [0x40, 1, 99, 1, 100]⟩,
      .feed ⟨.data, 0x01, 1, [120]⟩, .feed ⟨.headers, 0x05, 5, [0xbe]⟩]
  exact absurd hbad (by decide +kernel)

end CodecRun

end ProtoRelay.Http2
