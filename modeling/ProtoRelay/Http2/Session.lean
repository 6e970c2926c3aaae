import ProtoRelay.Base.Runs
import ProtoRelay.Http2.Sending

/-!
# HTTP/2 sessions

`H2Session` takes the frames of a connection one by one.  Frames on stream 0 are about the
connection; the others are flow control or parts of requests, which go through the codec.  A request
that is complete is answered at once: the HEADERS of the response are sent, and of its body as much
as the windows allow.

The session starts when the connection preface has been read.  What the file system answers to the
request of a stream is a parameter.  Beside the state of the source the model keeps the exact
credits of the peer, the bodies of the responses, and the streams that HEADERS opened.
-/

namespace ProtoRelay.Http2

open ProtoRelay

/-- `HttpResponse`, as `process_static_request` fills it in, and what is read from its file when the
status is 200. -/
structure StaticResponse where
  status : Nat
  contentType : Bytes
  contentLength : Nat
  body : Bytes
  file : Option Bytes

abbrev FileSystem := Nat → HttpRequest → StaticResponse

def kMaxConcurrentStreams : Nat := 128

def kMaxRequestBodyBytes : Nat := 1024 * 1024

/-- `H2Session`.  `peerCredit` is the exact number `peerStreamWindow` stands for; `bodies` has the
bodies of the responses begun, and `opened` the streams that HEADERS opened. -/
structure H2Session where
  closed : Bool := false
  codec : H2Codec := {}
  streams : OrderedMap H2Stream := .empty
  lastClientStream : Nat := 0
  maxFrameSize : FrameSize := ⟨16384, le_rfl⟩
  peerStreamWindow : Int := kDefaultWindow
  tx : Sender := {}
  peerCredit : Int := kDefaultWindow
  bodies : List (Nat × Bytes) := []
  opened : List Nat := []

def windowIncrement : Bytes → Nat
  | b₀ :: b₁ :: b₂ :: b₃ :: _ =>
    b₀.toNat % 128 * 2 ^ 24 + b₁.toNat * 2 ^ 16 + b₂.toNat * 2 ^ 8 + b₃.toNat
  | _ => 0

/-- Whether an increment takes a window beyond 2^31 - 1; the source compares as `uint32_t`. -/
def exceedsWindow (window : Int) (inc : Nat) : Bool := (inc : Int) > (2 ^ 31 - 1 - window) % 2 ^ 32

/-- The entries of a SETTINGS frame: identifier and value. -/
def settingsEntries : Bytes → List (Nat × Nat)
  | k₀ :: k₁ :: v₀ :: v₁ :: v₂ :: v₃ :: rest =>
    (k₀.toNat * 2 ^ 8 + k₁.toNat,
      v₀.toNat * 2 ^ 24 + v₁.toNat * 2 ^ 16 + v₂.toNat * 2 ^ 8 + v₃.toNat) :: settingsEntries rest
  | _ => []

def headerTableSizeId : Nat := 0x1

def initialWindowSizeId : Nat := 0x4

def maxFrameSizeId : Nat := 0x5

namespace H2Session

variable (s : H2Session)

def sendFrame (f : OutFrame) : H2Session := { s with tx := s.tx.send f }

def closeProtocol (code : ErrorCode) : H2Session :=
  { s.sendFrame (.goaway s.lastClientStream code) with
    closed := true
    streams := .empty
    codec := s.codec.clear }

variable (id : Nat)

/-- `codec_.abort_stream(id)` and `streams_.erase(id)`. -/
def dropStream : H2Session :=
  { s with codec := s.codec.abortStream id, streams := s.streams.erase id }

def pruneStreams : H2Session :=
  { s with streams := s.streams.filter fun st => !st.done }

/-- `drain_stream`, of the stream with the number `id`. -/
def drain : H2Session :=
  match s.streams.get? id with
  | none => s
  | some st =>
    let p := drainStream s.maxFrameSize id (s.tx, st)
    { s with tx := p.1, streams := s.streams.set id p.2 }

/-! ## Settings -/

/-- The initial window of the streams: the open ones are shifted by the difference. -/
def setInitialWindow (val : Nat) : H2Session :=
  let delta := int32 (int32 val - s.peerStreamWindow)
  { s with
    peerStreamWindow := int32 val
    peerCredit := val
    streams := s.streams.mapValues fun st =>
      { st with
        sendWindow := int32 (st.sendWindow + delta)
        credit := st.credit + (val - s.peerCredit) }
    tx := { s.tx with
      computed := (s.streams.entries.map fun e => e.2.sendWindow + delta) ++
        (int32 val - s.peerStreamWindow) :: (val : Int) :: s.tx.computed } }

/-- One turn of the loop of `apply_peer_settings`. -/
def applySetting (entry : Nat × Nat) : H2Session :=
  if entry.1 = initialWindowSizeId then s.setInitialWindow entry.2
  else if entry.1 = headerTableSizeId then
    { s with codec := s.codec.applyHeaderTableSize entry.2 }
  else if entry.1 = maxFrameSizeId then
    if h : 16384 ≤ entry.2 then
      if entry.2 ≤ 2 ^ 24 - 1 then { s with maxFrameSize := ⟨entry.2, h⟩ } else s
    else s
  else s

def applyPeerSettings (payload : Bytes) : H2Session :=
  (settingsEntries payload).foldl applySetting s

/-! ## Window updates -/

def raiseConnection (inc : Nat) : H2Session :=
  { s with
    tx := { s.tx with
      connSendWindow := int32 (s.tx.connSendWindow + inc)
      connCredit := s.tx.connCredit + inc
      computed := (s.tx.connSendWindow + inc) :: s.tx.computed } }

def raiseStream (st : H2Stream) (inc : Nat) : H2Session :=
  { s with
    streams := s.streams.set id { st with
      sendWindow := int32 (st.sendWindow + inc)
      credit := st.credit + inc }
    tx := { s.tx with computed := (st.sendWindow + inc) :: s.tx.computed } }

/-- The loop over the streams that follows an update of the connection window. -/
def drainAll : H2Session := s.streams.keys.foldl drain s

/-! ## Responses -/

def sendResponse (st : H2Stream) (hdrs : List Header) (body : Bytes)
    (headOnly : Bool) : H2Session :=
  let block := encodeResponseHeaders hdrs
  if headOnly ∨ body = [] then
    { s with
      tx := s.tx.send (.headers id block true)
      streams := s.streams.set id { st with state := .closed, done := true }
      bodies := (id, []) :: s.bodies }
  else
    drain { s with
      tx := s.tx.send (.headers id block false)
      streams := s.streams.set id { st with pendingBody := body }
      bodies := (id, body) :: s.bodies } id

variable (fs : FileSystem)

def serveStream (s : H2Session) (id : Nat) (st : H2Stream) (req : HttpRequest) : H2Session :=
  let resp := fs id req
  let hdrs : List Header := (bytes ":status", decimal resp.status) ::
    (if resp.contentType = [] then [] else [(bytes "content-type", resp.contentType)]) ++
    [(bytes "content-length", decimal resp.contentLength)]
  if resp.status ≠ 200 then s.sendResponse id st hdrs resp.body false
  else if req.method = bytes "HEAD" then s.sendResponse id st hdrs [] true
  else
    match resp.file with
    | none => s.sendResponse id st [(bytes ":status", bytes "404")] (bytes "not found\n") false
    | some body => s.sendResponse id st hdrs body false

/-- Every request is answered with one response. -/
theorem exists_serveStream_eq (s : H2Session) (id : Nat) (st : H2Stream)
    (req : HttpRequest) : ∃ hdrs body headOnly,
      s.serveStream fs id st req = s.sendResponse id st hdrs body headOnly := by
  rw [serveStream]
  split
  · exact ⟨_, _, _, rfl⟩
  · split
    · exact ⟨_, _, _, rfl⟩
    · split
      · exact ⟨_, _, _, rfl⟩
      · exact ⟨_, _, _, rfl⟩

/-! ## Frames -/

variable (f : Frame)

def handleConnectionFrame : H2Session :=
  match f.type with
  | .settings =>
    if hasFlag f.flags endStreamFlag then s
    else (s.applyPeerSettings f.payload).sendFrame .settingsAck
  | .ping => s.sendFrame (.pingAck ((f.payload ++ List.replicate 8 0).take 8))
  | .goaway => { s with closed := true }
  | .windowUpdate =>
    let inc := windowIncrement f.payload
    if inc = 0 then s.closeProtocol .protocolError
    else if exceedsWindow s.tx.connSendWindow inc then s.closeProtocol .flowControlError
    else (s.raiseConnection inc).pruneStreams.drainAll
  | _ => s.closeProtocol .protocolError

def handleStreamWindow : H2Session :=
  match s.streams.get? f.streamId with
  | none => s
  | some st =>
    let inc := windowIncrement f.payload
    if inc = 0 ∨ exceedsWindow st.sendWindow inc then
      (s.sendFrame (.rstStream f.streamId
        (if inc = 0 then .protocolError else .flowControlError))).dropStream f.streamId
    else (s.raiseStream f.streamId st inc).drain f.streamId

/-- The entry of the stream of a frame; one that is not there is made. -/
def streamEntry : H2Stream :=
  let st := (s.streams.get? id).getD {}
  if st.state = .idle then
    { st with state := .opened, sendWindow := s.peerStreamWindow, credit := s.peerCredit }
  else st

/-- The entry of the stream of an accepted frame: DATA is added to the body of the request. -/
def acceptedEntry : H2Stream :=
  let st := s.streamEntry f.streamId
  if f.type = .data then { st with body := st.body ++ f.payload } else st

/-- The streams that HEADERS opened. -/
def noteOpened : H2Session :=
  { s with opened := if f.type = FrameType.headers then f.streamId :: s.opened else s.opened }

/-- The part of `handle_stream_frame` behind the codec: the entry of the stream, the limit on the
bodies of requests, and the response. -/
def handleAccepted (s : H2Session) (f : Frame) (request : Option HttpRequest) : H2Session :=
  if f.type = .data ∧
      (s.streamEntry f.streamId).body.length + f.payload.length > kMaxRequestBodyBytes then
    (s.sendFrame (.rstStream f.streamId .enhanceYourCalm)).dropStream f.streamId
  else
    match request with
    | none => { s.noteOpened f with streams := s.streams.set f.streamId (s.acceptedEntry f) }
    | some req =>
      if (s.acceptedEntry f).served then
        { s.noteOpened f with streams := s.streams.set f.streamId (s.acceptedEntry f) }
      else
        (s.noteOpened f).serveStream fs f.streamId { s.acceptedEntry f with served := true } req

/-- The number of the newest stream, for GOAWAY, and the codec after a frame. -/
def noteFrame : H2Session :=
  { s with
    lastClientStream := if f.type = .headers then f.streamId else s.lastClientStream
    codec := (s.codec.feed f).1 }

/-- A stream beyond the limit is refused. -/
def refuseStream : H2Session :=
  { s.sendFrame (.rstStream id .refusedStream) with codec := s.codec.abortStream id }

/-- `handle_stream_frame` for the frames of requests. -/
def handleRequestFrame (s : H2Session) (f : Frame) : H2Session :=
  match (s.codec.feed f).2.error with
  | some e => (s.noteFrame f).closeProtocol e
  | none =>
    if f.type = .headers ∧ s.pruneStreams.streams.get? f.streamId = none ∧
        s.pruneStreams.streams.size ≥ kMaxConcurrentStreams then
      (s.noteFrame f).pruneStreams.refuseStream f.streamId
    else
      (s.noteFrame f).pruneStreams.handleAccepted fs f ((s.codec.feed f).2.request.map (·.1))

def handleStreamFrame (s : H2Session) (f : Frame) : H2Session :=
  match f.type with
  | .rstStream => s.dropStream f.streamId
  | .windowUpdate => s.handleStreamWindow f
  | .priority => s
  | _ => s.handleRequestFrame fs f

def dispatchFrame (s : H2Session) (f : Frame) : H2Session :=
  if f.streamId = 0 then s.handleConnectionFrame f else s.handleStreamFrame fs f

/-- `process_read`: a frame that comes when the connection is closed is not looked at. -/
def step (s : H2Session) (f : Frame) : H2Session :=
  if s.closed then s else s.dispatchFrame fs f

/-! ## What a frame can lead to -/

theorem get?_setInitialWindow (v id : Nat) :
    (s.setInitialWindow v).streams.get? id = (s.streams.get? id).map fun st =>
      { st with
        sendWindow := int32 (st.sendWindow + int32 (int32 v - s.peerStreamWindow))
        credit := st.credit + (v - s.peerCredit) } :=
  OrderedMap.get?_mapValues _ _ _

/-- The settings other than the initial window are the decoder's and the frame size. -/
theorem applySetting_of_ne {e : Nat × Nat} (he : e.1 ≠ initialWindowSizeId) :
    ∃ decoder limit, s.applySetting e =
      { s with codec := { s.codec with decoder := decoder }, maxFrameSize := limit } := by
  rw [applySetting, if_neg he]
  split
  · exact ⟨_, _, rfl⟩
  · split
    · split
      · split
        · exact ⟨_, _, rfl⟩
        · exact ⟨_, _, rfl⟩
      · exact ⟨_, _, rfl⟩
    · exact ⟨_, _, rfl⟩

/-- What both kinds of settings keep is kept by all of them. -/
theorem applySettings_invariant (P : H2Session → Prop)
    (hwin : ∀ s v, P s → P (s.setInitialWindow v)) (hoth : ∀ s decoder limit, P s →
      P { s with codec := { s.codec with decoder := decoder }, maxFrameSize := limit })
    {s : H2Session} (h : P s) (es : List (Nat × Nat)) : P (es.foldl applySetting s) := by
  refine run_invariant P (fun s e hs => ?_) h es
  by_cases he : e.1 = initialWindowSizeId
  · rw [applySetting, if_pos he]
    exact hwin s e.2 hs
  · obtain ⟨decoder, limit, heq⟩ := s.applySetting_of_ne he
    rw [heq]
    exact hoth s decoder limit hs

theorem windowIncrement_lt (payload : Bytes) : windowIncrement payload < 2 ^ 31 := by
  unfold windowIncrement
  split
  · rename_i b₀ b₁ b₂ b₃ rest
    have h₁ := b₁.toNat_lt
    have h₂ := b₂.toNat_lt
    have h₃ := b₃.toNat_lt
    omega
  · decide

/-- The session when the codec has taken a frame and the finished streams are gone. -/
def fed : H2Session := (s.noteFrame f).pruneStreams

/-- A frame of a request that arrives on an open connection and is not too large. -/
structure IsRequestFrame (s : H2Session) (f : Frame) : Prop where
  isOpen : s.closed = false
  id_ne : f.streamId ≠ 0
  type_ne : f.type ≠ .rstStream ∧ f.type ≠ .windowUpdate ∧ f.type ≠ .priority
  fits : f.type = .data → (s.pruneStreams.streamEntry f.streamId).body.length + f.payload.length ≤
    kMaxRequestBodyBytes

/-- The frame was accepted, and there is room for its stream if it opens one. -/
structure Accepts (s : H2Session) (f : Frame) : Prop extends s.IsRequestFrame f where
  ok : (s.codec.feed f).2.error = none
  room : f.type = .headers → s.pruneStreams.streams.get? f.streamId = none →
    s.pruneStreams.streams.size < kMaxConcurrentStreams

/-- **The outcomes of a frame**, each as the operations it consists of. -/
inductive Outcome (s : H2Session) (f : Frame) : H2Session → Prop
  | same : Outcome s f s
  | settings (hopen : s.closed = false) (hid : f.streamId = 0) (htype : f.type = .settings)
      (hack : hasFlag f.flags endStreamFlag = false) :
      Outcome s f ((s.applyPeerSettings f.payload).sendFrame .settingsAck)
  | ping (payload : Bytes) : Outcome s f (s.sendFrame (.pingAck payload))
  | goaway : Outcome s f { s with closed := true }
  | failed (code : ErrorCode) : Outcome s f (s.closeProtocol code)
  | connection (inc : Nat) (hinc : inc < 2 ^ 31) (hfit : exceedsWindow s.tx.connSendWindow inc =
      false) :
      Outcome s f (s.raiseConnection inc).pruneStreams.drainAll
  | dropped : Outcome s f (s.dropStream f.streamId)
  | reset (code : ErrorCode) : Outcome s f
      ((s.sendFrame (.rstStream f.streamId code)).dropStream f.streamId)
  | window (st : H2Stream) (inc : Nat) (hget : s.streams.get? f.streamId = some st)
      (hinc : inc < 2 ^ 31) (hfit : exceedsWindow st.sendWindow inc = false) :
      Outcome s f ((s.raiseStream f.streamId st inc).drain f.streamId)
  | rejected (code : ErrorCode) : Outcome s f ((s.noteFrame f).closeProtocol code)
  | refused (hok : (s.codec.feed f).2.error = none) : Outcome s f
      ((s.fed f).refuseStream f.streamId)
  | tooLarge (hok : (s.codec.feed f).2.error = none) (code : ErrorCode) :
      Outcome s f (((s.fed f).sendFrame (.rstStream f.streamId code)).dropStream f.streamId)
  | kept (h : s.Accepts f) : Outcome s f { (s.fed f).noteOpened f with
        streams := (s.fed f).streams.set f.streamId ((s.fed f).acceptedEntry f) }
  | answered (h : s.Accepts f) (hrequest : (s.codec.feed f).2.request.isSome = true)
      (hdrs : List Header) (body : Bytes) (headOnly : Bool) :
      Outcome s f (((s.fed f).noteOpened f).sendResponse f.streamId
        { (s.fed f).acceptedEntry f with served := true } hdrs body headOnly)

theorem outcome_handleConnectionFrame (hopen : s.closed = false)
    (hid : f.streamId = 0) : s.Outcome f (s.handleConnectionFrame f) := by
  rw [handleConnectionFrame]
  split
  · rename_i htype
    split
    · exact .same
    · rename_i hack
      exact .settings hopen hid htype (by simpa using hack)
  · exact .ping _
  · exact .goaway
  · dsimp only
    split
    · exact .failed _
    · split
      · exact .failed _
      · rename_i hexceeds
        exact .connection _ (windowIncrement_lt f.payload) (by simpa using hexceeds)
  · exact .failed _

theorem outcome_handleStreamWindow : s.Outcome f (s.handleStreamWindow f) := by
  rw [handleStreamWindow]
  split
  · exact .same
  · rename_i st hget
    dsimp only
    split
    · exact .reset _
    · rename_i hfit
      rw [not_or, Bool.not_eq_true] at hfit
      exact .window st _ hget (windowIncrement_lt f.payload) hfit.2

theorem outcome_handleRequestFrame (s : H2Session) (f : Frame)
    (hopen : s.closed = false) (hid : f.streamId ≠ 0)
    (htype : f.type ≠ .rstStream ∧ f.type ≠ .windowUpdate ∧ f.type ≠ .priority) :
    s.Outcome f (s.handleRequestFrame fs f) := by
  rw [handleRequestFrame]
  split
  · exact .rejected _
  · rename_i hok
    split
    · exact .refused hok
    · rename_i hroom
      unfold handleAccepted
      split
      · exact .tooLarge hok _
      · rename_i hfits
        have hacc : s.Accepts f := by
          refine ⟨⟨hopen, hid, htype, fun hdata => ?_⟩, hok, fun hhdrs hnone => ?_⟩
          · exact Nat.not_lt.mp fun hbig => hfits ⟨hdata, hbig⟩
          · exact Nat.not_le.mp fun hfull => hroom ⟨hhdrs, hnone, hfull⟩
        split
        · exact .kept hacc
        · rename_i req hrequest
          split
          · exact .kept hacc
          · obtain ⟨hdrs, body, headOnly, heq⟩ := exists_serveStream_eq fs
              ((s.fed f).noteOpened f) f.streamId
              { (s.fed f).acceptedEntry f with served := true } req
            have hsome : (s.codec.feed f).2.request.isSome = true := by
              rw [← Option.isSome_map, hrequest]
              rfl
            exact heq ▸ .answered hacc hsome hdrs body headOnly

/-- **Every step has one of the outcomes.** -/
theorem step_outcome (s : H2Session) (f : Frame) : s.Outcome f (s.step fs f) := by
  unfold step
  split
  · exact .same
  · rename_i hopen
    rw [Bool.not_eq_true] at hopen
    rw [dispatchFrame]
    split
    · rename_i hid
      exact outcome_handleConnectionFrame s f hopen hid
    · rename_i hid
      rw [handleStreamFrame]
      split
      · exact .dropped
      · exact outcome_handleStreamWindow s f
      · exact .same
      · rename_i hrst hwin hpriority
        exact outcome_handleRequestFrame fs s f hopen hid ⟨hrst, hwin, hpriority⟩

end H2Session

end ProtoRelay.Http2
