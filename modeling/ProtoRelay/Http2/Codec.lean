import ProtoRelay.Base.OrderedMaps
import ProtoRelay.Http2.Hpack

/-!
# From stream frames to requests

`H2Codec` collects the header block of each stream from its HEADERS and CONTINUATION frames and
hands out a request once the block is complete and the stream has ended.  Only then is the block
decoded, with the decoder that all streams of the connection share.

The flag `served` of the source is never set, since the entry of a stream is erased with its
request; it is left out.
-/

namespace ProtoRelay.Http2

open ProtoRelay OrderedMap

/-- `FrameType`; an unassigned number is `unknown`. -/
inductive FrameType
  | data | headers | priority | rstStream | settings | pushPromise | ping | goaway
  | windowUpdate | continuation | unknown
deriving DecidableEq

/-- `ErrorCode`, as far as it is used. -/
inductive ErrorCode
  | protocolError | flowControlError | frameSizeError | refusedStream | compressionError
  | enhanceYourCalm
deriving DecidableEq

structure Frame where
  type : FrameType
  flags : UInt8
  streamId : Nat
  payload : Bytes

/-- `flag::END_STREAM` and `flag::ACK`, which share their bit. -/
def endStreamFlag : UInt8 := 0x01

def endHeadersFlag : UInt8 := 0x04

def paddedFlag : UInt8 := 0x08

def priorityFlag : UInt8 := 0x20

def hasFlag (flags mask : UInt8) : Bool := flags &&& mask != 0

/-- `strip_headers_prefix`: the header block of a HEADERS frame, without padding and priority. -/
def stripHeaders (flags : UInt8) (payload : Bytes) : Option Bytes :=
  match (if hasFlag flags paddedFlag then payload.head?.map fun b => (1, b.toNat) else some (0, 0))
  with
  | none => none
  | some (off, padlen) =>
    if hasFlag flags priorityFlag ∧ payload.length < off + 5 then none
    else
      let off := if hasFlag flags priorityFlag then off + 5 else off
      if payload.length < off + padlen then none
      else some ((payload.drop off).take (payload.length - off - padlen))

def kMaxHeaderBlockBytes : Nat := 64 * 1024

/-- `Head`: the request of a stream while it is assembled. -/
structure Head where
  block : Bytes := []
  headers : List Header := []
  headersDone : Bool := false
  endStream : Bool := false

/-- The part of `HttpRequest` that the codec fills in. -/
structure HttpRequest where
  method : Bytes
  path : Bytes

/-- The request of a list of headers: the last `:method` and `:path`, with their defaults. -/
def requestOf (headers : List Header) : HttpRequest :=
  let q := headers.foldl (fun q h =>
      if h.1 = bytes ":method" then { q with method := h.2 }
      else if h.1 = bytes ":path" then { q with path := h.2 }
      else q)
    { method := [], path := [] : HttpRequest }
  { method := if q.method = [] then bytes "GET" else q.method
    path := if q.path = [] then bytes "/" else q.path }

/-- `Result`: the error that ends the connection, and the request made.  The headers the request was
made from stand beside it. -/
structure FeedResult where
  error : Option ErrorCode := none
  request : Option (HttpRequest × List Header) := none

structure H2Codec where
  decoder : HeaderDecoder := {}
  heads : OrderedMap Head := .empty
  lastClientStream : Nat := 0

namespace H2Codec

/-- The end of `feed`: a request whose block is complete and whose stream has ended is decoded. -/
def finish (c : H2Codec) (id : Nat) : H2Codec × FeedResult :=
  match c.heads.get? id with
  | none => (c, {})
  | some h =>
    if h.headersDone && h.endStream then
      let r := c.decoder.decode h.block h.headers
      if r.ok then
        ({ c with decoder := r.decoder, heads := c.heads.erase id },
          { request := some (requestOf r.headers, r.headers) })
      else
        ({ c with decoder := r.decoder, heads := c.heads.set id { h with headers := r.headers } },
          { error := some .compressionError })
    else (c, {})

/-- `feed` for HEADERS.  A frame that opens a stream leaves an entry behind even if it is
rejected. -/
def feedHeaders (c : H2Codec) (id : Nat) (flags : UInt8) (payload : Bytes) : H2Codec × FeedResult :=
  if id % 2 = 0 ∨ id ≤ c.lastClientStream then (c, { error := some .protocolError })
  else
    let h := (c.heads.get? id).getD {}
    match stripHeaders flags payload with
    | none =>
      ({ c with lastClientStream := id, heads := c.heads.set id h },
        { error := some .protocolError })
    | some hp =>
      if h.block.length + hp.length > kMaxHeaderBlockBytes then
        ({ c with lastClientStream := id, heads := c.heads.set id h },
          { error := some .enhanceYourCalm })
      else
        finish { c with
          lastClientStream := id
          heads := c.heads.set id { h with
            block := h.block ++ hp
            headersDone := h.headersDone || hasFlag flags endHeadersFlag
            endStream := h.endStream || hasFlag flags endStreamFlag } } id

def feedContinuation (c : H2Codec) (id : Nat) (flags : UInt8) (payload : Bytes) :
    H2Codec × FeedResult :=
  match c.heads.get? id with
  | none => (c, { error := some .protocolError })
  | some h =>
    if h.block.length + payload.length > kMaxHeaderBlockBytes then
      (c, { error := some .enhanceYourCalm })
    else
      finish { c with
        heads := c.heads.set id { h with
          block := h.block ++ payload
          headersDone := h.headersDone || hasFlag flags endHeadersFlag } } id

def feedData (c : H2Codec) (id : Nat) (flags : UInt8) : H2Codec × FeedResult :=
  match c.heads.get? id with
  | none => (c, {})
  | some h =>
    finish { c with
      heads := c.heads.set id { h with
        endStream := h.endStream || hasFlag flags endStreamFlag } } id

def feed (c : H2Codec) (f : Frame) : H2Codec × FeedResult :=
  match f.type with
  | .headers => c.feedHeaders f.streamId f.flags f.payload
  | .continuation => c.feedContinuation f.streamId f.flags f.payload
  | .data => c.feedData f.streamId f.flags
  | _ => (c, {})

def abortStream (c : H2Codec) (id : Nat) : H2Codec := { c with heads := c.heads.erase id }

def clear (c : H2Codec) : H2Codec := { c with heads := .empty }

def applyHeaderTableSize (c : H2Codec) (n : Nat) : H2Codec :=
  { c with decoder := c.decoder.setHeaderTableSize n }

/-! ## What a frame does -/

section

variable {c : H2Codec} {id : Nat} {flags : UInt8} {payload : Bytes} {h : Head}

theorem finish_of_incomplete (hget : c.heads.get? id = some h)
    (hwait : (h.headersDone && h.endStream) = false) : c.finish id = (c, {}) := by
  rw [finish, hget]
  dsimp only
  rw [hwait]
  rfl

theorem finish_of_complete (hget : c.heads.get? id = some h)
    (hdone : (h.headersDone && h.endStream) = true) (hok : (c.finish id).2.error = none) :
    (c.decoder.decode h.block h.headers).ok = true ∧
      c.finish id = ({ c with
            decoder := (c.decoder.decode h.block h.headers).decoder
            heads := c.heads.erase id },
          { request := some (requestOf (c.decoder.decode h.block h.headers).headers,
              (c.decoder.decode h.block h.headers).headers) }) := by
  rw [finish, hget] at hok ⊢
  dsimp only at hok ⊢
  rw [if_pos hdone] at hok ⊢
  by_cases hdecode : (c.decoder.decode h.block h.headers).ok = true
  · rw [if_pos hdecode]
    exact ⟨hdecode, rfl⟩
  · rw [if_neg hdecode] at hok
    cases hok

/-- A HEADERS frame that is accepted opens a stream. -/
theorem feedHeaders_of_ok (hok : (c.feedHeaders id flags payload).2.error = none) :
    c.lastClientStream < id ∧ ∃ hp, stripHeaders flags payload = some hp ∧
      c.feedHeaders id flags payload = finish { c with
          lastClientStream := id
          heads := c.heads.set id { (c.heads.get? id).getD {} with
            block := ((c.heads.get? id).getD {}).block ++ hp
            headersDone :=
              ((c.heads.get? id).getD {}).headersDone || hasFlag flags endHeadersFlag
            endStream :=
              ((c.heads.get? id).getD {}).endStream || hasFlag flags endStreamFlag } } id := by
  rw [feedHeaders] at hok ⊢
  split at hok
  · cases hok
  · rename_i hid
    rw [if_neg hid]
    cases hstrip : stripHeaders flags payload with
    | none =>
      rw [hstrip] at hok
      cases hok
    | some hp =>
      rw [hstrip] at hok
      dsimp only at hok ⊢
      split at hok
      · cases hok
      · rename_i hlen
        rw [if_neg hlen]
        exact ⟨by omega, hp, rfl, rfl⟩

/-- A CONTINUATION frame that is accepted extends the block of its stream. -/
theorem feedContinuation_of_ok (hok : (c.feedContinuation id flags payload).2.error = none) :
    ∃ h, c.heads.get? id = some h ∧
      c.feedContinuation id flags payload = finish { c with
          heads := c.heads.set id { h with
            block := h.block ++ payload
            headersDone := h.headersDone || hasFlag flags endHeadersFlag } } id := by
  rw [feedContinuation] at hok ⊢
  cases hget : c.heads.get? id with
  | none =>
    rw [hget] at hok
    cases hok
  | some h =>
    rw [hget] at hok
    dsimp only at hok ⊢
    split at hok
    · cases hok
    · rename_i hlen
      rw [if_neg hlen]
      exact ⟨h, rfl, rfl⟩

end

/-- The end of `feed` changes the entry of its stream only, and takes it out with the request. -/
theorem finish_spec (c : H2Codec) (id : Nat) :
    (c.finish id).1.lastClientStream = c.lastClientStream ∧
      (∀ id' ≠ id, (c.finish id).1.heads.get? id' = c.heads.get? id') ∧
      ((c.finish id).2.request.isSome = true → id ∉ (c.finish id).1.heads.keys) := by
  rw [finish]
  split
  · exact ⟨rfl, fun _ _ => rfl, Bool.noConfusion⟩
  · split
    · dsimp only
      split
      · refine ⟨rfl, fun id' hne => ?_, fun _ hmem => (mem_keys_erase.mp hmem).1 rfl⟩
        rw [get?_erase, if_neg hne]
      · exact ⟨rfl, fun id' hne => get?_set_of_ne hne _ _, Bool.noConfusion⟩
    · exact ⟨rfl, fun _ _ => rfl, Bool.noConfusion⟩

/-- What `feed` does with a frame: HEADERS opens a newer stream, the other frames need one whose
request is being assembled, and a request that is made is assembled no longer. -/
structure Takes (c : H2Codec) (f : Frame) : Prop where
  newer : f.type = .headers → c.lastClientStream < f.streamId
  last : (c.feed f).1.lastClientStream =
    if f.type = .headers then f.streamId else c.lastClientStream
  others : ∀ id ≠ f.streamId, (c.feed f).1.heads.get? id = c.heads.get? id
  taken : (c.feed f).2.request.isSome = true → f.streamId ∉ (c.feed f).1.heads.keys
  begun : f.streamId ∈ (c.feed f).1.heads.keys ∨ (c.feed f).2.request.isSome = true →
    f.type = .headers ∨ f.streamId ∈ c.heads.keys

/-- **An accepted frame** does that. -/
theorem takes_of_ok {c : H2Codec} {f : Frame} (hok : (c.feed f).2.error = none) : c.Takes f := by
  obtain ⟨type, flags, id, payload⟩ := f
  -- a frame that is not looked at, or on a stream that assembles nothing
  have hsame : type ≠ .headers → c.feed ⟨type, flags, id, payload⟩ = (c, {}) →
      c.Takes ⟨type, flags, id, payload⟩ := fun htype hfeed => by
    refine ⟨fun h => absurd h htype, ?_, ?_, ?_, ?_⟩ <;> rw [hfeed]
    · exact (if_neg htype).symm
    · exact fun _ _ => rfl
    · exact Bool.noConfusion
    · rintro (h | h)
      · exact .inr h
      · cases h
  -- the other frames change the entry of their stream before the end of `feed`
  have hset : ∀ last h, (type = .headers → c.lastClientStream < id) →
      last = (if type = .headers then id else c.lastClientStream) →
      (type = .headers ∨ id ∈ c.heads.keys) →
      c.feed ⟨type, flags, id, payload⟩ =
        finish { c with lastClientStream := last, heads := c.heads.set id h } id →
      c.Takes ⟨type, flags, id, payload⟩ := fun last h hnewer hlast hbegun hfeed => by
    obtain ⟨hl, hoth, ht⟩ :=
      finish_spec { c with lastClientStream := last, heads := c.heads.set id h } id
    refine ⟨hnewer, ?_, ?_, ?_, fun _ => hbegun⟩ <;> rw [hfeed]
    · exact hl.trans hlast
    · exact fun id' hne => (hoth id' hne).trans (get?_set_of_ne hne _ _)
    · exact ht
  cases type with
  | headers =>
    obtain ⟨hlt, hp, -, hfeed⟩ := feedHeaders_of_ok hok
    exact hset id _ (fun _ => hlt) rfl (.inl rfl) hfeed
  | continuation =>
    obtain ⟨h, hget, hfeed⟩ := feedContinuation_of_ok hok
    exact hset _ _ nofun rfl (.inr (mem_keys_of_get? hget)) hfeed
  | data =>
    cases hget : c.heads.get? id with
    | none =>
      refine hsame nofun ?_
      rw [feed, feedData, hget]
    | some h =>
      refine hset _ { h with endStream := h.endStream || hasFlag flags endStreamFlag } nofun rfl
        (.inr (mem_keys_of_get? hget)) ?_
      rw [feed, feedData, hget]
      rfl
  | _ => exact hsame nofun rfl

end H2Codec

end ProtoRelay.Http2
