import ProtoRelay.Http2.Codec

/-!
# Sending under flow control

The response body of a stream is sent in DATA frames, as far as the send window of the stream and
that of the connection allow.  Both windows are signed 32-bit integers.  Beside them the model
carries what they stand for, the credit as an exact integer, and the exact results of all
computations with windows.
-/

namespace ProtoRelay.Http2

open ProtoRelay

/-- The signed 32-bit integer with the bits of a number. -/
def int32 (x : Int) : Int := (x + 2 ^ 31) % 2 ^ 32 - 2 ^ 31

/-- The numbers that are signed 32-bit integers. -/
def FitsInt32 (x : Int) : Prop := -2 ^ 31 ≤ x ∧ x < 2 ^ 31

instance (x : Int) : Decidable (FitsInt32 x) := by
  unfold FitsInt32
  infer_instance

theorem int32_of_fits {x : Int} (h : FitsInt32 x) : int32 x = x := by
  obtain ⟨hlow, hhigh⟩ := h
  rw [int32]
  omega

theorem fits_int32 (x : Int) : FitsInt32 (int32 x) := by
  unfold FitsInt32 int32
  omega

/-- `max_frame_size_`: a peer can only raise it above the default. -/
abbrev FrameSize := { n : Nat // 16384 ≤ n }

/-- The frames a session sends.  The last three numbers of a DATA frame are not on the wire: the
frame size in force, and the exact credits of the stream and of the connection that are left. -/
inductive OutFrame
  | settingsAck
  | pingAck (payload : Bytes)
  | rstStream (id : Nat) (code : ErrorCode)
  | goaway (last : Nat) (code : ErrorCode)
  | headers (id : Nat) (block : Bytes) (endStream : Bool)
  | data (id : Nat) (payload : Bytes) (endStream : Bool) (limit : Nat) (streamLeft connLeft : Int)

/-- `StreamState`, as far as it is used. -/
inductive StreamState
  | idle | opened | closed
deriving DecidableEq

def kDefaultWindow : Nat := 65535

/-- `H2Stream`.  `credit` is the exact number `sendWindow` stands for. -/
structure H2Stream where
  state : StreamState := .idle
  body : Bytes := []
  sendWindow : Int := kDefaultWindow
  pendingBody : Bytes := []
  served : Bool := false
  done : Bool := false
  credit : Int := kDefaultWindow
deriving DecidableEq

/-- What a connection has for sending: its window and the frames sent, newest first.  `connCredit`
is the exact number the window stands for, and `computed` has the exact results of the computations
with windows. -/
structure Sender where
  connSendWindow : Int := kDefaultWindow
  out : List OutFrame := []
  connCredit : Int := kDefaultWindow
  computed : List Int := []

/-- `send_frame`. -/
def Sender.send (tx : Sender) (f : OutFrame) : Sender := { tx with out := f :: tx.out }

def availableWindow (sendWindow connSendWindow : Int) : Nat :=
  if sendWindow ≤ 0 ∨ connSendWindow ≤ 0 then 0 else (min sendWindow connSendWindow).toNat

theorem availableWindow_eq_zero_iff {w c : Int} : availableWindow w c = 0 ↔ w ≤ 0 ∨ c ≤ 0 := by
  rw [availableWindow]
  split
  · rename_i h
    simp [h]
  · omega

theorem availableWindow_le {w c : Int} (h : availableWindow w c ≠ 0) :
    (availableWindow w c : Int) ≤ w ∧ (availableWindow w c : Int) ≤ c := by
  rw [Ne, availableWindow_eq_zero_iff] at h
  rw [availableWindow, if_neg (by omega)]
  omega

/-- The sender and the stream after a chunk of `n` bytes. -/
def sendChunk (limit : FrameSize) (id n : Nat) (tx : Sender) (st : H2Stream) : Sender × H2Stream :=
  let rest := st.pendingBody.drop n
  ({ connSendWindow := int32 (tx.connSendWindow - n)
     out := .data id (st.pendingBody.take n) rest.isEmpty limit (st.credit - n) (tx.connCredit - n)
      :: tx.out
     connCredit := tx.connCredit - n
     computed := (tx.connSendWindow - n) :: (st.sendWindow - n) :: tx.computed }, { st with
      pendingBody := rest
      sendWindow := int32 (st.sendWindow - n)
      credit := st.credit - n
      state := if rest.isEmpty then .closed else st.state
      done := st.done || rest.isEmpty })

/-- How much the next chunk has: what the windows allow, the peer's frame size, and what is left. -/
def chunkSize (limit : FrameSize) (tx : Sender) (st : H2Stream) : Nat :=
  min (min (availableWindow st.sendWindow tx.connSendWindow) st.pendingBody.length) limit

/-- One turn of the loop of `drain_stream`; it is left when the body is sent or a window is used
up. -/
def drainTurn (limit : FrameSize) (id : Nat) (p : Sender × H2Stream) : Option (Sender × H2Stream) :=
  if p.2.pendingBody = [] then none
  else if availableWindow p.2.sendWindow p.1.connSendWindow = 0 then none
  else some (sendChunk limit id (chunkSize limit p.1 p.2) p.1 p.2)

variable {limit : FrameSize} {id : Nat} {p p' : Sender × H2Stream}

theorem drainTurn_eq_none_iff :
    drainTurn limit id p = none ↔
      p.2.pendingBody = [] ∨ availableWindow p.2.sendWindow p.1.connSendWindow = 0 := by
  rw [drainTurn]
  split
  · rename_i h
    simp [h]
  · rename_i h
    split
    · rename_i h'
      simp [h']
    · rename_i h'
      simp [h, h']

theorem drainTurn_eq_some_iff :
    drainTurn limit id p = some p' ↔
      p.2.pendingBody ≠ [] ∧ availableWindow p.2.sendWindow p.1.connSendWindow ≠ 0 ∧
        p' = sendChunk limit id (chunkSize limit p.1 p.2) p.1 p.2 := by
  rw [drainTurn]
  split
  · rename_i h
    simp [h]
  · rename_i h
    split
    · rename_i h'
      simp [h']
    · rename_i h'
      simp [h, h', eq_comm]

/-- A chunk of `n` bytes that may be sent: it is not empty, and it fits into what is left, the frame
size and both windows. -/
structure IsChunk (limit : FrameSize) (n : Nat) (tx : Sender) (st : H2Stream) : Prop where
  pos : 0 < n
  le_length : n ≤ st.pendingBody.length
  le_limit : n ≤ limit
  le_window : (n : Int) ≤ st.sendWindow
  le_conn : (n : Int) ≤ tx.connSendWindow

theorem isChunk_chunkSize (limit : FrameSize) {tx : Sender} {st : H2Stream}
    (hne : st.pendingBody ≠ []) (havail : availableWindow st.sendWindow tx.connSendWindow ≠ 0) :
    IsChunk limit (chunkSize limit tx st) tx st := by
  have hlen : 0 < st.pendingBody.length := List.length_pos_iff.mpr hne
  have hlim := limit.2
  obtain ⟨hw, hc⟩ := availableWindow_le havail
  unfold chunkSize
  constructor <;> omega

theorem drainTurn_length_lt (h : drainTurn limit id p = some p') :
    p'.2.pendingBody.length < p.2.pendingBody.length := by
  obtain ⟨hne, havail, rfl⟩ := drainTurn_eq_some_iff.mp h
  obtain ⟨hpos, hle⟩ := isChunk_chunkSize limit hne havail
  simp only [sendChunk, List.length_drop]
  omega

def drainStream (limit : FrameSize) (id : Nat) (p : Sender × H2Stream) : Sender × H2Stream :=
  match _hturn : drainTurn limit id p with
  | none => p
  | some p' => drainStream limit id p'
termination_by p.2.pendingBody.length
decreasing_by exact drainTurn_length_lt _hturn

theorem drainStream_of_done (h : drainTurn limit id p = none) : drainStream limit id p = p := by
  rw [drainStream]
  split
  · rfl
  · rename_i p' hsome
    rw [h] at hsome
    cases hsome

/-- **Loop rule**: what every chunk keeps holds when the loop is left. -/
theorem drainStream_invariant (limit : FrameSize) (id : Nat) (P : Sender × H2Stream → Prop)
    (hchunk : ∀ tx st n, P (tx, st) → IsChunk limit n tx st → P (sendChunk limit id n tx st))
    (h : P p) : P (drainStream limit id p) := by
  fun_induction drainStream limit id p with
  | case1 p hdone => exact h
  | case2 p p' hturn ih =>
    obtain ⟨hne, havail, rfl⟩ := drainTurn_eq_some_iff.mp hturn
    exact ih (hchunk _ _ _ h (isChunk_chunkSize limit hne havail))

/-- The loop is left when nothing can be sent. -/
theorem drainTurn_drainStream (limit : FrameSize) (id : Nat) (p : Sender × H2Stream) :
    drainTurn limit id (drainStream limit id p) = none := by
  fun_induction drainStream limit id p with
  | case1 p hdone => exact hdone
  | case2 p p' hturn ih => exact ih

end ProtoRelay.Http2
