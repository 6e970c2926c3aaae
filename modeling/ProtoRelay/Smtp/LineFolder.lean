import ProtoRelay.Base.Bytes
import ProtoRelay.Base.Lines

/-!
# Storing the body: dot-unstuffing and folding

`algorithm::LineFolder` stands between the received message and the stored body.  It reassembles the
lines of the message from the pieces they arrive in, removes the dot that a sender puts in front of
a line starting with one, and folds lines longer than `kMaxStorageLineBytes`.

The folding loop looks for a place to cut that does not split a UTF-8 character by going back over
continuation bytes.  It does not stop at the start of the segment it is cutting, and then the
segment start moves backwards: the loop does not end.  The embedding therefore runs the loop on
fuel; `none` stands for a loop that has not ended.
-/

namespace ProtoRelay

/-- `kMaxStorageLineBytes`. -/
def maxStorageLineBytes : Nat := 2048

/-- A UTF-8 continuation byte, `10xxxxxx`. -/
def isContinuation (b : UInt8) : Bool := b &&& 0xC0 == 0x80

def unstuffDot : Bytes → Bytes
  | [] => []
  | b :: line => if b = 46 then line else b :: line

/-- `utf8_boundary`: go back from `cut` while the byte there is a continuation byte. -/
def utf8Boundary (line : Bytes) : Nat → Nat
  | 0 => 0
  | cut + 1 => if isContinuation (line.getD (cut + 1) 0) then utf8Boundary line cut else cut + 1

/-- The bytes a segment may have: the continuation segments start with a space. -/
def foldBudget (first : Bool) : Nat :=
  if first then maxStorageLineBytes else maxStorageLineBytes - 1

/-- Where the segment starting at `start` is cut. -/
def foldCut (line : Bytes) (start : Nat) (first : Bool) : Nat :=
  let cut := utf8Boundary line (start + foldBudget first)
  if cut = start then start + foldBudget first else cut

/-- `line.substr(start, cut - start)`; if `cut` is below `start` the length wraps around and the
rest of the line is taken. -/
def foldPiece (line : Bytes) (start cut : Nat) : Bytes :=
  if cut < start then line.drop start else (line.drop start).take (cut - start)

/-- The loop of `append_folded`, for at most `fuel` rounds. -/
def foldLoop : Nat → Bytes → Nat → Bool → Bytes → Option Bytes
  | 0, _, _, _, _ => none
  | fuel + 1, line, start, first, out =>
    if foldBudget first < line.length - start then
      let cut := foldCut line start first
      foldLoop fuel line cut false (out ++ foldPiece line start cut ++ bytes "\r\n ")
    else some (out ++ line.drop start)

/-- `append_folded`.  As long as the loop moves forward every round consumes a byte of the line, so
more rounds than bytes are never needed. -/
def appendFolded (line : Bytes) : Option Bytes := foldLoop (line.length + 1) line 0 true []

namespace LineFolder

/-- One complete line of the message, appended to the output. -/
def feedLine (out : Option Bytes) (line : Bytes) : Option Bytes :=
  out.bind fun out => (appendFolded (unstuffDot line)).map fun l => out ++ l ++ bytes "\r\n"

/-- `feed`: the output for the lines completed by `data`, and the new carry. -/
def feed (carry data : Bytes) : Option Bytes × Bytes :=
  feedLines feedLine 13 10 (some [], carry) data

/-- `flush`: the output for the carried half line. -/
def flush (carry : Bytes) : Option Bytes :=
  if carry.isEmpty then some [] else appendFolded (unstuffDot carry)

end LineFolder

end ProtoRelay
