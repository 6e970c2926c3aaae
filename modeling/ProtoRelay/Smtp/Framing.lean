import ProtoRelay.Smtp.Folding
import ProtoRelay.Smtp.Reading
import ProtoRelay.Smtp.Session

/-!
# Finding the end of the message

While a message is received every read is one unit of input, and the end of the message is looked
for in each unit separately: the pattern `CRLF . CRLF` inside it, or a unit that is a lone dot up to
white space.  The bytes of the stream alone should decide where the message ends, what is stored and
what goes back to the input buffer; this module says for which cuts of a stream into reads that is
so.

The lines of the message are reassembled from any pieces, both for the header and for the stored
body, so that only the end matters: what the session does with a list of reads is what it does with
the bytes before the first read that ends the message.
-/

namespace ProtoRelay

open List LineFolder Option

open Session (endOfData splitDataUnit)

/-! ## The message in the stream -/

/-- The line that ends a message, at the start of the stream. -/
def dotLine : Bytes := bytes ".\r\n"

/-- The first line that consists of a single dot: what stands before it, without the line end in
front of the dot, and what stands behind it. -/
def firstDotLine (stream : Bytes) : Option (Bytes × Bytes) :=
  if dotLine.isPrefixOf stream then some ([], stream.drop 3) else cutAt endOfData stream

theorem firstDotLine_dotLine (rest : Bytes) : firstDotLine (dotLine ++ rest) = some ([], rest) := by
  have h : dotLine.isPrefixOf (dotLine ++ rest) = true := by simp
  rfl

variable {stream message rest : Bytes}

theorem firstDotLine_of_not_dotLine (h : ¬dotLine <+: stream) :
    firstDotLine stream = cutAt endOfData stream :=
  if_neg (by simpa using h)

/-- The lines of a message can be folded: every complete one and, at its end, the last one. -/
def FoldsThrough (carry stream : Bytes) : Prop :=
  match firstDotLine stream with
  | some (message, _) =>
    (∀ l ∈ (splitSep 13 10 (carry ++ message)).1, Foldable (unstuffDot l)) ∧
      Foldable (unstuffDot (splitSep 13 10 (carry ++ message)).2)
  | none => ∀ l ∈ (splitSep 13 10 (carry ++ stream)).1, Foldable (unstuffDot l)

/-- The boundaries of the reads are not in the way of the end of the message: no read before it is
a lone dot, and a read holds the whole end, which at the start of the stream it has to be. -/
def WellCut (chunks : List Bytes) : Prop :=
  match firstDotLine chunks.flatten with
  | none => ∀ c ∈ chunks, trim c ≠ bytes "."
  | some (message, _) =>
    ∃ before chunk after, chunks = before ++ chunk :: after ∧
      (∀ c ∈ before, trim c ≠ bytes ".") ∧
      if dotLine <+: chunks.flatten then before.flatten = [] ∧ chunk = dotLine
      else before.flatten.length ≤ message.length ∧
        message.length + endOfData.length ≤ before.flatten.length + chunk.length

/-- What is to be seen of the framing of a message: whether its end has been reported, the body that
has been stored, the header, and what has been put back to the input buffer. -/
structure Framing where
  ended : Bool
  stored : Bytes
  headerBuffer : Bytes
  buffer : Bytes
  deriving DecidableEq

theorem length_endOfData : endOfData.length = 5 := by decide

theorem length_dotLine : dotLine.length = 3 := by decide

/-- Where the first line with a single dot is, and that it is the first one. -/
theorem firstDotLine_cases (h : firstDotLine stream = some (message, rest)) :
    message = [] ∧ stream = dotLine ++ rest ∨
      ¬dotLine <+: stream ∧ stream = message ++ (endOfData ++ rest) ∧
        ∀ u v, stream = u ++ (endOfData ++ v) → message.length ≤ u.length := by
  by_cases hstart : dotLine <+: stream
  · obtain ⟨v, rfl⟩ := hstart
    obtain ⟨rfl, rfl⟩ := Prod.mk.inj (Option.some.inj h)
    exact .inl ⟨rfl, rfl⟩
  · rw [firstDotLine_of_not_dotLine hstart] at h
    exact .inr ⟨hstart, cutAt_eq_some_iff.mp h⟩

theorem length_message_lt (h : firstDotLine stream = some (message, rest)) :
    message.length < stream.length := by
  have h5 := length_endOfData
  have h3 := length_dotLine
  rcases firstDotLine_cases h with ⟨rfl, hs⟩ | ⟨-, hs, -⟩
  · rw [hs, length_append]
    simp only [length_nil]
    omega
  · rw [hs]
    simp only [length_append]
    omega

theorem dotLine_isPrefix_append_iff (h : 3 ≤ stream.length) (more : Bytes) :
    dotLine <+: stream ++ more ↔ dotLine <+: stream := by
  have h3 := length_dotLine
  constructor
  · rintro ⟨v, hv⟩
    obtain ⟨u, hu, -⟩ := append_eq_of_length_le hv (by omega)
    exact ⟨u, hu.symm⟩
  · rintro ⟨v, rfl⟩
    exact ⟨v ++ more, by simp⟩

theorem ne_none_of_endOfData {u v : Bytes} (h : stream = u ++ (endOfData ++ v)) :
    firstDotLine stream ≠ none := by
  by_cases hstart : dotLine <+: stream
  · obtain ⟨w, rfl⟩ := hstart
    simp [firstDotLine_dotLine]
  · rw [firstDotLine_of_not_dotLine hstart]
    exact fun hnone => cutAt_eq_none_iff.mp hnone u v h

/-- The end of the message stays where it is when more bytes arrive. -/
theorem firstDotLine_append (h : firstDotLine stream = some (message, rest)) (more : Bytes) :
    firstDotLine (stream ++ more) = some (message, rest ++ more) := by
  have h5 := length_endOfData
  have h3 := length_dotLine
  rcases firstDotLine_cases h with ⟨rfl, rfl⟩ | ⟨hstart, hs, hmin⟩
  · rw [append_assoc, firstDotLine_dotLine]
  · have hlong : message.length + 5 ≤ stream.length := by
      rw [hs]
      simp only [length_append]
      omega
    rw [firstDotLine_of_not_dotLine (by rwa [dotLine_isPrefix_append_iff (by omega)])]
    refine cutAt_eq_some_iff.mpr ⟨by rw [hs]; simp, fun u v huv => ?_⟩
    by_contra hlt
    -- an earlier occurrence would lie in the bytes that were there before
    rw [← append_assoc] at huv
    obtain ⟨w, hw, -⟩ := append_eq_of_length_le huv.symm (by simp only [length_append]; omega)
    exact hlt (hmin u w (by rw [hw, append_assoc]))

/-- Where the reads `js` stand in a list of reads cut at `chunk`. -/
theorem append_eq_append_cons {js ks before after : List Bytes} {chunk : Bytes}
    (h : js ++ ks = before ++ chunk :: after) :
    (∃ w, before = js ++ w) ∨ ∃ w, js = before ++ chunk :: w := by
  rcases append_eq_append_iff.mp h with ⟨w, hb, -⟩ | ⟨w, hj, hk⟩
  · exact .inl ⟨w, hb⟩
  · cases w with
    | nil => exact .inl ⟨[], by simpa using hj.symm⟩
    | cons c w =>
      obtain ⟨rfl, -⟩ := List.cons.inj hk
      exact .inr ⟨w, hj⟩

/-- A part that ends before the end of the message does not hold it. -/
theorem firstDotLine_eq_none_of_le {more : Bytes}
    (h : firstDotLine (stream ++ more) = some (message, rest))
    (hle : stream.length ≤ message.length) :
    firstDotLine stream = none := by
  cases hs : firstDotLine stream with
  | none => rfl
  | some r =>
    rw [firstDotLine_append hs] at h
    obtain ⟨rfl, -⟩ := Prod.mk.inj (Option.some.inj h)
    exact absurd (length_message_lt hs) (Nat.not_lt.mpr hle)

/-- A part with the end of the message holds it at the same place. -/
theorem firstDotLine_of_append (more : Bytes)
    (h : firstDotLine (stream ++ more) = some (message, rest ++ more)) :
    firstDotLine stream = some (message, rest) := by
  have hne : firstDotLine stream ≠ none := by
    rcases firstDotLine_cases h with ⟨-, hs⟩ | ⟨-, hs, -⟩
    · rw [← append_assoc] at hs
      rw [append_cancel_right hs]
      exact some_ne_none _
    · rw [← append_assoc, ← append_assoc] at hs
      exact ne_none_of_endOfData ((append_cancel_right hs).trans (append_assoc _ _ _))
  obtain ⟨⟨m, r⟩, hm⟩ := ne_none_iff_exists'.mp hne
  rw [firstDotLine_append hm] at h
  obtain ⟨rfl, hr⟩ := Prod.mk.inj (Option.some.inj h)
  rw [hm, append_cancel_right hr]

/-! ## The stored body -/

namespace LineFolder

/-- The output for a whole message: its lines and the half line at the end. -/
def body (carry message : Bytes) : Option Bytes :=
  (feed carry message).1.bind fun out => (flush (feed carry message).2).map (out ++ ·)

def lineOut (line : Bytes) : Option Bytes :=
  (appendFolded (unstuffDot line)).map (· ++ bytes "\r\n")

theorem feedLine_some (out line : Bytes) :
    feedLine (some out) line = (lineOut line).map (out ++ ·) := by
  simp only [feedLine, lineOut, Option.bind_some, Option.map_map]
  congr 1
  funext l
  simp

theorem foldl_feedLine_none (lines : List Bytes) : lines.foldl feedLine none = none := by
  induction lines with
  | nil => rfl
  | cons l lines ih => exact ih

theorem foldl_feedLine_some (out : Bytes) (lines : List Bytes) :
    lines.foldl feedLine (some out) = (lines.foldl feedLine (some [])).map (out ++ ·) := by
  induction lines generalizing out with
  | nil => simp
  | cons l lines ih =>
    simp only [foldl_cons, feedLine_some]
    cases lineOut l with
    | none => simp [foldl_feedLine_none]
    | some a =>
      simp only [map_some, nil_append]
      rw [ih (out ++ a), ih a, Option.map_map]
      congr 1
      funext r
      simp

theorem isSome_foldl_feedLine_iff (out : Bytes) (lines : List Bytes) :
    (lines.foldl feedLine (some out)).isSome ↔ ∀ l ∈ lines, Foldable (unstuffDot l) := by
  induction lines generalizing out with
  | nil => simp
  | cons l lines ih =>
    simp only [foldl_cons, feedLine_some, forall_mem_cons, ← isSome_appendFolded_iff (unstuffDot l),
      lineOut]
    cases appendFolded (unstuffDot l) with
    | none => simp [foldl_feedLine_none]
    | some a => simpa using ih _

theorem isSome_feed_iff (carry data : Bytes) :
    (feed carry data).1.isSome ↔
      ∀ l ∈ (splitSep 13 10 (carry ++ data)).1, Foldable (unstuffDot l) :=
  isSome_foldl_feedLine_iff [] _

theorem flush_eq (carry : Bytes) : flush carry = appendFolded (unstuffDot carry) := by
  cases carry with
  | nil | cons => rfl

theorem isSome_body_iff (carry message : Bytes) :
    (body carry message).isSome ↔
      (∀ l ∈ (splitSep 13 10 (carry ++ message)).1, Foldable (unstuffDot l)) ∧
        Foldable (unstuffDot (splitSep 13 10 (carry ++ message)).2) := by
  rw [← isSome_feed_iff, ← isSome_appendFolded_iff, ← flush_eq, body]
  have hcarry : (feed carry message).2 = (splitSep 13 10 (carry ++ message)).2 := rfl
  rw [← hcarry]
  cases (feed carry message).1 <;> simp

/-- **Feeding two pieces is feeding their concatenation**, piece by piece in the output. -/
theorem feed_append (carry s t : Bytes) :
    feed carry (s ++ t) =
      ((feed carry s).1.bind fun out => (feed (feed carry s).2 t).1.map (out ++ ·),
        (feed (feed carry s).2 t).2) := by
  have h := feedLines_append (f := feedLine) (x := 13) (y := 10) (some [], carry) s t
  change _ = feed carry (s ++ t) at h
  rw [← h]
  have hs : feedLines feedLine 13 10 (some [], carry) s = feed carry s := rfl
  rw [hs]
  refine Prod.ext ?_ rfl
  cases ho : (feed carry s).1 with
  | none => simp [feedLines, ho, foldl_feedLine_none]
  | some out =>
    simp only [feedLines, ho, bind_some]
    exact foldl_feedLine_some out _

variable {carry : Bytes}

theorem feed_of_splitSep {data rest : Bytes} {lines : List Bytes}
    (h : splitSep 13 10 (carry ++ data) = (lines, rest)) :
    feed carry data = (lines.foldl feedLine (some []), rest) := by
  simp only [feed, feedLines, h]

theorem feed_nil (h : splitSep 13 10 carry = ([], carry)) :
    feed carry [] = (some [], carry) := feedLines_nil h

theorem unstuffDot_snoc_cr (l : Bytes) : unstuffDot (l ++ [13]) = unstuffDot l ++ [13] := by
  cases l with
  | nil => rfl
  | cons b l =>
    by_cases hb : b = 46
    · simp [unstuffDot, hb]
    · simp [unstuffDot, hb]

/-- A carriage return or a line end more is a longer half line. -/
theorem length_flush_lt {t u v : Bytes} (hclean : (splitSep 13 10 carry).1 = [])
    (ht : t = [13] ∨ t = [13, 10]) (hu : flush carry = some u) (hv : body carry t = some v) :
    u.length < v.length := by
  obtain ⟨hopen, hline⟩ := splitSep_snoc_of_no_lines (by decide) hclean
  rw [flush_eq] at hu
  rcases ht with rfl | rfl
  · simp only [body, feed_of_splitSep hopen, foldl_nil, bind_some, flush_eq, unstuffDot_snoc_cr,
      map_eq_some_iff] at hv
    obtain ⟨tail, htail, rfl⟩ := hv
    exact length_appendFolded_lt hu htail
  · simp only [body, feed_of_splitSep hline, foldl_cons, foldl_nil, feedLine_some, lineOut,
      hu] at hv
    obtain rfl := Option.some.inj hv
    have hsep : (bytes "\r\n").length = 2 := by decide
    simp [hsep]

/-- A message with more at its end is a longer body. -/
theorem length_body_lt {message t a b : Bytes} (ht : t = [13] ∨ t = [13, 10])
    (ha : body carry message = some a) (hb : body carry (message ++ t) = some b) :
    a.length < b.length := by
  have hclean : (splitSep 13 10 (feed carry message).2).1 = [] :=
    congrArg Prod.fst (splitSep_carry (carry ++ message))
  simp only [body, feed_append carry message t, bind_eq_some_iff, map_eq_some_iff] at ha hb
  obtain ⟨out, hout, tail, htail, rfl⟩ := ha
  obtain ⟨out', ⟨o, ho, p, hp, rfl⟩, tail', htail', rfl⟩ := hb
  obtain rfl : out = o := Option.some.inj (hout.symm.trans ho)
  have hlt := length_flush_lt hclean ht htail (v := p ++ tail') (by simp [body, hp, htail'])
  simp only [length_append] at hlt ⊢
  omega

end LineFolder

/-! ## Receiving reads -/

/-- What matters of a session while a message is received. -/
structure Intake where
  ctx : SmtpsContext
  /-- the half line the folder carries -/
  carry : Bytes
  /-- the body written so far -/
  stored : Bytes
  buffer : Bytes
  /-- the end of the message has been seen -/
  ended : Bool

namespace Intake

def absorb (k : Intake) (data : Bytes) : Option Intake :=
  (feed k.carry data).1.map fun out =>
    { k with
      ctx := processMessageData k.ctx data
      carry := (feed k.carry data).2
      stored := k.stored ++ out }

/-- The end of the message, with `rest` behind it. -/
def complete (k : Intake) (rest : Bytes) : Option Intake :=
  (flush k.carry).map fun tail =>
    { ctx := finalizeAttachmentFromContext k.ctx
      carry := []
      stored := k.stored ++ tail
      buffer := k.buffer ++ rest
      ended := true }

def take (k : Intake) (chunk : Bytes) : Option Intake :=
  if k.ended then some { k with buffer := k.buffer ++ chunk }
  else
    (k.absorb (splitDataUnit chunk).1).bind fun k =>
      if (splitDataUnit chunk).2.2 then k.complete (splitDataUnit chunk).2.1 else some k

def takeAll (k : Intake) : List Bytes → Option Intake
  | [] => some k
  | c :: cs => (k.take c).bind fun k => takeAll k cs

/-- Nothing has been seen of the message's end, and no complete line waits to be handled. -/
structure Open (k : Intake) : Prop where
  ended : k.ended = false
  carry : splitSep 13 10 k.carry = ([], k.carry)
  lines : splitSep 13 10 k.ctx.lineBuffer = ([], k.ctx.lineBuffer)

/-- A read that does not end the message. -/
def Quiet (chunk : Bytes) : Prop := cutAt endOfData chunk = none ∧ trim chunk ≠ bytes "."

variable {chunk message : Bytes} {k k' : Intake} {chunks : List Bytes}

theorem Quiet.splitDataUnit (h : Quiet chunk) : splitDataUnit chunk = (chunk, [], false) := by
  rw [Session.splitDataUnit, h.1]
  exact if_neg h.2

theorem Open.absorb_nil (h : k.Open) : k.absorb [] = some k := by
  rw [absorb, feed_nil h.carry, processMessageData, feedLines_nil h.lines]
  simp

theorem absorb_append (k : Intake) (s t : Bytes) :
    (k.absorb s).bind (absorb · t) = k.absorb (s ++ t) := by
  rw [absorb, absorb, feed_append]
  cases (feed k.carry s).1 with
  | none => rfl
  | some out =>
    simp only [map_some, bind_some, absorb, processMessageData_append]
    cases (feed (feed k.carry s).2 t).1 with
    | none => rfl
    | some out' => simp

theorem Open.of_absorb {data : Bytes} (h : k.Open) (hk : k.absorb data = some k') : k'.Open := by
  obtain ⟨out, -, rfl⟩ := map_eq_some_iff.mp hk
  exact ⟨h.ended, splitSep_carry _, splitSep_carry _⟩

theorem take_of_quiet (h : k.ended = false) (hq : Quiet chunk) : k.take chunk = k.absorb chunk := by
  simp only [take, h, hq.splitDataUnit, Bool.false_eq_true, if_false]
  exact bind_fun_some _

theorem takeAll_append (k : Intake) (cs ds : List Bytes) :
    k.takeAll (cs ++ ds) = (k.takeAll cs).bind (takeAll · ds) := by
  induction cs generalizing k with
  | nil => rfl
  | cons c cs ih =>
    simp only [cons_append, takeAll, bind_assoc]
    exact congrArg (Option.bind _) (funext ih)

/-- Reads that do not end the message are the bytes they hold. -/
theorem takeAll_of_quiet (h : k.Open) (hq : ∀ c ∈ chunks, Quiet c) :
    k.takeAll chunks = k.absorb chunks.flatten := by
  induction chunks generalizing k with
  | nil => exact h.absorb_nil.symm
  | cons c cs ih =>
    rw [forall_mem_cons] at hq
    rw [takeAll, take_of_quiet h.ended hq.1, flatten_cons, ← absorb_append]
    cases hk : k.absorb c with
    | none => rfl
    | some k' => exact ih (h.of_absorb hk) hq.2

theorem takeAll_of_ended (h : k.ended = true) (chunks : List Bytes) :
    k.takeAll chunks = some { k with buffer := k.buffer ++ chunks.flatten } := by
  induction chunks generalizing k with
  | nil => simp [takeAll]
  | cons c cs ih =>
    have htake : k.take c = some { k with buffer := k.buffer ++ c } := if_pos h
    rw [takeAll, htake, bind_some, ih (k := { k with buffer := k.buffer ++ c }) h]
    simp

/-- **A list of reads is its bytes up to the first read that ends the message**; everything behind
the end goes to the buffer. -/
theorem takeAll_of_end (h : k.Open) {before after : List Bytes} {rest : Bytes}
    (hq : ∀ c ∈ before, Quiet c) (hend : splitDataUnit chunk = (message, rest, true)) :
    k.takeAll (before ++ chunk :: after) =
      (k.absorb (before.flatten ++ message)).bind (complete · (rest ++ after.flatten)) := by
  rw [takeAll_append, takeAll_of_quiet h hq, ← absorb_append]
  cases hk : k.absorb before.flatten with
  | none => rfl
  | some k₁ =>
    have hopen := (h.of_absorb hk).ended
    simp only [bind_some, takeAll, take, hopen, hend, Bool.false_eq_true, if_false, if_true,
      bind_assoc]
    refine congrArg (Option.bind _) (funext fun k₂ => ?_)
    simp only [complete]
    cases flush k₂.carry with
    | none => rfl
    | some tail =>
      rw [map_some, bind_some, takeAll_of_ended rfl]
      simp

/-- The first read that ends the message, if there is one. -/
theorem exists_end (chunks : List Bytes) :
    (∀ c ∈ chunks, Quiet c) ∨
      ∃ before chunk after, chunks = before ++ chunk :: after ∧ (∀ c ∈ before, Quiet c) ∧
        ¬Quiet chunk := by
  induction chunks with
  | nil => exact .inl (by simp)
  | cons c cs ih =>
    by_cases hc : Quiet c
    · rcases ih with hq | ⟨before, chunk, after, rfl, hq, hend⟩
      · exact .inl (forall_mem_cons.mpr ⟨hc, hq⟩)
      · exact .inr ⟨c :: before, chunk, after, rfl, forall_mem_cons.mpr ⟨hc, hq⟩, hend⟩
    · exact .inr ⟨[], c, cs, rfl, by simp, hc⟩

/-! ## Where the reads end and where the stream ends -/

/-- The state the bytes of the stream alone lead to. -/
def ideal (k : Intake) (stream : Bytes) : Option Intake :=
  match firstDotLine stream with
  | some (message, rest) => (k.absorb message).bind (complete · rest)
  | none => k.absorb stream

theorem isSome_ideal_iff (k : Intake) (stream : Bytes) :
    (k.ideal stream).isSome ↔ FoldsThrough k.carry stream := by
  unfold ideal FoldsThrough
  cases firstDotLine stream with
  | none => simp [absorb, ← isSome_feed_iff]
  | some r =>
    simp only [← isSome_body_iff, body, absorb, complete]
    cases (feed k.carry r.1).1 <;> simp

theorem quiet_of_none (hdot : ∀ c ∈ chunks, trim c ≠ bytes ".")
    (hnone : firstDotLine chunks.flatten = none) : ∀ c ∈ chunks, Quiet c := by
  intro c hc
  refine ⟨cutAt_eq_none_iff.mpr fun u v huv => ?_, hdot c hc⟩
  obtain ⟨before, after, rfl⟩ := append_of_mem hc
  exact ne_none_of_endOfData (u := before.flatten ++ u) (v := v ++ after.flatten)
    (by simp [huv]) hnone

/-- The first read that ends the message, if there is one, ends it where the stream does. -/
def Agrees (chunks : List Bytes) : Prop :=
  (∀ c ∈ chunks, Quiet c) ∧ firstDotLine chunks.flatten = none ∨
    ∃ before chunk after u v, chunks = before ++ chunk :: after ∧ (∀ c ∈ before, Quiet c) ∧
      splitDataUnit chunk = (u, v, true) ∧
      firstDotLine chunks.flatten = some (before.flatten ++ u, v ++ after.flatten)

theorem Agrees.of_append {js ks : List Bytes} (h : Agrees (js ++ ks)) : Agrees js := by
  unfold Agrees at h ⊢
  rw [flatten_append] at h
  rcases h with ⟨hq, hnone⟩ | ⟨before, chunk, after, u, v, hsp, hq, hunit, hend⟩
  · refine .inl ⟨fun c hc => hq c (mem_append_left ks hc), ?_⟩
    cases hj : firstDotLine js.flatten with
    | none => rfl
    | some r =>
      rw [firstDotLine_append hj] at hnone
      cases hnone
  · rcases append_eq_append_cons hsp with ⟨w, rfl⟩ | ⟨w, rfl⟩
    · refine .inl ⟨fun c hc => hq c (mem_append_left w hc), firstDotLine_eq_none_of_le hend ?_⟩
      simp only [flatten_append, length_append]
      omega
    · obtain rfl : w ++ ks = after := by simpa using hsp
      refine .inr ⟨before, chunk, w, u, v, rfl, hq, hunit, firstDotLine_of_append ks.flatten ?_⟩
      rw [hend, flatten_append, append_assoc]

/-- **The reads of a well cut stream end the message where the stream does.** -/
theorem agrees_of_wellCut (hcut : WellCut chunks) : Agrees chunks := by
  unfold WellCut at hcut
  cases hfst : firstDotLine chunks.flatten with
  | none =>
    rw [hfst] at hcut
    exact .inl ⟨quiet_of_none hcut hfst, hfst⟩
  | some r =>
    obtain ⟨message, rest⟩ := r
    rw [hfst] at hcut
    obtain ⟨before, chunk, after, rfl, hdot, hwhere⟩ := hcut
    have hflat : (before ++ chunk :: after).flatten =
      before.flatten ++ (chunk ++ after.flatten) := by simp
    have hquiet : before.flatten.length ≤ message.length → ∀ c ∈ before, Quiet c := fun hle =>
      quiet_of_none hdot (firstDotLine_eq_none_of_le (hflat ▸ hfst) hle)
    by_cases hstart : dotLine <+: (before ++ chunk :: after).flatten
    · -- the message is empty, and its end is a read of its own
      rw [if_pos hstart] at hwhere
      obtain ⟨hpre, rfl⟩ := hwhere
      refine .inr ⟨before, dotLine, after, [], [], rfl, hquiet (by simp [hpre]), by decide, ?_⟩
      rw [hflat, hpre]
      exact firstDotLine_dotLine _
    · rw [if_neg hstart] at hwhere
      obtain ⟨hle, hlen⟩ := hwhere
      obtain ⟨-, hstrm, hmin⟩ :=
        (firstDotLine_cases hfst).resolve_left fun h => hstart ⟨rest, h.2.symm⟩
      rw [hflat] at hstrm hmin
      obtain ⟨u, rfl, hu⟩ := append_eq_of_length_le hstrm hle
      obtain ⟨v, hchunk, hrest⟩ : ∃ v, chunk = (u ++ endOfData) ++ v ∧
          rest = v ++ after.flatten := by
        rw [← append_assoc] at hu
        refine append_eq_of_length_le hu.symm ?_
        simp only [length_append] at hlen ⊢
        omega
      have hunit : splitDataUnit chunk = (u, v, true) := by
        have hc : cutAt endOfData chunk = some (u, v) := by
          refine cutAt_eq_some_iff.mpr ⟨by simpa using hchunk, fun u' v' huv => ?_⟩
          have := hmin (before.flatten ++ u') (v' ++ after.flatten) (by simp [huv])
          simpa using this
        rw [splitDataUnit, hc]
      exact .inr ⟨before, chunk, after, u, v, rfl, hquiet hle, hunit, by rw [hfst, hrest]⟩

/-- **Then the reads lead to where the stream leads.** -/
theorem takeAll_eq_ideal (h : k.Open) (hagrees : Agrees chunks) :
    k.takeAll chunks = k.ideal chunks.flatten := by
  unfold ideal
  rcases hagrees with ⟨hq, hnone⟩ | ⟨before, chunk, after, u, v, rfl, hq, hunit, hend⟩
  · rw [hnone]
    exact takeAll_of_quiet h hq
  · rw [hend]
    exact takeAll_of_end h hq hunit

/-- What is to be seen of the framing. -/
def framing (k : Intake) : Framing where
  ended := k.ended
  stored := k.stored
  headerBuffer := k.ctx.headerBuffer
  buffer := k.buffer

/-- A message that has been read to its end. -/
theorem of_complete {rest : Bytes} (h : (k.absorb message).bind (complete · rest) = some k') :
    k'.ended = true ∧ k'.buffer = k.buffer ++ rest ∧
      ∃ b, body k.carry message = some b ∧ k'.stored = k.stored ++ b := by
  obtain ⟨k₁, hk₁, hk'⟩ := bind_eq_some_iff.mp h
  obtain ⟨out, hout, rfl⟩ := map_eq_some_iff.mp hk₁
  obtain ⟨tail, htail, rfl⟩ := map_eq_some_iff.mp hk'
  refine ⟨rfl, rfl, out ++ tail, ?_, append_assoc _ _ _⟩
  rw [body, hout, htail]
  rfl

theorem ended_of_absorb {data : Bytes} (h : k.absorb data = some k') : k'.ended = k.ended := by
  obtain ⟨out, -, rfl⟩ := map_eq_some_iff.mp h
  rfl

theorem lone_dot_line {before : Bytes} (h : before ++ chunk = dotLine)
    (hdot : trim chunk = bytes ".") : before = [] ∧ chunk = dotLine := by
  have hall : ∀ n ≤ dotLine.length, trim (dotLine.drop n) = bytes "." → n = 0 := by decide
  have hlen : before.length ≤ dotLine.length := by simp [← h]
  have hdrop : dotLine.drop before.length = chunk := by rw [← h, drop_left]
  have hnil : before = [] := eq_nil_of_length_eq_zero (hall _ hlen (hdrop ▸ hdot))
  exact ⟨hnil, by rwa [hnil] at h⟩

/-- A lone dot in a read of its own, where the stream has its end of data: the read is the end
without its carriage return, or without its first line end. -/
theorem lone_dot_cases {before : Bytes} (h : before ++ chunk = message ++ endOfData)
    (hcut : cutAt endOfData chunk = none) (hdot : trim chunk = bytes ".") :
    before = message ++ [13] ∨ before = message ++ [13, 10] := by
  rcases Nat.lt_or_ge before.length message.length with hlt | hge
  · -- the pattern lies in the read
    obtain ⟨u, -, hchunk⟩ := append_eq_of_length_le h (by omega)
    exact absurd (hchunk.trans (by simp)) (cutAt_eq_none_iff.mp hcut u [])
  · obtain ⟨w, rfl, hw⟩ := append_eq_of_length_le h.symm hge
    have hall : ∀ n ≤ endOfData.length, cutAt endOfData (endOfData.drop n) = none →
        trim (endOfData.drop n) = bytes "." →
        endOfData.take n = [13] ∨ endOfData.take n = [13, 10] := by decide
    have htake : endOfData.take w.length = w := by rw [hw, take_left]
    have hdrop : endOfData.drop w.length = chunk := by rw [hw, drop_left]
    have hcases := hall w.length (by simp [hw]) (hdrop ▸ hcut) (hdrop ▸ hdot)
    rw [htake] at hcases
    exact hcases.imp (congrArg _) (congrArg _)

/-- **If the reads lead to where the stream leads, the stream is well cut.** -/
theorem wellCut_of_framing {k'' : Intake} (h : k.Open)
    (ht : k.takeAll chunks = some k') (hi : k.ideal chunks.flatten = some k'')
    (hf : k'.framing = k''.framing) : WellCut chunks := by
  obtain ⟨hended, hsto, -, hbuf⟩ := Framing.mk.inj hf
  unfold WellCut
  rcases exists_end chunks with hq | ⟨before, chunk, after, rfl, hq, hend⟩
  · -- the end of the message has not been reported, so the stream does not hold it
    rw [takeAll_of_quiet h hq] at ht
    rw [ended_of_absorb ht, h.ended] at hended
    unfold ideal at hi
    cases hfst : firstDotLine chunks.flatten with
    | none => exact fun c hc => (hq c hc).2
    | some r =>
      rw [hfst] at hi
      rw [(of_complete hi).1] at hended
      cases hended
  · have hdot : ∀ c ∈ before, trim c ≠ bytes "." := fun c hc => (hq c hc).2
    have hflat : (before ++ chunk :: after).flatten =
      before.flatten ++ (chunk ++ after.flatten) := by simp
    -- what the read says about the end: where it is, and what is put back
    obtain ⟨u, v, hunit, hwhere⟩ : ∃ u v, splitDataUnit chunk = (u, v, true) ∧
        (chunk = u ++ (endOfData ++ v) ∨
          u = [] ∧ v = [] ∧ cutAt endOfData chunk = none ∧ trim chunk = bytes ".") := by
      cases hc : cutAt endOfData chunk with
      | some r => exact ⟨r.1, r.2, by rw [splitDataUnit, hc], .inl (cutAt_eq_some_iff.mp hc).1⟩
      | none =>
        have hlone : trim chunk = bytes "." := by
          by_contra hne
          exact hend ⟨hc, hne⟩
        exact ⟨[], [], by rw [splitDataUnit, hc]; exact if_pos hlone, .inr ⟨rfl, rfl, rfl, hlone⟩⟩
    rw [takeAll_of_end h hq hunit] at ht
    obtain ⟨hk', hbuf', b', hbody', hst'⟩ := of_complete ht
    unfold ideal at hi
    cases hfst : firstDotLine (before ++ chunk :: after).flatten with
    | none =>
      rw [hfst] at hi
      rw [hk', ended_of_absorb hi, h.ended] at hended
      cases hended
    | some r =>
      obtain ⟨message, rest⟩ := r
      rw [hfst] at hi
      obtain ⟨-, hbuf'', b'', hbody'', hst''⟩ := of_complete hi
      have hrest : v ++ after.flatten = rest := by
        rw [hbuf', hbuf''] at hbuf
        simpa using hbuf
      have hlength : b'.length = b''.length := by
        rw [hst', hst''] at hsto
        rw [append_cancel_left hsto]
      have h5 := length_endOfData
      have h3 := length_dotLine
      refine ⟨before, chunk, after, rfl, hdot, ?_⟩
      rcases firstDotLine_cases hfst with ⟨rfl, hs⟩ | ⟨hstart, hs, -⟩
      · rw [if_pos ⟨rest, hs.symm⟩]
        rw [hflat, ← hrest] at hs
        rcases hwhere with rfl | ⟨rfl, rfl, -, hlone⟩
        · have := congrArg List.length hs
          simp only [length_append] at this
          omega
        · rw [← append_assoc] at hs
          have hsum : before.flatten ++ chunk = dotLine := append_cancel_right hs
          exact lone_dot_line hsum hlone
      · rw [if_neg hstart]
        rw [hflat, ← hrest] at hs
        rcases hwhere with rfl | ⟨rfl, rfl, hcut, hlone⟩
        · have := congrArg List.length hs
          simp only [length_append] at this ⊢
          omega
        · rw [← append_assoc, ← append_assoc] at hs
          have hsum : before.flatten ++ chunk = message ++ endOfData := append_cancel_right hs
          -- the body has a line end, or half of one, too much
          rw [append_nil] at hbody'
          exfalso
          rcases lone_dot_cases hsum hcut hlone with hpre | hpre <;> rw [hpre] at hbody'
          · have := length_body_lt (.inl rfl) hbody'' hbody'
            omega
          · have := length_body_lt (.inr rfl) hbody'' hbody'
            omega

/-- The reads lead to where the stream leads, after every read, exactly if the stream is well cut
and its lines can be folded. -/
theorem framing_iff (h : k.Open) (chunks : List Bytes) :
    (∀ js, js <+: chunks → ∃ k', k.takeAll js = some k' ∧
      (k.ideal js.flatten).map framing = some k'.framing) ↔
      WellCut chunks ∧ FoldsThrough k.carry chunks.flatten := by
  constructor
  · intro hall
    obtain ⟨k', ht, hi⟩ := hall chunks prefix_rfl
    obtain ⟨k'', hi, hf⟩ := map_eq_some_iff.mp hi
    exact ⟨wellCut_of_framing h ht hi hf.symm, (isSome_ideal_iff k _).mp (by rw [hi]; rfl)⟩
  · rintro ⟨hcut, hfold⟩ js ⟨ks, rfl⟩
    -- a run over all the reads has passed the first of them
    obtain ⟨k'', hi⟩ := isSome_iff_exists.mp ((isSome_ideal_iff k _).mpr hfold)
    have hagrees := agrees_of_wellCut hcut
    rw [← takeAll_eq_ideal h hagrees, takeAll_append] at hi
    obtain ⟨k', ht, -⟩ := bind_eq_some_iff.mp hi
    refine ⟨k', ht, ?_⟩
    rw [← takeAll_eq_ideal h hagrees.of_append, ht]
    rfl

end Intake

/-! ## Sessions -/

namespace Session

/-- The reads of a message, one after the other: each is a unit of input until the end of the
message is reported, and then goes to the input buffer. -/
def receive (s : Session) : List Bytes → Option Session
  | [] => some s
  | c :: cs =>
    if s.nextEvent = .dataEnd then
      receive { s with io := { s.io with commandReadBuffer := s.io.commandReadBuffer ++ c } } cs
    else (s.parseSmtpCommand {} c).bind fun s => receive s cs

def storedBody (s : Session) : Bytes := (s.bodyWriter.map (·.stored)).getD []

/-- What is to be seen of the framing. -/
def framing (s : Session) : Framing where
  ended := decide (s.nextEvent = .dataEnd)
  stored := s.storedBody
  headerBuffer := s.ctx.headerBuffer
  buffer := s.io.commandReadBuffer

/-- The framing by the bytes of the stream alone: the end is the first line with a single dot, the
body is what the folder makes of the bytes before it, and the bytes behind it are put back. -/
def idealFraming (s : Session) (stream : Bytes) : Option Framing :=
  match firstDotLine stream with
  | some (message, rest) =>
    (body s.bodyLineFolder message).map fun body =>
      { ended := true
        stored := s.storedBody ++ body
        headerBuffer := (processMessageData s.ctx message).headerBuffer
        buffer := rest }
  | none =>
    (feed s.bodyLineFolder stream).1.map fun body =>
      { ended := false
        stored := s.storedBody ++ body
        headerBuffer := (processMessageData s.ctx stream).headerBuffer
        buffer := [] }

/-- After every read the framing is what the stream so far says. -/
def FramedBy (s : Session) (chunks : List Bytes) : Prop :=
  ∀ js, js <+: chunks → ∃ s', s.receive js = some s' ∧
    s.idealFraming js.flatten = some s'.framing

/-- A message is being received into an open stream, and the folder has handled every complete
line. -/
structure Writing (s : Session) : Prop where
  state : s.io.state = .inMessage
  writer : ∃ w, s.bodyWriter = some w ∧ w.failed = false
  folder : splitSep 13 10 s.bodyLineFolder = ([], s.bodyLineFolder)

/-- The session waits for a message, and no byte of it has been read. -/
structure Receiving (s : Session) : Prop extends s.Writing where
  event : s.nextEvent ≠ .dataEnd
  buffer : s.io.commandReadBuffer = []
  lines : splitSep 13 10 s.ctx.lineBuffer = ([], s.ctx.lineBuffer)

def intake (s : Session) : Intake where
  ctx := s.ctx
  carry := s.bodyLineFolder
  stored := s.storedBody
  buffer := s.io.commandReadBuffer
  ended := decide (s.nextEvent = .dataEnd)

variable {s : Session} {w : BodyWriter}

section

variable (h : s.bodyWriter = some w)

include h

section

variable (hok : w.failed = false)

include hok

theorem appendBodyData_of_writer (data : Bytes) :
    s.appendBodyData data true =
      { s with bodyWriter := some { w with stored := w.stored ++ data } } := by
  obtain ⟨stored, failed⟩ := w
  obtain rfl : failed = false := hok
  simp only [appendBodyData, h, Bool.false_or, if_true]
  cases data with
  | nil => rw [append_nil, ← h]; rfl
  | cons b data => rfl

theorem storeUnit_of_writer
    (hfolder : splitSep 13 10 s.bodyLineFolder = ([], s.bodyLineFolder)) (chunk : Bytes) :
    s.storeUnit {} chunk = (feed s.bodyLineFolder chunk).1.map fun out =>
        { s with
          bodyLineFolder := (feed s.bodyLineFolder chunk).2
          bodyWriter := some { w with stored := w.stored ++ out } } := by
  cases chunk with
  | nil =>
    rw [feed_nil hfolder]
    simp [storeUnit, ← h]
  | cons b chunk =>
    refine congrArg (fun f => Option.map f _) (funext fun out => ?_)
    exact appendBodyData_of_writer
      (s := { s with bodyLineFolder := (feed s.bodyLineFolder (b :: chunk)).2 }) h hok out

theorem finishMessage_of_writer :
    s.finishMessage {} = (flush s.bodyLineFolder).map fun tail =>
        { s with
          bodyLineFolder := []
          bodyWriter := some { w with stored := w.stored ++ tail }
          ctx := finalizeAttachmentFromContext s.ctx
          nextEvent := .dataEnd
          lastCommandArgs := [] } := by
  refine congrArg (fun f => Option.map f _) (funext fun tail => ?_)
  rw [appendBodyData_of_writer (s := { s with bodyLineFolder := [] }) h hok tail]

theorem parseMessageUnit_of_writer
    (hfolder : splitSep 13 10 s.bodyLineFolder = ([], s.bodyLineFolder))
    {chunk message rest : Bytes} {ends : Bool}
    (hunit : splitDataUnit chunk = (message, rest, ends)) :
    s.parseMessageUnit {} chunk = (feed s.bodyLineFolder message).1.bind fun out =>
        let s₁ := { s with
          io := { s.io with commandReadBuffer := s.io.commandReadBuffer ++ rest }
          ctx := processMessageData s.ctx message
          bodyLineFolder := (feed s.bodyLineFolder message).2
          bodyWriter := some { w with stored := w.stored ++ out } }
        if ends then s₁.finishMessage {}
        else some { s₁ with nextEvent := .data, lastCommandArgs := unitArgs s₁.ctx chunk } := by
  have hstore := storeUnit_of_writer (s := { s with
      io := { s.io with commandReadBuffer := s.io.commandReadBuffer ++ rest }
      ctx := processMessageData s.ctx message }) h hok hfolder message
  unfold parseMessageUnit
  rw [hunit]
  refine (congrArg (fun r => Option.bind r _) hstore).trans ?_
  rw [bind_map]
  rfl

end

end

theorem splitDataUnit_rest {chunk message rest : Bytes}
    (h : splitDataUnit chunk = (message, rest, false)) : rest = [] := by
  unfold splitDataUnit at h
  split at h
  · cases h
  · split at h
    · cases h
    · exact (Prod.mk.inj (Prod.mk.inj h).2).1.symm

/-- **One read of a session is one read of its intake.** -/
theorem intake_parseSmtpCommand (hw : s.Writing) (he : s.nextEvent ≠ .dataEnd) (chunk : Bytes) :
    (s.parseSmtpCommand {} chunk).map intake = s.intake.take chunk ∧
      ∀ s', s.parseSmtpCommand {} chunk = some s' → s'.Writing := by
  obtain ⟨hst, ⟨w, hwriter, hok⟩, hfolder⟩ := hw
  have hended : s.intake.ended = false := decide_eq_false he
  have hsto : s.intake.stored = w.stored := by simp [intake, storedBody, hwriter]
  generalize hunit : splitDataUnit chunk = unit
  obtain ⟨message, rest, ends⟩ := unit
  rw [parseSmtpCommand, if_pos hst, Intake.take, hended,
    parseMessageUnit_of_writer hwriter hok hfolder hunit, hunit, Intake.absorb, hsto]
  change Option.map intake (Option.bind (feed s.bodyLineFolder message).1 _) =
    Option.bind (Option.map _ (feed s.bodyLineFolder message).1) _ ∧ _
  cases (feed s.bodyLineFolder message).1 with
  | none => exact ⟨rfl, fun s' h => by cases h⟩
  | some out =>
    cases ends with
    | false =>
      obtain rfl := splitDataUnit_rest hunit
      refine ⟨?_, ?_⟩
      · simp [intake, storedBody, he]
      · rintro s' ⟨⟩
        exact ⟨hst, ⟨_, rfl, hok⟩, splitSep_carry _⟩
    | true =>
      rw [bind_some, if_pos rfl,
        finishMessage_of_writer (w := { w with stored := w.stored ++ out }) rfl hok]
      refine ⟨?_, ?_⟩
      · rw [Option.map_map]
        rfl
      · intro s' hs'
        obtain ⟨tail, -, rfl⟩ := Option.map_eq_some_iff.mp hs'
        exact ⟨hst, ⟨_, rfl, hok⟩, rfl⟩

/-- **The reads of a session are the reads of its intake.** -/
theorem intake_receive (hw : s.Writing) (chunks : List Bytes) :
    (s.receive chunks).map intake = s.intake.takeAll chunks := by
  induction chunks generalizing s with
  | nil => rfl
  | cons c cs ih =>
    by_cases he : s.nextEvent = .dataEnd
    · have htake : s.intake.take c = some
          { s with io := { s.io with commandReadBuffer := s.io.commandReadBuffer ++ c } }.intake :=
        if_pos (decide_eq_true he)
      rw [receive, if_pos he, Intake.takeAll, htake]
      exact ih { hw with }
    · obtain ⟨htake, hwriting⟩ := intake_parseSmtpCommand hw he c
      rw [receive, if_neg he, Intake.takeAll, ← htake]
      cases hp : s.parseSmtpCommand {} c with
      | none => rfl
      | some s' => exact ih (hwriting s' hp)

theorem idealFraming_eq (h : s.Receiving) (stream : Bytes) :
    s.idealFraming stream = (s.intake.ideal stream).map Intake.framing := by
  have hended : s.intake.ended = false := decide_eq_false h.event
  have hbuf : s.intake.buffer = [] := h.buffer
  unfold idealFraming Intake.ideal
  cases firstDotLine stream with
  | none =>
    simp only [Intake.absorb, Option.map_map]
    refine congrArg (fun f => Option.map f _) (funext fun out => ?_)
    simp only [Function.comp, Intake.framing, hended, hbuf]
    rfl
  | some r =>
    change Option.map _ (Option.bind (feed s.bodyLineFolder r.1).1 _) =
      Option.map _ (Option.bind (Option.map _ (feed s.bodyLineFolder r.1).1) _)
    cases (feed s.bodyLineFolder r.1).1 with
    | none => rfl
    | some out =>
      simp only [Option.bind_some, Option.map_some, Intake.complete, Option.map_map]
      refine congrArg (fun f => Option.map f _) (funext fun tail => ?_)
      simp only [Function.comp, Intake.framing, hbuf, nil_append]
      rw [← append_assoc]
      rfl

/-- **Framing follows the stream exactly for well cut streams whose lines can be folded.** -/
theorem framedBy_iff {s : Session} (h : s.Receiving) (chunks : List Bytes) :
    s.FramedBy chunks ↔ WellCut chunks ∧ FoldsThrough s.bodyLineFolder chunks.flatten := by
  have hopen : s.intake.Open := ⟨decide_eq_false h.event, h.folder, h.lines⟩
  rw [show s.bodyLineFolder = s.intake.carry from rfl, ← Intake.framing_iff hopen]
  refine forall₂_congr fun js _ => ?_
  rw [← intake_receive h.toWriting, idealFraming_eq h]
  constructor
  · rintro ⟨s', hr, hi⟩
    exact ⟨s'.intake, by rw [hr]; rfl, hi⟩
  · rintro ⟨k', hr, hi⟩
    obtain ⟨s', hs', rfl⟩ := map_eq_some_iff.mp hr
    exact ⟨s', hs', hi⟩

def awaitingMessage : Session where
  io := { state := .inMessage }
  ctx := { listenerConfig := { authPolicy := .off, advertiseStarttls := false } }
  nextEvent := .data
  bodyWriter := some {}

theorem receiving_awaitingMessage : awaitingMessage.Receiving :=
  ⟨⟨rfl, ⟨{}, rfl, rfl⟩, rfl⟩, by decide, rfl, rfl⟩

/-- Reads cut in a line end of the header, with the next command behind the end of the message. -/
theorem framedBy_of_pipelined_quit : awaitingMessage.Receiving ∧ awaitingMessage.FramedBy
        [bytes "Subject: hi\r", bytes "\n\r\nhello\r\n.\r\nQUIT\r\n"] := by
  refine ⟨receiving_awaitingMessage, (framedBy_iff receiving_awaitingMessage _).mpr ⟨?_, ?_⟩⟩
  · exact ⟨[bytes "Subject: hi\r"], bytes "\n\r\nhello\r\n.\r\nQUIT\r\n", [],
      rfl, by decide, by decide⟩
  · exact ⟨fun l hl => foldable_of_length_le (by revert l; decide),
      foldable_of_length_le (by decide)⟩

/-- **A read boundary inside the end of data hides it**: the message does not end. -/
theorem not_forall_framedBy : ¬ ∀ (s : Session) (chunks : List Bytes), s.Receiving →
    s.FramedBy chunks := by
  intro h
  obtain ⟨s', hr, hi⟩ := h awaitingMessage [bytes "hello\r\n.", bytes "\r\n"]
    receiving_awaitingMessage _ prefix_rfl
  have hne : (awaitingMessage.receive [bytes "hello\r\n.", bytes "\r\n"]).map framing ≠
      awaitingMessage.idealFraming [bytes "hello\r\n.", bytes "\r\n"].flatten := by
    decide
  exact hne (by rw [hr, hi]; rfl)

end Session

end ProtoRelay
