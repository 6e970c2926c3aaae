import ProtoRelay.Mime.Headers

/-!
# The MIME tree of a message

`mime_tree.h`: the parts of a message with the ranges of bytes they have in it.  A part of a
multipart sees the message up to its boundary only; the line ends in front of the boundary are not
part of it.  The sizes are exact here; the parser as it runs, with sizes of 32 bits, is in
`ProtoRelay.Mime.Parser`.
-/

namespace ProtoRelay

open List Option

/-- `MimePart`, without the parts of it. -/
structure MimeInfo where
  type : Bytes
  subtype : Bytes
  charset : Bytes := []
  encoding : Bytes := bytes "7bit"
  boundary : Bytes := []
  name : Bytes := []
  disposition : Bytes := []
  contentId : Bytes := []
  offset : Nat := 0
  length : Nat := 0
  bodySize : Nat := 0
  lines : Nat := 0

inductive MimePart
  | mk (info : MimeInfo) (subs : List MimePart)

namespace MimePart

def info : MimePart → MimeInfo
  | mk info _ => info

def subs : MimePart → List MimePart
  | mk _ subs => subs

end MimePart

/-! ## Line ends -/

def isLineEnd (b : UInt8) : Bool := b == 13 || b == 10

def trimLineEnds (s : Bytes) : Bytes := (s.reverse.dropWhile isLineEnd).reverse

/-- The blank line that ends a header. -/
def crlfCrlf : Bytes := [13, 10, 13, 10]

/-- `raw.find(pat, pos)`. -/
def findFrom (pat raw : Bytes) (pos : Nat) : Option Nat :=
  (cutAt pat (raw.drop pos)).map fun r => pos + r.1.length

/-- The start of the line behind a position. -/
def nextLine (raw : Bytes) (pos : Nat) : Option Nat :=
  match findFrom [13, 10] raw pos with
  | some nl => some (nl + 2)
  | none => (findFrom [10] raw pos).map (· + 1)

/-! ## Parsing -/

/-- The last Content-Type at the start of a line, for messages whose header is behind the body. -/
def lastContentType (raw : Bytes) : Bytes :=
  -- the last occurrence is the first one of the reversed text
  match cutAt (bytes "\ncontent-type:").reverse (toLower raw).reverse with
  | none => []
  | some (behind, _) =>
    mimeHeaderValue (raw.drop (raw.length - behind.length - (bytes "\ncontent-type:").length + 1))
      (bytes "content-type")

/-- Where the body of the part at a position begins. -/
def bodyStart (raw : Bytes) (pos : Nat) : Nat :=
  ((findFrom crlfCrlf raw pos).map (· + 4)).getD raw.length

/-- Type and subtype of a Content-Type. -/
def mediaType (contentType : Bytes) : Bytes × Bytes :=
  let media := toLower (trimMime (contentType.takeWhile (· != 59)))
  match findByte 47 media with
  | some slash => (media.take slash, media.drop (slash + 1))
  | none => (bytes "text", bytes "plain")

/-- The fields that come from a header and the Content-Type that is taken for it. -/
def mimeMetadata (headers contentType : Bytes) : MimeInfo :=
  let disposition := mimeHeaderValue headers (bytes "content-disposition")
  let filename := mimeParameter disposition (bytes "filename")
  let encoding := toLower (mimeHeaderValue headers (bytes "content-transfer-encoding"))
  { type := (mediaType contentType).1
    subtype := (mediaType contentType).2
    charset := toLower (mimeParameter contentType (bytes "charset"))
    encoding := if encoding.isEmpty then bytes "7bit" else encoding
    boundary := mimeParameter contentType (bytes "boundary")
    name := if filename.isEmpty then mimeParameter contentType (bytes "name") else filename
    disposition := toLower (trimMime (disposition.takeWhile (· != 59)))
    contentId := mimeHeaderValue headers (bytes "content-id") }

/-- What is read from the header of the part at a position, with sizes that are not cut off. -/
def parseMimeInfo (raw : Bytes) (pos : Nat) : MimeInfo :=
  let separator := findFrom crlfCrlf raw pos
  let headers := match separator with
    | some sep => (raw.drop pos).take (sep - pos)
    | none => raw.drop pos
  let contentType := mimeHeaderValue headers (bytes "content-type")
  { mimeMetadata headers (if contentType.isEmpty then lastContentType raw else contentType) with
    offset := pos
    length := raw.length - pos
    bodySize := if separator.isSome then raw.length - bodyStart raw pos else 0
    lines := if separator.isSome then (raw.drop (bodyStart raw pos)).count 10 else 0 }

/-- The ranges between the boundaries of a multipart from a position on.  Every round goes on behind
an occurrence of the boundary. -/
def boundaryRanges (raw boundary : Bytes) : Nat → Nat → List (Nat × Nat)
  | 0, _ => []
  | fuel + 1, searchFrom =>
    if raw.length ≤ searchFrom then []
    else
      match findFrom boundary raw searchFrom with
      | none => []
      | some next =>
        if 0 < next ∧ raw.getD (next - 1) 0 ≠ 10 then
          boundaryRanges raw boundary fuel (next + boundary.length)
        else
          (searchFrom, next) :: (if (raw.drop (next + boundary.length)).take 2 = bytes "--" then []
              else ((nextLine raw next).map (boundaryRanges raw boundary fuel)).getD [])

/-- The ranges of the parts of a multipart: from behind the line of the first boundary on. -/
def partRanges (raw boundary : Bytes) (start : Nat) : List (Nat × Nat) :=
  let boundary := bytes "--" ++ boundary
  let first := (findFrom (boundary ++ [13, 10]) raw start).or
    (findFrom (boundary ++ [10]) raw start)
  let searchFrom := (first.bind (nextLine raw)).getD start
  boundaryRanges raw boundary (raw.length + 1) searchFrom

/-- A length without the line ends at the end of the range. -/
def trimmedLength (raw : Bytes) (start : Nat) : Nat → Nat
  | 0 => 0
  | n + 1 => if isLineEnd (raw.getD (start + n) 0) then trimmedLength raw start n else n + 1

/-- The sizes of a part between two boundaries. -/
def MimePart.between (raw : Bytes) (start next : Nat) (sub : MimePart) : MimePart :=
  .mk { sub.info with
      length := trimmedLength raw start (next - start)
      bodySize := match findFrom crlfCrlf raw start with
        | some sep =>
          if sep < next then trimmedLength raw (sep + 4) (next - (sep + 4)) else sub.info.bodySize
        | none => sub.info.bodySize }
    sub.subs

/-- The sizes of an embedded message. -/
def MimePart.embedded (raw : Bytes) (start : Nat) (message : MimePart) : MimePart :=
  .mk { message.info with
      length := trimmedLength raw start message.info.length
      bodySize :=
        trimmedLength raw (raw.length - message.info.bodySize) message.info.bodySize }
    message.subs

/-- The tree of `parse_mime_tree` with exact sizes, and the number of levels it may
still go down. -/
def parseMimeTree : Nat → Bytes → Nat → MimePart
  | 0, raw, pos => .mk (parseMimeInfo raw pos) []
  | levels + 1, raw, pos =>
    let info := parseMimeInfo raw pos
    let start := bodyStart raw pos
    if info.type = bytes "multipart" ∧ info.boundary ≠ [] then
      .mk info ((partRanges raw info.boundary start).map fun range =>
        (parseMimeTree levels (raw.take range.2) range.1).between raw range.1 range.2)
    else if info.type = bytes "message" ∧ info.subtype = bytes "rfc822" ∧ start < raw.length then
      let message := parseMimeTree levels raw start
      .mk info (if message.info.type = [] then [] else [message.embedded raw start])
    else .mk info []

def mimeTree (raw : Bytes) : MimePart := parseMimeTree 64 raw 0

/-! ## Line ends at the end of a text -/

variable {v z raw pat t : Bytes} {start pos levels : Nat} {part : MimePart}

theorem trimLineEnds_append (hz : ∀ b ∈ z, isLineEnd b = true)
    (hv : ∀ b, v.getLast? = some b → isLineEnd b = false) : trimLineEnds (v ++ z) = v := by
  unfold trimLineEnds
  have hz' : z.reverse.dropWhile isLineEnd = [] := by
    rw [dropWhile_eq_nil_iff]
    exact fun b hb => hz b (mem_reverse.mp hb)
  rw [reverse_append, dropWhile_append, hz', isEmpty_nil, if_pos rfl]
  cases hlast : v.reverse with
  | nil => exact (reverse_eq_nil_iff.mp hlast).symm
  | cons b rest =>
    have hb : isLineEnd b = false := hv b (by rw [← head?_reverse, hlast]; rfl)
    rw [dropWhile_cons_of_neg (by simp [hb]), ← hlast, reverse_reverse]

/-- A text is what is left of it and line ends. -/
theorem exists_trimLineEnds (s : Bytes) :
    ∃ z, s = trimLineEnds s ++ z ∧ (∀ b ∈ z, isLineEnd b = true) ∧
      ∀ b, (trimLineEnds s).getLast? = some b → isLineEnd b = false := by
  refine ⟨(s.reverse.takeWhile isLineEnd).reverse, ?_, ?_, ?_⟩
  · unfold trimLineEnds
    rw [← reverse_append, takeWhile_append_dropWhile, reverse_reverse]
  · intro b hb
    exact all_eq_true.mp all_takeWhile b (mem_reverse.mp hb)
  · intro b hb
    unfold trimLineEnds at hb
    rw [getLast?_reverse] at hb
    have := head?_dropWhile_not isLineEnd s.reverse
    rw [hb] at this
    simpa using this

theorem trimLineEnds_eq_self (hv : ∀ b, v.getLast? = some b → isLineEnd b = false) :
    trimLineEnds v = v := by
  have htrim := @trimLineEnds_append v [] (fun _ h => nomatch h) hv
  rwa [append_nil] at htrim

theorem trimmedLength_eq :
    ∀ {n : Nat}, start + n ≤ raw.length →
      trimmedLength raw start n = (trimLineEnds ((raw.drop start).take n)).length
  | 0, _ => by simp [trimmedLength, trimLineEnds]
  | n + 1, h => by
    have hget : (raw.drop start)[n]? = some (raw.getD (start + n) 0) := by
      rw [getElem?_drop, getD_eq_getElem?_getD]
      rw [getElem?_eq_getElem (by omega)]
      rfl
    have hsp : (raw.drop start).take (n + 1) =
        (raw.drop start).take n ++ [raw.getD (start + n) 0] := by
      rw [take_add_one, hget]
      rfl
    rw [trimmedLength, hsp]
    split
    · rename_i hend
      rw [trimmedLength_eq (by omega)]
      obtain ⟨z, hz, hends, hlast⟩ := exists_trimLineEnds ((raw.drop start).take n)
      conv_rhs => rw [hz, append_assoc]
      rw [trimLineEnds_append _ hlast]
      simp only [forall_mem_append, forall_mem_singleton]
      exact ⟨hends, hend⟩
    · rename_i hend
      rw [trimLineEnds_eq_self, length_append, length_take, length_drop]
      · simp only [length_singleton]
        omega
      · intro b hb
        rw [getLast?_append] at hb
        simp only [getLast?_singleton, some_or, Option.some.injEq] at hb
        rw [← hb]
        exact eq_false_of_ne_true hend

/-- A pattern of line ends that is not in a text is not found in it and beyond either, if the text
does not end in a line end. -/
theorem le_of_cutAt_lineEnds {u : Bytes} (hpat : ∀ b ∈ pat, isLineEnd b = true)
    (hlast : ∀ b, t.getLast? = some b → isLineEnd b = false) (hnone : cutAt pat t = none)
    (h : cutAt pat (t ++ z) = some (u, v)) : t.length ≤ u.length := by
  have hlt := lt_of_cutAt_append hnone h
  by_contra hle
  have hs := (cutAt_eq_some_iff.mp h).1
  obtain ⟨w, rfl, hw⟩ := append_eq_of_length_le hs.symm (by omega)
  -- the rest of the text is in the pattern, and so is its last byte
  obtain ⟨w', hw', -⟩ := append_eq_of_length_le hw.symm (by
    simp only [length_append] at hlt
    omega)
  cases hlastw : w.getLast? with
  | none =>
    rw [getLast?_eq_none_iff.mp hlastw, append_nil] at hle
    exact hle le_rfl
  | some b =>
    have hb := hlast b (by rw [getLast?_append, hlastw]; rfl)
    rw [hpat b (by rw [hw']; exact mem_append_left _ (mem_of_getLast? hlastw))] at hb
    cases hb

/-! ## Sizes -/

/-- The size that is announced for a part with this text. -/
def announcedSize (text : Bytes) : Nat :=
  match cutAt crlfCrlf text with
  | some r => (trimLineEnds r.2).length
  | none => 0

theorem findFrom_eq : findFrom pat raw pos = (cutAt pat (raw.drop pos)).map fun r =>
    pos + r.1.length := rfl

/-- What is behind a pattern of line ends, cut out by positions. -/
theorem take_behind {u v : Bytes} (hraw : raw.drop start = t ++ rest)
    (htext : t = u ++ (pat ++ v)) :
    (raw.drop (start + u.length + pat.length)).take
    (start + t.length - (start + u.length + pat.length)) =
      v := by
  have hdrop : raw.drop (start + u.length + pat.length) = v ++ rest := by
    rw [Nat.add_assoc, ← drop_drop, hraw, htext]
    simp [← drop_drop]
  have hlen : start + t.length - (start + u.length + pat.length) = v.length := by
    rw [htext]
    simp only [length_append]
    omega
  rw [hdrop, hlen, take_left]

theorem lineEnd_crlfCrlf : ∀ b ∈ crlfCrlf, isLineEnd b = true := all_eq_true.mp rfl

/-! ## The parts of a tree -/

/-- A part somewhere below another one. -/
inductive Within : MimePart → MimePart → Prop
  | sub {part root : MimePart} (h : part ∈ root.subs) : Within part root
  | deeper {part sub root : MimePart} (h : sub ∈ root.subs)
      (hpart : Within part sub) : Within part root

theorem info_parseMimeTree (levels : Nat) (raw : Bytes) (pos : Nat) :
    (parseMimeTree levels raw pos).info = parseMimeInfo raw pos := by
  cases levels with
  | zero => rfl
  | succ levels =>
    unfold parseMimeTree
    dsimp only
    split
    · rfl
    · split <;> rfl

theorem Within.congr {root root' : MimePart} (hsubs : root'.subs = root.subs)
    (h : Within part root) :
    Within part root' := by
  cases h with
  | sub h => exact .sub (hsubs ▸ h)
  | deeper h hpart => exact .deeper (hsubs ▸ h) hpart

/-- The size computed for a part at a position, before the line ends at its end are taken off. -/
theorem bodySize_parseMimeInfo (raw : Bytes) :
    (parseMimeInfo raw pos).bodySize =
    ((cutAt crlfCrlf (raw.drop pos)).map fun r => r.2.length).getD 0 := by
  change (if (findFrom crlfCrlf raw pos).isSome then raw.length - bodyStart raw pos else 0) = _
  unfold bodyStart
  rw [findFrom_eq]
  cases hcut : cutAt crlfCrlf (raw.drop pos) with
  | none => rfl
  | some r =>
    obtain ⟨u, v⟩ := r
    have hlen := congrArg List.length (cutAt_eq_some_iff.mp hcut).1
    simp only [length_drop, length_append] at hlen
    change raw.length - (pos + u.length + 4) = v.length
    have hfour : crlfCrlf.length = 4 := rfl
    omega

/-- A position at which something is found. -/
theorem exists_of_findFrom {i : Nat} (h : findFrom pat raw pos = some i) :
    pos ≤ i ∧ ∃ v, raw.drop i = pat ++ v := by
  rw [findFrom_eq, map_eq_some_iff] at h
  obtain ⟨⟨u, v⟩, hcut, rfl⟩ := h
  refine ⟨Nat.le_add_right _ _, v, ?_⟩
  rw [← drop_drop, (cutAt_eq_some_iff.mp hcut).1, drop_left]

theorem lt_of_nextLine {line : Nat} (h : nextLine raw pos = some line) : pos < line := by
  unfold nextLine at h
  split at h
  · rename_i nl hnl
    have := (exists_of_findFrom hnl).1
    cases h
    omega
  · rw [map_eq_some_iff] at h
    obtain ⟨nl, hnl, rfl⟩ := h
    have := (exists_of_findFrom hnl).1
    omega

/-- The ranges of a multipart end in front of a boundary. -/
theorem range_of_mem_boundaryRanges {boundary : Bytes} {fuel searchFrom : Nat} {range : Nat × Nat}
    (h : range ∈ boundaryRanges raw boundary fuel searchFrom) :
    searchFrom ≤ range.1 ∧ range.1 ≤ range.2 ∧ ∃ v, raw.drop range.2 = boundary ++ v := by
  induction fuel generalizing searchFrom with
  | zero => cases h
  | succ fuel ih =>
    rw [boundaryRanges] at h
    split at h
    · cases h
    · split at h
      · cases h
      · rename_i next hnext
        have hfound := exists_of_findFrom hnext
        split at h
        · obtain ⟨hfrom, hrange⟩ := ih h
          exact ⟨by omega, hrange⟩
        · rcases mem_cons.mp h with rfl | h
          · exact ⟨le_rfl, hfound⟩
          · split at h
            · cases h
            · cases hline : nextLine raw next with
              | none =>
                rw [hline] at h
                cases h
              | some line =>
                rw [hline] at h
                obtain ⟨hfrom, hrange⟩ := ih h
                have hlt := lt_of_nextLine hline
                exact ⟨by omega, hrange⟩

theorem le_getD_nextLine {first : Nat} (h : start ≤ first) :
    start ≤ (nextLine raw first).getD start := by
  cases hline : nextLine raw first with
  | none => exact le_rfl
  | some line => exact h.trans (lt_of_nextLine hline).le

theorem range_of_mem_partRanges {boundary : Bytes} {range : Nat × Nat}
    (h : range ∈ partRanges raw boundary start) :
    start ≤ range.1 ∧ range.1 ≤ range.2 ∧ ∃ v, raw.drop range.2 = 45 :: v := by
  obtain ⟨hfrom, hle, v, hv⟩ := range_of_mem_boundaryRanges h
  refine ⟨le_trans ?_ hfrom, hle, _, hv⟩
  cases hcrlf : findFrom (bytes "--" ++ boundary ++ [13, 10]) raw start with
  | some first => exact le_getD_nextLine (exists_of_findFrom hcrlf).1
  | none =>
    cases hlf : findFrom (bytes "--" ++ boundary ++ [10]) raw start with
    | some first => exact le_getD_nextLine (exists_of_findFrom hlf).1
    | none => exact le_rfl

/-- A blank line does not end in a hyphen. -/
theorem cutAt_snoc_eq_none {text : Bytes} (h : cutAt crlfCrlf text = none) :
    cutAt crlfCrlf (text ++ [45]) = none := by
  rw [cutAt_eq_none_iff] at h ⊢
  intro u v heq
  rcases eq_nil_or_concat v with rfl | ⟨v, b, rfl⟩
  · have hlast := congrArg List.getLast? heq
    simp [crlfCrlf, getLast?_append] at hlast
  · rw [concat_eq_append, ← append_assoc, ← append_assoc] at heq
    have hf := append_inj_left' heq rfl
    exact h u v (by rw [hf, append_assoc])

def MimeInfo.resize (info : MimeInfo) (length bodySize : Nat) : MimeInfo :=
  { info with length, bodySize }

/-- **A part below the root**, with the front of the message that it sees.  Its sizes are those of
what is there from its position on, without the line ends at the end. -/
structure PartAt (levels : Nat) (front : Bytes) (start : Nat) (part : MimePart) : Prop where
  le : start ≤ front.length
  info : part.info = (parseMimeInfo front start).resize (trimLineEnds (front.drop start)).length
    (announcedSize (front.drop start))
  subs : part.subs = (parseMimeTree levels front start).subs

theorem partAt_between {next : Nat} (hle : start ≤ next) (hbound : raw.drop next = 45 :: v) :
    PartAt levels (raw.take next) start
      ((parseMimeTree levels (raw.take next) start).between raw start next) := by
  have hnext : next < raw.length := by
    by_contra hge
    rw [drop_eq_nil_of_le (by omega)] at hbound
    cases hbound
  have hsp : raw.drop start = (raw.take next).drop start ++ raw.drop next := by
    have := (take_append_drop (next - start) (raw.drop start)).symm
    rwa [drop_drop, Nat.add_sub_cancel' hle, ← drop_take] at this
  have hlength : trimmedLength raw start (next - start) =
      (trimLineEnds ((raw.take next).drop start)).length := by
    rw [trimmedLength_eq (by omega), drop_take]
  refine ⟨by rw [length_take]; omega, ?_, rfl⟩
  change (parseMimeTree levels (raw.take next) start).info.resize _ _ = _
  rw [info_parseMimeTree, bodySize_parseMimeInfo, findFrom_eq]
  congr 1
  generalize htext : (raw.take next).drop start = text at *
  have hlen : text.length = next - start := by
    rw [← htext, length_drop, length_take]
    omega
  unfold announcedSize
  rw [hsp, hbound]
  cases hcut : cutAt crlfCrlf text with
  | some r =>
    obtain ⟨u, w⟩ := r
    have htot := congrArg List.length (cutAt_eq_some_iff.mp hcut).1
    have hfour : crlfCrlf.length = 4 := rfl
    simp only [length_append] at htot
    rw [cutAt_append hcut]
    simp only [map_some]
    rw [if_pos (by omega), trimmedLength_eq (by omega)]
    have hbehind := take_behind hsp (cutAt_eq_some_iff.mp hcut).1
    rw [hlen, Nat.add_sub_cancel' hle] at hbehind
    exact congrArg (fun s => (trimLineEnds s).length) hbehind
  | none =>
    cases hcut' : cutAt crlfCrlf (text ++ 45 :: v) with
    | none => rfl
    | some r =>
      obtain ⟨u, w⟩ := r
      -- the blank line is not across the boundary
      have hnone := cutAt_snoc_eq_none hcut
      rw [append_cons] at hcut'
      have hge := le_of_cutAt_lineEnds lineEnd_crlfCrlf (by
          intro b hb
          rw [getLast?_append] at hb
          cases hb
          rfl)
        hnone hcut'
      rw [length_append] at hge
      simp only [map_some, map_none, getD_none]
      rw [if_neg (by omega)]

theorem partAt_embedded (hle : start ≤ raw.length) :
    PartAt levels raw start ((parseMimeTree levels raw start).embedded raw start) := by
  refine ⟨hle, ?_, rfl⟩
  have hlength : trimmedLength raw start (parseMimeInfo raw start).length =
      (trimLineEnds (raw.drop start)).length := by
    change trimmedLength raw start (raw.length - start) = _
    rw [trimmedLength_eq (by omega), take_of_length_le (by rw [length_drop])]
  change (parseMimeTree levels raw start).info.resize _ _ = _
  rw [info_parseMimeTree, bodySize_parseMimeInfo]
  congr 1
  unfold announcedSize
  cases hcut : cutAt crlfCrlf (raw.drop start) with
  | none => rfl
  | some r =>
    obtain ⟨u, v⟩ := r
    have hsp := (cutAt_eq_some_iff.mp hcut).1
    have htot := congrArg List.length hsp
    simp only [length_append, length_drop] at htot
    have hbody : raw.drop (raw.length - v.length) = v := by
      have hpos : raw.length - v.length = start + (u.length + crlfCrlf.length) := by omega
      rw [hpos, ← drop_drop, hsp]
      simp [← drop_drop]
    simp only [map_some, getD_some]
    rw [trimmedLength_eq (by omega), hbody, take_length]

theorem PartAt.offset_eq {front : Bytes} (h : PartAt levels front start part) :
    part.info.offset = start := congrArg MimeInfo.offset h.info

/-- **The parts one level down**: each of them sees the message up to a boundary or all of it. -/
theorem partAt_of_mem_subs (h : part ∈ (parseMimeTree levels raw pos).subs) :
    ∃ levels' front start rest, levels = levels' + 1 ∧ PartAt levels' front start part ∧
      bodyStart raw pos ≤ start ∧ raw = front ++ rest ∧ (rest = [] ∨ rest.head? = some 45) := by
  cases levels with
  | zero => cases h
  | succ levels =>
    unfold parseMimeTree at h
    dsimp only at h
    split at h
    · obtain ⟨range, hrange, rfl⟩ := mem_map.mp h
      obtain ⟨hstart, hle, v, hbound⟩ := range_of_mem_partRanges hrange
      exact ⟨levels, _, _, _, rfl, partAt_between hle hbound, hstart, (take_append_drop _ _).symm,
        .inr (congrArg head? hbound)⟩
    · split at h
      · split at h
        · cases h
        · rw [mem_singleton.mp h]
          exact ⟨levels, raw, _, [], rfl, partAt_embedded (by omega), le_rfl, (append_nil raw).symm,
            .inl rfl⟩
      · cases h

/-- **Every part below the root of a tree** sees the message up to a boundary or all of it. -/
theorem partAt_of_within (h : Within part (parseMimeTree levels raw pos)) :
    ∃ levels' front start rest, PartAt levels' front start part ∧ raw = front ++ rest ∧
      (rest = [] ∨ rest.head? = some 45) := by
  induction levels generalizing raw pos part with
  | zero => cases h with | sub h => cases h | deeper h _ => cases h
  | succ levels ih =>
    cases h with
    | sub h =>
      obtain ⟨levels', front, start, rest, -, hsub, -, hraw⟩ := partAt_of_mem_subs h
      exact ⟨levels', front, start, rest, hsub, hraw⟩
    | deeper h hpart =>
      obtain ⟨_, front, _, rest, hlevels, hsub, -, rfl, hrest⟩ := partAt_of_mem_subs h
      cases hlevels
      obtain ⟨levels', front', start, rest', hat, rfl, hrest'⟩ := ih (hpart.congr hsub.subs.symm)
      refine ⟨levels', front', start, rest' ++ rest, hat, append_assoc _ _ _, ?_⟩
      obtain rfl | hhead := hrest'
      · exact hrest
      · exact .inr (by rw [head?_append, hhead]; rfl)

end ProtoRelay
