import ProtoRelay.Mime.Intervals

/-!
# What the header of a part says

The header fields of a part are read from its own header.  Only if there is no Content-Type in it,
the parser takes the last line of the message up to the end of the part that begins with one, and
that line may belong to the message, to the multipart around the part or to a part in front of it.
-/

namespace ProtoRelay

open List Option

variable {raw front rest text h c : Bytes} {pos start levels : Nat} {part : MimePart}

/-! ## The fields of a part -/

def ownHeaders (text : Bytes) : Bytes := ((cutAt crlfCrlf text).map Prod.fst).getD text

def ownContentType (text : Bytes) : Bytes :=
  mimeHeaderValue (ownHeaders text) (bytes "content-type")

def hasContentType (text : Bytes) : Bool :=
  (pieces 10 (ownHeaders text)).any (isField (bytes "content-type"))

/-- A line behind the first one begins with a Content-Type. -/
def hasTypeLine (text : Bytes) : Bool :=
  (cutAt (bytes "\ncontent-type:").reverse (toLower text).reverse).isSome

/-- The fields that come from the header. -/
def MimeInfo.metadata (info : MimeInfo) : MimeInfo :=
  { info with offset := 0, length := 0, bodySize := 0, lines := 0 }

theorem metadata_parseMimeInfo (raw : Bytes) (pos : Nat) :
    (parseMimeInfo raw pos).metadata = mimeMetadata (ownHeaders (raw.drop pos))
      (if (ownContentType (raw.drop pos)).isEmpty then lastContentType raw
        else ownContentType (raw.drop pos)) := by
  unfold ownContentType ownHeaders parseMimeInfo
  rw [findFrom_eq]
  cases hcut : cutAt crlfCrlf (raw.drop pos) with
  | none => rfl
  | some r =>
    have htake : (raw.drop pos).take (pos + r.1.length - pos) = r.1 := by
      rw [Nat.add_sub_cancel_left, (cutAt_eq_some_iff.mp hcut).1, take_left]
    simp only [map_some, getD_some, htake]
    rfl

/-- A Content-Type that says no more than that there is none. -/
structure SaysNothing (headers contentType : Bytes) : Prop where
  media : mediaType contentType = (bytes "text", bytes "plain")
  charset : mimeParameter contentType (bytes "charset") = []
  boundary : mimeParameter contentType (bytes "boundary") = []
  name : mimeParameter (mimeHeaderValue headers (bytes "content-disposition")) (bytes "filename") =
    [] →
    mimeParameter contentType (bytes "name") = []

theorem mimeParameter_nil (name : Bytes) : mimeParameter [] name = [] := rfl

theorem mimeMetadata_nil_iff : mimeMetadata h c = mimeMetadata h [] ↔ SaysNothing h c := by
  constructor
  · intro heq
    refine ⟨Prod.ext (congrArg MimeInfo.type heq) (congrArg MimeInfo.subtype heq), ?_,
      congrArg MimeInfo.boundary heq, fun hfile => ?_⟩
    · exact map_eq_nil_iff.mp (congrArg MimeInfo.charset heq)
    · have hname := congrArg MimeInfo.name heq
      simp only [mimeMetadata, hfile] at hname
      exact hname
  · rintro ⟨hmedia, hcharset, hboundary, hname⟩
    have hnil : mediaType [] = (bytes "text", bytes "plain") := by decide
    unfold mimeMetadata
    simp only [hmedia, hcharset, hboundary, hnil, mimeParameter_nil]
    congr 1
    split
    · next hfile => exact hname (isEmpty_iff.mp hfile)
    · rfl

/-! ## The bytes of a part -/

/-- The message up to the boundary that ends a part: behind the part there are only line ends. -/
def MimePart.seen (raw : Bytes) (part : MimePart) : Bytes :=
  raw.take (part.stop + ((raw.drop part.stop).takeWhile isLineEnd).length)

/-- The bytes of a part, with the line ends in front of the boundary. -/
def MimePart.own (raw : Bytes) (part : MimePart) : Bytes := (part.seen raw).drop part.info.offset

theorem PartAt.seen_eq (hpart : PartAt levels front start part)
    (hrest : rest = [] ∨ rest.head? = some 45) : part.seen (front ++ rest) = front := by
  obtain ⟨z, hz, hends, -⟩ := exists_trimLineEnds (front.drop start)
  have hlen := congrArg List.length hz
  rw [length_drop, length_append] at hlen
  have hle := hpart.le
  have hbehind : (front ++ rest).drop part.stop = z ++ rest := by
    rw [hpart.stop_eq, ← drop_drop, drop_append_of_le_length hle]
    generalize trimLineEnds (front.drop start) = t at *
    rw [hz, append_assoc, drop_left]
  have hwhile : (z ++ rest).takeWhile isLineEnd = z := by
    rw [takeWhile_append_of_pos hends]
    obtain rfl | hhead := hrest
    · simp
    · cases rest with
      | nil => simp
      | cons b rest =>
        cases hhead
        simp [isLineEnd]
  unfold MimePart.seen
  rw [hbehind, hwhile, hpart.stop_eq]
  have hall : start + (trimLineEnds (front.drop start)).length + z.length = front.length := by omega
  rw [hall, take_left]

theorem ownContentType_of_hasContentType (hnone : hasContentType text = false) :
    ownContentType text = [] := by
  unfold ownContentType mimeHeaderValue
  have hdrop : (pieces 10 (ownHeaders text)).dropWhile (! isField (bytes "content-type") ·) =
      [] := by
    rw [dropWhile_eq_nil_iff]
    intro line hline
    have := any_eq_false.mp hnone line hline
    simpa using this
  rw [hdrop]

/-- A line in the part is behind all lines in front of it. -/
theorem lastContentType_append (htext : hasTypeLine text = true) (front : Bytes) :
    lastContentType (front ++ text) = lastContentType text := by
  obtain ⟨⟨behind, u⟩, hcut⟩ := Option.isSome_iff_exists.mp htext
  have hlen := congrArg List.length (cutAt_eq_some_iff.mp hcut).1
  have hlower : (toLower text).length = text.length := length_map _
  simp only [length_append, length_reverse] at hlen
  have hfront : (toLower (front ++ text)).reverse =
      (toLower text).reverse ++ (toLower front).reverse := by
    unfold toLower
    rw [map_append, reverse_append]
  have hpos : (front ++ text).length - behind.length - (bytes "\ncontent-type:").length + 1 =
      front.length + (text.length - behind.length - (bytes "\ncontent-type:").length + 1) := by
    rw [length_append]
    omega
  unfold lastContentType
  rw [hfront, cutAt_append hcut, hcut]
  simp only [hpos, drop_append, Nat.add_sub_cancel_left]
  rw [drop_eq_nil_of_le (Nat.le_add_right _ _), nil_append]

theorem lastContentType_of_not_hasTypeLine (htext : hasTypeLine text = false) :
    lastContentType text = [] := by
  unfold lastContentType
  rw [Option.isSome_eq_false_iff.mp htext |> Option.isNone_iff_eq_none.mp]

/-- **The fields of a part are those of its own bytes, and a part without a Content-Type is plain
text**, exactly if its own Content-Type is not empty, or the last one of the message up to its end
says nothing, or that one is in the part itself and says that it is plain text. -/
theorem metadata_own_iff (hpart : Within part (mimeTree raw)) :
    (part.info.metadata = (parseMimeInfo (part.own raw) 0).metadata ∧
      (hasContentType (part.own raw) = false →
        part.info.type = bytes "text" ∧ part.info.subtype = bytes "plain")) ↔
      ownContentType (part.own raw) ≠ [] ∨
        SaysNothing (ownHeaders (part.own raw)) (lastContentType (part.seen raw)) ∨
        hasTypeLine (part.own raw) = true ∧ (hasContentType (part.own raw) = true ∨
          mediaType (lastContentType (part.seen raw)) = (bytes "text", bytes "plain")) := by
  obtain ⟨_, front, start, rest, hat, rfl, hrest⟩ := partAt_of_within hpart
  have hown : part.own (front ++ rest) = front.drop start := by
    rw [MimePart.own, hat.seen_eq hrest, hat.offset_eq]
  have hmeta : part.info.metadata = (parseMimeInfo front start).metadata := by
    rw [hat.info]
    rfl
  rw [metadata_parseMimeInfo] at hmeta
  rw [hown, hat.seen_eq hrest, metadata_parseMimeInfo, drop_zero, hmeta]
  by_cases hvalue : ownContentType (front.drop start) = []
  · rw [hvalue] at hmeta ⊢
    have hplain : part.info.type = bytes "text" ∧ part.info.subtype = bytes "plain" ↔
        mediaType (lastContentType front) = (bytes "text", bytes "plain") := by
      have htype := congrArg MimeInfo.type hmeta
      have hsubtype := congrArg MimeInfo.subtype hmeta
      change part.info.type = (mediaType (lastContentType front)).1 at htype
      change part.info.subtype = (mediaType (lastContentType front)).2 at hsubtype
      rw [htype, hsubtype, Prod.ext_iff]
    rw [hplain]
    change mimeMetadata _ (lastContentType front) =
      mimeMetadata _ (lastContentType (front.drop start)) ∧ _ ↔ _
    cases hline : hasTypeLine (front.drop start) with
    | true =>
      have hlast := lastContentType_append hline (front.take start)
      rw [← hlast]
      cases hasContentType (front.drop start) with
      | true => simp
      | false => simpa using SaysNothing.media
    | false =>
      rw [lastContentType_of_not_hasTypeLine hline, mimeMetadata_nil_iff]
      simpa using fun h _ => h.media
  · have hhas : hasContentType (front.drop start) = true := by
      by_contra hnone
      exact hvalue (ownContentType_of_hasContentType (eq_false_of_ne_true hnone))
    simp [hvalue, hhas]

/-- A part with a Content-Type of its own. -/
def typedPartMail : Bytes :=
  bytes "Content-Type: multipart/mixed; boundary=b\r\n\r\n" ++
    bytes "--b\r\nContent-Type: image/png\r\n\r\nhi\r\n--b--"

theorem metadata_own_of_typed :
    ∃ part, Within part (mimeTree typedPartMail) ∧
      part.info.metadata = (parseMimeInfo (part.own typedPartMail) 0).metadata := by
  have hpart : ∃ part ∈ (mimeTree typedPartMail).subs,
      ownContentType (part.own typedPartMail) ≠ [] := by
    decide
  obtain ⟨part, hsub, hvalue⟩ := hpart
  exact ⟨part, .sub hsub, ((metadata_own_iff (.sub hsub)).mpr (.inl hvalue)).1⟩

/-- A part without one, in a message whose own Content-Type is not in its first line. -/
def untypedPartMail : Bytes :=
  bytes "X: y\r\nContent-Type: multipart/mixed; boundary=b\r\n\r\n--b\r\nA: b\r\n\r\nhi\r\n--b--"

/-- The part takes the type of the message. -/
theorem not_forall_metadata_own :
    ¬∀ raw part, Within part (mimeTree raw) →
      part.info.metadata = (parseMimeInfo (part.own raw) 0).metadata ∧
        (hasContentType (part.own raw) = false →
          part.info.type = bytes "text" ∧ part.info.subtype = bytes "plain") := by
  intro hall
  have hpart : ∃ part ∈ (mimeTree untypedPartMail).subs,
      hasContentType (part.own untypedPartMail) = false ∧ part.info.type = bytes "multipart" := by
    decide
  obtain ⟨part, hsub, hnone, htype⟩ := hpart
  have htext := ((hall _ part (.sub hsub)).2 hnone).1
  rw [htype] at htext
  exact absurd htext (by decide)

end ProtoRelay
