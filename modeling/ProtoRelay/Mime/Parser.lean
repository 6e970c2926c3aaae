import ProtoRelay.Mime.Intervals

/-!
# The parser of the MIME tree

`parse_mime_tree` as it runs: sizes are kept in fields of 32 bits, a byte is read from the text or
not at all, and the loop over the boundaries goes on until it is left.  For every message the parser
returns a tree.  For a message below 4 GiB this is the tree with the exact sizes; a longer one can
have a body that is longer than the message.

## Main definitions

* `MimeParser.parseMimeTree rounds levels raw pos`: the parser, if that many rounds suffice for
  its loops
* `mimeRoot raw`: the tree of a message

## Main results

* `MimeParser.parseMimeTree_returns`: the parser returns
* `mimeRoot_eq`: below 4 GiB the tree is that with the exact sizes
* `MimeParser.tree_placed`: where the parts of the tree are
-/

namespace ProtoRelay

open List Option

namespace MimeParser

/-! ## What is read and kept -/

/-- What a field of 32 bits keeps of a number. -/
def narrow (n : Nat) : Nat := n % 2 ^ 32

/-- `raw.substr(pos, n)`, which throws behind the end. -/
def substr (raw : Bytes) (pos n : Nat) : Option Bytes :=
  if pos ≤ raw.length then some ((raw.drop pos).take n) else none

/-- A difference of sizes, which must not be below zero. -/
def diff (a b : Nat) : Option Nat := if b ≤ a then some (a - b) else none

/-- The loops that take the line ends off a range, from its last byte on. -/
def trimmedLength (raw : Bytes) (start : Nat) : Nat → Option Nat
  | 0 => some 0
  | n + 1 => do
    let b ← raw[start + n]?
    if isLineEnd b then trimmedLength raw start n else some (n + 1)

/-- The start of the line behind a position, if there is a line end. -/
def nextLine (raw : Bytes) (pos : Nat) : Option (Option Nat) :=
  match (findFrom [13, 10] raw pos).or (findFrom [10] raw pos) with
  | none => some none
  | some nl => raw[nl]?.map fun b => some (nl + if b = 13 then 2 else 1)

def lastContentType (raw : Bytes) : Option Bytes :=
  match cutAt (bytes "\ncontent-type:").reverse (toLower raw).reverse with
  | none => some []
  | some (behind, _) => do
    let last ← diff raw.length (behind.length + (bytes "\ncontent-type:").length)
    let text ← substr raw (last + 1) raw.length
    return mimeHeaderValue text (bytes "content-type")

/-! ## The parser -/

/-- The fields of a part, from its header. -/
def parseMimeInfo (raw : Bytes) (pos : Nat) : Option MimeInfo := do
  let separator := findFrom crlfCrlf raw pos
  let headers ← (match separator with
    | some sep => (diff sep pos).bind (substr raw pos)
    | none => substr raw pos raw.length)
  let own := mimeHeaderValue headers (bytes "content-type")
  let contentType ← (if own.isEmpty then lastContentType raw else some own)
  let length ← diff raw.length pos
  let bodySize ← (if separator.isSome then diff raw.length (bodyStart raw pos) else some 0)
  return { mimeMetadata headers contentType with
    offset := pos
    length := narrow length
    bodySize := narrow bodySize
    lines := narrow (if separator.isSome then (raw.drop (bodyStart raw pos)).count 10 else 0) }

/-- The sizes of a part between two boundaries. -/
def between (raw : Bytes) (start next : Nat) (sub : MimePart) : Option MimePart := do
  let length ← (diff next start).bind fun n => trimmedLength raw start (narrow n)
  let bodySize ← (match findFrom crlfCrlf raw start with
    | some sep =>
      if sep < next then
        (diff next (sep + 4)).bind fun n => trimmedLength raw (sep + 4) (narrow n)
      else some sub.info.bodySize
    | none => some sub.info.bodySize)
  return .mk (sub.info.resize length bodySize) sub.subs

/-- The sizes of an embedded message. -/
def embedded (raw : Bytes) (start : Nat) (message : MimePart) : Option MimePart := do
  let bodyAt ← diff raw.length message.info.bodySize
  let length ← trimmedLength raw start message.info.length
  let bodySize ← trimmedLength raw bodyAt message.info.bodySize
  return .mk (message.info.resize length bodySize) message.subs

/-- The loop over the boundaries of a multipart.  There is no result if the rounds do not
suffice. -/
def boundaryLoop (raw bdr : Bytes) (parse : Bytes → Nat → Option MimePart) :
    Nat → Nat → Option (List MimePart)
  | 0, _ => none
  | rounds + 1, searchFrom =>
    if raw.length ≤ searchFrom then some []
    else
      match findFrom bdr raw searchFrom with
      | none => some []
      | some next => do
        let before ← (if 0 < next then raw[next - 1]? else some 10)
        if before ≠ 10 then boundaryLoop raw bdr parse rounds (next + bdr.length)
        else
          let behind ←
            (if next + bdr.length + 2 ≤ raw.length then substr raw (next + bdr.length) 2
              else some [])
          let sub ← parse (raw.take next) searchFrom
          let sub ← between raw searchFrom next sub
          if behind = bytes "--" then some [sub]
          else
            (nextLine raw next).bind fun
              | none => some [sub]
              | some line => (boundaryLoop raw bdr parse rounds line).map (sub :: ·)

/-- The parts of a multipart, from behind the line of the first boundary on. -/
def multipart (raw boundary : Bytes) (start rounds : Nat) (parse : Bytes → Nat → Option MimePart) :
    Option (List MimePart) := do
  let bdr := bytes "--" ++ boundary
  let searchFrom ←
    (match (findFrom (bdr ++ [13, 10]) raw start).or (findFrom (bdr ++ [10]) raw start) with
    | some first => (nextLine raw first).map (·.getD start)
    | none => some start)
  boundaryLoop raw bdr parse rounds searchFrom

/-- `parse_mime_tree`, with the number of levels it may still go down and a bound on the rounds of
its loops over the boundaries. -/
def parseMimeTree (rounds : Nat) : Nat → Bytes → Nat → Option MimePart
  | 0, raw, pos => do
    let info ← parseMimeInfo raw pos
    return .mk info []
  | levels + 1, raw, pos => do
    let info ← parseMimeInfo raw pos
    let start := bodyStart raw pos
    if info.type = bytes "multipart" ∧ info.boundary ≠ [] then
      let subs ← multipart raw info.boundary start rounds (parseMimeTree rounds levels)
      return .mk info subs
    else if info.type = bytes "message" ∧ info.subtype = bytes "rfc822" ∧ start < raw.length then
      let message ← parseMimeTree rounds levels raw start
      if message.info.type = [] then return .mk info []
      else
        let part ← embedded raw start message
        return .mk info [part]
    else return .mk info []

end MimeParser

/-- The fields of 32 bits that the sizes are kept in. -/
def MimeInfo.narrowed (info : MimeInfo) : MimeInfo :=
  { info with
    length := MimeParser.narrow info.length
    bodySize := MimeParser.narrow info.bodySize
    lines := MimeParser.narrow info.lines }

/-- The tree of a message. -/
def mimeRoot (raw : Bytes) : Option MimePart := MimeParser.parseMimeTree (raw.length + 1) 64 raw 0

namespace MimeParser

variable {raw v boundary : Bytes} {pos start next n levels rounds : Nat} {sub part tree : MimePart}
  {parse : Bytes → Nat → Option MimePart}

/-! ## Nothing is read outside -/

theorem narrow_le (n : Nat) : narrow n ≤ n := Nat.mod_le _ _

theorem narrow_eq (h : n < 2 ^ 32) : narrow n = n := Nat.mod_eq_of_lt h

theorem diff_eq {a b : Nat} (h : b ≤ a) : diff a b = some (a - b) := if_pos h

theorem substr_eq (h : pos ≤ raw.length) : substr raw pos n = some ((raw.drop pos).take n) :=
  if_pos h

theorem substr_rest (h : pos ≤ raw.length) : substr raw pos raw.length = some (raw.drop pos) := by
  rw [substr_eq h, take_of_length_le (by rw [length_drop]; omega)]

theorem trimmedLength_returns :
    ∀ {n : Nat}, start + n ≤ raw.length →
      trimmedLength raw start n = some (ProtoRelay.trimmedLength raw start n)
  | 0, _ => rfl
  | n + 1, h => by
    have hget : raw[start + n]? = some (raw.getD (start + n) 0) := by
      rw [getD_eq_getElem?_getD, getElem?_eq_getElem (by omega)]
      rfl
    rw [trimmedLength, ProtoRelay.trimmedLength, hget]
    change (if isLineEnd (raw.getD (start + n) 0) then _ else _) = _
    rw [trimmedLength_returns (by omega)]
    split <;> rfl

theorem getElem?_of_drop {b : UInt8} {i : Nat} (h : raw.drop i = b :: v) : raw[i]? = some b := by
  have hhead := congrArg (·[0]?) h
  simpa using hhead

theorem nextLine_returns : nextLine raw pos = some (ProtoRelay.nextLine raw pos) := by
  unfold nextLine ProtoRelay.nextLine
  cases hcrlf : findFrom [13, 10] raw pos with
  | some nl =>
    obtain ⟨-, v, hv⟩ := exists_of_findFrom hcrlf
    simp [getElem?_of_drop hv]
  | none =>
    cases hlf : findFrom [10] raw pos with
    | none => rfl
    | some nl =>
      obtain ⟨-, v, hv⟩ := exists_of_findFrom hlf
      simp [getElem?_of_drop hv]

theorem lastContentType_returns : lastContentType raw = some (ProtoRelay.lastContentType raw) := by
  unfold lastContentType ProtoRelay.lastContentType
  cases hcut : cutAt (bytes "\ncontent-type:").reverse (toLower raw).reverse with
  | none => rfl
  | some r =>
    obtain ⟨behind, front⟩ := r
    have hlen := congrArg List.length (cutAt_eq_some_iff.mp hcut).1
    have hpat : 0 < (bytes "\ncontent-type:").length := by decide
    have hlower : (toLower raw).length = raw.length := length_map _
    simp only [length_append, length_reverse] at hlen
    dsimp only
    rw [diff_eq (by omega), Option.bind_eq_bind, Option.bind_some, substr_rest (by omega),
      Nat.sub_sub]
    rfl

/-! ## The fields of a part -/

theorem parseMimeInfo_returns (hpos : pos ≤ raw.length) :
    parseMimeInfo raw pos = some (ProtoRelay.parseMimeInfo raw pos).narrowed := by
  have htype : ∀ own : Bytes, (if own.isEmpty then lastContentType raw else some own) =
      some (if own.isEmpty then ProtoRelay.lastContentType raw else own) := by
    intro own
    rw [lastContentType_returns]
    split <;> rfl
  unfold parseMimeInfo ProtoRelay.parseMimeInfo bodyStart
  cases hsep : findFrom crlfCrlf raw pos with
  | none =>
    simp only [substr_rest hpos, diff_eq hpos, htype]
    rfl
  | some sep =>
    have hin := findFrom_add_le hsep (by decide)
    have hfour : crlfCrlf.length = 4 := rfl
    have hbody : diff raw.length (sep + 4) = some (raw.length - (sep + 4)) := diff_eq (by omega)
    simp only [diff_eq hin.1, diff_eq hpos, Option.bind_some, substr_eq hpos, htype, isSome_some,
      if_true, map_some, getD_some, hbody]
    rfl

/-- The fields that decide about the parts are not cut off. -/
theorem fields_narrowed (info : MimeInfo) : info.narrowed.type = info.type ∧
    info.narrowed.subtype = info.subtype ∧ info.narrowed.boundary = info.boundary := ⟨rfl, rfl, rfl⟩

theorem narrowed_eq (hraw : raw.length < 2 ^ 32) :
    (ProtoRelay.parseMimeInfo raw pos).narrowed = ProtoRelay.parseMimeInfo raw pos := by
  have hlength : (ProtoRelay.parseMimeInfo raw pos).length = raw.length - pos := rfl
  have hbody := bodySize_parseMimeInfo_le raw pos
  have hlines : (ProtoRelay.parseMimeInfo raw pos).lines ≤ raw.length := by
    change (if _ then (raw.drop (bodyStart raw pos)).count 10 else 0) ≤ _
    split
    · exact count_le_length.trans (by rw [length_drop]; omega)
    · exact Nat.zero_le _
  unfold MimeInfo.narrowed
  rw [narrow_eq (by omega), narrow_eq (by omega), narrow_eq (by omega)]

/-! ## The parts -/

theorem between_returns (hle : start ≤ next) (hbound : raw.drop next = 45 :: v) (sub : MimePart) :
    ∃ part, between raw start next sub = some part ∧ part.subs = sub.subs ∧
      (raw.length < 2 ^ 32 → part = sub.between raw start next) := by
  have hnext : next < raw.length := by
    by_contra hge
    rw [drop_eq_nil_of_le (by omega)] at hbound
    cases hbound
  -- a range that ends in front of the boundary
  have hrange : ∀ {i}, i ≤ next →
      ∃ k, ((diff next i).bind fun n => trimmedLength raw i (narrow n)) = some k ∧
        (raw.length < 2 ^ 32 → k = ProtoRelay.trimmedLength raw i (next - i)) := by
    intro i hi
    have hcut := narrow_le (next - i)
    rw [diff_eq hi, Option.bind_some, trimmedLength_returns (by omega)]
    exact ⟨_, rfl, fun hraw => by rw [narrow_eq (by omega)]⟩
  obtain ⟨length, hlength, hexact⟩ := hrange hle
  unfold between MimePart.between
  rw [hlength]
  cases hsep : findFrom crlfCrlf raw start with
  | none => exact ⟨_, rfl, rfl, fun hraw => by rw [hexact hraw]; rfl⟩
  | some sep =>
    dsimp only
    split
    · rename_i hlt
      obtain ⟨-, u, hu⟩ := exists_of_findFrom hsep
      obtain ⟨bodySize, hbody, hexact'⟩ := hrange (add_four_le_of_lt hu hbound hlt)
      rw [hbody]
      exact ⟨_, rfl, rfl, fun hraw => by rw [hexact hraw, hexact' hraw]; rfl⟩
    · exact ⟨_, rfl, rfl, fun hraw => by rw [hexact hraw]; rfl⟩

theorem embedded_returns {message : MimePart} (hstart : start ≤ raw.length)
    (hinfo : message.info = (ProtoRelay.parseMimeInfo raw start).narrowed) :
    embedded raw start message = some (message.embedded raw start) := by
  have hlength : message.info.length ≤ raw.length - start := by
    rw [hinfo]
    exact narrow_le _
  have hbody : message.info.bodySize ≤ raw.length := by
    rw [hinfo]
    exact (narrow_le _).trans (bodySize_parseMimeInfo_le raw start)
  unfold embedded
  rw [diff_eq hbody, trimmedLength_returns (by omega), Option.bind_eq_bind, Option.bind_some,
    trimmedLength_returns (by omega)]
  rfl

/-! ## The tree -/

/-- What is known of a tree that the parser returns. -/
structure Parsed (levels : Nat) (raw : Bytes) (pos : Nat) (tree : MimePart) : Prop where
  info : tree.info = (ProtoRelay.parseMimeInfo raw pos).narrowed
  depth : tree.DepthLe (levels + 1)
  exact : raw.length < 2 ^ 32 → tree = ProtoRelay.parseMimeTree levels raw pos

/-- The same for the parts between the boundaries of a multipart. -/
structure PartsParsed (levels : Nat) (raw : Bytes) (ranges : List (Nat × Nat))
    (subs : List MimePart) : Prop where
  depth : ∀ sub ∈ subs, sub.DepthLe (levels + 1)
  exact : raw.length < 2 ^ 32 → subs = ranges.map fun range =>
    (ProtoRelay.parseMimeTree levels (raw.take range.2) range.1).between raw range.1 range.2

theorem PartsParsed.nil : PartsParsed levels raw [] [] := ⟨forall_mem_nil _, fun _ => rfl⟩

/-- A part gets its sizes and is put in front of the others. -/
theorem PartsParsed.cons {ranges : List (Nat × Nat)} {subs : List MimePart}
    (hsub : Parsed levels (raw.take next) start sub)
    (hsubs : part.subs = sub.subs)
    (hexact : raw.length < 2 ^ 32 → part = sub.between raw start next)
    (h : PartsParsed levels raw ranges subs) :
    PartsParsed levels raw ((start, next) :: ranges) (part :: subs) := by
  refine ⟨forall_mem_cons.mpr ⟨fun sub' hsub' => hsub.depth sub' (hsubs ▸ hsub'), h.depth⟩, ?_⟩
  intro hraw
  rw [map_cons, ← h.exact hraw, hexact hraw, hsub.exact (by rw [length_take]; omega)]

/-- What is in front of a boundary that is found. -/
theorem before_eq (hnext : next < raw.length) :
    (if 0 < next then raw[next - 1]? else some 10) =
      some (if 0 < next then raw.getD (next - 1) 0 else 10) := by
  split
  · rw [getD_eq_getElem?_getD, getElem?_eq_getElem (by omega)]
    rfl
  · rfl

/-- The two bytes behind a boundary are only read if they are there. -/
theorem behind_eq : ∃ behind,
    (if next + 2 ≤ raw.length then substr raw next 2 else some []) = some behind ∧
      (behind = bytes "--" ↔ (raw.drop next).take 2 = bytes "--") := by
  split
  · exact ⟨_, substr_eq (by omega), Iff.rfl⟩
  · rename_i hshort
    refine ⟨[], rfl, iff_of_false (by decide) fun h => ?_⟩
    have hlen := congrArg List.length h
    rw [length_take, length_drop, show (bytes "--").length = 2 from rfl] at hlen
    omega

/-- **The loop over the boundaries ends**, since every round goes on behind a boundary. -/
theorem boundaryLoop_returns
    (hparse : ∀ {start next}, start ≤ next → next ≤ raw.length →
      ∃ sub, parse (raw.take next) start = some sub ∧ Parsed levels (raw.take next) start sub)
    {fuel searchFrom : Nat} (hrounds : raw.length ≤ rounds + searchFrom)
    (hfuel : raw.length ≤ fuel + searchFrom) :
    ∃ subs, boundaryLoop raw (bytes "--" ++ boundary) parse (rounds + 1) searchFrom = some subs ∧
      PartsParsed levels raw (boundaryRanges raw (bytes "--" ++ boundary) (fuel + 1) searchFrom)
        subs := by
  induction rounds generalizing fuel searchFrom with
  | zero =>
    rw [boundaryLoop, boundaryRanges, if_pos (by omega), if_pos (by omega)]
    exact ⟨[], rfl, .nil⟩
  | succ rounds ih =>
    rw [boundaryLoop, boundaryRanges]
    by_cases hend : raw.length ≤ searchFrom
    · rw [if_pos hend, if_pos hend]
      exact ⟨[], rfl, .nil⟩
    rw [if_neg hend, if_neg hend]
    cases hnext : findFrom (bytes "--" ++ boundary) raw searchFrom with
    | none => exact ⟨[], rfl, .nil⟩
    | some next =>
      obtain ⟨hfrom, hin, v, hbound⟩ := boundary_found hnext
      have htwo : (bytes "--" ++ boundary).length = 2 + boundary.length := length_append
      obtain ⟨fuel, rfl⟩ : ∃ k, fuel = k + 1 := ⟨fuel - 1, by omega⟩
      dsimp only
      rw [before_eq hin, Option.bind_eq_bind, Option.bind_some]
      by_cases hline : 0 < next ∧ raw.getD (next - 1) 0 ≠ 10
      · -- the boundary is not at the start of a line
        rw [if_pos hline, if_pos (by rw [if_pos hline.1]; exact hline.2)]
        exact ih (by omega) (by omega)
      have hten : ¬(if 0 < next then raw.getD (next - 1) 0 else 10) ≠ 10 := by
        split
        · rename_i hpos
          exact fun hne => hline ⟨hpos, hne⟩
        · exact fun hne => hne rfl
      rw [if_neg hline, if_neg hten]
      obtain ⟨behind, hbehind, hclose⟩ := @behind_eq raw (next + (bytes "--" ++ boundary).length)
      obtain ⟨sub, hsub, hparsed⟩ := hparse hfrom hin.le
      obtain ⟨part, hpart, hsubs, hexact⟩ := between_returns hfrom hbound sub
      simp only [hbehind, hsub, hpart, nextLine_returns, Option.bind_eq_bind, Option.bind_some,
        ← hclose]
      by_cases hdash : behind = bytes "--"
      · -- the closing boundary
        rw [if_pos hdash, if_pos hdash]
        exact ⟨[part], rfl, .cons hparsed hsubs hexact .nil⟩
      rw [if_neg hdash, if_neg hdash]
      cases hl : ProtoRelay.nextLine raw next with
      | none => exact ⟨[part], rfl, .cons hparsed hsubs hexact .nil⟩
      | some line =>
        have hlt := lt_of_nextLine hl
        obtain ⟨subs, hloop, hrest⟩ := @ih fuel line (by omega) (by omega)
        simp only [hloop]
        exact ⟨part :: subs, rfl, .cons hparsed hsubs hexact hrest⟩

theorem multipart_returns
    (hparse : ∀ {start next}, start ≤ next → next ≤ raw.length →
      ∃ sub, parse (raw.take next) start = some sub ∧ Parsed levels (raw.take next) start sub)
    (hrounds : raw.length < rounds) :
    ∃ subs, multipart raw boundary start rounds parse = some subs ∧
      PartsParsed levels raw (partRanges raw boundary start) subs := by
  obtain ⟨rounds, rfl⟩ : ∃ k, rounds = k + 1 := ⟨rounds - 1, by omega⟩
  unfold multipart partRanges
  dsimp only
  generalize (findFrom (bytes "--" ++ boundary ++ [13, 10]) raw start).or
    (findFrom (bytes "--" ++ boundary ++ [10]) raw start) = first
  cases first with
  | none => exact boundaryLoop_returns hparse (by omega) (by omega)
  | some first =>
    dsimp only
    rw [nextLine_returns]
    exact boundaryLoop_returns hparse (by omega) (by omega)

/-- **The parser returns** for every text and position in it. -/
theorem parseMimeTree_returns (hpos : pos ≤ raw.length) (hrounds : raw.length < rounds) :
    ∃ tree, parseMimeTree rounds levels raw pos = some tree ∧ Parsed levels raw pos tree := by
  induction levels generalizing raw pos with
  | zero =>
    rw [parseMimeTree, parseMimeInfo_returns hpos]
    exact ⟨_, rfl, rfl, forall_mem_nil _, fun hraw => by rw [narrowed_eq hraw]; rfl⟩
  | succ levels ih =>
    obtain ⟨htype, hsubtype, hboundary⟩ := fields_narrowed (ProtoRelay.parseMimeInfo raw pos)
    rw [parseMimeTree, parseMimeInfo_returns hpos]
    simp only [Option.bind_eq_bind, Option.bind_some, htype, hsubtype, hboundary]
    have hinfo : raw.length < 2 ^ 32 →
        (ProtoRelay.parseMimeInfo raw pos).narrowed = ProtoRelay.parseMimeInfo raw pos :=
      narrowed_eq
    by_cases hmulti : (ProtoRelay.parseMimeInfo raw pos).type = bytes "multipart" ∧
        (ProtoRelay.parseMimeInfo raw pos).boundary ≠ []
    · obtain ⟨subs, hsubs, hparts⟩ := @multipart_returns raw
        (ProtoRelay.parseMimeInfo raw pos).boundary (bodyStart raw pos) _ _ _
        (fun {start next} hle hnext => @ih (raw.take next) start
          (by rw [length_take]; omega) (by rw [length_take]; omega)) hrounds
      rw [if_pos hmulti, hsubs]
      refine ⟨_, rfl, rfl, hparts.depth, fun hraw => ?_⟩
      rw [ProtoRelay.parseMimeTree, if_pos hmulti, hparts.exact hraw, hinfo hraw]
    by_cases hmessage : (ProtoRelay.parseMimeInfo raw pos).type = bytes "message" ∧
        (ProtoRelay.parseMimeInfo raw pos).subtype = bytes "rfc822" ∧ bodyStart raw pos < raw.length
    · obtain ⟨message, hparse, hparsed⟩ := ih hmessage.2.2.le hrounds
      rw [if_neg hmulti, if_pos hmessage, hparse, Option.bind_some,
        embedded_returns hmessage.2.2.le hparsed.info, Option.bind_some]
      have hexact : raw.length < 2 ^ 32 → ProtoRelay.parseMimeTree (levels + 1) raw pos =
          .mk (ProtoRelay.parseMimeInfo raw pos).narrowed
            (if message.info.type = [] then []
              else [message.embedded raw (bodyStart raw pos)]) := by
        intro hraw
        rw [ProtoRelay.parseMimeTree, if_neg hmulti, if_pos hmessage, ← hparsed.exact hraw,
          hinfo hraw]
      by_cases hempty : message.info.type = []
      · rw [if_pos hempty]
        refine ⟨_, rfl, rfl, forall_mem_nil _, fun hraw => ?_⟩
        rw [hexact hraw, if_pos hempty]
      · rw [if_neg hempty]
        refine ⟨_, rfl, rfl, forall_mem_singleton.mpr hparsed.depth, fun hraw => ?_⟩
        rw [hexact hraw, if_neg hempty]
    · rw [if_neg hmulti, if_neg hmessage]
      refine ⟨_, rfl, rfl, forall_mem_nil _, fun hraw => ?_⟩
      rw [ProtoRelay.parseMimeTree, if_neg hmulti, if_neg hmessage, hinfo hraw]

/-- What is kept of the sizes of a message. -/
theorem Parsed.sizes (h : Parsed levels raw pos tree) :
    tree.info.length = narrow (raw.length - pos) ∧
    tree.info.bodySize =
      narrow (((cutAt crlfCrlf (raw.drop pos)).map fun r => r.2.length).getD 0) := by
  rw [← bodySize_parseMimeInfo, h.info]
  exact ⟨rfl, rfl⟩

end MimeParser

variable {raw : Bytes}

theorem exists_mimeRoot (raw : Bytes) :
    ∃ tree, mimeRoot raw = some tree ∧ MimeParser.Parsed 64 raw 0 tree :=
  MimeParser.parseMimeTree_returns raw.length.zero_le (Nat.lt_succ_self _)

theorem mimeRoot_eq (hraw : raw.length < 2 ^ 32) : mimeRoot raw = some (mimeTree raw) := by
  obtain ⟨tree, htree, hparsed⟩ := exists_mimeRoot raw
  rw [htree, hparsed.exact hraw]
  rfl

/-- **The tree of a message.**  With more rounds than the message has bytes the loops of the parser
end, and all that it reads is inside the message.  The tree has at most 65 levels.  If the message
is below 4 GiB, every part is inside the message and inside the part it belongs to, behind the parts
in front of it, and its body is not longer than it. -/
theorem MimeParser.tree_placed {rounds : Nat} (hrounds : raw.length < rounds) :
    ∃ tree, parseMimeTree rounds 64 raw 0 = some tree ∧ tree.DepthLe 65 ∧
      (raw.length < 2 ^ 32 →
        Placed raw.length tree ∧ ∀ part, Within part tree → Placed raw.length part) := by
  obtain ⟨tree, htree, hparsed⟩ := @parseMimeTree_returns raw 0 64 _ raw.length.zero_le hrounds
  refine ⟨tree, htree, hparsed.depth, fun hraw => ?_⟩
  rw [hparsed.exact hraw]
  exact placed_mimeTree raw

/-- A message of two parts. -/
def twoPartMail : Bytes :=
  bytes "Content-Type: multipart/mixed; boundary=b\r\n\r\n--b\r\n\r\nhi\r\n--b\r\n\r\nho\r\n--b--"

theorem MimeParser.tree_placed_twoPart :
    ∃ tree, mimeRoot twoPartMail = some tree ∧ tree.DepthLe 65 ∧
      Placed twoPartMail.length tree := by
  obtain ⟨tree, htree, hdepth, hplaced⟩ := tree_placed (Nat.lt_succ_self twoPartMail.length)
  exact ⟨tree, htree, hdepth, (hplaced (by decide)).1⟩

/-- A message of exactly 4 GiB: of its length nothing is kept, but of that of its body. -/
def hugeMail : Bytes := bytes "Subject: a\r\n\r\n" ++ replicate (2 ^ 32 - 14) 120

theorem MimeParser.not_forall_placed : ¬∀ raw, ∃ tree, mimeRoot raw = some tree ∧ tree.DepthLe 65 ∧
    Placed raw.length tree ∧ ∀ part, Within part tree → Placed raw.length part := by
  intro h
  have hlength : hugeMail.length = 2 ^ 32 := by
    rw [hugeMail, length_append, length_replicate]
    rfl
  have hcut : cutAt crlfCrlf hugeMail =
      some (bytes "Subject: a", [] ++ replicate (2 ^ 32 - 14) 120) := cutAt_append (by decide) _
  obtain ⟨tree, htree, -, hplaced, -⟩ := h hugeMail
  obtain ⟨tree', htree', hparsed⟩ := exists_mimeRoot hugeMail
  obtain rfl : tree' = tree := Option.some.inj (htree'.symm.trans htree)
  have hsize := hplaced.bodySize_le
  rw [hparsed.sizes.1, hparsed.sizes.2, hlength, drop_zero, hcut, map_some, getD_some, nil_append,
    length_replicate] at hsize
  exact absurd hsize (by decide)

end ProtoRelay
