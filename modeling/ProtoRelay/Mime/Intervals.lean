import Mathlib.Order.Interval.Set.Defs
import ProtoRelay.Mime.Tree

/-!
# Where the parts of a message are

The parser works on fronts of the message with absolute positions and corrects the lengths
afterwards.  Every part is inside the part it belongs to, and the parts of a multipart follow
each other.
-/

namespace ProtoRelay

open List Option

variable {raw front text u w boundary : Bytes} {pos start next levels : Nat} {part : MimePart}

/-- Something that is found is inside. -/
theorem findFrom_add_le {pat : Bytes} {i : Nat} (h : findFrom pat raw pos = some i)
    (hne : pat ≠ []) :
    pos ≤ i ∧ i + pat.length ≤ raw.length := by
  obtain ⟨hle, v, hv⟩ := exists_of_findFrom h
  have hlen := congrArg List.length hv
  have hpos := length_pos_iff.mpr hne
  rw [length_drop, length_append] at hlen
  omega

/-- A boundary that is found, and that it begins with a hyphen. -/
theorem boundary_found {i : Nat} (h : findFrom (bytes "--" ++ boundary) raw i = some next) :
    i ≤ next ∧ next < raw.length ∧ ∃ w, raw.drop next = 45 :: w := by
  obtain ⟨hle, w, hw⟩ := exists_of_findFrom h
  have hin := (findFrom_add_le h (append_ne_nil_of_left_ne_nil (by decide) _)).2
  have htwo : (bytes "--" ++ boundary).length = 2 + boundary.length := length_append
  exact ⟨hle, by omega, _, hw⟩

/-- A blank line in front of a boundary ends in front of it. -/
theorem add_four_le_of_lt {sep : Nat} (hsep : raw.drop sep = crlfCrlf ++ u)
    (hnext : raw.drop next = 45 :: w) (hlt : sep < next) : sep + 4 ≤ next := by
  by_contra hge
  obtain ⟨k, rfl⟩ := Nat.exists_eq_add_of_lt hlt
  rw [Nat.add_assoc, ← drop_drop, hsep] at hnext
  obtain rfl | rfl | rfl : k = 0 ∨ k = 1 ∨ k = 2 := by omega
  all_goals cases hnext

/-! ## Where a part is -/

def MimePart.stop (part : MimePart) : Nat := part.info.offset + part.info.length

/-- A part with its parts: they are inside it, one behind the other. -/
structure Placed (size : Nat) (part : MimePart) : Prop where
  stop_le : part.stop ≤ size
  bodySize_le : part.info.bodySize ≤ part.info.length
  inside : ∀ sub ∈ part.subs, Set.Ico sub.info.offset sub.stop ⊆ Set.Ico part.info.offset part.stop
  ordered : part.subs.Pairwise fun a b => a.stop ≤ b.info.offset

/-- The number of parts on a way down is at most this. -/
def MimePart.DepthLe : Nat → MimePart → Prop
  | 0, _ => False
  | n + 1, part => ∀ sub ∈ part.subs, sub.DepthLe n

theorem length_trimLineEnds_le (text : Bytes) : (trimLineEnds text).length ≤ text.length := by
  obtain ⟨z, hz, -⟩ := exists_trimLineEnds text
  conv_rhs => rw [hz, length_append]
  exact Nat.le_add_right _ _

theorem trimLineEnds_append_eq (u w : Bytes) :
    trimLineEnds (u ++ w) = if trimLineEnds w = [] then trimLineEnds u
      else u ++ trimLineEnds w := by
  unfold trimLineEnds
  rw [reverse_append, dropWhile_append]
  simp only [List.isEmpty_iff, reverse_eq_nil_iff]
  split
  · rfl
  · rw [reverse_append, reverse_reverse]

/-- What is in front of something that is kept is kept. -/
theorem le_length_trimLineEnds (u rest : Bytes) (h : trimLineEnds text ≠ []) :
    u.length + (trimLineEnds text).length ≤ (trimLineEnds (u ++ text ++ rest)).length := by
  rw [trimLineEnds_append_eq]
  split
  · rw [trimLineEnds_append_eq, if_neg h, length_append]
  · simp only [length_append]
    have := length_trimLineEnds_le text
    omega

theorem announcedSize_le (text : Bytes) : announcedSize text ≤ (trimLineEnds text).length := by
  unfold announcedSize
  cases hcut : cutAt crlfCrlf text with
  | none => exact Nat.zero_le _
  | some r =>
    rw [(cutAt_eq_some_iff.mp hcut).1, ← append_assoc]
    by_cases hempty : trimLineEnds r.2 = []
    · simp [hempty]
    · rw [trimLineEnds_append_eq, if_neg hempty, length_append]
      exact Nat.le_add_left _ _

theorem le_bodyStart (hpos : pos ≤ raw.length) : pos ≤ bodyStart raw pos := by
  unfold bodyStart
  cases hsep : findFrom crlfCrlf raw pos with
  | none => exact hpos
  | some sep => exact (exists_of_findFrom hsep).1.trans (Nat.le_add_right sep 4)

theorem PartAt.stop_eq (h : PartAt levels front start part) :
    part.stop = start + (trimLineEnds (front.drop start)).length := by
  rw [MimePart.stop, h.info]
  rfl

/-- **The parts one level down** are in front of the line ends at the end. -/
theorem inside_of_mem_subs (hpos : pos ≤ raw.length)
    (h : part ∈ (parseMimeTree levels raw pos).subs) :
    Set.Ico part.info.offset part.stop ⊆ Set.Ico pos
      (pos + (trimLineEnds (raw.drop pos)).length) := by
  have hbody := le_bodyStart hpos
  obtain ⟨_, front, start, rest, -, hat, hstart, rfl, -⟩ := partAt_of_mem_subs h
  rw [hat.offset_eq, hat.stop_eq]
  rintro x ⟨hx, hx'⟩
  have hkept : trimLineEnds (front.drop start) ≠ [] := by
    intro hnil
    rw [hnil, length_nil] at hx'
    omega
  have hsp : (front ++ rest).drop pos = (front.drop pos).take (start - pos) ++ front.drop start ++
      rest := by
    have := take_append_drop (start - pos) (front.drop pos)
    rw [drop_drop, Nat.add_sub_cancel' (by omega)] at this
    rw [this, drop_append_of_le_length (by have := hat.le; omega)]
  have hle := le_length_trimLineEnds ((front.drop pos).take (start - pos)) rest hkept
  rw [← hsp, length_take, length_drop] at hle
  have hfront := hat.le
  exact ⟨by omega, by omega⟩

theorem pairwise_boundaryRanges {fuel searchFrom : Nat} :
    (boundaryRanges raw boundary fuel searchFrom).Pairwise fun a b => a.2 ≤ b.1 := by
  induction fuel generalizing searchFrom with
  | zero => exact .nil
  | succ fuel ih =>
    rw [boundaryRanges]
    split
    · exact .nil
    cases findFrom boundary raw searchFrom with
    | none => exact .nil
    | some next =>
      dsimp only
      split
      · exact ih
      split
      · exact pairwise_singleton _ _
      cases hline : nextLine raw next with
      | none => exact pairwise_singleton _ _
      | some line =>
        refine pairwise_cons.mpr ⟨fun range hrange => ?_, ih⟩
        exact (lt_of_nextLine hline).le.trans (range_of_mem_boundaryRanges hrange).1

theorem ordered_subs (levels : Nat) (raw : Bytes) (pos : Nat) :
    (parseMimeTree levels raw pos).subs.Pairwise fun a b => a.stop ≤ b.info.offset := by
  cases levels with
  | zero => exact .nil
  | succ levels =>
    unfold parseMimeTree
    dsimp only
    split
    · refine pairwise_map.mpr (pairwise_boundaryRanges.imp_of_mem fun {a b} ha hb hab => ?_)
      obtain ⟨-, hle, _, hbound⟩ := range_of_mem_partRanges ha
      obtain ⟨-, hle', _, hbound'⟩ := range_of_mem_partRanges hb
      rw [(partAt_between hle hbound).stop_eq, (partAt_between hle' hbound').offset_eq]
      have htrim := length_trimLineEnds_le ((raw.take a.2).drop a.1)
      rw [length_drop, length_take] at htrim
      omega
    · split
      · split
        · exact .nil
        · exact pairwise_singleton _ _
      · exact .nil

theorem PartAt.placed {rest : Bytes} (h : PartAt levels front start part) :
    Placed (front ++ rest).length part := by
  refine ⟨?_, ?_, fun sub hsub => ?_, h.subs ▸ ordered_subs levels front start⟩
  · have hle := length_trimLineEnds_le (front.drop start)
    have hstart := h.le
    rw [length_drop] at hle
    rw [h.stop_eq, length_append]
    omega
  · rw [h.info]
    exact announcedSize_le _
  · rw [h.offset_eq, h.stop_eq]
    exact inside_of_mem_subs h.le (h.subs ▸ hsub)

theorem bodySize_parseMimeInfo_le (raw : Bytes) (pos : Nat) :
    (parseMimeInfo raw pos).bodySize ≤ raw.length := by
  change (if _ then raw.length - _ else 0) ≤ raw.length
  split
  · exact Nat.sub_le _ _
  · exact raw.length.zero_le

theorem placed_root (levels : Nat) (raw : Bytes) :
    Placed raw.length (parseMimeTree levels raw 0) := by
  have hinfo := info_parseMimeTree levels raw 0
  have hoffset : (parseMimeTree levels raw 0).info.offset = 0 := by rw [hinfo]; rfl
  have hlength : (parseMimeTree levels raw 0).info.length = raw.length := by rw [hinfo]; rfl
  have hstop : (parseMimeTree levels raw 0).stop = raw.length := by
    rw [MimePart.stop, hoffset, hlength, Nat.zero_add]
  refine ⟨hstop.le, ?_, fun sub hsub => ?_, ordered_subs levels raw 0⟩
  · rw [hlength, hinfo]
    exact bodySize_parseMimeInfo_le raw 0
  · rw [hoffset, hstop]
    intro x hx
    have hin := inside_of_mem_subs raw.length.zero_le hsub hx
    rw [Nat.zero_add] at hin
    exact ⟨hin.1, hin.2.trans_le (length_trimLineEnds_le raw)⟩

/-- **Every part of a tree is placed.** -/
theorem placed_mimeTree (raw : Bytes) :
    Placed raw.length (mimeTree raw) ∧ ∀ part, Within part (mimeTree raw) →
      Placed raw.length part := by
  refine ⟨placed_root 64 raw, fun part hpart => ?_⟩
  obtain ⟨_, front, start, rest, hat, rfl, -⟩ := partAt_of_within hpart
  exact hat.placed

end ProtoRelay
