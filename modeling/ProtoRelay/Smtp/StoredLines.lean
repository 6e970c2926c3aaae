import ProtoRelay.Smtp.Framing

/-!
# The lines of the stored body

In whatever chunks a message arrives, `LineFolder` writes its lines without the leading dot, long
ones in pieces with a line end and a space between them, and no line of what it writes is longer
than the limit, if it comes to an end.  It does unless a line has a run of UTF-8 continuation bytes
that spans two segments.
-/

namespace ProtoRelay

open List

/-- A text without a separator has none in its parts. -/
theorem no_lines_of_append {s t : Bytes} (h : (splitSep 13 10 (s ++ t)).1 = []) :
    (splitSep 13 10 s).1 = [] ∧ (splitSep 13 10 t).1 = [] := by
  constructor
  · rw [splitSep_append] at h
    exact (append_eq_nil_iff.mp h).1
  · induction s with
    | nil => exact h
    | cons a s ih => exact ih (splitSep_cons_no_lines_iff.mp h).1

variable {line : Bytes}

/-- **The pieces of a line**: together they are the line, and each is within the budget. -/
theorem Foldable.pieces (hf : Foldable line) {start fuel : Nat} {first : Bool}
    (h : Reached line start first) {out r : Bytes}
    (hloop : foldLoop fuel line start first out = some r) :
    ∃ p ps, r = out ++ [13, 10, 32].intercalate (p :: ps) ∧ (p :: ps).flatten = line.drop start ∧
      p.length ≤ foldBudget first ∧ ∀ q ∈ ps, q.length ≤ foldBudget false := by
  induction fuel generalizing start first out with
  | zero => cases hloop
  | succ fuel ih =>
    rw [foldLoop_succ] at hloop
    split at hloop
    · rename_i hlen
      obtain ⟨hfwd, hle, hre⟩ := h.cut hlen (hf.not_back h hlen)
      obtain ⟨p, ps, rfl, hline, hp, hps⟩ := ih hre hloop
      have hpiece : foldPiece line start (foldCut line start first) =
          (line.drop start).take (foldCut line start first - start) := if_neg (by omega)
      refine ⟨foldPiece line start (foldCut line start first), p :: ps, ?_, ?_, ?_, ?_⟩
      · have hsep : bytes "\r\n " = [13, 10, 32] := by decide
        rw [hsep]
        simp [intercalate]
      · rw [flatten_cons, hline, hpiece]
        conv_rhs => rw [← take_append_drop (foldCut line start first - start) (line.drop start)]
        rw [drop_drop, Nat.add_sub_cancel' hfwd.le]
      · rw [hpiece, length_take]
        omega
      · exact forall_mem_cons.mpr ⟨hp, hps⟩
    · obtain rfl := Option.some.inj hloop
      refine ⟨line.drop start, [], by simp [intercalate], by simp, ?_, nofun⟩
      rw [length_drop]
      omega

namespace LineFolder

/-- `feed` for one chunk after the other, and `flush`: all that is written. -/
def output : List Bytes → Bytes → Option Bytes
  | [], carry => flush carry
  | chunk :: chunks, carry =>
    (feed carry chunk).1.bind fun out => (output chunks (feed carry chunk).2).map (out ++ ·)

/-- The lines of a text, with what stands behind the last line end. -/
def linesOf (s : Bytes) : List Bytes := (splitSep 13 10 s).1 ++ [(splitSep 13 10 s).2]

/-- **What is stored are the lines of the message**: no line is too long, and but for line ends with
a space behind them that were put between the pieces of a line, the lines are those of the message
without their leading dots. -/
structure Faithful (lines : List Bytes) (out : Bytes) : Prop where
  short : ∀ line ∈ linesOf out, line.length ≤ maxStorageLineBytes
  folds : ∃ folds : List (List Bytes), folds.map flatten = lines.map unstuffDot ∧
    out = [13, 10].intercalate (folds.map [13, 10, 32].intercalate)

theorem linesOf_of_no_lines {s : Bytes} (h : (splitSep 13 10 s).1 = []) : linesOf s = [s] := by
  rw [linesOf, h, splitSep_carry_of_no_lines h]
  rfl

theorem linesOf_append (s t : Bytes) : linesOf (s ++ 13 :: 10 :: t) = linesOf s ++ linesOf t := by
  simp [linesOf, splitSep_append_lines (x := (13 : UInt8)) (y := 10) (by decide)]

/-- The lines of what is written for a line are its pieces, all but the first with a space in
front. -/
theorem short_intercalate {p : Bytes} {ps : List Bytes} (hp : p.length ≤ foldBudget true)
    (hps : ∀ q ∈ ps, q.length ≤ foldBudget false)
    (hline : (splitSep 13 10 (p :: ps).flatten).1 = []) :
    ∀ line ∈ linesOf ([13, 10, 32].intercalate (p :: ps)), line.length ≤ maxStorageLineBytes := by
  induction ps generalizing p with
  | nil =>
    have hone : ([13, 10, 32] : Bytes).intercalate [p] = p := by simp [intercalate]
    rw [hone, linesOf_of_no_lines (by simpa using hline)]
    exact forall_mem_singleton.mpr hp
  | cons q ps ih =>
    have hnext : ([13, 10, 32] : Bytes).intercalate (p :: q :: ps) =
        p ++ 13 :: 10 :: [13, 10, 32].intercalate ((32 :: q) :: ps) := by
      cases ps <;> simp [intercalate]
    obtain ⟨hnone, hrest⟩ := no_lines_of_append hline
    rw [hnext, linesOf_append, linesOf_of_no_lines hnone]
    refine forall_mem_cons.mpr ⟨hp, ih ?_ (fun q' hq' => hps q' (.tail q hq')) ?_⟩
    · exact Nat.succ_le_succ (hps q mem_cons_self)
    · exact splitSep_cons_no_lines_iff.mpr ⟨hrest, by simp⟩

/-- A line of the message, as it is written. -/
theorem exists_folds (hline : (splitSep 13 10 line).1 = []) {text : Bytes}
    (h : appendFolded (unstuffDot line) = some text) :
    (∀ l ∈ linesOf text, l.length ≤ maxStorageLineBytes) ∧
      ∃ pieces : List Bytes, pieces.flatten = unstuffDot line ∧
        text = [13, 10, 32].intercalate pieces := by
  have hfoldable := (isSome_appendFolded_iff _).mp (by rw [h]; rfl)
  obtain ⟨p, ps, rfl, hflat, hp, hps⟩ := hfoldable.pieces .first h
  refine ⟨short_intercalate hp hps ?_, p :: ps, hflat, rfl⟩
  rw [hflat]
  -- the dot is followed by the rest of the line
  cases line with
  | nil => rfl
  | cons b line =>
    rw [unstuffDot]
    split
    · exact (splitSep_cons_no_lines_iff.mp hline).1
    · exact hline

/-- One line after the other, and the last one. -/
theorem faithful_lines {lines : List Bytes} {rest r : Bytes}
    (hlines : ∀ l ∈ lines, (splitSep 13 10 l).1 = []) (hrest : (splitSep 13 10 rest).1 = [])
    (h : ((lines.foldl feedLine (some [])).bind fun out => (flush rest).map (out ++ ·)) = some r) :
    Faithful (lines ++ [rest]) r := by
  induction lines generalizing r with
  | nil =>
    rw [flush_eq] at h
    obtain ⟨hsh, pieces, hflat, rfl⟩ := exists_folds hrest (by simpa using h)
    exact ⟨hsh, [pieces], by simp [hflat], by simp [intercalate]⟩
  | cons l lines ih =>
    rw [foldl_cons, feedLine_some, lineOut] at h
    cases htext : appendFolded (unstuffDot l) with
    | none => simp [htext, foldl_feedLine_none] at h
    | some text =>
      simp only [htext, Option.map_some, nil_append] at h
      rw [foldl_feedLine_some] at h
      simp only [Option.bind_eq_some_iff, Option.map_eq_some_iff] at h
      obtain ⟨_, ⟨out, hout, rfl⟩, tail, htail, rfl⟩ := h
      obtain ⟨hfst, pieces, hflat, rfl⟩ := exists_folds (hlines l mem_cons_self) htext
      obtain ⟨hsh, folds, hfolds, heq⟩ := ih (fun l' hl' => hlines l' (.tail l hl'))
        (r := out ++ tail) (by rw [hout, htail]; rfl)
      have hsep : bytes "\r\n" = [13, 10] := by decide
      have happ : [13, 10, 32].intercalate pieces ++ bytes "\r\n" ++ out ++ tail =
          [13, 10, 32].intercalate pieces ++ 13 :: 10 :: (out ++ tail) := by simp [hsep]
      rw [happ]
      refine ⟨?_, pieces :: folds, ?_, ?_⟩
      · rw [linesOf_append]
        exact forall_mem_append.mpr ⟨hfst, hsh⟩
      · simp [hflat, hfolds]
      · rw [heq]
        cases folds with
        | nil => simp at hfolds
        | cons fold folds => simp [intercalate]

theorem output_eq_body (chunks : List Bytes) {carry : Bytes}
    (h : splitSep 13 10 carry = ([], carry)) : output chunks carry = body carry chunks.flatten := by
  induction chunks generalizing carry with
  | nil => simp [output, body, feed_nil h]
  | cons chunk chunks ih =>
    have hnext : output chunks (feed carry chunk).2 = body (feed carry chunk).2 chunks.flatten :=
      ih (splitSep_carry (carry ++ chunk))
    rw [output, hnext, flatten_cons, body, body, feed_append]
    cases (feed carry chunk).1 with
    | none => rfl
    | some out =>
      cases (feed (feed carry chunk).2 chunks.flatten).1 with
      | none => rfl
      | some more => simp [Function.comp_def]

/-- **The messages that are stored**: those whose lines, without their leading dots, can be
folded. -/
theorem output_faithful_iff (chunks : List Bytes) :
    (∃ out, output chunks [] = some out ∧ Faithful (linesOf chunks.flatten) out) ↔
      ∀ line ∈ linesOf chunks.flatten, Foldable (unstuffDot line) := by
  have hbody : output chunks [] = body [] chunks.flatten := output_eq_body chunks rfl
  have hsome := isSome_body_iff [] chunks.flatten
  rw [← forall_mem_singleton (p := fun l => Foldable (unstuffDot l)), ← forall_mem_append] at hsome
  rw [hbody]
  constructor
  · rintro ⟨out, hout, -⟩
    exact hsome.mp (by rw [hout]; rfl)
  · intro h
    obtain ⟨out, hout⟩ := Option.isSome_iff_exists.mp (hsome.mpr h)
    exact ⟨out, hout, faithful_lines (fun l hl => splitSep_of_mem_lines hl)
      (congrArg Prod.fst (splitSep_carry chunks.flatten)) hout⟩

theorem no_lines_replicate (n : Nat) : (splitSep 13 10 (replicate n (128 : UInt8))).1 = [] := by
  induction n with
  | zero => rfl
  | succ n ih => exact splitSep_cons_no_lines_iff.mpr ⟨ih, by simp⟩

/-- **Not every message is stored**: on 4097 continuation bytes `flush` does not come to an end. -/
theorem not_forall_output_faithful :
    ¬∀ chunks : List Bytes, ∃ out, output chunks [] = some out ∧
      Faithful (linesOf chunks.flatten) out := by
  intro h
  have hall := (output_faithful_iff [replicate (4096 + 1) 128]).mp (h _)
  rw [flatten_singleton, linesOf_of_no_lines (no_lines_replicate _)] at hall
  refine (hall _ (mem_singleton_self _)).1 ⟨?_, fun i _ hi => ?_⟩
  · rw [replicate_succ, unstuffDot, if_neg (by decide), length_cons, length_replicate]
    decide
  · have hlt : i < 4096 + 1 := by
      rw [foldBudget_true, foldBudget_false] at hi
      omega
    rw [replicate_succ, unstuffDot, if_neg (by decide), ← replicate_succ, getD_eq_getElem?_getD,
      getElem?_replicate, if_pos hlt]
    rfl

end LineFolder

end ProtoRelay
