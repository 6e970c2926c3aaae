import Mathlib.Algebra.Order.BigOperators.Group.List
import Mathlib.Algebra.Order.Group.Nat
import ProtoRelay.Outbound.Wire
import ProtoRelay.Smtp.Framing

/-!
# Transparency of the message data

What `data_frame` makes of a body is read back by `parse_smtp_command` and `LineFolder`.  The frame
has one end, whatever the body is.  But the two sides do not agree on what a line is: `dot_stuff`
doubles the dots behind every LF and `LineFolder` removes dots behind CRLF only, so that dots behind
a bare LF stay doubled; and `parse_smtp_command` counts the CRLF in front of the last dot to the
terminator, so that a body that ends in CRLF loses it.
-/

namespace ProtoRelay

open List

open Session (endOfData)

/-- A dot right behind a LF that is not behind a CR, in a string behind the bytes `p, q`. -/
def bareDotFrom (p q : UInt8) : Bytes → Bool
  | [] => false
  | b :: s => (p != 13 && q == 10 && b == 46) || bareDotFrom q b s

/-- A dot right behind a LF that is not behind a CR; the start of the body is the start
of a line. -/
def bareDot (body : Bytes) : Bool := bareDotFrom 13 10 body

/-- The lines of the body are not longer than the lines that are stored. -/
def ShortLines (body : Bytes) : Prop :=
  ∀ l ∈ (splitSep 13 10 body).1 ++ [(splitSep 13 10 body).2], l.length ≤ maxStorageLineBytes

/-- What is stored is the body, or the body and one CRLF. -/
def Transparent (body : Bytes) (stored : Option Bytes) : Prop :=
  stored = some body ∨ stored = some (body ++ [13, 10])

/-! ## Stuffing -/

theorem dotStuffFrom_append (p : UInt8) (s t : Bytes) :
    dotStuffFrom p (s ++ t) = dotStuffFrom p s ++ dotStuffFrom (s.getLast?.getD p) t := by
  induction s generalizing p with
  | nil => rfl
  | cons b s ih =>
    simp only [cons_append, dotStuffFrom, ih b, getLast?_cons, Option.getD_some]
    split <;> rfl

theorem dotStuff_append_crlf (s t : Bytes) :
    dotStuff (s ++ 13 :: 10 :: t) = dotStuff s ++ 13 :: 10 :: dotStuff t := by
  simp [dotStuff, dotStuffFrom_append, dotStuffFrom]

/-- **Stuffing goes line by line.** -/
theorem dotStuff_joinSep (ls : List Bytes) (rest : Bytes) :
    dotStuff (joinSep 13 10 ls rest) = joinSep 13 10 (ls.map dotStuff) (dotStuff rest) := by
  induction ls with
  | nil => rfl
  | cons l ls ih => rw [joinSep_cons, dotStuff_append_crlf, ih, map_cons, joinSep_cons]

theorem head?_dotStuffFrom {p : UInt8} (hp : p ≠ 10) (s : Bytes) :
    (dotStuffFrom p s).head? = s.head? := by
  cases s with
  | nil => rfl
  | cons b s => simp [dotStuffFrom, hp]

variable {s : Bytes}

/-- Stuffing makes no line ends. -/
theorem splitSep_dotStuffFrom (p : UInt8) (h : (splitSep 13 10 s).1 = []) :
    (splitSep 13 10 (dotStuffFrom p s)).1 = [] := by
  induction s generalizing p with
  | nil => rfl
  | cons b s ih =>
    obtain ⟨hs, hb⟩ := splitSep_cons_no_lines_iff.mp h
    have hnext : (splitSep 13 10 (b :: dotStuffFrom b s)).1 = [] := by
      refine splitSep_cons_no_lines_iff.mpr ⟨ih b hs, fun ⟨hcr, hhead⟩ => hb ⟨hcr, ?_⟩⟩
      rwa [head?_dotStuffFrom (by rw [hcr]; decide)] at hhead
    unfold dotStuffFrom
    split
    · exact splitSep_cons_no_lines_iff.mpr ⟨hnext, fun hdot => absurd hdot.1 (by decide)⟩
    · exact hnext

theorem splitSep_stuffed (h : (splitSep 13 10 s).1 = []) :
    (splitSep 13 10 (dotStuff s)).1 = [] := splitSep_dotStuffFrom 10 h

theorem dotStuff_eq_nil : dotStuff s = [] ↔ s = [] := by
  cases s with
  | nil => simp [dotStuff, dotStuffFrom]
  | cons b s =>
    by_cases hb : b = 46
    · simp [dotStuff, dotStuffFrom, hb]
    · simp [dotStuff, dotStuffFrom, hb]

/-- A line that was stuffed is not a single dot. -/
theorem dotStuff_ne_dot (s : Bytes) : dotStuff s ≠ [46] := by
  cases s with
  | nil => simp [dotStuff, dotStuffFrom]
  | cons b s =>
    by_cases hb : b = 46
    · simp [dotStuff, dotStuffFrom, hb]
    · simp [dotStuff, dotStuffFrom, hb]

/-- What the receiver makes of a stuffed line: only the first dot is as it was. -/
theorem unstuffDot_dotStuff (l : Bytes) : unstuffDot (dotStuff l) = dotStuffFrom 0 l := by
  cases l with
  | nil => rfl
  | cons b l =>
    by_cases hb : b = 46
    · simp [dotStuff, dotStuffFrom, unstuffDot, hb]
    · simp [dotStuff, dotStuffFrom, unstuffDot, hb]

/-- Stuffing adds dots, if it does anything. -/
theorem dotStuffFrom_eq_or_count_lt (p : UInt8) (s : Bytes) :
    dotStuffFrom p s = s ∨ s.count 46 < (dotStuffFrom p s).count 46 := by
  induction s generalizing p with
  | nil => exact .inl rfl
  | cons b s ih =>
    have hle : s.count 46 ≤ (dotStuffFrom b s).count 46 :=
      (ih b).elim (fun heq => by rw [heq]) le_of_lt
    unfold dotStuffFrom
    split
    · rename_i hdot
      obtain ⟨rfl, -⟩ := hdot
      refine .inr ?_
      simp only [count_cons_self]
      omega
    · rcases ih b with heq | hlt
      · exact .inl (by rw [heq])
      · refine .inr ?_
        simp only [count_cons]
        omega

theorem count_le_dotStuffFrom (p : UInt8) (s : Bytes) : s.count 46 ≤ (dotStuffFrom p s).count 46 :=
  (dotStuffFrom_eq_or_count_lt p s).elim (fun heq => by rw [heq]) le_of_lt

/-! ## Bare dots -/

theorem bareDotFrom_append_crlf (p q : UInt8) (s t : Bytes) :
    bareDotFrom p q (s ++ 13 :: 10 :: t) = (bareDotFrom p q s || bareDotFrom 13 10 t) := by
  induction s generalizing p q with
  | nil => simp [bareDotFrom]
  | cons b s ih => simp [bareDotFrom, ih, Bool.or_assoc]

/-- In a line, the dots that are stuffed behind its start are the bare ones. -/
theorem bareDotFrom_eq_false_iff {p q : UInt8} (hpq : ¬(p = 13 ∧ q = 10))
    (h : (splitSep 13 10 (q :: s)).1 = []) : bareDotFrom p q s = false ↔ dotStuffFrom q s = s := by
  induction s generalizing p q with
  | nil => simp [bareDotFrom, dotStuffFrom]
  | cons b s ih =>
    obtain ⟨hs, hb⟩ := splitSep_cons_no_lines_iff.mp h
    have hqb : ¬(q = 13 ∧ b = 10) := by simpa using hb
    by_cases hdot : q = 10 ∧ b = 46
    · have hp : p ≠ 13 := fun hp => hpq ⟨hp, hdot.1⟩
      have hlonger : dotStuffFrom q (b :: s) ≠ b :: s := by
        intro heq
        have hcnt := count_le_dotStuffFrom b s
        rw [dotStuffFrom, if_pos ⟨hdot.2, hdot.1⟩] at heq
        have hlen := congrArg (List.count 46) heq
        simp only [hdot.2, count_cons_self] at hlen hcnt
        omega
      have hbare : bareDotFrom p q (b :: s) = true := by simp [bareDotFrom, hp, hdot.1, hdot.2]
      rw [hbare]
      exact ⟨nofun, fun heq => absurd heq hlonger⟩
    · have hbare : bareDotFrom p q (b :: s) = bareDotFrom q b s := by
        simp only [bareDotFrom, Bool.or_eq_right_iff_imp, Bool.and_eq_true, beq_iff_eq]
        exact fun hb => absurd ⟨hb.1.2, hb.2⟩ hdot
      rw [hbare, ih hqb hs, dotStuffFrom, if_neg fun hb => hdot ⟨hb.2, hb.1⟩]
      simp

/-- A line without bare dots is read back as it was. -/
theorem bareDot_line_iff {l : Bytes} (h : (splitSep 13 10 l).1 = []) :
    bareDot l = false ↔ dotStuffFrom 0 l = l := by
  cases l with
  | nil => simp [bareDot, bareDotFrom, dotStuffFrom]
  | cons b l =>
    have hfst : bareDot (b :: l) = bareDotFrom 10 b l := rfl
    rw [hfst, bareDotFrom_eq_false_iff (fun hcr => absurd hcr.1 (by decide)) h]
    simp [dotStuffFrom]

theorem bareDot_joinSep (ls : List Bytes) (rest : Bytes) :
    bareDot (joinSep 13 10 ls rest) = false ↔ ∀ l ∈ ls ++ [rest], bareDot l = false := by
  induction ls with
  | nil => simp
  | cons l ls ih =>
    rw [joinSep_cons, bareDot, bareDotFrom_append_crlf, Bool.or_eq_false_iff, cons_append,
      forall_mem_cons]
    exact and_congr_right fun _ => ih

/-! ## The frame -/

theorem bytes_crlf : bytes "\r\n" = [13, 10] := by decide

theorem splitSep_dotStuff (body : Bytes) :
    splitSep 13 10 (dotStuff body) =
      ((splitSep 13 10 body).1.map dotStuff, dotStuff (splitSep 13 10 body).2) := by
  have hjoin := dotStuff_joinSep (splitSep 13 10 body).1 (splitSep 13 10 body).2
  rw [joinSep_splitSep] at hjoin
  rw [hjoin]
  refine splitSep_joinSep (by decide) (fun l hl => ?_) ?_
  · obtain ⟨l', hl', rfl⟩ := mem_map.mp hl
    exact splitSep_stuffed (splitSep_of_mem_lines hl')
  · exact splitSep_stuffed (congrArg Prod.fst (splitSep_carry body))

/-- Stuffing does not change how a body ends. -/
theorem crlf_isSuffix_dotStuff_iff {body : Bytes} :
    [13, 10] <:+ dotStuff body ↔ [13, 10] <:+ body := by
  have hne : (13 : UInt8) ≠ 10 := by decide
  rw [sep_isSuffix_iff hne, sep_isSuffix_iff hne, splitSep_dotStuff]
  simp [dotStuff_eq_nil]

/-- **The body without a CRLF at its end** is what stands in front of the terminator, stuffed. -/
theorem exists_dataLines_eq (body : Bytes) : ∃ core, dataLines body = dotStuff core ++ [13, 10] ∧
    (body = core ++ [13, 10] ∨ body = core ∧ ¬[13, 10] <:+ body) := by
  unfold dataLines
  rw [bytes_crlf]
  by_cases hend : [13, 10] <:+ body
  · rw [if_pos (crlf_isSuffix_dotStuff_iff.mpr hend)]
    obtain ⟨core, rfl⟩ := hend
    exact ⟨core, dotStuff_append_crlf core [], .inl rfl⟩
  · rw [if_neg fun h => hend (crlf_isSuffix_dotStuff_iff.mp h)]
    exact ⟨body, rfl, .inr ⟨rfl, hend⟩⟩

theorem endOfData_eq : endOfData = [13, 10, 46, 13, 10] := by decide

section

variable {body core : Bytes} (h : dataLines body = dotStuff core ++ [13, 10])

include h

theorem dataFrame_eq : dataFrame body = dotStuff core ++ (endOfData ++ []) := by
  have hdot : bytes ".\r\n" = [46, 13, 10] := by decide
  rw [dataFrame, h, hdot, endOfData_eq]
  simp

theorem splitSep_dataFrame : splitSep 13 10 (dataFrame body) =
    (((splitSep 13 10 core).1 ++ [(splitSep 13 10 core).2]).map dotStuff ++ [[46]], []) := by
  have heq : dataFrame body = dotStuff core ++ 13 :: 10 :: ([46] ++ 13 :: 10 :: []) := by
    simp [dataFrame_eq h, endOfData_eq]
  rw [heq, splitSep_append_lines (by decide), splitSep_append_lines (by decide), splitSep_dotStuff]
  simp [splitSep]

/-- **The terminator is at the end of the frame only.** -/
theorem eq_nil_of_dataFrame_eq {u v : Bytes} (huv : dataFrame body = u ++ (endOfData ++ v)) :
    v = [] := by
  have hsp := splitSep_dataFrame h
  have hu : u ++ (endOfData ++ v) = u ++ 13 :: 10 ::
    ([46] ++ 13 :: 10 :: v) := by simp [endOfData_eq]
  rw [huv, hu, splitSep_append_lines (by decide), splitSep_append_lines (by decide)] at hsp
  obtain ⟨hlines, hrest⟩ := Prod.mk.inj hsp
  -- a line behind the terminator would make the dot one of the lines of the body
  have hv : (splitSep 13 10 v).1 = [] := by
    rcases eq_nil_or_concat' (splitSep 13 10 v).1 with hnil | ⟨ls, l, hls⟩
    · exact hnil
    · exfalso
      rw [hls] at hlines
      have hinit := congrArg List.dropLast hlines
      have hassoc : ∀ (a : List Bytes) (b c : Bytes) (d e : List Bytes) (f : Bytes),
          a ++ b :: (d ++ c :: (e ++ [f])) = (a ++ b :: (d ++ c :: e)) ++ [f] := by simp
      rw [dropLast_concat, hassoc, dropLast_concat] at hinit
      have hdot : [46] ∈ ((splitSep 13 10 core).1 ++ [(splitSep 13 10 core).2]).map dotStuff := by
        rw [← hinit]
        simp [splitSep]
      obtain ⟨l, -, hl⟩ := mem_map.mp hdot
      exact dotStuff_ne_dot l hl
  have hjoin := joinSep_splitSep (x := 13) (y := 10) v
  rwa [hv, hrest, joinSep_nil, eq_comm] at hjoin

theorem not_dotLine_isPrefix_dataFrame : ¬dotLine <+: dataFrame body := by
  rintro ⟨v, hv⟩
  have hsp := splitSep_dataFrame h
  have hdot : dotLine ++ v = [46] ++ 13 :: 10 :: v := by
    have hline : dotLine = [46, 13, 10] := by decide
    simp [hline]
  rw [← hv] at hsp
  obtain ⟨l, ls, hls⟩ := exists_cons_of_ne_nil
    (append_ne_nil_of_right_ne_nil (splitSep 13 10 core).1 (cons_ne_nil (splitSep 13 10 core).2 []))
  have hfst := (Prod.mk.inj hsp).1
  rw [hls] at hfst
  exact dotStuff_ne_dot l (List.cons.inj hfst).1.symm

/-- **The receiver finds the end of the frame.** -/
theorem firstDotLine_dataFrame : firstDotLine (dataFrame body) = some (dotStuff core, []) := by
  rw [firstDotLine_of_not_dotLine (not_dotLine_isPrefix_dataFrame h)]
  refine cutAt_eq_some_iff.mpr ⟨dataFrame_eq h, fun u v huv => ?_⟩
  obtain rfl := eq_nil_of_dataFrame_eq h huv
  have hlength := congrArg List.length ((dataFrame_eq h).symm.trans huv)
  simp only [length_append] at hlength
  omega

end

/-! ## What is stored -/

/-- A short line is stored as it is. -/
theorem appendFolded_of_length_le {line : Bytes} (h : line.length ≤ maxStorageLineBytes) :
    appendFolded line = some line := by
  have hbudget : ¬foldBudget true < line.length - 0 := by
    exact Nat.not_lt.mpr h
  rw [appendFolded, foldLoop, if_neg hbudget]
  simp

/-- Folding drops no dots. -/
theorem count_le_of_foldLoop {fuel : Nat} {line : Bytes} {start : Nat} {first : Bool}
    {out r : Bytes} (h : foldLoop fuel line start first out = some r) :
    out.count 46 + (line.drop start).count 46 ≤ r.count 46 := by
  induction fuel generalizing start first out with
  | zero => cases h
  | succ fuel ih =>
    rw [foldLoop] at h
    split_ifs at h with hlong
    · have hnext := ih h
      have hpiece : (line.drop start).count 46 ≤
        (foldPiece line start (foldCut line start first)).count 46 +
            (line.drop (foldCut line start first)).count 46 := by
        unfold foldPiece
        split_ifs with hback
        · omega
        · -- the piece and the rest make up the line from `start` on
          have hsp := take_append_drop (foldCut line start first - start) (line.drop start)
          rw [drop_drop, Nat.add_sub_cancel' (Nat.not_lt.mp hback)] at hsp
          have hcnt := congrArg (List.count 46) hsp
          rw [count_append] at hcnt
          omega
      simp only [count_append] at hnext
      omega
    · rw [← Option.some.inj h, count_append]

theorem count_le_of_appendFolded {line r : Bytes} (h : appendFolded line = some r) :
    line.count 46 ≤ r.count 46 := by
  have hcnt := count_le_of_foldLoop h
  simpa using hcnt

namespace LineFolder

variable {ls : List Bytes}

theorem body_eq (s : Bytes) :
    body [] s = ((splitSep 13 10 s).1.foldl feedLine (some [])).bind fun out =>
      (appendFolded (unstuffDot (splitSep 13 10 s).2)).map (out ++ ·) := by
  have hsp : splitSep 13 10 ([] ++ s) = ((splitSep 13 10 s).1, (splitSep 13 10 s).2) := rfl
  rw [body, feed_of_splitSep hsp, flush_eq]

/-- **Short lines are stored as they are**, if they are read back. -/
theorem foldl_feedLine_of_short
    (h : ∀ l ∈ ls, dotStuffFrom 0 l = l ∧ l.length ≤ maxStorageLineBytes) (out : Bytes) :
    (ls.map dotStuff).foldl feedLine (some out) = some (out ++ joinSep 13 10 ls []) := by
  induction ls generalizing out with
  | nil => simp
  | cons l ls ih =>
    obtain ⟨⟨hdot, hsh⟩, hls⟩ := forall_mem_cons.mp h
    have hline : feedLine (some out) (dotStuff l) = some (out ++ l ++ [13, 10]) := by
      rw [feedLine, unstuffDot_dotStuff, hdot, appendFolded_of_length_le hsh]
      rfl
    rw [map_cons, foldl_cons, hline, ih hls]
    simp [joinSep]

/-- **No dot is lost behind the first of a line.** -/
theorem count_le_of_foldl_feedLine {out r : Bytes}
    (h : (ls.map dotStuff).foldl feedLine (some out) = some r) :
    out.count 46 + (ls.map fun l => (dotStuffFrom 0 l).count 46).sum ≤ r.count 46 := by
  induction ls generalizing out with
  | nil =>
    rw [← Option.some.inj h]
    simp
  | cons l ls ih =>
    rw [map_cons, foldl_cons, feedLine_some, lineOut, unstuffDot_dotStuff] at h
    cases hline : appendFolded (dotStuffFrom 0 l) with
    | none =>
      rw [hline] at h
      simp only [Option.map_none, foldl_feedLine_none] at h
      cases h
    | some l' =>
      rw [hline] at h
      have hnext := ih h
      have hle := count_le_of_appendFolded hline
      simp only [count_append] at hnext
      rw [map_cons, sum_cons]
      omega

end LineFolder

/-! ## Transparency -/

section

variable {m r : Bytes}

theorem count_joinSep (ls : List Bytes) (rest : Bytes) :
    (joinSep 13 10 ls rest).count 46 = ((ls ++ [rest]).map (List.count 46)).sum := by
  induction ls with
  | nil => simp
  | cons l ls ih =>
    have h13 : ¬((13 : UInt8) = 46) := by decide
    have h10 : ¬((10 : UInt8) = 46) := by decide
    rw [joinSep_cons, count_append, count_cons_of_ne h13, count_cons_of_ne h10, ih, cons_append,
      map_cons, sum_cons]

/-- The bare dots of a string are those of its lines. -/
theorem bareDot_iff (m : Bytes) : bareDot m = false ↔
    ∀ l ∈ (splitSep 13 10 m).1 ++ [(splitSep 13 10 m).2], dotStuffFrom 0 l = l := by
  conv_lhs => rw [← joinSep_splitSep m, bareDot_joinSep]
  refine forall_congr' fun l => forall_congr' fun hl => bareDot_line_iff ?_
  rcases mem_append.mp hl with hl | hl
  · exact splitSep_of_mem_lines hl
  · rw [mem_singleton.mp hl]
    exact congrArg Prod.fst (splitSep_carry m)

/-- What has no bare dots comes through. -/
theorem body_dotStuff (hsh : ShortLines m) (hdot : bareDot m = false) :
    LineFolder.body [] (dotStuff m) = some m := by
  rw [bareDot_iff] at hdot
  obtain ⟨hls, hrest⟩ := forall_mem_append.mp fun l hl => And.intro (hdot l hl) (hsh l hl)
  rw [forall_mem_singleton] at hrest
  rw [LineFolder.body_eq, splitSep_dotStuff, LineFolder.foldl_feedLine_of_short hls,
    unstuffDot_dotStuff,
    hrest.1, appendFolded_of_length_le hrest.2]
  conv_rhs => rw [← joinSep_splitSep (x := 13) (y := 10) m]
  simp [joinSep]

/-- A bare dot does not come through: there are more dots than there were. -/
theorem count_lt_of_body (hdot : bareDot m ≠ false)
    (h : LineFolder.body [] (dotStuff m) = some r) : m.count 46 < r.count 46 := by
  rw [Ne, bareDot_iff, not_forall] at hdot
  obtain ⟨l, hdot⟩ := hdot
  obtain ⟨hl, hne⟩ := Classical.not_imp.mp hdot
  have hlt : (((splitSep 13 10 m).1 ++ [(splitSep 13 10 m).2]).map (List.count 46)).sum <
      (((splitSep 13 10 m).1 ++ [(splitSep 13 10 m).2]).map
        fun l => (dotStuffFrom 0 l).count 46).sum :=
    sum_lt_sum _ _ (fun l _ => count_le_dotStuffFrom 0 l)
      ⟨l, hl, (dotStuffFrom_eq_or_count_lt 0 l).resolve_left hne⟩
  rw [← count_joinSep, joinSep_splitSep, map_append, sum_append] at hlt
  rw [LineFolder.body_eq, splitSep_dotStuff] at h
  obtain ⟨out, hout, htail⟩ := Option.bind_eq_some_iff.mp h
  obtain ⟨t, ht, rfl⟩ := Option.map_eq_some_iff.mp htail
  have hlines := LineFolder.count_le_of_foldl_feedLine hout
  rw [unstuffDot_dotStuff] at ht
  have hlast := count_le_of_appendFolded ht
  simp only [count_append, count_nil, map_singleton, sum_singleton] at hlines hlt ⊢
  omega

/-- What is stored of a stuffed string, against a body with as many dots. -/
theorem transparent_dotStuff_iff {body : Bytes} (hsh : ShortLines m)
    (hcnt : body.count 46 = m.count 46) :
    Transparent body (LineFolder.body [] (dotStuff m)) ↔
      bareDot m = false ∧ (body = m ∨ body ++ [13, 10] = m) := by
  by_cases hdot : bareDot m = false
  · simp [Transparent, body_dotStuff hsh hdot, hdot, eq_comm]
  · refine ⟨fun hout => ?_, fun h => absurd h.1 hdot⟩
    rcases hout with hout | hout
    · have hlt := count_lt_of_body hdot hout
      omega
    · have hlt := count_lt_of_body hdot hout
      simp [hcnt] at hlt

theorem shortLines_append_crlf (core : Bytes) :
    ShortLines (core ++ [13, 10]) ↔ ShortLines core := by
  unfold ShortLines
  rw [splitSep_append_lines (by decide) core []]
  simp [splitSep, or_imp, forall_and]

theorem bareDot_append_crlf (core : Bytes) : bareDot (core ++ [13, 10]) = bareDot core := by
  rw [bareDot, bareDotFrom_append_crlf]
  exact Bool.or_false _

/-- What is stored of the body without a CRLF at its end, and of what is in front of the dot. -/
theorem transparent_core_iff {body core : Bytes}
    (h : body = core ++ [13, 10] ∨ body = core ∧ ¬[13, 10] <:+ body) (hsh : ShortLines body) :
    (Transparent body (LineFolder.body [] (dotStuff core)) ↔
      bareDot body = false ∧ ¬[13, 10] <:+ body) ∧
    (Transparent body (LineFolder.body [] (dotStuff core ++ [13, 10])) ↔ bareDot body = false) := by
  have hmessage : dotStuff core ++ [13, 10] = dotStuff (core ++ [13, 10]) :=
    (dotStuff_append_crlf core []).symm
  rw [hmessage]
  rcases h with rfl | ⟨rfl, hend⟩
  · rw [transparent_dotStuff_iff ((shortLines_append_crlf core).mp hsh) (by simp),
      transparent_dotStuff_iff hsh rfl]
    simp
  · rw [transparent_dotStuff_iff hsh rfl,
      transparent_dotStuff_iff ((shortLines_append_crlf body).mpr hsh) (by simp),
      bareDot_append_crlf]
    simp [hend]

end

/-- **Transparency of the message data**: the terminator is at the end of the frame only.  If the
lines of the body are short enough, what the receiver stores is the body, or the body and one CRLF,
if and only if no dot stands behind a bare LF and the body does not end in CRLF; the latter is no
condition if the CRLF in front of the last dot counts to the message. -/
theorem transparent_iff (body : Bytes) :
    (∀ u v, dataFrame body = u ++ (endOfData ++ v) → v = []) ∧ ¬dotLine <+: dataFrame body ∧
      ∃ message, firstDotLine (dataFrame body) = some (message, []) ∧
        (ShortLines body →
          (Transparent body (LineFolder.body [] message) ↔
            bareDot body = false ∧ ¬[13, 10] <:+ body) ∧
          (Transparent body (LineFolder.body [] (message ++ [13, 10])) ↔
            bareDot body = false)) := by
  obtain ⟨core, hlines, hcore⟩ := exists_dataLines_eq body
  exact ⟨fun u v => eq_nil_of_dataFrame_eq hlines, not_dotLine_isPrefix_dataFrame hlines,
    dotStuff core, firstDotLine_dataFrame hlines, transparent_core_iff hcore⟩

def dottedBody : Bytes := bytes ".\r\n..a\r\n\r\n.b"

theorem transparent_dottedBody :
    ShortLines dottedBody ∧ ∃ message, firstDotLine (dataFrame dottedBody) = some (message, []) ∧
      Transparent dottedBody (LineFolder.body [] message) := by
  have hsh : ShortLines dottedBody := by
    unfold ShortLines
    decide
  obtain ⟨-, -, message, hmsg, hiff⟩ := transparent_iff dottedBody
  exact ⟨hsh, message, hmsg, (hiff hsh).1.mpr (by decide)⟩

def bareDotBody : Bytes := bytes "a\n.b"

/-- **Not every body comes through**: the dot behind the bare LF stays doubled. -/
theorem not_forall_transparent :
    ¬∀ body message, firstDotLine (dataFrame body) = some (message, []) → ShortLines body →
      Transparent body (LineFolder.body [] message) ∨
        Transparent body (LineFolder.body [] (message ++ [13, 10])) := by
  intro h
  have hsh : ShortLines bareDotBody := by
    unfold ShortLines
    decide
  have hdot : bareDot bareDotBody ≠ false := by decide
  obtain ⟨core, hlines, hcore⟩ := exists_dataLines_eq bareDotBody
  obtain ⟨hfst, hsecond⟩ := transparent_core_iff hcore hsh
  rcases h bareDotBody (dotStuff core) (firstDotLine_dataFrame hlines) hsh with hout | hout
  · exact hdot (hfst.mp hout).1
  · exact hdot (hsecond.mp hout)

end ProtoRelay
