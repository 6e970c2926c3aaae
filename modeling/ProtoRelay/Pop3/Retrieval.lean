import ProtoRelay.Pop3.Session
import ProtoRelay.Smtp.LineFolder

/-!
# The reply to RETR

A message is sent line by line, with a dot in front of a line that begins with one, and a line with
a single dot ends it.  A client that splits the reply at CRLF and takes the dots away gets the lines
of the message.
-/

namespace ProtoRelay

open List

/-- **The lines of a text**: there is no LF in them, and each of them with a LF is the text, in
which the last LF may be missing. -/
structure IsLines (text : Bytes) (lines : List Bytes) : Prop where
  not_mem : ∀ l ∈ lines, 10 ∉ l
  join : lines.flatMap (· ++ [10]) =
    if text = [] ∨ text.getLast? = some 10 then text else text ++ [10]

theorem isLines_getLines (s : Bytes) : IsLines s (getLines s) := by
  induction s with
  | nil => exact ⟨nofun, rfl⟩
  | cons b s ih =>
    obtain ⟨hnot, hjoin⟩ := ih
    rw [getLines]
    split
    · next hb =>
      subst hb
      refine ⟨forall_mem_cons.mpr ⟨not_mem_nil, hnot⟩, ?_⟩
      cases s with
      | nil => rfl
      | cons c s =>
        split <;> simp_all
    · next hb =>
      cases hlines : getLines s with
      | nil =>
        obtain rfl : s = [] := by
          by_contra hs
          simp [hs] at hjoin
          split at hjoin <;> simp_all
        refine ⟨by simpa using Ne.symm hb, by simp [hb]⟩
      | cons l ls =>
        rw [hlines] at hnot hjoin
        rw [forall_mem_cons] at hnot
        refine ⟨forall_mem_cons.mpr ⟨by simp [Ne.symm hb, hnot.1], hnot.2⟩, ?_⟩
        rw [flatMap_cons] at hjoin ⊢
        rw [cons_append, cons_append, hjoin]
        cases s with
        | nil => cases hlines
        | cons c s => simp [apply_ite (b :: ·)]

theorem splitSep_of_not_mem {s : Bytes} (h : 10 ∉ s) : (splitSep 13 10 s).1 = [] := by
  induction s with
  | nil => rfl
  | cons b s ih =>
    rw [mem_cons, not_or] at h
    refine splitSep_cons_no_lines_iff.mpr ⟨ih h.2, fun ⟨_, hhead⟩ => ?_⟩
    exact h.2 (mem_of_mem_head? hhead)

/-- A line as it is sent, without its end. -/
def stuffLine (line : Bytes) : Bytes := if line.head? = some 46 then 46 :: line else line

theorem stuffLine_ne_dot (line : Bytes) : stuffLine line ≠ [46] := by
  unfold stuffLine
  split <;> rintro h <;> simp_all

theorem unstuffDot_stuffLine (line : Bytes) : unstuffDot (stuffLine line) = line := by
  cases line with
  | nil => rfl
  | cons b line => by_cases hb : b = 46 <;> simp [stuffLine, unstuffDot, hb]

theorem not_mem_stuffLine {line : Bytes} (h : 10 ∉ line) : 10 ∉ stuffLine (stripCr line) := by
  have hstrip : 10 ∉ stripCr line := by
    unfold stripCr
    split
    · exact fun hmem => h (mem_of_mem_dropLast hmem)
    · exact h
  unfold stuffLine
  split
  · exact fun hmem => (mem_cons.mp hmem).elim (by decide) hstrip
  · exact hstrip

theorem lf_not_mem_decimal (n : Nat) : 10 ∉ decimal n := by
  cases n with
  | zero => decide
  | succ n => exact (isNumeral_decimal n.succ_pos).1.not_mem (.inl (by decide))

/-- **A retrieved message is framed.**  Behind the status line the reply has the lines of the body,
with dots in front of those that begin with one, and then a single dot, which none of them is.
Without these dots they are the lines of the body without the CR at their ends. -/
theorem retr_framed (target : Pop3Message) (body : Bytes) :
    ∃ raw lines, IsLines body raw ∧
      splitSep 13 10 (pop3Line (retrReply target (some body))) =
        ((bytes "+OK " ++ decimal target.size ++ bytes " octets") :: (lines ++ [[46]]), []) ∧
      [46] ∉ lines ∧ lines.map unstuffDot = raw.map stripCr := by
  have hraw := isLines_getLines body
  refine ⟨getLines body, (getLines body).map (stuffLine ∘ stripCr), hraw, ?_, ?_, ?_⟩
  · have hstatus : 10 ∉ bytes "+OK " ++ decimal target.size ++ bytes " octets" := by
      simp only [mem_append, not_or]
      exact ⟨⟨by decide, lf_not_mem_decimal _⟩, by decide⟩
    have htext : pop3Line (retrReply target (some body)) = joinSep 13 10
        ((bytes "+OK " ++ decimal target.size ++ bytes " octets") ::
          ((getLines body).map (stuffLine ∘ stripCr) ++ [[46]])) [] := by
      have hend : (retrReply target (some body)).getLast? = some 10 := by
        rw [retrReply, getLast?_append]
        rfl
      rw [pop3Line, if_pos hend]
      rw [retrReply]
      simp [joinSep]
      rfl
    rw [htext]
    refine splitSep_joinSep (by decide) (fun l hl => splitSep_of_not_mem ?_) rfl
    obtain rfl | hl := mem_cons.mp hl
    · exact hstatus
    · obtain hl | hl := mem_append.mp hl
      · obtain ⟨l, hmem, rfl⟩ := mem_map.mp hl
        exact not_mem_stuffLine (hraw.not_mem l hmem)
      · rw [mem_singleton.mp hl]
        decide
  · intro h
    obtain ⟨l, -, hl⟩ := mem_map.mp h
    exact stuffLine_ne_dot _ hl
  · rw [map_map]
    refine map_congr_left fun l _ => ?_
    exact unstuffDot_stuffLine _

end ProtoRelay
