import ProtoRelay.Smtp.LineFolder

/-!
# When folding a line ends

The loop of `append_folded` goes back from the hard limit of a segment to a byte that is no UTF-8
continuation byte.  If there is none behind the start of the segment it cuts hard; the next segment
then starts with a continuation byte, and a search that goes back past that start lands on the
earlier boundary again.  From there the loop repeats itself for ever.  This happens exactly for
lines with a long enough run of continuation bytes.
-/

namespace ProtoRelay

open List

/-! ## Boundaries -/

/-- A position where the search for a boundary stops. -/
def Boundary (line : Bytes) (c : Nat) : Prop := c = 0 ∨ isContinuation (line.getD c 0) = false

/-- The `n` bytes behind position `c` are there, and all are continuation bytes. -/
def ContinuationRun (line : Bytes) (c n : Nat) : Prop :=
  c + n < line.length ∧ ∀ i, c < i → i ≤ c + n → isContinuation (line.getD i 0) = true

variable {line x r : Bytes} {c n start fuel : Nat} {first : Bool}

theorem ContinuationRun.mono {m : Nat} (h : ContinuationRun line c n) (hm : m ≤ n) :
    ContinuationRun line c m :=
  ⟨by have := h.1; omega, fun i hi hi' => h.2 i hi (by omega)⟩

/-- The lines `append_folded` returns on: there is no run of continuation bytes that spans two
segments.  The first segment of a line is one byte longer than the others. -/
def Foldable (line : Bytes) : Prop :=
  ¬ContinuationRun line 0 (foldBudget true + foldBudget false) ∧
    ∀ c, 0 < c → isContinuation (line.getD c 0) = false →
      ¬ContinuationRun line c (foldBudget false + foldBudget false)

theorem Boundary.not_continuation (h : Boundary line c) (hpos : 0 < c) :
    isContinuation (line.getD c 0) ≠ true := by
  rcases h with rfl | h
  · omega
  · rw [h]; exact Bool.false_ne_true

theorem foldBudget_true : foldBudget true = 2048 := rfl

theorem foldBudget_false : foldBudget false = 2047 := rfl

theorem foldBudget_pos (first : Bool) : 0 < foldBudget first := by
  cases first <;> decide

theorem utf8Boundary_le (line : Bytes) (n : Nat) : utf8Boundary line n ≤ n := by
  induction n with
  | zero => exact Nat.le_refl 0
  | succ n ih =>
    rw [utf8Boundary]
    split
    · omega
    · exact Nat.le_refl _

theorem boundary_utf8Boundary (line : Bytes) (n : Nat) : Boundary line (utf8Boundary line n) := by
  induction n with
  | zero => exact .inl rfl
  | succ n ih =>
    rw [utf8Boundary]
    split
    · exact ih
    · rename_i h
      exact .inr (by simpa using h)

theorem isContinuation_of_utf8Boundary_lt {i : Nat} (hi : utf8Boundary line n < i) (hn : i ≤ n) :
    isContinuation (line.getD i 0) = true := by
  induction n with
  | zero => omega
  | succ n ih =>
    rw [utf8Boundary] at hi
    split at hi
    · rename_i h
      rcases Nat.lt_or_eq_of_le hn with hlt | rfl
      · exact ih hi (by omega)
      · exact h
    · omega

/-- The search stops at the only boundary that has nothing but continuation bytes behind it. -/
theorem utf8Boundary_eq (hc : Boundary line c) (hn : c ≤ n)
    (hrun : ∀ i, c < i → i ≤ n → isContinuation (line.getD i 0) = true) :
    utf8Boundary line n = c := by
  rcases Nat.lt_trichotomy (utf8Boundary line n) c with h | h | h
  · exact absurd (isContinuation_of_utf8Boundary_lt h hn) (hc.not_continuation (by omega))
  · exact h
  · exact absurd (hrun _ h (utf8Boundary_le line n))
      ((boundary_utf8Boundary line n).not_continuation (by omega))

theorem foldCut_of_eq (h : utf8Boundary line (start + foldBudget first) = start) :
    foldCut line start first = start + foldBudget first := if_pos h

theorem foldCut_of_ne (h : utf8Boundary line (start + foldBudget first) ≠ start) :
    foldCut line start first = utf8Boundary line (start + foldBudget first) := if_neg h

/-! ## Where segments start -/

/-- The starts of the segments, as long as the loop has not gone back: the start of the line, a
boundary, or the place of a hard cut behind a boundary. -/
inductive Reached (line : Bytes) : Nat → Bool → Prop
  | first : Reached line 0 true
  | boundary {c : Nat} (hpos : 0 < c) (hc : Boundary line c) : Reached line c false
  | hard {c : Nat} (hc : Boundary line c)
      (hrun : ContinuationRun line c (foldBudget (decide (c = 0)))) :
      Reached line (c + foldBudget (decide (c = 0))) false

theorem Reached.first_eq (h : Reached line start first) : first = decide (start = 0) := by
  cases h with
  | first => rfl
  | boundary hpos => simp; omega
  | @hard c =>
    have := foldBudget_pos (decide (c = 0))
    simp only [Bool.false_eq, decide_eq_false_iff_not]
    omega

section

variable (h : Reached line start first) (hlen : foldBudget first < line.length - start)

include h hlen

/-- A cut that does not go back is reached, and the loop has moved forward. -/
theorem Reached.cut (hback : start ≤ utf8Boundary line (start + foldBudget first)) :
    start < foldCut line start first ∧ foldCut line start first ≤ start + foldBudget first ∧
      Reached line (foldCut line start first) false := by
  have hle := utf8Boundary_le line (start + foldBudget first)
  have hpos := foldBudget_pos first
  have hb := boundary_utf8Boundary line (start + foldBudget first)
  by_cases heq : utf8Boundary line (start + foldBudget first) = start
  · rw [heq] at hb
    rw [foldCut_of_eq heq]
    refine ⟨by omega, by omega, ?_⟩
    rw [h.first_eq]
    refine .hard hb ⟨by rw [← h.first_eq]; omega, fun i hi hi' => ?_⟩
    rw [← h.first_eq] at hi'
    exact isContinuation_of_utf8Boundary_lt (by omega) hi'
  · rw [foldCut_of_ne heq]
    exact ⟨by omega, hle, .boundary (by omega) hb⟩

/-- **A cut goes back only over a run that spans two segments**, and then to its boundary. -/
theorem Reached.run_of_back (hback : utf8Boundary line (start + foldBudget first) < start) :
    ∃ c, Boundary line c ∧ foldCut line start first = c ∧
      ContinuationRun line c (foldBudget (decide (c = 0)) + foldBudget false) := by
  have hcont : ∀ i, utf8Boundary line (start + foldBudget first) < i →
      i ≤ start + foldBudget first → isContinuation (line.getD i 0) = true :=
    fun i hi hi' => isContinuation_of_utf8Boundary_lt hi hi'
  cases h with
  | first => omega
  | boundary hpos hc =>
    -- a boundary with a position before it is no continuation byte
    exact absurd (hcont start hback (by omega)) (hc.not_continuation hpos)
  | @hard c hc hrun =>
    have hall : ∀ i, c < i → i ≤ c + foldBudget (decide (c = 0)) + foldBudget false →
        isContinuation (line.getD i 0) = true := by
      intro i hi hi'
      by_cases hle : i ≤ c + foldBudget (decide (c = 0))
      · exact hrun.2 i hi hle
      · exact hcont i (by omega) hi'
    have heq := utf8Boundary_eq hc (by omega) hall
    refine ⟨c, hc, ?_, by omega, fun i hi hi' => hall i hi (by omega)⟩
    rw [foldCut_of_ne (by omega), heq]

end

/-! ## Ending -/

theorem foldLoop_succ (fuel : Nat) (line : Bytes) (start : Nat) (first : Bool) (out : Bytes) :
    foldLoop (fuel + 1) line start first out =
      if foldBudget first < line.length - start then
        foldLoop fuel line (foldCut line start first) false
          (out ++ foldPiece line start (foldCut line start first) ++ bytes "\r\n ")
      else some (out ++ line.drop start) := rfl

/-- **Going back is for ever**: from the boundary of a run that spans two segments the loop comes
back to it after two rounds. -/
theorem foldLoop_eq_none_of_run (hc : Boundary line c)
    (hrun : ContinuationRun line c (foldBudget false + foldBudget false)) (fuel : Nat)
    (out : Bytes) :
    foldLoop fuel line c false out = none := by
  have hlen := hrun.1
  have hpos := foldBudget_pos false
  have hfst : foldCut line c false = c + foldBudget false := by
    have heq := utf8Boundary_eq hc (by omega : c ≤ c + foldBudget false)
      fun i hi hi' => hrun.2 i hi (by omega)
    exact foldCut_of_eq heq
  have hsecond : foldCut line (c + foldBudget false) false = c := by
    have heq := utf8Boundary_eq hc (by omega : c ≤ c + foldBudget false + foldBudget false)
      fun i hi hi' => hrun.2 i hi (by omega)
    rw [foldCut_of_ne (by omega), heq]
  induction fuel using Nat.strongRecOn generalizing out with
  | _ fuel ih =>
    match fuel with
    | 0 => rfl
    | 1 => rw [foldLoop_succ, if_pos (by omega)]; rfl
    | fuel + 2 =>
      rw [foldLoop_succ, if_pos (by omega), hfst, foldLoop_succ, if_pos (by omega), hsecond]
      exact ih fuel (by omega) _

section

variable (h : Reached line start first)

include h

theorem Reached.foldLoop_eq_none_of_back (hlen : foldBudget first < line.length - start)
    (hback : utf8Boundary line (start + foldBudget first) < start) (fuel : Nat) (out : Bytes) :
    foldLoop fuel line start first out = none := by
  cases fuel with
  | zero => rfl
  | succ fuel =>
    obtain ⟨c, hc, hcut, hrun⟩ := h.run_of_back hlen hback
    rw [foldLoop_succ, if_pos hlen, hcut]
    refine foldLoop_eq_none_of_run hc (hrun.mono ?_) fuel _
    cases hd : decide (c = 0) <;> simp [foldBudget_true, foldBudget_false]

theorem Foldable.not_back (hf : Foldable line) (hlen : foldBudget first < line.length - start) :
    start ≤ utf8Boundary line (start + foldBudget first) := by
  by_contra hback
  obtain ⟨c, hc, -, hrun⟩ := h.run_of_back hlen (by omega)
  by_cases h0 : c = 0
  · subst h0
    exact hf.1 (by simpa using hrun)
  · refine hf.2 c (by omega) (hc.resolve_left h0) ?_
    simpa [h0] using hrun

/-- On a foldable line the loop moves forward, so that one round for each byte is enough. -/
theorem Foldable.isSome_foldLoop (hf : Foldable line)
    (hfuel : line.length - start < fuel) (out : Bytes) :
    (foldLoop fuel line start first out).isSome := by
  induction fuel generalizing start first out with
  | zero => omega
  | succ fuel ih =>
    rw [foldLoop_succ]
    split
    · rename_i hlen
      obtain ⟨hfwd, -, hre⟩ := h.cut hlen (hf.not_back h hlen)
      exact ih hre (by omega) _
    · rfl

/-- A long run behind a boundary is met by the loop, whatever comes before it. -/
theorem Reached.foldLoop_eq_none_of_run (hpos : 0 < c) (hc : Boundary line c)
    (hrun : ContinuationRun line c (foldBudget false + foldBudget false)) (hstart : start ≤ c)
    (fuel : Nat) (out : Bytes) :
    foldLoop fuel line start first out = none := by
  induction fuel generalizing start first out with
  | zero => rfl
  | succ fuel ih =>
    have hbudget : foldBudget first ≤ foldBudget false + 1 := by cases first <;> decide
    have hrun' := hrun.1
    have h2047 := foldBudget_false
    by_cases heq : start = c
    · subst heq
      have hfst : first = false := by rw [h.first_eq]; simp; omega
      subst hfst
      exact ProtoRelay.foldLoop_eq_none_of_run hc hrun _ _
    · have hlen : foldBudget first < line.length - start := by omega
      by_cases hback : utf8Boundary line (start + foldBudget first) < start
      · exact h.foldLoop_eq_none_of_back hlen hback _ _
      · obtain ⟨hfwd, hle, hre⟩ := h.cut hlen (by omega)
        rw [foldLoop_succ, if_pos hlen]
        refine ih hre ?_ _
        -- a segment that could reach over the boundary is cut at it
        by_cases hover : start + foldBudget first < c
        · omega
        · have hcut := utf8Boundary_eq hc (by omega : c ≤ start + foldBudget first)
            fun i hi hi' => hrun.2 i hi (by omega)
          rw [foldCut_of_ne (by omega), hcut]

end

/-- **On a line that is not foldable no number of rounds is enough.** -/
theorem foldLoop_eq_none_of_not_foldable (h : ¬Foldable line) (fuel : Nat) (out : Bytes) :
    foldLoop fuel line 0 true out = none := by
  simp only [Foldable, not_and_or, not_not, not_forall] at h
  rcases h with hrun | ⟨c, hpos, hc, hrun⟩
  · cases fuel with
    | zero => rfl
    | succ fuel =>
      have hlen := hrun.1
      have hbudget := foldBudget_true
      have hzero : Boundary line 0 := .inl rfl
      have hsearch : ∀ n ≤ foldBudget true + foldBudget false, utf8Boundary line n = 0 :=
        fun n hn => utf8Boundary_eq hzero (Nat.zero_le n) fun i hi hi' => hrun.2 i hi (by omega)
      -- the first segment is cut hard, and the second one goes back to the start of the line
      have hcut : foldCut line 0 true = 0 + foldBudget (decide ((0 : Nat) = 0)) :=
        foldCut_of_eq (hsearch _ (by omega))
      rw [foldLoop_succ, if_pos (by omega), hcut]
      have hre : Reached line (0 + foldBudget (decide ((0 : Nat) = 0))) false :=
        .hard hzero (hrun.mono (by simp))
      have hsecond := hsearch (0 + foldBudget (decide ((0 : Nat) = 0)) + foldBudget false) (by simp)
      refine hre.foldLoop_eq_none_of_back ?_ ?_ fuel _
      · simp only [decide_true]; omega
      · rw [hsecond]; simp only [decide_true]; omega
  · exact Reached.first.foldLoop_eq_none_of_run hpos (.inr hc) hrun (Nat.zero_le c) fuel out

/-- **Folding a line ends exactly if the line is foldable.** -/
theorem isSome_appendFolded_iff (line : Bytes) : (appendFolded line).isSome ↔ Foldable line := by
  constructor
  · intro h
    by_contra hf
    simp [appendFolded, foldLoop_eq_none_of_not_foldable hf] at h
  · intro hf
    exact hf.isSome_foldLoop .first (by omega) []

/-! ## One more byte -/

theorem utf8Boundary_append (hn : n < x.length) (y : Bytes) :
    utf8Boundary (x ++ y) n = utf8Boundary x n := by
  induction n with
  | zero => rfl
  | succ n ih =>
    have hget : (x ++ y).getD (n + 1) 0 = x.getD (n + 1) 0 := by
      simp only [getD_eq_getElem?_getD, getElem?_append_left hn]
    rw [utf8Boundary, utf8Boundary, hget, ih (by omega)]

theorem foldCut_append (h : start + foldBudget first < x.length) (y : Bytes) :
    foldCut (x ++ y) start first = foldCut x start first := by
  simp only [foldCut, utf8Boundary_append h]

theorem foldPiece_append {cut : Nat} (hs : start ≤ cut) (hc : cut ≤ x.length) (y : Bytes) :
    foldPiece (x ++ y) start cut = foldPiece x start cut := by
  have hlt : ¬cut < start := by omega
  simp only [foldPiece, hlt, if_false]
  rw [drop_append_of_le_length (by omega), take_append_of_le_length]
  rw [length_drop]
  omega

theorem length_le_of_foldLoop {out : Bytes} (h : foldLoop fuel line start first out = some r) :
    out.length ≤ r.length := by
  induction fuel generalizing start first out with
  | zero => cases h
  | succ fuel ih =>
    rw [foldLoop_succ] at h
    split at h
    · have := ih h
      simp only [length_append] at this
      omega
    · obtain rfl := Option.some.inj h
      simp

/-- **A carriage return at the end of a line makes what is stored longer**, even where the folding
of the line changes with it. -/
theorem Foldable.length_foldLoop_lt (hf : Foldable line) (hre : Reached line start first)
    (hstart : start ≤ line.length) {fuel' : Nat} {out r' : Bytes}
    (h : foldLoop fuel line start first out = some r)
    (h' : foldLoop fuel' (line ++ [13]) start first out = some r') : r.length < r'.length := by
  induction fuel generalizing start first fuel' out with
  | zero => cases h
  | succ fuel ih =>
    cases fuel' with
    | zero => cases h'
    | succ fuel' =>
      have hpos := foldBudget_pos first
      have hlength : (line ++ [13]).length = line.length + 1 := by simp
      rw [foldLoop_succ] at h h'
      by_cases hlen : foldBudget first < line.length - start
      · -- the segment ends before the new byte: both loops cut it in the same place
        obtain ⟨hfwd, hle, hnext⟩ := hre.cut hlen (hf.not_back hre hlen)
        rw [if_pos hlen] at h
        rw [if_pos (by omega), foldCut_append (by omega),
          foldPiece_append (by omega) (by omega)] at h'
        exact ih hnext (by omega) h h'
      · rw [if_neg hlen] at h
        obtain rfl := Option.some.inj h
        by_cases hlen' : foldBudget first < (line ++ [13]).length - start
        · -- the new byte is the one too many: the last segment of the line is full
          rw [if_pos hlen'] at h'
          have heq : start + foldBudget first = line.length := by omega
          have hcr : Boundary (line ++ [13]) line.length := by
            refine .inr ?_
            rw [getD_eq_getElem?_getD, getElem?_concat_length]
            decide
          have hb : utf8Boundary (line ++ [13]) (start + foldBudget first) = line.length :=
            utf8Boundary_eq hcr (by omega) fun i hi hi' => by omega
          rw [foldCut_of_ne (by omega), hb] at h'
          have hout := length_le_of_foldLoop h'
          have hpiece : foldPiece (line ++ [13]) start line.length = line.drop start := by
            rw [foldPiece_append hstart (Nat.le_refl _)]
            simp only [foldPiece, show ¬line.length < start by omega, if_false]
            exact take_of_length_le (by simp)
          have hsep : (bytes "\r\n ").length = 3 := by decide
          rw [hpiece] at hout
          simp only [length_append, hsep] at hout ⊢
          omega
        · rw [if_neg hlen'] at h'
          obtain rfl := Option.some.inj h'
          rw [drop_append_of_le_length hstart]
          simp

theorem length_appendFolded_lt {r' : Bytes} (h : appendFolded line = some r)
    (h' : appendFolded (line ++ [13]) = some r') : r.length < r'.length :=
  ((isSome_appendFolded_iff line).mp (by rw [h]; rfl)).length_foldLoop_lt .first
  (Nat.zero_le _) h h'

theorem foldable_of_length_le (h : line.length ≤ 4094) : Foldable line := by
  have h1 := foldBudget_true
  have h2 := foldBudget_false
  exact ⟨fun hrun => by have := hrun.1; omega, fun c _ _ hrun => by have := hrun.1; omega⟩

end ProtoRelay
