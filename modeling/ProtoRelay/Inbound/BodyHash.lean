import ProtoRelay.Inbound.Dkim
import ProtoRelay.Pop3.Retrieval

/-!
# The body that is hashed

A DKIM signature covers the hash of a canonical form of the body.  A stored message is hashed while
it is read, line by line: empty lines are counted, and what was counted is fed to the hash when a
line follows.  The count is an `int`.  As long as it does not overflow, the result is the hash of
the canonical form in memory.
-/

namespace ProtoRelay

open List InboundVerifier

variable {lines : List Bytes}

theorem dropTrailingEmpty_cons (line : Bytes) (lines : List Bytes) :
    dropTrailingEmpty (line :: lines) =
    if dropTrailingEmpty lines = [] then if line = [] then [] else [line]
    else line :: dropTrailingEmpty lines := by
  unfold dropTrailingEmpty
  rw [reverse_cons, dropWhile_append]
  by_cases h : lines.reverse.dropWhile (·.isEmpty) = []
  · cases line <;> simp [h]
  · simp [h]

/-! ## The stream with an exact count -/

/-- A line in its canonical form. -/
def canonLine (relaxed : Bool) (line : Bytes) : Bytes :=
  if relaxed then relaxLineFrom line false else line

/-- The empty lines between two lines. -/
def blankLines (n : Nat) : Bytes := (replicate n (bytes "\r\n")).flatten

/-- `bodyStreamFrom` with a count that does not overflow. -/
def exactStreamFrom (relaxed : Bool) : List Bytes → Option Bytes → Nat → Bytes → Bytes
  | [], pending, _, fed => bodyStreamFrom relaxed [] pending 0 fed
  | line :: lines, pending, empties, fed =>
    if line = [] then exactStreamFrom relaxed lines pending (empties + 1) fed
    else
      exactStreamFrom relaxed lines (some (canonLine relaxed line)) 0
        (fed ++ (pending.map (· ++ bytes "\r\n")).getD [] ++ blankLines empties)

/-- **What the hash is fed**: what was fed before, the line that waits and the empty lines behind
it, and the lines up to the last one that is not empty. -/
theorem exactStreamFrom_eq (relaxed : Bool) (lines : List Bytes) (pending : Option Bytes)
    (empties : Nat) (fed : Bytes) : exactStreamFrom relaxed lines pending empties fed =
      if dropTrailingEmpty lines = [] then bodyStreamFrom relaxed [] pending 0 fed
      else fed ++ (pending.map (· ++ bytes "\r\n")).getD [] ++ blankLines empties ++
        (dropTrailingEmpty lines).flatMap fun line => canonLine relaxed line ++ bytes "\r\n" := by
  induction lines generalizing pending empties fed with
  | nil => rfl
  | cons line lines ih =>
    rw [exactStreamFrom, dropTrailingEmpty_cons]
    by_cases hline : line = []
    · -- the line is counted
      have hcanon : canonLine relaxed [] = [] := ite_self _
      rw [if_pos hline, ih]
      split
      · simp
      · simp [hline, hcanon, blankLines, replicate_succ']
    · -- the line that waited is fed, and this one waits
      have hne : (if dropTrailingEmpty lines = [] then [line]
          else line :: dropTrailingEmpty lines) ≠ [] := by
        split <;> exact cons_ne_nil _ _
      rw [if_neg hline, if_neg hline, if_neg hne, ih]
      split <;> simp [bodyStreamFrom, blankLines]

theorem exactStream_splitLinesLf (canon body : Bytes) :
    exactStreamFrom (canon = bytes "relaxed") (splitLinesLf body) none 0 [] =
      normalizeBody canon body := by
  rw [exactStreamFrom_eq]
  unfold normalizeBody normalizeBodyRelaxed normalizeBodySimple
  by_cases hcanon : canon = bytes "relaxed"
  · split <;> simp [*, bodyStreamFrom, canonLine, blankLines]
  · split <;> simp [*, bodyStreamFrom, canonLine, blankLines]

/-! ## The count -/

/-- The count of this many lines is below 2³¹ whenever a line that is not empty follows. -/
def ShortGaps : List Bytes → Nat → Prop
  | [], _ => True
  | line :: lines, n =>
    if line = [] then ShortGaps lines (n + 1) else n < 2 ^ 31 ∧ ShortGaps lines 0

/-- What is fed for a count that may have overflowed. -/
theorem toNat_count (n : Nat) : (BitVec.ofNat 32 n).toInt.toNat ≤ n ∧
    ((BitVec.ofNat 32 n).toInt.toNat = n ↔ n < 2 ^ 31) := by
  rw [BitVec.toInt_eq_toNat_cond, BitVec.toNat_ofNat]
  split <;> omega

theorem ofNat_count_succ (n : Nat) : BitVec.ofNat 32 n + 1 = BitVec.ofNat 32 (n + 1) :=
  (BitVec.ofNat_add n 1).symm

theorem bodyStreamFrom_cons {line : Bytes} (hline : line ≠ []) (relaxed : Bool) (lines : List Bytes)
    (pending : Option Bytes) (empties : BitVec 32) (fed : Bytes) :
    bodyStreamFrom relaxed (line :: lines) pending empties fed =
      bodyStreamFrom relaxed lines (some (canonLine relaxed line)) (BitVec.ofNat 32 0)
        (fed ++ (pending.map (· ++ bytes "\r\n")).getD [] ++ blankLines empties.toInt.toNat) := by
  rw [bodyStreamFrom, if_neg hline]
  cases pending <;> simp [canonLine, blankLines]

theorem bodyStreamFrom_of_shortGaps {relaxed : Bool} {pending : Option Bytes} {n : Nat}
    {fed : Bytes} (h : ShortGaps lines n) :
    bodyStreamFrom relaxed lines pending (BitVec.ofNat 32 n) fed =
      exactStreamFrom relaxed lines pending n fed := by
  induction lines generalizing pending n fed with
  | nil => cases pending <;> rfl
  | cons line lines ih =>
    unfold ShortGaps at h
    rw [exactStreamFrom]
    by_cases hline : line = []
    · rw [if_pos hline] at h ⊢
      rw [bodyStreamFrom, if_pos hline, ofNat_count_succ, ih h]
    · rw [if_neg hline] at h ⊢
      rw [bodyStreamFrom_cons hline, (toNat_count n).2.mpr h.1]
      exact ih h.2

@[simp] theorem length_blankLines (n : Nat) : (blankLines n).length = 2 * n := by
  simp [blankLines, show (bytes "\r\n").length = 2 from rfl, Nat.mul_comm]

/-- **A count that overflowed is missed**: the lines that were not fed are not made up for. -/
theorem length_bodyStreamFrom {relaxed : Bool} {pending : Option Bytes} {n : Nat} {fed fed' : Bytes}
    {missed : Nat} (hle : fed.length + missed ≤ fed'.length) :
    (bodyStreamFrom relaxed lines pending (BitVec.ofNat 32 n) fed).length + missed ≤
        (exactStreamFrom relaxed lines pending n fed').length ∧
      (¬ShortGaps lines n →
        (bodyStreamFrom relaxed lines pending (BitVec.ofNat 32 n) fed).length + missed <
          (exactStreamFrom relaxed lines pending n fed').length) := by
  induction lines generalizing pending n fed fed' missed with
  | nil =>
    refine ⟨?_, fun h => absurd trivial h⟩
    cases pending with
    | none =>
      cases relaxed
      · simp only [bodyStreamFrom, exactStreamFrom, Bool.false_eq_true, if_false, length_append]
        omega
      · exact hle
    | some p =>
      simp only [bodyStreamFrom, exactStreamFrom, length_append]
      omega
  | cons line lines ih =>
    unfold ShortGaps
    rw [exactStreamFrom]
    by_cases hline : line = []
    · rw [if_pos hline, if_pos hline, bodyStreamFrom, if_pos hline, ofNat_count_succ]
      exact ih hle
    · obtain ⟨hcount, hexact⟩ := toNat_count n
      rw [if_neg hline, if_neg hline, bodyStreamFrom_cons hline]
      generalize (BitVec.ofNat 32 n).toInt.toNat = k at hcount hexact ⊢
      -- with this line the empty lines in front of it are missed that were not counted
      obtain ⟨hnext, hlost⟩ := @ih (some (canonLine relaxed line)) 0
        (fed ++ (pending.map (· ++ bytes "\r\n")).getD [] ++ blankLines k)
        (fed' ++ (pending.map (· ++ bytes "\r\n")).getD [] ++ blankLines n)
        (missed + 2 * (n - k)) (by
          simp only [length_append, length_blankLines]
          omega)
      refine ⟨by omega, fun hgaps => ?_⟩
      by_cases hshort : n < 2 ^ 31
      · have hlater := hlost fun h => hgaps ⟨hshort, h⟩
        omega
      · have hmissed : k ≠ n := fun h => hshort (hexact.mp h)
        omega

/-! ## The hash of a stored message -/

/-- The body begins behind the first blank line. -/
theorem bodyLines_message (h : ∀ l ∈ lines, 10 ∉ l ∧ stripCr l ≠ []) {sep : Bytes}
    (hsep : sep = [10] ∨ sep = [13, 10]) (body : Bytes) :
    bodyLines (splitLinesLf (lines.flatMap (· ++ [10]) ++ sep ++ body)) = splitLinesLf body := by
  unfold splitLinesLf
  induction lines with
  | nil =>
    rcases hsep with rfl | rfl
    · rfl
    · exact congrArg (fun ls => bodyLines (ls.map stripCr))
        (getLines_append_lf (l := [13]) (by decide) body)
  | cons l lines ih =>
    rw [forall_mem_cons] at h
    rw [flatMap_cons, append_assoc, append_assoc, append_assoc, singleton_append,
      getLines_append_lf h.1.1, map_cons, bodyLines, if_neg h.1.2, ← append_assoc, ih h.2]

/-- The hash of a stored message, for both canonical forms. -/
def StoredHashAgrees (sha256 : Bytes → Bytes) (path content body : Bytes) : Prop :=
  bodyHashOfFile sha256 path (some content) (bytes "simple") =
      .ok (base64 (sha256 (normalizeBodySimple body))) ∧
    bodyHashOfFile sha256 path (some content) (bytes "relaxed") =
      .ok (base64 (sha256 (normalizeBodyRelaxed body)))

/-- **The hash of a stored message is that of its canonical body**, for a header block with lines
that are not blank, a blank line and a body, exactly if there are never 2³¹ empty lines in front of
one that is not empty. -/
theorem storedHashAgrees_iff (h : ∀ l ∈ lines, 10 ∉ l ∧ stripCr l ≠ []) {sep : Bytes}
    (hsep : sep = [10] ∨ sep = [13, 10]) (body : Bytes) :
    (∀ sha256 path, StoredHashAgrees sha256 path (lines.flatMap (· ++ [10]) ++ sep ++ body) body) ↔
      ShortGaps (splitLinesLf body) 0 := by
  have hstream (canon : Bytes) : dkimBodyStream canon (lines.flatMap (· ++ [10]) ++ sep ++ body) =
      bodyStreamFrom (canon = bytes "relaxed") (splitLinesLf body) none 0 [] := by
    rw [dkimBodyStream, bodyLines_message h hsep]
  constructor
  · intro hall
    by_contra hgaps
    -- a hash that tells the canonical form from everything else
    have hhash := (hall (fun s => if s = normalizeBodySimple body then [] else [0]) []).1
    have hlt := (@length_bodyStreamFrom (splitLinesLf body)
      (bytes "simple" = bytes "relaxed") none 0 [] [] 0 le_rfl).2 hgaps
    rw [exactStream_splitLinesLf] at hlt
    have hne : dkimBodyStream (bytes "simple") (lines.flatMap (· ++ [10]) ++ sep ++ body) ≠
        normalizeBodySimple body := by
      intro heq
      rw [hstream] at heq
      rw [show BitVec.ofNat 32 0 = 0 from rfl, heq] at hlt
      exact Nat.lt_irrefl _ hlt
    rw [bodyHashOfFile] at hhash
    simp only [if_neg hne, if_pos] at hhash
    exact absurd hhash (by decide)
  · intro hgaps sha256 path
    have hall (canon : Bytes) : dkimBodyStream canon (lines.flatMap (· ++ [10]) ++ sep ++ body) =
        normalizeBody canon body := by
      rw [hstream, ← exactStream_splitLinesLf]
      exact bodyStreamFrom_of_shortGaps hgaps
    have hhash (canon : Bytes) :=
      congrArg (fun s => (Except.ok (base64 (sha256 s)) : Except Bytes Bytes)) (hall canon)
    exact ⟨hhash (bytes "simple"), hhash (bytes "relaxed")⟩

/-- A header field, and a body with an empty line between two others and one at its end. -/
theorem storedHashAgrees_hello :
    StoredHashAgrees id [] ([bytes "a: b\r"].flatMap (· ++ [10]) ++ [13, 10] ++ bytes "x \n\ny\n\n")
      (bytes "x \n\ny\n\n") := by
  refine (storedHashAgrees_iff (by simp only [mem_singleton, forall_eq]; decide) (.inr rfl) _).mpr
    ?_ id []
  have hlines : splitLinesLf (bytes "x \n\ny\n\n") = [bytes "x ", [], bytes "y", []] := by decide
  rw [hlines]
  exact ⟨by decide, by decide, trivial⟩

/-! ## A body that is hashed wrongly -/

theorem splitLinesLf_blank (n : Nat) :
    splitLinesLf (replicate n 10 ++ [120]) = replicate n [] ++ [[120]] := by
  unfold splitLinesLf
  induction n with
  | zero => decide
  | succ n ih =>
    rw [replicate_succ, replicate_succ, cons_append, cons_append, ← ih]
    exact congrArg (map stripCr) (getLines_append_lf (l := []) not_mem_nil _)

theorem lt_of_shortGaps_blank {n m : Nat} (h : ShortGaps (replicate n [] ++ [[120]]) m) :
    m + n < 2 ^ 31 := by
  induction n generalizing m with
  | zero => exact h.1
  | succ n ih =>
    have hrest := ih (m := m + 1) h
    omega

/-- 2³¹ empty lines in front of a line. -/
theorem not_forall_storedHashAgrees :
    ¬∀ (lines : List Bytes) (sep body : Bytes) (sha256 : Bytes → Bytes) (path : Bytes),
      (∀ l ∈ lines, 10 ∉ l ∧ stripCr l ≠ []) → sep = [10] ∨ sep = [13, 10] →
        StoredHashAgrees sha256 path (lines.flatMap (· ++ [10]) ++ sep ++ body) body := by
  intro h
  have hheader : ∀ l ∈ [bytes "a: b\r"], 10 ∉ l ∧ stripCr l ≠ [] := by
    simp only [mem_singleton, forall_eq]
    decide
  have hall (n : Nat) : 0 + n < 2 ^ 31 := by
    refine lt_of_shortGaps_blank ?_
    rw [← splitLinesLf_blank]
    exact (storedHashAgrees_iff hheader (.inr rfl) _).mp fun sha256 path =>
      h _ _ _ sha256 path hheader (.inr rfl)
  exact absurd (hall (2 ^ 31)) (by decide)

end ProtoRelay
