import ProtoRelay.Imap.SafeParse

/-!
# Sequence sets

FETCH, STORE and SEARCH name messages by a sequence set: numbers, ranges and `*` with commas between
them.  `expand_seq_set` turns the text into ranges.  It reads a `*` at the front of a range, or one
that stands alone, as the number 1, and it drops a range whose first number is above the second.  By
the message format `*` is the last message and the order of the two numbers does not matter.

COPY and MOVE have a reader of their own: it takes the number in front of the first colon and the
one behind it, or the first number if there is no colon, and knows `*` only alone.  The UID commands
translate a set of unique identifiers into sequence numbers with one reading of the message list and
hand the numbers to the commands, which read the list again.
-/

namespace ProtoRelay

open List

/-! ## The source -/

/-- The bounds of one token in `expand_seq_set`. -/
def seqBounds (total : Nat) (token : Bytes) : Nat × Nat :=
  match findByte 58 token with
  | some c =>
    let a := token.take c
    let b := token.drop (c + 1)
    (if a = bytes "*" then 1 else safeStoull a,
      if b = bytes "*" then total else min (safeStoull b) total)
  | none => if token = bytes "*" then (1, total) else (safeStoull token, safeStoull token)

/-- The bounds clamped to the mailbox, if anything is left of the range. -/
def clampRange (total : Nat) (bounds : Nat × Nat) : Option (Nat × Nat) :=
  let s := if bounds.1 < 1 then 1 else bounds.1
  let e := if bounds.2 > total then total else bounds.2
  if s ≤ e then some (s, e) else none

def expandSeqSet (seqSet : Bytes) (total : Nat) : List (Nat × Nat) :=
  ((pieces 44 seqSet).filter (! ·.isEmpty)).filterMap fun token =>
    clampRange total (seqBounds total token)

/-- `mails[seq - 1].mail_id`; nothing outside the list. -/
def idAt (uids : List Nat) (seq : Nat) : Option Nat := if seq = 0 then none else uids[seq - 1]?

def fetchIds (uids : List Nat) (seqSet : Bytes) : List Nat :=
  (expandSeqSet seqSet uids.length).flatMap fun r =>
    (List.range' r.1 (r.2 + 1 - r.1)).filterMap (idAt uids)

/-- The numbers that `handle_copy_move` reads. -/
def copySeqs (total : Nat) (seqSet : Bytes) : List Nat :=
  if seqSet = bytes "*" then List.range' 1 total
  else
    match findByte 58 seqSet with
    | some colon =>
      let start := safeStoull (seqSet.take colon)
      List.range' start (min (safeStoull (seqSet.drop (colon + 1))) total + 1 - start)
    | none =>
      let n := safeStoull seqSet
      if 1 ≤ n ∧ n ≤ total then [n] else []

/-- The messages COPY and MOVE act on; `none` if the list is indexed outside its bounds. -/
def copyIds (uids : List Nat) (seqSet : Bytes) : Option (List Nat) :=
  (copySeqs uids.length seqSet).mapM (idAt uids)

/-- `uid_to_seq`: of equal identifiers the last one counts. -/
def uidToSeq (uids : List Nat) (uid : Nat) : Option Nat :=
  (uids.zipIdx.reverse.find? fun e => e.1 == uid).map (·.2 + 1)

/-- Sequence numbers with commas between them. -/
def joinSeqs : List Nat → Bytes
  | [] => []
  | [seq] => decimal seq
  | seq :: seqs => decimal seq ++ 44 :: joinSeqs seqs

/-- The set of sequence numbers, or one that has no message. -/
def seqSetOfSeqs (seqs : List Nat) : Bytes := if seqs = [] then bytes "0" else joinSeqs seqs

/-- The positions of identifiers within bounds. -/
def uidRange (uids : List Nat) (start stop : Nat) : List Nat :=
  (uids.zipIdx.filter fun e => decide (start ≤ e.1 ∧ e.1 ≤ stop)).map (·.2 + 1)

/-- The sequence set that `handle_uid` makes of a set of identifiers. -/
def uidSeqSet (uids : List Nat) (uidSet : Bytes) : Bytes :=
  if 44 ∈ uidSet then
    seqSetOfSeqs (((pieces 44 uidSet).filter (! ·.isEmpty)).filterMap fun token =>
      uidToSeq uids (safeStoull token))
  else
    match findByte 58 uidSet with
    | some colon =>
      let first := uidSet.take colon
      let second := uidSet.drop (colon + 1)
      seqSetOfSeqs (uidRange uids (if first = bytes "*" then 0 else safeStoull first)
        (if second = bytes "*" then 2 ^ 64 - 1 else safeStoull second))
    | none =>
      if uidSet = bytes "*" then bytes "*"
      else decimal ((uidToSeq uids (safeStoull uidSet)).getD 0)

/-- A number is in one of the ranges. -/
def Covered (ranges : List (Nat × Nat)) (x : Nat) : Prop := ∃ r ∈ ranges, r.1 ≤ x ∧ x ≤ r.2

/-! ## The grammar -/

/-- `nz-number`: digits without a zero in front, for a number of 32 bits. -/
structure NzNumber where
  digits : Bytes
  isNumeral : IsNumeral digits
  fits : numeralValue digits < 2 ^ 32

def NzNumber.value (k : NzNumber) : Nat := numeralValue k.digits

inductive SeqNumber
  | num (k : NzNumber)
  | star

/-- `seq-number` or `seq-range`. -/
inductive SeqItem
  | single (x : SeqNumber)
  | range (x y : SeqNumber)

def SeqNumber.value (total : Nat) : SeqNumber → Nat
  | .num k => k.value
  | .star => total

/-- **The meaning of a part of a set**: `*` is the last message, and the order of the bounds of a
range does not matter. -/
def SeqItem.Assigns (total : Nat) (i : SeqItem) (x : Nat) : Prop :=
  match i with
  | .single y => x = y.value total
  | .range y z => min (y.value total) (z.value total) ≤ x ∧ x ≤ max (y.value total) (z.value total)

def SeqNumber.text : SeqNumber → Bytes
  | .num k => k.digits
  | .star => [42]

def SeqItem.text : SeqItem → Bytes
  | .single x => x.text
  | .range x y => x.text ++ 58 :: y.text

def seqSetText : List SeqItem → Bytes
  | [] => []
  | [i] => i.text
  | i :: is => i.text ++ 44 :: seqSetText is

variable (items : List SeqItem)

/-- **The ranges are those that the set means**: none is empty or goes beyond the mailbox, and
together they cover the numbers of the mailbox that the set assigns. -/
def SeqSetExact (total : Nat) : Prop :=
  (∀ r ∈ expandSeqSet (seqSetText items) total, 1 ≤ r.1 ∧ r.1 ≤ r.2 ∧ r.2 ≤ total) ∧
    ∀ x, Covered (expandSeqSet (seqSetText items) total) x ↔
      1 ≤ x ∧ x ≤ total ∧ ∃ i ∈ items, i.Assigns total x

/-! ## Reading the text of a set -/

theorem SeqNumber.text_ne_nil (x : SeqNumber) : x.text ≠ [] := by
  cases x with
  | num k => exact k.isNumeral.ne_nil
  | star => exact cons_ne_nil 42 []

theorem SeqNumber.not_mem_text (x : SeqNumber) {b : UInt8} (hb : b = 44 ∨ b = 58) : b ∉ x.text := by
  cases x with
  | num k =>
    apply k.isNumeral.not_mem
    rcases hb with rfl | rfl
    · exact .inl (by decide)
    · exact .inr (by decide)
  | star =>
    rcases hb with rfl | rfl
    · decide
    · decide

theorem SeqItem.text_ne_nil (i : SeqItem) : i.text ≠ [] := by
  cases i with
  | single x => exact x.text_ne_nil
  | range x y =>
    intro h
    exact cons_ne_nil _ _ (append_eq_nil_iff.mp h).2

theorem SeqItem.comma_not_mem_text (i : SeqItem) : 44 ∉ i.text := by
  cases i with
  | single x => exact x.not_mem_text (.inl rfl)
  | range x y =>
    simp only [SeqItem.text, mem_append, mem_cons, not_or]
    exact ⟨x.not_mem_text (.inl rfl), by decide, y.not_mem_text (.inl rfl)⟩

/-- The tokens of a set are the texts of its parts. -/
theorem tokens_seqSetText :
    (pieces 44 (seqSetText items)).filter (! ·.isEmpty) = items.map SeqItem.text := by
  have hpieces : pieces 44 (seqSetText items) = items.map SeqItem.text := by
    fun_induction seqSetText items with
    | case1 => rfl
    | case2 i => exact pieces_of_not_mem i.comma_not_mem_text i.text_ne_nil
    | case3 i items hne ih => rw [pieces_append_delim i.comma_not_mem_text, ih, map_cons]
  rw [hpieces, filter_eq_self]
  intro t ht
  obtain ⟨i, -, rfl⟩ := mem_map.mp ht
  simpa using i.text_ne_nil

/-- The number that is read where a `*` stands for `star`. -/
def SeqNumber.read (star : Nat) : SeqNumber → Nat
  | .num k => k.value
  | .star => star

/-- The bounds that are read for a part. -/
def SeqItem.bounds (total : Nat) : SeqItem → Nat × Nat
  | .single .star => (1, total)
  | .single (.num k) => (k.value, k.value)
  | .range x y => (x.read 1, min (y.read total) total)

theorem ne_star_of_not_mem {text : Bytes} (h : 42 ∉ text) : text ≠ bytes "*" := by
  rintro rfl
  exact h (by decide)

theorem NzNumber.digits_ne_star (k : NzNumber) : k.digits ≠ bytes "*" :=
  ne_star_of_not_mem (k.isNumeral.not_mem (.inl (by decide)))

theorem NzNumber.safeStoull_digits (k : NzNumber) : safeStoull k.digits = k.value :=
  safeStoull_of_isNumeral k.isNumeral (k.fits.trans (by decide))

theorem SeqNumber.read_text (x : SeqNumber) (star : Nat) :
    (if x.text = bytes "*" then star else safeStoull x.text) = x.read star := by
  cases x with
  | num k => exact (if_neg k.digits_ne_star).trans k.safeStoull_digits
  | star => exact if_pos (by decide)

theorem seqBounds_of_isNumeral {digits : Bytes} (h : IsNumeral digits)
    (hfits : numeralValue digits < 2 ^ 64) (total : Nat) :
    seqBounds total digits = (numeralValue digits, numeralValue digits) := by
  rw [seqBounds, findByte_eq_none_iff.mpr (h.not_mem (.inr (by decide))),
    safeStoull_of_isNumeral h hfits]
  exact if_neg (ne_star_of_not_mem (h.not_mem (.inl (by decide))))

theorem SeqItem.seqBounds_text (i : SeqItem) (total : Nat) :
    seqBounds total i.text = i.bounds total := by
  cases i with
  | range x y =>
    have hcolon := findByte_append_of_not_mem (x.not_mem_text (.inr rfl)) y.text
    have hdrop : (x.text ++ 58 :: y.text).drop (x.text.length + 1) = y.text := by simp
    have hsecond : (if y.text = bytes "*" then total else min (safeStoull y.text) total) =
        min (y.read total) total := by
      rw [← y.read_text total]
      split
      · rw [min_self]
      · rfl
    rw [SeqItem.text, seqBounds, hcolon]
    simp only [take_left, hdrop]
    rw [hsecond, x.read_text]
    rfl
  | single x =>
    cases x with
    | star => rfl
    | num k => exact seqBounds_of_isNumeral k.isNumeral (k.fits.trans (by decide)) total

/-- **What is read from the text of a set.** -/
theorem expandSeqSet_text (total : Nat) :
    expandSeqSet (seqSetText items) total = items.filterMap fun i =>
      clampRange total (i.bounds total) := by
  rw [expandSeqSet, tokens_seqSetText, filterMap_map]
  congr 1
  funext i
  simp only [Function.comp_apply, i.seqBounds_text]

/-! ## Added and lost numbers -/

/-- A number that is read for a part which does not mean it: one in front of a `*` that was taken
for the number 1. -/
def SeqItem.Added (total : Nat) (i : SeqItem) (x : Nat) : Prop :=
  match i with
  | .single .star => x < total
  | .range .star y => x < min (y.value total) total
  | _ => False

/-- A number that is not read for a part which means it: one of a range whose first number is above
the second, or behind the end of a range that begins with `*`. -/
def SeqItem.Lost (total : Nat) (i : SeqItem) (x : Nat) : Prop :=
  match i with
  | .range (.num k) y => y.value total < k.value ∧ y.value total ≤ x ∧ x ≤ k.value
  | .range .star y => min (y.value total) total < x
  | _ => False

theorem clampRange_eq_some_iff {total : Nat} {bounds r : Nat × Nat} :
    clampRange total bounds = some r ↔
      max 1 bounds.1 ≤ min bounds.2 total ∧ r = (max 1 bounds.1, min bounds.2 total) := by
  have hfst : (if bounds.1 < 1 then 1 else bounds.1) = max 1 bounds.1 := by
    split <;> omega
  have hsecond : (if bounds.2 > total then total else bounds.2) = min bounds.2 total := by
    split <;> omega
  unfold clampRange
  rw [hfst, hsecond]
  dsimp only
  split
  · next h => simp [h, eq_comm]
  · next h => simp [h]

/-- The numbers of a mailbox that are read for a part. -/
theorem SeqItem.exists_clampRange_iff (i : SeqItem) (total x : Nat) :
    (∃ r, clampRange total (i.bounds total) = some r ∧ r.1 ≤ x ∧ x ≤ r.2) ↔
      1 ≤ x ∧ x ≤ total ∧ (i.Added total x ∨ i.Assigns total x ∧ ¬i.Lost total x) := by
  have hclamp : (∃ r, clampRange total (i.bounds total) = some r ∧ r.1 ≤ x ∧ x ≤ r.2) ↔
      1 ≤ x ∧ x ≤ total ∧ (i.bounds total).1 ≤ x ∧ x ≤ (i.bounds total).2 := by
    simp only [clampRange_eq_some_iff]
    constructor
    · rintro ⟨r, ⟨hle, rfl⟩, hlow, hhigh⟩
      omega
    · rintro ⟨hone, htot, hlow, hhigh⟩
      refine ⟨_, ⟨?_, rfl⟩, ?_, ?_⟩
      · omega
      · omega
      · dsimp only
        omega
  rw [hclamp]
  cases i with
  | single y =>
    cases y with
    | star =>
      change 1 ≤ x ∧ x ≤ total ∧ 1 ≤ x ∧ x ≤ total ↔
        1 ≤ x ∧ x ≤ total ∧ (x < total ∨ x = total ∧ ¬False)
      rw [not_false_eq_true, and_true]
      omega
    | num k =>
      change 1 ≤ x ∧ x ≤ total ∧ k.value ≤ x ∧ x ≤ k.value ↔
        1 ≤ x ∧ x ≤ total ∧ (False ∨ x = k.value ∧ ¬False)
      rw [not_false_eq_true, and_true, false_or]
      omega
  | range y z =>
    have hread : z.read total = z.value total := by
      cases z with
      | num | star => rfl
    have hbounds : (SeqItem.range y z).bounds total = (y.read 1, min (z.value total) total) := by
      rfl
    rw [hbounds]
    cases y with
    | star =>
      simp only [SeqNumber.read, SeqItem.Added, SeqItem.Assigns, SeqNumber.value, SeqItem.Lost]
      omega
    | num k =>
      change 1 ≤ x ∧ x ≤ total ∧ k.value ≤ x ∧ x ≤ min (z.value total) total ↔
        1 ≤ x ∧ x ≤ total ∧ (False ∨ (min k.value (z.value total) ≤ x ∧
          x ≤ max k.value (z.value total)) ∧
            ¬(z.value total < k.value ∧ z.value total ≤ x ∧ x ≤ k.value))
      rw [false_or]
      omega

/-- **The numbers that are read from the text of a set.** -/
theorem covered_expandSeqSet_iff (total x : Nat) :
    Covered (expandSeqSet (seqSetText items) total) x ↔
      1 ≤ x ∧ x ≤ total ∧ ∃ i ∈ items, i.Added total x ∨ i.Assigns total x ∧ ¬i.Lost total x := by
  rw [expandSeqSet_text]
  constructor
  · rintro ⟨r, hr, hx⟩
    obtain ⟨i, hmem, hi⟩ := mem_filterMap.mp hr
    obtain ⟨hone, htot, hread⟩ := (i.exists_clampRange_iff total x).mp ⟨r, hi, hx⟩
    exact ⟨hone, htot, i, hmem, hread⟩
  · rintro ⟨hone, htot, i, hmem, hread⟩
    obtain ⟨r, hi, hx⟩ := (i.exists_clampRange_iff total x).mpr ⟨hone, htot, hread⟩
    exact ⟨r, mem_filterMap.mpr ⟨i, hmem, hi⟩, hx⟩

theorem le_of_mem_expandSeqSet {items : List SeqItem} {total : Nat} {r : Nat × Nat}
    (h : r ∈ expandSeqSet (seqSetText items) total) : 1 ≤ r.1 ∧ r.1 ≤ r.2 ∧ r.2 ≤ total := by
  obtain ⟨i, -, hi⟩ := mem_filterMap.mp h
  obtain ⟨hle, rfl⟩ := clampRange_eq_some_iff.mp hi
  omega

/-! ## The sets that are read as they are meant -/

/-- What is added is meant by another part of the set, and what is lost is read for another part. -/
def MisreadingsCovered (total : Nat) : Prop :=
  ∀ x, 1 ≤ x → x ≤ total →
    ((∃ i ∈ items, i.Added total x) → ∃ i ∈ items, i.Assigns total x) ∧
    ((∃ i ∈ items, i.Lost total x) →
      ∃ i ∈ items, i.Added total x ∨ i.Assigns total x ∧ ¬i.Lost total x)

theorem SeqItem.assigns_of_lost {i : SeqItem} {total x : Nat} (hle : x ≤ total)
    (h : i.Lost total x) : i.Assigns total x := by
  cases i with
  | single y => cases y <;> cases h
  | range y z =>
    cases y with
    | star | num =>
      simp only [SeqItem.Lost, SeqItem.Assigns, SeqNumber.value] at h ⊢
      omega

/-- **The sets that are read as they are meant**: the numbers that a `*` in front adds are meant by
another part, and those that a range in the wrong order or a `*` in front loses are read for another
part. -/
theorem seqSetExact_iff (total : Nat) : SeqSetExact items total ↔
    MisreadingsCovered items total := by
  have hranges : ∀ r ∈ expandSeqSet (seqSetText items) total, 1 ≤ r.1 ∧ r.1 ≤ r.2 ∧ r.2 ≤ total :=
    fun r hr => le_of_mem_expandSeqSet hr
  have hcovered (x : Nat) : Covered (expandSeqSet (seqSetText items) total) x ↔
      1 ≤ x ∧ x ≤ total ∧ ∃ i ∈ items, i.Added total x ∨ i.Assigns total x ∧ ¬i.Lost total x :=
    covered_expandSeqSet_iff items total x
  unfold SeqSetExact
  rw [and_iff_right hranges]
  simp only [hcovered]
  constructor
  · intro h x hone htot
    constructor
    · rintro ⟨i, hmem, hadded⟩
      exact ((h x).mp ⟨hone, htot, i, hmem, .inl hadded⟩).2.2
    · rintro ⟨i, hmem, hlost⟩
      exact ((h x).mpr ⟨hone, htot, i, hmem, SeqItem.assigns_of_lost htot hlost⟩).2.2
  · intro h x
    refine and_congr_right fun hone => and_congr_right fun htot => ?_
    obtain ⟨hadded, hlost⟩ := h x hone htot
    constructor
    · rintro ⟨i, hmem, hi | hi⟩
      · exact hadded ⟨i, hmem, hi⟩
      · exact ⟨i, hmem, hi.1⟩
    · rintro ⟨i, hmem, hi⟩
      by_cases hl : i.Lost total x
      · exact hlost ⟨i, hmem, hl⟩
      · exact ⟨i, hmem, .inr ⟨hi, hl⟩⟩

/-- A `*` alone means the last message, but both messages of a mailbox are read. -/
theorem not_forall_seqSetExact : ¬∀ (items : List SeqItem) (total : Nat),
    SeqSetExact items total := by
  intro h
  have hcovered : Covered (expandSeqSet (seqSetText [.single .star]) 2) 1 :=
    ⟨(1, 2), by decide, by decide, by decide⟩
  obtain ⟨-, -, i, hmem, hi⟩ := ((h [.single .star] 2).2 1).mp hcovered
  obtain rfl := mem_singleton.mp hmem
  cases hi

end ProtoRelay
