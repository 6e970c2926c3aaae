import Mathlib.Data.List.Infix

/-!
# Cutting a stream at separators

A receiver that looks for line ends in a buffer sees the stream in pieces whose boundaries it does
not choose.  This module gives the two operations such receivers perform, over any alphabet: cutting
at the first occurrence of a pattern, and splitting off the complete lines while carrying the
unfinished one to the next piece.

## Main results

* `joinSep_splitSep`, `splitSep_joinSep`: splitting into lines and joining them are inverse
* `cutAt_eq_some_iff`: `cutAt` cuts at an occurrence, and at the first one
* `splitSep_append`: splitting a concatenation is splitting the first part and then the second
  behind the carry of the first
* `feedLines_append`: feeding a stream piece by piece is feeding it at once
-/

namespace ProtoRelay

open List

variable {α : Type*} [DecidableEq α]

/-! ## The first occurrence of a pattern -/

/-- The parts of `s` before and after the first occurrence of `pat`, `none` if there is none. -/
def cutAt (pat : List α) : List α → Option (List α × List α)
  | [] => if pat = [] then some ([], []) else none
  | a :: s =>
    if pat.isPrefixOf (a :: s) then some ([], (a :: s).drop pat.length)
    else (cutAt pat s).map fun r => (a :: r.1, r.2)

omit [DecidableEq α] in
/-- An occurrence of a pattern in `a :: s` is at the front or inside `s`. -/
theorem cons_eq_append_pat {pat s u v : List α} {a : α} (h : a :: s = u ++ (pat ++ v)) :
    u = [] ∧ a :: s = pat ++ v ∨ ∃ u', u = a :: u' ∧ s = u' ++ (pat ++ v) := by
  cases u with
  | nil => exact .inl ⟨rfl, h⟩
  | cons b u =>
    simp only [cons_append, List.cons.injEq] at h
    exact .inr ⟨u, by rw [h.1], h.2⟩

theorem isPrefixOf_iff_exists_append {pat s : List α} :
    pat.isPrefixOf s = true ↔ ∃ v, s = pat ++ v := by
  rw [List.isPrefixOf_iff_prefix]
  exact ⟨fun ⟨v, h⟩ => ⟨v, h.symm⟩, fun ⟨v, h⟩ => ⟨v, h.symm⟩⟩

/-- **`cutAt` cuts at an occurrence of the pattern, and at the first one.** -/
theorem cutAt_eq_some_iff {pat s u v : List α} :
    cutAt pat s = some (u, v) ↔
      s = u ++ (pat ++ v) ∧ ∀ u' v', s = u' ++ (pat ++ v') → u.length ≤ u'.length := by
  induction s generalizing u v with
  | nil =>
    by_cases hp : pat = []
    · subst hp
      simp only [cutAt, if_true, Option.some.injEq, Prod.mk.injEq, nil_append, nil_eq_append_iff]
      constructor
      · rintro ⟨rfl, rfl⟩
        exact ⟨⟨rfl, rfl⟩, fun _ _ _ => Nat.zero_le _⟩
      · rintro ⟨⟨rfl, rfl⟩, -⟩
        exact ⟨rfl, rfl⟩
    · simp [cutAt, hp]
  | cons a s ih =>
    by_cases hp : pat.isPrefixOf (a :: s)
    · obtain ⟨w, hw⟩ := isPrefixOf_iff_exists_append.mp hp
      have hd : (a :: s).drop pat.length = w := by rw [hw]; simp
      simp only [cutAt, hp, if_true, hd, Option.some.injEq, Prod.mk.injEq]
      constructor
      · rintro ⟨rfl, rfl⟩
        exact ⟨by simpa using hw, fun _ _ _ => Nat.zero_le _⟩
      · rintro ⟨hs, hmin⟩
        have hu : u = [] := by
          have := hmin [] w (by simpa using hw)
          simpa using this
        subst hu
        exact ⟨rfl, append_cancel_left (hw.symm.trans hs)⟩
    · have hf : ∀ v', a :: s ≠ pat ++ v' :=
        fun v' h => hp (isPrefixOf_iff_exists_append.mpr ⟨v', h⟩)
      simp only [cutAt, hp, Bool.false_eq_true, if_false, Option.map_eq_some_iff]
      constructor
      · rintro ⟨⟨u₀, v₀⟩, hc, he⟩
        obtain ⟨rfl, rfl⟩ := he
        obtain ⟨hs, hmin⟩ := ih.mp hc
        refine ⟨by rw [hs]; rfl, fun u' v' h => ?_⟩
        rcases cons_eq_append_pat h with ⟨-, h'⟩ | ⟨u'', rfl, h'⟩
        · exact absurd h' (hf v')
        · simpa using hmin u'' v' h'
      · rintro ⟨hs, hmin⟩
        rcases cons_eq_append_pat hs with ⟨-, h'⟩ | ⟨u', rfl, h'⟩
        · exact absurd h' (hf v)
        · refine ⟨(u', v), ih.mpr ⟨h', fun u'' v'' h'' => ?_⟩, rfl⟩
          have := hmin (a :: u'') v'' (by rw [h'']; rfl)
          simpa using this

omit [DecidableEq α] in
/-- Of two ways to cut one list, the one that cuts earlier is refined by the other. -/
theorem append_eq_of_length_le {a b c d : List α} (h : a ++ b = c ++ d) (hl : a.length ≤ c.length) :
    ∃ u, c = a ++ u ∧ b = u ++ d := by
  rcases append_eq_append_iff.mp h with ⟨u, hc, hb⟩ | ⟨u, ha, hd⟩
  · exact ⟨u, hc, hb⟩
  · have hu : u = [] := by
      have := congrArg List.length ha
      simp only [length_append] at this
      exact eq_nil_of_length_eq_zero (by omega)
    subst hu
    exact ⟨[], by simpa using ha.symm, by simpa using hd.symm⟩

theorem cutAt_eq_none_iff {pat s : List α} : cutAt pat s = none ↔ ∀ u v, s ≠ u ++ (pat ++ v) := by
  induction s with
  | nil => by_cases hp : pat = [] <;> simp [cutAt, hp, eq_comm]
  | cons a s ih =>
    by_cases hp : pat.isPrefixOf (a :: s)
    · obtain ⟨w, hw⟩ := isPrefixOf_iff_exists_append.mp hp
      simp only [cutAt, hp, if_true, reduceCtorEq, false_iff, not_forall, not_not]
      exact ⟨[], w, by simpa using hw⟩
    · simp only [cutAt, hp, Bool.false_eq_true, if_false, Option.map_eq_none_iff, ih]
      constructor
      · intro h u v hs
        rcases cons_eq_append_pat hs with ⟨-, h'⟩ | ⟨u', rfl, h'⟩
        · exact hp (isPrefixOf_iff_exists_append.mpr ⟨v, h'⟩)
        · exact h u' v h'
      · intro h u v hs
        exact h (a :: u) v (by rw [hs]; rfl)

/-- What is cut in a list is cut in a longer one. -/
theorem cutAt_append {pat s u v : List α} (h : cutAt pat s = some (u, v)) (z : List α) :
    cutAt pat (s ++ z) = some (u, v ++ z) := by
  obtain ⟨hs, hmin⟩ := cutAt_eq_some_iff.mp h
  refine cutAt_eq_some_iff.mpr ⟨by rw [hs]; simp, fun u' v' h' => ?_⟩
  by_contra hlt
  have hlen := congrArg List.length hs
  simp only [length_append] at hlen
  -- an earlier occurrence would be in the shorter list
  rw [← append_assoc] at h'
  obtain ⟨w, hw, -⟩ := append_eq_of_length_le h'.symm (by simp only [length_append]; omega)
  exact hlt (hmin u' w (by rw [hw, append_assoc]))

/-- A cut that is new in a longer list is not inside the shorter one. -/
theorem lt_of_cutAt_append {pat s u v z : List α} (hnone : cutAt pat s = none)
    (h : cutAt pat (s ++ z) = some (u, v)) : s.length < u.length + pat.length := by
  by_contra hle
  have hs := (cutAt_eq_some_iff.mp h).1
  rw [← append_assoc] at hs
  obtain ⟨w, hw, -⟩ := append_eq_of_length_le hs.symm (by simp only [length_append]; omega)
  exact cutAt_eq_none_iff.mp hnone u w (by rw [hw, append_assoc])

/-! ## Complete lines and the carry -/

/-- Put `a` in front of the first line, or of the carry if no line is complete. -/
def glueFront (a : α) : List (List α) × List α → List (List α) × List α
  | ([], carry) => ([], a :: carry)
  | (l :: ls, carry) => ((a :: l) :: ls, carry)

/-- The lines of `s` that the separator `x, y` ends, without it, and the unfinished rest.  This is
the loop `while ((pos = s.find(sep)) != npos) { take substr(0, pos); erase(0, pos + 2); }`. -/
def splitSep (x y : α) : List α → List (List α) × List α
  | [] => ([], [])
  | [a] => ([], [a])
  | a :: b :: s =>
    if a = x ∧ b = y then
      let r := splitSep x y s
      ([] :: r.1, r.2)
    else glueFront a (splitSep x y (b :: s))

variable {x y : α}

@[simp] theorem splitSep_nil : splitSep x y [] = ([], []) := rfl

theorem splitSep_sep (s : List α) :
    splitSep x y (x :: y :: s) = ([] :: (splitSep x y s).1, (splitSep x y s).2) := by
  simp [splitSep]

theorem splitSep_cons_cons {a b : α} (h : ¬(a = x ∧ b = y)) (s : List α) :
    splitSep x y (a :: b :: s) = glueFront a (splitSep x y (b :: s)) := by
  simp [splitSep, h]

omit [DecidableEq α] in
theorem glueFront_lines_eq_nil {a : α} {r : List (List α) × List α} :
    (glueFront a r).1 = [] ↔ r.1 = [] := by
  obtain ⟨_ | ⟨l, ls⟩, c⟩ := r <;> simp [glueFront]

omit [DecidableEq α] in
theorem glueFront_append (a : α) {r : List (List α) × List α} (h : r.1 ≠ [])
    (ls : List (List α)) (c : List α) :
    glueFront a (r.1 ++ ls, c) = ((glueFront a r).1 ++ ls, c) := by
  obtain ⟨_ | ⟨l, ls'⟩, c'⟩ := r
  · exact absurd rfl h
  · rfl

omit [DecidableEq α] in
theorem glueFront_carry (a : α) {r : List (List α) × List α} (h : r.1 ≠ []) :
    (glueFront a r).2 = r.2 := by
  obtain ⟨_ | ⟨l, ls'⟩, c'⟩ := r
  · exact absurd rfl h
  · rfl

/-- With no complete line everything is carried. -/
theorem splitSep_carry_of_no_lines {s : List α} (h : (splitSep x y s).1 = []) :
    (splitSep x y s).2 = s := by
  induction s using splitSep.induct x y with
  | case1 | case2 => rfl
  | case3 a b s hab ih => obtain ⟨rfl, rfl⟩ := hab; simp [splitSep_sep] at h
  | case4 a b s hab ih =>
    rw [splitSep_cons_cons hab] at h ⊢
    have hb := glueFront_lines_eq_nil.mp h
    have hr : splitSep x y (b :: s) = ([], b :: s) := Prod.ext hb (ih hb)
    rw [hr]
    rfl

/-- **Splitting a concatenation**: the lines of the first part, then those of the second part read
behind the carry of the first. -/
theorem splitSep_append (s t : List α) :
    splitSep x y (s ++ t) = ((splitSep x y s).1 ++ (splitSep x y ((splitSep x y s).2 ++ t)).1,
        (splitSep x y ((splitSep x y s).2 ++ t)).2) := by
  induction s using splitSep.induct x y with
  | case1 => simp
  | case2 a => simp [splitSep]
  | case3 a b s hab ih =>
    obtain ⟨rfl, rfl⟩ := hab
    simp only [cons_append, splitSep_sep, ih]
  | case4 a b s hab ih =>
    have hcons : splitSep x y (a :: b :: s ++ t) = glueFront a (splitSep x y (b :: s ++ t)) :=
      splitSep_cons_cons hab (s ++ t)
    by_cases hl : (splitSep x y (b :: s)).1 = []
    · -- no line ends before the cut: the whole first part is carried across it
      have hl' : (splitSep x y (a :: b :: s)).1 = [] := by
        rw [splitSep_cons_cons hab]; exact glueFront_lines_eq_nil.mpr hl
      rw [hl', splitSep_carry_of_no_lines hl']
      simp
    · rw [hcons, ih, splitSep_cons_cons hab, glueFront_append a hl, glueFront_carry a hl]

/-- The carry holds no complete line. -/
theorem splitSep_carry (s : List α) :
    splitSep x y (splitSep x y s).2 = ([], (splitSep x y s).2) := by
  have h := splitSep_append (x := x) (y := y) s []
  simp only [append_nil] at h
  have hlines := congrArg Prod.fst h
  have hcarry := congrArg Prod.snd h
  simp only [self_eq_append_right] at hlines
  exact Prod.ext hlines hcarry.symm

/-- A piece without a complete line stays without one when `x` follows, and with the separator
behind it is a line. -/
theorem splitSep_snoc_of_no_lines (hxy : x ≠ y) {c : List α} (h : (splitSep x y c).1 = []) :
    splitSep x y (c ++ [x]) = ([], c ++ [x]) ∧ splitSep x y (c ++ [x, y]) = ([c], []) := by
  induction c using splitSep.induct x y with
  | case1 => simp [splitSep]
  | case2 a => simp [splitSep, hxy, glueFront]
  | case3 a b s hab ih => obtain ⟨rfl, rfl⟩ := hab; simp [splitSep_sep] at h
  | case4 a b s hab ih =>
    rw [splitSep_cons_cons hab] at h
    obtain ⟨hopen, hline⟩ := ih (glueFront_lines_eq_nil.mp h)
    simp only [cons_append] at hopen hline ⊢
    rw [splitSep_cons_cons hab, hopen, splitSep_cons_cons hab, hline]
    exact ⟨rfl, rfl⟩

/-! ## Joining lines -/

/-- The lines, each with the separator `x, y` behind it, and the rest. -/
def joinSep (x y : α) (lines : List (List α)) (rest : List α) : List α :=
  (lines.map (· ++ [x, y])).flatten ++ rest

omit [DecidableEq α] in
@[simp] theorem joinSep_nil (rest : List α) : joinSep x y [] rest = rest := rfl

omit [DecidableEq α] in
theorem joinSep_cons (l : List α) (ls : List (List α)) (rest : List α) :
    joinSep x y (l :: ls) rest = l ++ x :: y :: joinSep x y ls rest := by simp [joinSep]

omit [DecidableEq α] in
theorem joinSep_append (ls ls' : List (List α)) (rest : List α) :
    joinSep x y (ls ++ ls') rest = joinSep x y ls (joinSep x y ls' rest) := by simp [joinSep]

omit [DecidableEq α] in
theorem joinSep_glueFront (a : α) (r : List (List α) × List α) :
    joinSep x y (glueFront a r).1 (glueFront a r).2 = a :: joinSep x y r.1 r.2 := by
  obtain ⟨_ | ⟨l, ls⟩, c⟩ := r
  · rfl
  · simp [glueFront, joinSep_cons]

/-- **Joining the lines of a string gives it back.** -/
theorem joinSep_splitSep (s : List α) : joinSep x y (splitSep x y s).1 (splitSep x y s).2 = s := by
  induction s using splitSep.induct x y with
  | case1 | case2 => rfl
  | case3 a b s hab ih =>
    obtain ⟨rfl, rfl⟩ := hab
    rw [splitSep_sep, joinSep_cons, ih]
    rfl
  | case4 a b s hab ih => rw [splitSep_cons_cons hab, joinSep_glueFront, ih]

/-- A piece without lines, by its first element. -/
theorem splitSep_cons_no_lines_iff {a : α} {l : List α} :
    (splitSep x y (a :: l)).1 = [] ↔ (splitSep x y l).1 = [] ∧ ¬(a = x ∧ l.head? = some y) := by
  cases l with
  | nil => simp [splitSep]
  | cons b l =>
    by_cases hab : a = x ∧ b = y
    · obtain ⟨rfl, rfl⟩ := hab
      simp [splitSep_sep]
    · rw [splitSep_cons_cons hab, glueFront_lines_eq_nil]
      simp [hab]

/-- **The lines hold no separator.** -/
theorem splitSep_of_mem_lines {s l : List α} (hl : l ∈ (splitSep x y s).1) :
    (splitSep x y l).1 = [] := by
  induction s using splitSep.induct x y generalizing l with
  | case1 | case2 => cases hl
  | case3 a b s hab ih =>
    obtain ⟨rfl, rfl⟩ := hab
    rw [splitSep_sep] at hl
    rcases mem_cons.mp hl with rfl | hl
    · rfl
    · exact ih hl
  | case4 a b s hab ih =>
    rw [splitSep_cons_cons hab] at hl
    have hjoin := joinSep_splitSep (x := x) (y := y) (b :: s)
    generalize splitSep x y (b :: s) = r at hl ih hjoin
    obtain ⟨_ | ⟨l', ls⟩, c⟩ := r
    · cases hl
    · rcases mem_cons.mp hl with rfl | hl
      · -- the first line begins with `a`, and `b` is the first byte behind it, unless it is empty
        refine splitSep_cons_no_lines_iff.mpr ⟨ih mem_cons_self, fun ⟨hax, hhead⟩ => ?_⟩
        cases l' with
        | nil => cases hhead
        | cons b' l' =>
          have hb : b' = b := (List.cons.inj hjoin).1
          have hy : b' = y := Option.some.inj hhead
          exact hab ⟨hax, hb.symm.trans hy⟩
      · exact ih (mem_cons_of_mem _ hl)

/-- **Splitting joined lines gives them back**, if they hold no separator. -/
theorem splitSep_joinSep (hxy : x ≠ y) {ls : List (List α)} {rest : List α}
    (hls : ∀ l ∈ ls, (splitSep x y l).1 = []) (hrest : (splitSep x y rest).1 = []) :
    splitSep x y (joinSep x y ls rest) = (ls, rest) := by
  induction ls with
  | nil => exact Prod.ext hrest (splitSep_carry_of_no_lines hrest)
  | cons l ls ih =>
    have hl := (splitSep_snoc_of_no_lines hxy (hls l mem_cons_self)).2
    have hjoin : joinSep x y (l :: ls) rest = (l ++ [x, y]) ++ joinSep x y ls rest := by
      simp [joinSep]
    rw [hjoin, splitSep_append, hl, nil_append, ih fun l' hl' => hls l' (.tail l hl')]
    rfl

/-- Two strings and the separator between them. -/
theorem splitSep_append_lines (hxy : x ≠ y) (s t : List α) :
    splitSep x y (s ++ x :: y :: t) =
      ((splitSep x y s).1 ++ (splitSep x y s).2 :: (splitSep x y t).1, (splitSep x y t).2) := by
  have hjoin : s ++ x :: y :: t = joinSep x y
      ((splitSep x y s).1 ++ (splitSep x y s).2 :: (splitSep x y t).1) (splitSep x y t).2 := by
    rw [joinSep_append, joinSep_cons, joinSep_splitSep]
    calc s ++ x :: y :: t = joinSep x y (splitSep x y s).1 (splitSep x y s).2 ++ x :: y :: t := by
          rw [joinSep_splitSep]
      _ = _ := by simp [joinSep]
  rw [hjoin]
  refine splitSep_joinSep hxy (fun l hl => ?_) (congrArg Prod.fst (splitSep_carry t))
  rcases mem_append.mp hl with hl | hl
  · exact splitSep_of_mem_lines hl
  rcases mem_cons.mp hl with rfl | hl
  · exact congrArg Prod.fst (splitSep_carry s)
  · exact splitSep_of_mem_lines hl

/-- A string ends in the separator if nothing stands behind its last line. -/
theorem sep_isSuffix_iff (hxy : x ≠ y) {s : List α} :
    [x, y] <:+ s ↔ (splitSep x y s).1 ≠ [] ∧ (splitSep x y s).2 = [] := by
  constructor
  · rintro ⟨u, rfl⟩
    rw [splitSep_append_lines hxy]
    simp [splitSep]
  · rintro ⟨hlines, hcarry⟩
    obtain ⟨ls, l, hls⟩ := (eq_nil_or_concat' _).resolve_left hlines
    refine ⟨joinSep x y ls l, ?_⟩
    conv_rhs => rw [← joinSep_splitSep s, hls, hcarry]
    simp [joinSep]

/-! ## Folding over the lines of a stream received in pieces -/

variable {σ : Type*}

/-- One more piece of the stream: fold `f` over the lines it completes and keep the new carry. -/
def feedLines (f : σ → List α → σ) (x y : α) (r : σ × List α) (piece : List α) : σ × List α :=
  ((splitSep x y (r.2 ++ piece)).1.foldl f r.1, (splitSep x y (r.2 ++ piece)).2)

variable {f : σ → List α → σ}

/-- **Feeding two pieces is feeding their concatenation.** -/
theorem feedLines_append (r : σ × List α) (s t : List α) :
    feedLines f x y (feedLines f x y r s) t = feedLines f x y r (s ++ t) := by
  simp only [feedLines, ← append_assoc, splitSep_append (r.2 ++ s) t, foldl_append]

theorem feedLines_nil {r : σ × List α} (h : splitSep x y r.2 = ([], r.2)) :
    feedLines f x y r [] = r := by
  simp [feedLines, h]

end ProtoRelay
