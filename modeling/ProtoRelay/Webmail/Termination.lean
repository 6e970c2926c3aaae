import ProtoRelay.Webmail.HtmlSanitize

/-!
# Termination of the HTML sanitizer

Every turn of the main loop moves on, but for one: an opening tag whose name is neither allowed nor
one of those that are stripped is left where it is, and the loop finds it again forever.
-/

namespace ProtoRelay

open List

namespace HtmlSanitize

/-! ## Lexemes are not empty -/

theorem length_afterByte_le (c : UInt8) (s : Bytes) : (afterByte c s).length ≤ s.length := by
  unfold afterByte
  rw [length_drop]
  exact (Nat.sub_le _ _).trans (length_dropWhile_le _ s)

theorem length_afterElement_le (name s : Bytes) : (afterElement name s).length ≤ s.length := by
  unfold afterElement
  dsimp only
  split
  · exact Nat.zero_le _
  · refine (length_afterByte_le _ _).trans ?_
    rw [length_drop]
    exact Nat.sub_le _ _

theorem length_readAttrs_le {tag s rest : Bytes} {attrs : List Attr}
    (h : readAttrs tag s = some (attrs, rest)) : rest.length ≤ s.length := by
  fun_induction readAttrs tag s generalizing attrs with
  | case1 => cases h
  | case2 s rest' heq =>
    cases h
    exact length_le_of_done heq
  | case3 s rest' heq hlt ih => exact (ih h).trans hlt.le
  | case4 s a rest' heq hlt ih =>
    obtain ⟨⟨attrs', rest''⟩, hread, hpair⟩ := Option.map_eq_some_iff.mp h
    cases hpair
    exact (ih hread).trans hlt.le
where
  length_le_of_done {s rest : Bytes} (h : attrTurn s = .done rest) : rest.length ≤ s.length := by
    unfold attrTurn at h
    have hws := length_dropWhile_le isWs s
    split at h
    · cases h
    · rename_i b t ht
      rw [ht, length_cons] at hws
      split at h
      · cases h
        omega
      · split at h
        · cases h
          omega
        · dsimp only at h
          split at h
          · cases h
          · cases h

theorem length_readTag_le (closing : Bool) (p : Bytes) :
    (readTag closing p).2.length ≤ p.length := by
  unfold readTag
  dsimp only
  have hname := length_dropWhile_le isTagNameChar p
  split
  · split
    · exact (length_afterByte_le _ _).trans hname
    · exact Nat.zero_le _
  · split
    · exact Nat.zero_le _
    · rename_i attrs rest hread
      have hrest := (length_readAttrs_le hread).trans hname
      split
      · exact (length_afterElement_le _ _).trans hrest
      · exact hrest

/-- **A lexeme is not empty.** -/
theorem length_nextLexeme_lt {s : Bytes} (h : s ≠ []) : (nextLexeme s).2.length < s.length := by
  obtain ⟨b, t, rfl⟩ := exists_cons_of_ne_nil h
  unfold nextLexeme
  dsimp only
  rw [length_cons]
  split
  · -- text: its first byte is not the `<` at which it ends
    rename_i hb
    rw [dropWhile_cons_of_pos (by simpa using hb)]
    exact Nat.lt_succ_of_le (length_dropWhile_le _ t)
  · split
    · -- a comment
      split
      · exact Nat.succ_pos _
      · rename_i content rest hcut
        have hlen := congrArg List.length (cutAt_eq_some_iff.mp hcut).1
        simp only [length_drop, length_append, length_cons] at hlen
        dsimp only
        omega
    · split
      · refine lt_of_le_of_lt (length_afterByte_le _ _) ?_
        simp only [length_drop, length_cons]
        omega
      · split
        · refine lt_of_le_of_lt (length_afterByte_le _ _) ?_
          simp only [length_drop, length_cons]
          omega
        · -- a tag, or a `<` that begins none
          have hp : (if t.head? == some 47 then t.drop 1 else t).length ≤ t.length := by
            split
            · simp
            · exact le_rfl
          generalize (if t.head? == some 47 then t.drop 1 else t) = p at hp
          split
          · exact Nat.lt_succ_self _
          · exact Nat.lt_succ_of_le ((length_readTag_le _ p).trans hp)

/-- The text, cut into lexemes. -/
def lexemes (s : Bytes) : List Lexeme :=
  if h : s = [] then []
  else
    have := length_nextLexeme_lt h
    (nextLexeme s).1 :: lexemes (nextLexeme s).2
termination_by s.length

theorem lexemes_of_ne_nil {s : Bytes} (h : s ≠ []) :
    lexemes s = (nextLexeme s).1 :: lexemes (nextLexeme s).2 := by
  rw [lexemes, dif_neg h]

/-! ## Turns of the main loop -/

/-- An opening tag with a name that is neither allowed nor stripped. -/
def Lexeme.Unlisted : Lexeme → Prop
  | .opening name _ => isAllowedTag name = false
  | _ => False

instance : DecidablePred Lexeme.Unlisted
  | .opening name _ => inferInstanceAs (Decidable (isAllowedTag name = false))
  | .text _ | .skipped | .literal | .closing _ | .stripped | .unclosed =>
    inferInstanceAs (Decidable False)

theorem rest_of_sanitizeStep {out s out' s' : Bytes} (hs : s ≠ [])
    (h : sanitizeStep (out, s) = some (out', s')) (hl : ¬ (nextLexeme s).1.Unlisted) :
    s' = (nextLexeme s).2 := by
  obtain ⟨b, t, rfl⟩ := exists_cons_of_ne_nil hs
  unfold sanitizeStep at h
  split at h
  · cases h
  · rename_i heq
    cases heq
    split at h <;> rename_i hnext <;> rw [hnext]
    case h_4 =>
      rw [hnext] at hl
      rw [if_pos (by simpa [Lexeme.Unlisted] using hl)] at h
      cases h
      rfl
    all_goals
      cases h
      rfl

/-- A tag that is not listed is found again. -/
theorem sanitizeStep_of_unlisted {out s : Bytes} (h : (nextLexeme s).1.Unlisted) :
    sanitizeStep (out, s) = some (out, s) := by
  cases s with
  | nil => cases h
  | cons b t =>
    rcases hnext : nextLexeme (b :: t) with ⟨lexeme, rest⟩
    rw [hnext] at h
    cases lexeme with
    | opening name attrs =>
      have hname : isAllowedTag name = false := h
      simp only [sanitizeStep, hnext, hname, Bool.false_eq_true, if_false]
    | _ => cases h

theorem exists_sanitizeStep {s : Bytes} (hs : s ≠ []) (out : Bytes) :
    ∃ st, sanitizeStep (out, s) = some st := by
  obtain ⟨b, t, rfl⟩ := exists_cons_of_ne_nil hs
  unfold sanitizeStep
  split
  · rename_i heq
    cases heq
  · split
    case h_4 =>
      split
      · exact ⟨_, rfl⟩
      · exact ⟨_, rfl⟩
    all_goals exact ⟨_, rfl⟩

/-- All opening tags are listed. -/
def Listed (s : Bytes) : Prop := ∀ t ∈ lexemes s, ¬ t.Unlisted

/-- **One turn** on a text whose tags are listed. -/
theorem Listed.step {out s out' s' : Bytes} (hl : Listed s)
    (h : sanitizeStep (out, s) = some (out', s')) : Listed s' ∧ s'.length < s.length := by
  have hs : s ≠ [] := by
    rintro rfl
    cases h
  unfold Listed at hl
  rw [lexemes_of_ne_nil hs, forall_mem_cons] at hl
  have hrest := rest_of_sanitizeStep hs h hl.1
  rw [hrest]
  exact ⟨hl.2, length_nextLexeme_lt hs⟩

/-! ## Termination -/

/-- **The sanitizer terminates**: it returns, and every turn of its main loop moves on. -/
structure Terminates (input : Bytes) : Prop where
  returns : ∃ out, Sanitizes input out
  progress : ∀ out s out' s', Visits sanitizeStep ([], input) (out, s) →
    sanitizeStep (out, s) = some (out', s') → s'.length < s.length

theorem Listed.of_visits {input : Bytes} (h : Listed input) {st : Bytes × Bytes}
    (hst : Visits sanitizeStep ([], input) st) : Listed st.2 := by
  have hkeep : ∀ t t' : Bytes × Bytes, Listed t.2 → sanitizeStep t = some t' → Listed t'.2 :=
    fun _ _ ht hturn => (ht.step hturn).1
  exact hst.invariant h hkeep

theorem Listed.terminates {input : Bytes} (h : Listed input) : Terminates input := by
  have hprogress : ∀ st st', Visits sanitizeStep ([], input) st → sanitizeStep st = some st' →
      st'.2.length < st.2.length := fun st st' hst hturn => ((h.of_visits hst).step hturn).2
  refine ⟨?_, fun out s out' s' hst hturn => hprogress _ _ hst hturn⟩
  obtain ⟨⟨out, s⟩, hr⟩ :=
    exists_returns_of_variant (fun st : Bytes × Bytes => st.2.length) hprogress
  -- the loop is left at the end of the text
  have hend : s = [] := by
    by_contra hs
    obtain ⟨st, hstep⟩ := exists_sanitizeStep hs out
    have hnone := hr.visits.2
    rw [hstep] at hnone
    cases hnone
  rw [hend] at hr
  exact ⟨out, hr⟩

/-- A tag that is not listed keeps the scanner forever. -/
theorem not_returns_of_unlisted {s : Bytes} (h : ¬ Listed s) (out : Bytes) (r : Bytes × Bytes) :
    ¬ Returns sanitizeStep (out, s) r := by
  induction hn : s.length using Nat.strongRecOn generalizing s out with
  | ind n ih =>
    subst hn
    have hs : s ≠ [] := by
      rintro rfl
      rw [Listed, lexemes] at h
      exact h nofun
    by_cases hfst : (nextLexeme s).1.Unlisted
    · exact not_returns_of_stuck (sanitizeStep_of_unlisted hfst)
    · rw [Listed, lexemes_of_ne_nil hs, forall_mem_cons] at h
      obtain ⟨⟨out', s'⟩, hstep⟩ := exists_sanitizeStep hs out
      have hrest := rest_of_sanitizeStep hs hstep hfst
      rw [returns_iff_of_step hstep, hrest]
      exact ih _ (length_nextLexeme_lt hs) (fun hall => h ⟨hfst, hall⟩) out' rfl

/-- **Termination**: the sanitizer terminates on the texts in which every opening tag has a name
that is allowed or stripped, and only on them. -/
theorem terminates_iff (input : Bytes) : (∀ t ∈ lexemes input, ¬ t.Unlisted) ↔
    Terminates input := by
  constructor
  · exact fun h => Listed.terminates h
  · intro h
    by_contra hnot
    obtain ⟨out, hout⟩ := h.returns
    exact not_returns_of_unlisted hnot [] _ hout

/-- **The sanitizer does not always terminate**: a tag in neither list. -/
theorem not_forall_terminates : ¬ ∀ input, Terminates input := by
  intro h
  have hunlisted : (nextLexeme (bytes "<o:p>")).1.Unlisted := by decide +kernel
  obtain ⟨out, hout⟩ := (h (bytes "<o:p>")).returns
  exact not_returns_of_stuck (sanitizeStep_of_unlisted hunlisted) hout

end HtmlSanitize

end ProtoRelay
