import ProtoRelay.Webmail.HtmlSanitize

/-!
# The output of the HTML sanitizer

Whatever the input, if the sanitizer returns, its output is a sequence of text, closing tags and
opening tags with the names and attributes it allows; link targets have one of three schemes, in any
case of letters; and the sanitizer leaves its own output as it is.
-/

namespace ProtoRelay

open List

namespace HtmlSanitize

/-! ## The grammar -/

/-- A piece of sanitized HTML; the values of attributes are as they are written. -/
inductive Item
  | text (t : Bytes)
  | closing (name : Bytes)
  | opening (name : Bytes) (attrs : List (Bytes × Bytes))

def attrText (a : Bytes × Bytes) : Bytes := bytes " " ++ a.1 ++ bytes "=\"" ++ a.2 ++ bytes "\""

def Item.render : Item → Bytes
  | .text t => t
  | .closing name => closingTag name
  | .opening name attrs =>
    bytes "<" ++ name ++ attrs.flatMap attrText ++ bytes ">"

variable (fold : Bytes → Bytes)

/-- The value, decoded once, begins with one of the schemes, behind blanks and control characters;
`fold` is applied to it before. -/
def HasScheme (value : Bytes) : Prop :=
  ∃ lead rest, decodeEntities value = lead ++ rest ∧ (∀ b ∈ lead, isWs b = true ∨ b < 32) ∧
    (bytes "http://" <+: fold rest ∨ bytes "https://" <+: fold rest ∨ bytes "mailto:" <+: fold rest)

/-- What the grammar asks of a piece. -/
def Item.WellFormed : Item → Prop
  | .text t => 60 ∉ t ∧ 62 ∉ t
  | .closing name => isAllowedTag name = true
  | .opening name attrs => isAllowedTag name = true ∧
    ∀ a ∈ attrs, attrPolicy name a.1 ≠ .strip ∧ 34 ∉ a.2 ∧ 60 ∉ a.2 ∧ 62 ∉ a.2 ∧
      (a.1 = bytes "href" → HasScheme fold a.2)

/-- The output is a sequence of pieces of the grammar. -/
def InGrammar (out : Bytes) : Prop :=
  ∃ items : List Item, out = items.flatMap Item.render ∧ ∀ i ∈ items, i.WellFormed fold

/-! ## Escapes -/

/-- What follows an entity that was decoded. -/
theorem decodeFrom_eq_drop (k : Nat) (s : Bytes) : decodeFrom k s = decodeEntities (s.drop k) := by
  induction k generalizing s with
  | zero => rfl
  | succ k ih =>
    cases s with
    | nil => rfl
    | cons b s => exact ih s

theorem decodeEntities_cons_of_ne {b : UInt8} (h : b ≠ 38) (s : Bytes) :
    decodeEntities (b :: s) = b :: decodeEntities s := by
  rw [decodeEntities, decodeFrom, if_pos h]
  rfl

variable {s tag name out rest : Bytes} {c : UInt8} {attrs : List Attr} {n : Node}

/-- An entity that is decoded. -/
theorem decodeEntities_entity {text : Bytes} {k : Nat} (h : entityAt s = some (text, k)) :
    decodeEntities (38 :: s) = text ++ decodeEntities (s.drop k) := by
  rw [decodeEntities, decodeFrom, if_neg (by simp)]
  simp only [h, decodeFrom_eq_drop]

/-- The entity of a name is found. -/
theorem entityAt_append {ent : Bytes} (hent : 59 ∉ ent) (s : Bytes) :
    entityAt (ent ++ 59 :: s) = entityAt (ent ++ [59]) := by
  unfold entityAt
  rw [findByte_append_of_not_mem hent s, findByte_append_of_not_mem hent []]
  simp only [take_left]

/-- **One decoding undoes the escapes.** -/
theorem decodeEntities_escapeByte (b : UInt8) (s : Bytes) :
    decodeEntities (escapeByte b ++ s) = b :: decodeEntities s := by
  have hentity : ∀ ent : Bytes, 59 ∉ ent →
      entityAt (ent ++ [59]) = some ([b], ent.length + 1) →
      decodeEntities (38 :: (ent ++ [59]) ++ s) = b :: decodeEntities s := by
    intro ent hent hb
    have hfound : entityAt (ent ++ 59 :: s) = some ([b], ent.length + 1) :=
      (entityAt_append hent s).trans hb
    rw [cons_append, append_assoc, singleton_append, decodeEntities_entity hfound]
    simp
  unfold escapeByte
  split
  · rename_i h
    subst h
    exact hentity (bytes "amp") (by decide) (by decide)
  · split
    · rename_i h
      subst h
      exact hentity (bytes "lt") (by decide) (by decide)
    · split
      · rename_i h
        subst h
        exact hentity (bytes "gt") (by decide) (by decide)
      · split
        · rename_i h
          subst h
          exact hentity (bytes "quot") (by decide) (by decide)
        · rename_i hamp _ _ _
          exact decodeEntities_cons_of_ne hamp s

theorem decodeEntities_appendEscaped (d : Bytes) : decodeEntities (appendEscaped d) = d := by
  induction d with
  | nil => rfl
  | cons b d ih =>
    rw [appendEscaped, flatMap_cons, decodeEntities_escapeByte, ← appendEscaped, ih]

/-- No byte that is markup is written without an escape. -/
theorem not_mem_appendEscaped (hc : c = 34 ∨ c = 60 ∨ c = 62) (d : Bytes) :
    c ∉ appendEscaped d := by
  have hbyte : ∀ b, 34 ∉ escapeByte b ∧ 60 ∉ escapeByte b ∧ 62 ∉ escapeByte b :=
    forall_byte (by decide +kernel)
  intro hmem
  obtain ⟨b, -, hb⟩ := mem_flatMap.mp hmem
  rcases hc with rfl | rfl | rfl
  · exact (hbyte b).1 hb
  · exact (hbyte b).2.1 hb
  · exact (hbyte b).2.2 hb

/-! ## Names -/

/-- The names of the attributes that are not stripped. -/
def attrNames : List Bytes :=
  ["href", "title", "alt", "width", "height", "align", "color", "face", "size", "bgcolor",
    "colspan", "rowspan", "valign"].map bytes

theorem mem_attrNames {attr : Bytes} (h : attrPolicy tag attr ≠ .strip) : attr ∈ attrNames := by
  have hmem : ∀ names : List Bytes, names ⊆ attrNames → attr ∈ names → attr ∈ attrNames :=
    fun _ hsub hattr => hsub hattr
  unfold attrPolicy at h
  split at h
  · rename_i hhref
    exact hhref.2 ▸ by decide
  · split at h
    · rename_i htitle
      exact htitle.2 ▸ by decide
    · split at h
      · split at h
        · rename_i himg
          exact hmem _ (by decide) himg
        · exact absurd rfl h
      · split at h
        · rename_i hfont
          exact hmem _ (by decide) hfont.2
        · split at h
          · rename_i htable
            exact hmem _ (by decide) htable.2
          · split at h
            · rename_i hspan
              exact hmem _ (by decide) hspan
            · exact absurd rfl h

/-- Such a name is read to its end, as it is. -/
theorem attrNames_spec : ∀ name ∈ attrNames,
    name ≠ [] ∧ (∀ b ∈ name, isAttrNameChar b = true) ∧ toLower name = name := by
  simp only [← List.all_eq_true]
  decide

/-- So is the name of a tag that is allowed. -/
theorem kAllowedTags_spec : ∀ name ∈ kAllowedTags,
    name.head?.any isAlpha = true ∧ (∀ b ∈ name, isTagNameChar b = true) ∧ toLower name = name ∧
      isStripWithContent name = false := by
  simp only [← List.all_eq_true]
  decide

theorem allowed_spec (h : isAllowedTag name = true) :
    name.head?.any isAlpha = true ∧ (∀ b ∈ name, isTagNameChar b = true) ∧ toLower name = name ∧
      isStripWithContent name = false :=
  kAllowedTags_spec name (of_decide_eq_true h)

/-! ## Reading what was written -/

theorem takeWhile_append_cons {p : UInt8 → Bool} {a : Bytes} (ha : ∀ b ∈ a, p b = true)
    (hc : p c = false) (s : Bytes) : (a ++ c :: s).takeWhile p = a := by
  rw [takeWhile_append_of_pos ha, takeWhile_cons_of_neg (by simp [hc]), append_nil]

theorem dropWhile_append_cons {p : UInt8 → Bool} {a : Bytes} (ha : ∀ b ∈ a, p b = true)
    (hc : p c = false) (s : Bytes) : (a ++ c :: s).dropWhile p = c :: s := by
  rw [dropWhile_append_of_pos ha, dropWhile_cons_of_neg (by simp [hc])]

theorem readValue_quoted (value s : Bytes) :
    readValue (bytes "=\"" ++ appendEscaped value ++ bytes "\"" ++ s) =
      (appendEscaped value, s) := by
  have hq : ∀ b ∈ appendEscaped value, (b != 34) = true := by
    intro b hb
    have hne : b ≠ 34 := fun h => not_mem_appendEscaped (.inl rfl) value (h ▸ hb)
    simpa using hne
  change readValue (61 :: 34 :: (appendEscaped value ++ [34] ++ s)) = _
  rw [append_assoc, singleton_append]
  have hws : ∀ t : Bytes, (61 :: t).dropWhile isWs = 61 :: t := fun t => rfl
  have hws' : ∀ t : Bytes, (34 :: t).dropWhile isWs = 34 :: t := fun t => rfl
  simp only [readValue, hws, hws', if_true, true_or]
  rw [takeWhile_append_cons hq (by decide), dropWhile_append_cons hq (by decide)]
  rfl

theorem attrTurn_render {a : Attr} (h : a.name ∈ attrNames) (s : Bytes) :
    attrTurn (a.render ++ s) = .attr a s := by
  obtain ⟨hne, hchars, hlower⟩ := attrNames_spec _ h
  obtain ⟨b, name, hname⟩ := exists_cons_of_ne_nil hne
  have hb : isAttrNameChar b = true := hchars b (by simp [hname])
  have hbs : isWs b = false ∧ b ≠ 62 ∧ b ≠ 47 := by
    have hall : ∀ b, isAttrNameChar b = true → isWs b = false ∧ b ≠ 62 ∧ b ≠ 47 :=
      forall_byte (by decide +kernel)
    exact hall b hb
  -- the blank in front of the name is skipped
  have htext : (a.render ++ s).dropWhile isWs =
      b :: (name ++ (bytes "=\"" ++ appendEscaped a.value ++ bytes "\"" ++ s)) := by
    have hsp : a.render ++ s =
        32 :: b :: (name ++ (bytes "=\"" ++ appendEscaped a.value ++ bytes "\"" ++ s)) := by
      simp only [Attr.render, hname, append_assoc, cons_append]
      rfl
    rw [hsp, dropWhile_cons_of_pos (by decide), dropWhile_cons_of_neg (by simp [hbs.1])]
  have hread : (b :: (name ++ (bytes "=\"" ++ appendEscaped a.value ++ bytes "\"" ++ s))) =
      a.name ++ 61 :: (bytes "\"" ++ appendEscaped a.value ++ bytes "\"" ++ s) := by
    rw [hname]
    rfl
  unfold attrTurn
  rw [htext]
  simp only [hbs.2.1, hbs.2.2, false_and, if_false]
  rw [hread, attrName_eq, takeWhile_append_cons hchars (by decide),
    dropWhile_append_cons hchars (by decide), hlower, if_neg hne]
  have hval := readValue_quoted a.value s
  change readValue (61 :: (bytes "\"" ++ appendEscaped a.value ++ bytes "\"" ++ s)) = _ at hval
  rw [hval, decodeEntities_appendEscaped]

theorem keepsAttr_policy {a : Attr} (h : keepsAttr tag a = true) :
    attrPolicy tag a.name ≠ .strip := by
  intro hstrip
  rw [keepsAttr, hstrip] at h
  cases h

/-- **The attributes of a tag** are read as they were written. -/
theorem readAttrs_render (h : ∀ a ∈ attrs, keepsAttr tag a = true) (s : Bytes) :
    readAttrs tag (attrs.flatMap Attr.render ++ bytes ">" ++ s) = some (attrs, s) := by
  induction attrs with
  | nil =>
    have hturn : attrTurn (bytes ">" ++ s) = .done s := rfl
    unfold readAttrs
    split <;> rename_i heq
    all_goals
      change attrTurn (bytes ">" ++ s) = _ at heq
      cases heq
    rfl
  | cons a attrs ih =>
    rw [forall_mem_cons] at h
    have hturn := attrTurn_render (mem_attrNames (keepsAttr_policy h.1))
      (attrs.flatMap Attr.render ++ bytes ">" ++ s)
    rw [flatMap_cons, append_assoc, append_assoc, ← append_assoc (attrs.flatMap _)]
    unfold readAttrs
    split <;> rename_i heq
    all_goals
      rw [hturn] at heq
      cases heq
    rw [ih h.2, Option.map_some, if_pos h.1]

/-- A piece of output, with its text and its values before they are escaped. -/
inductive Node
  | text (t : Bytes)
  | closing (name : Bytes)
  | opening (name : Bytes) (attrs : List Attr)

/-- The piece is what the sanitizer lets through. -/
def Node.Allowed : Node → Prop
  | .text _ => True
  | .closing name => isAllowedTag name = true
  | .opening name attrs => isAllowedTag name = true ∧ ∀ a ∈ attrs, keepsAttr name a = true

/-- The piece as it is written. -/
def Node.render : Node → Bytes
  | .text t => appendEscaped t
  | .closing name => closingTag name
  | .opening name attrs => openingTag name attrs

/-- What begins with `</` and a letter is a closing tag. -/
theorem nextLexeme_slash {p : Bytes} (h : p.head?.any isAlpha = true) :
    nextLexeme (60 :: 47 :: p) = readTag true p := by
  have hcomment : (bytes "<!--").isPrefixOf (60 :: 47 :: p) = false := rfl
  have hdecl : (bytes "<!").isPrefixOf (60 :: 47 :: p) = false := rfl
  have hpi : (bytes "<?").isPrefixOf (60 :: 47 :: p) = false := rfl
  simp only [nextLexeme, ne_eq, not_true, if_false, hcomment, hdecl, hpi, Bool.false_eq_true,
    head?_cons, BEq.rfl, if_true, drop_one, tail_cons, h, Bool.not_true]

/-- What begins with `<` and a letter is an opening tag. -/
theorem nextLexeme_alpha {b : UInt8} {p : Bytes} (h : isAlpha b = true) :
    nextLexeme (60 :: b :: p) = readTag false (b :: p) := by
  have hb : b ≠ 33 ∧ b ≠ 63 ∧ b ≠ 47 := by
    have hall : ∀ b, isAlpha b = true → b ≠ 33 ∧ b ≠ 63 ∧ b ≠ 47 := forall_byte (by decide +kernel)
    exact hall b h
  have hcomment : (bytes "<!--").isPrefixOf (60 :: b :: p) = false := by
    change ((60 : UInt8) == 60 && ((33 : UInt8) == b && _)) = false
    simp [hb.1.symm]
  have hdecl : (bytes "<!").isPrefixOf (60 :: b :: p) = false := by
    change ((60 : UInt8) == 60 && ((33 : UInt8) == b && _)) = false
    simp [hb.1.symm]
  have hpi : (bytes "<?").isPrefixOf (60 :: b :: p) = false := by
    change ((60 : UInt8) == 60 && ((63 : UInt8) == b && _)) = false
    simp [hb.2.1.symm]
  have hslash : ((b :: p).head? == some 47) = false := by simp [hb.2.2]
  have halpha : (b :: p).head?.any isAlpha = true := h
  simp only [nextLexeme, ne_eq, not_true, if_false, hcomment, hdecl, hpi,
    Bool.false_eq_true, hslash,
    halpha, Bool.not_true]

theorem nextLexeme_closingTag (h : isAllowedTag name = true) (s : Bytes) :
    nextLexeme (closingTag name ++ s) = (.closing name, s) := by
  obtain ⟨halpha, hchars, hlower, -⟩ := allowed_spec h
  have htag : readTag true (name ++ 62 :: s) = (.closing name, s) := by
    simp only [readTag, if_true]
    rw [takeWhile_append_cons hchars (by decide), dropWhile_append_cons hchars (by decide), hlower]
    rfl
  have hhead : (name ++ 62 :: s).head?.any isAlpha = true := by
    cases name with
    | nil => cases halpha
    | cons b name => exact halpha
  have htext : closingTag name ++ s = 60 :: 47 :: (name ++ 62 :: s) := by
    simp only [closingTag, append_assoc]
    rfl
  rw [htext, nextLexeme_slash hhead, htag]

theorem nextLexeme_openingTag (h : isAllowedTag name = true)
    (hattrs : ∀ a ∈ attrs, keepsAttr name a = true) (s : Bytes) :
    nextLexeme (openingTag name attrs ++ s) = (.opening name attrs, s) := by
  obtain ⟨halpha, hchars, hlower, hstrip⟩ := allowed_spec h
  obtain ⟨b, name', rfl⟩ : ∃ b name', name = b :: name' := by
    cases name with
    | nil => cases halpha
    | cons b name' => exact ⟨b, name', rfl⟩
  -- behind the name comes a blank or the end of the tag
  obtain ⟨c, rest, hrest, hc⟩ : ∃ c rest, attrs.flatMap Attr.render ++ bytes ">" ++ s = c :: rest ∧
      isTagNameChar c = false := by
    cases attrs with
    | nil => exact ⟨62, s, rfl, by decide⟩
    | cons a attrs => exact ⟨32, _, rfl, by decide⟩
  have htext : openingTag (b :: name') attrs ++ s = 60 :: b :: (name' ++ c :: rest) := by
    rw [← hrest]
    simp only [openingTag, append_assoc]
    rfl
  have htag : readTag false ((b :: name') ++ c :: rest) = (.opening (b :: name') attrs, s) := by
    simp only [readTag, Bool.false_eq_true, if_false]
    rw [takeWhile_append_cons hchars hc, dropWhile_append_cons hchars hc, hlower, ← hrest,
      readAttrs_render hattrs]
    simp only [hstrip, Bool.false_eq_true, if_false]
  rw [htext, nextLexeme_alpha halpha]
  exact htag

/-- A text, up to the end or the next tag. -/
theorem nextLexeme_text {d : Bytes} (hd : d ≠ []) (hs : s = [] ∨ s.head? = some 60) :
    nextLexeme (appendEscaped d ++ s) = (.text (appendEscaped d), s) := by
  have hnot : ∀ b ∈ appendEscaped d, (b != 60) = true := by
    intro b hb
    have hne : b ≠ 60 := fun h => not_mem_appendEscaped (.inr (.inl rfl)) d (h ▸ hb)
    simpa using hne
  have hsp : (appendEscaped d ++ s).takeWhile (· != 60) = appendEscaped d ∧
      (appendEscaped d ++ s).dropWhile (· != 60) = s := by
    rw [takeWhile_append_of_pos hnot, dropWhile_append_of_pos hnot]
    rcases hs with rfl | hs
    · simp
    · cases s with
      | nil => cases hs
      | cons c s =>
        cases hs
        simp
  obtain ⟨b, t, hbt⟩ : ∃ b t, appendEscaped d = b :: t := by
    refine exists_cons_of_ne_nil fun hnil => hd ?_
    rw [← decodeEntities_appendEscaped d, hnil]
    rfl
  have hb : b ≠ 60 := by simpa using hnot b (by simp [hbt])
  rw [hbt, cons_append] at hsp ⊢
  unfold nextLexeme
  dsimp only
  rw [if_pos hb, hsp.1, hsp.2]

/-! ## The sanitizer on its own output -/

theorem sanitizeStep_text {d : Bytes} (hd : d ≠ []) (hs : s = [] ∨ s.head? = some 60)
    (out : Bytes) :
    sanitizeStep (out, appendEscaped d ++ s) = some (out ++ appendEscaped d, s) := by
  have hnext := nextLexeme_text hd hs
  cases htext : appendEscaped d ++ s with
  | nil =>
    rw [append_eq_nil_iff] at htext
    have hdecode := decodeEntities_appendEscaped d
    rw [htext.1] at hdecode
    exact absurd hdecode.symm hd
  | cons b t =>
    rw [htext] at hnext
    simp only [sanitizeStep, hnext, decodeEntities_appendEscaped]

theorem sanitizeStep_tag (h : n.Allowed) (hn : ∀ t, n ≠ .text t) (out s : Bytes) :
    sanitizeStep (out, n.render ++ s) = some (out ++ n.render, s) := by
  cases n with
  | text t => exact absurd rfl (hn t)
  | closing name =>
    have hname : isAllowedTag name = true := h
    have hnext := nextLexeme_closingTag hname s
    change sanitizeStep (out, 60 :: _) = some (out ++ closingTag name, s)
    change nextLexeme (60 :: _) = _ at hnext
    simp only [sanitizeStep, hnext, hname, if_true]
  | opening name attrs =>
    have hname : isAllowedTag name = true := h.1
    have hnext := nextLexeme_openingTag hname h.2 s
    change sanitizeStep (out, 60 :: _) = some (out ++ openingTag name attrs, s)
    change nextLexeme (60 :: _) = _ at hnext
    simp only [sanitizeStep, hnext, hname, if_true]

/-- **The sanitizer leaves its own output as it is.**  Text that is still to be read is kept apart:
adjacent texts are read as one. -/
theorem returns_render {nodes : List Node} (h : ∀ n ∈ nodes, n.Allowed) (out d : Bytes) :
    Returns sanitizeStep (out, appendEscaped d ++ nodes.flatMap Node.render)
      (out ++ appendEscaped d ++ nodes.flatMap Node.render, []) := by
  induction nodes generalizing out d with
  | nil =>
    rw [flatMap_nil, append_nil, append_nil]
    by_cases hd : d = []
    · subst hd
      rw [appendEscaped, flatMap_nil, append_nil]
      exact returns_of_done rfl
    · have hstep := sanitizeStep_text hd (.inl rfl) out
      rw [append_nil] at hstep
      rw [returns_iff_of_step hstep]
      exact returns_of_done rfl
  | cons n nodes ih =>
    rw [forall_mem_cons] at h
    by_cases hn : ∀ t, n ≠ .text t
    · -- the text before the tag, then the tag
      have htag : Returns sanitizeStep (out ++ appendEscaped d,
        n.render ++ nodes.flatMap Node.render)
          (out ++ appendEscaped d ++ (n.render ++ nodes.flatMap Node.render), []) := by
        rw [returns_iff_of_step (sanitizeStep_tag h.1 hn _ _), ← append_assoc]
        have hrest := ih h.2 (out ++ appendEscaped d ++ n.render) []
        simpa only [appendEscaped, flatMap_nil, nil_append, append_nil] using hrest
      rw [flatMap_cons]
      by_cases hd : d = []
      · subst hd
        simpa only [appendEscaped, flatMap_nil, nil_append, append_nil] using htag
      · have hhead : (n.render ++ nodes.flatMap Node.render).head? = some 60 := by
          cases n with
          | text t => exact absurd rfl (hn t)
          | closing | opening => rfl
        rw [returns_iff_of_step (sanitizeStep_text hd (.inr hhead) out)]
        exact htag
    · simp only [not_forall, not_not] at hn
      obtain ⟨t, rfl⟩ := hn
      have hrest := ih h.2 out (d ++ t)
      rw [show appendEscaped (d ++ t) = appendEscaped d ++
        appendEscaped t from flatMap_append] at hrest
      simpa only [flatMap_cons, Node.render, append_assoc] using hrest

/-! ## What the sanitizer writes -/

/-- The output so far is a sequence of pieces the sanitizer lets through. -/
def Written (out : Bytes) : Prop :=
  ∃ nodes : List Node, out = nodes.flatMap Node.render ∧ ∀ n ∈ nodes, n.Allowed

theorem Written.snoc (h : Written out) (hn : n.Allowed) : Written (out ++ n.render) := by
  obtain ⟨nodes, rfl, hnodes⟩ := h
  refine ⟨nodes ++ [n], by simp, ?_⟩
  intro m hm
  rcases mem_append.mp hm with hm | hm
  · exact hnodes m hm
  · rw [mem_singleton.mp hm]
    exact hn

/-- Only attributes that are kept are read. -/
theorem keepsAttr_of_readAttrs (h : readAttrs tag s = some (attrs, rest)) :
    ∀ a ∈ attrs, keepsAttr tag a = true := by
  fun_induction readAttrs tag s generalizing attrs with
  | case1 => cases h
  | case2 =>
    cases h
    exact forall_mem_nil _
  | case3 s rest' heq hlt ih => exact ih h
  | case4 s a rest' heq hlt ih =>
    obtain ⟨⟨attrs', rest''⟩, hread, hpair⟩ := Option.map_eq_some_iff.mp h
    cases hpair
    split
    · rename_i hkeep
      exact forall_mem_cons.mpr ⟨hkeep, ih hread⟩
    · exact ih hread

theorem keepsAttr_of_readTag {closing : Bool} {p : Bytes}
    (h : readTag closing p = (.opening name attrs, rest)) :
    ∀ a ∈ attrs, keepsAttr name a = true := by
  unfold readTag at h
  dsimp only at h
  split at h
  · split at h
    · cases h
    · cases h
  · split at h
    · cases h
    · rename_i hread
      split at h
      · cases h
      · cases h
        exact keepsAttr_of_readAttrs hread

theorem keepsAttr_of_nextLexeme (h : nextLexeme s = (.opening name attrs, rest)) :
    ∀ a ∈ attrs, keepsAttr name a = true := by
  unfold nextLexeme at h
  split at h
  · cases h
  · rename_i b t
    dsimp only at h
    split at h
    · cases h
    · split at h
      · split at h
        · cases h
        · cases h
      · split at h
        · cases h
        · split at h
          · cases h
          · generalize (if t.head? == some 47 then t.drop 1 else t) = p at h
            split at h
            · cases h
            · exact keepsAttr_of_readTag h

/-- **One turn** writes a piece, or nothing. -/
theorem Written.step {st st' : Bytes × Bytes} (h : Written st.1)
    (hstep : sanitizeStep st = some st') :
    Written st'.1 := by
  unfold sanitizeStep at hstep
  split at hstep
  · cases hstep
  · split at hstep <;> rename_i hnext
    · cases hstep
      exact h.snoc (n := .text _) trivial
    · cases hstep
      -- the escape of a literal `<`
      exact h.snoc (n := .text [60]) trivial
    · cases hstep
      split
      · rename_i hname
        exact h.snoc (n := .closing _) hname
      · exact h
    · split at hstep
      · rename_i hname
        cases hstep
        exact h.snoc (n := .opening _ _) ⟨hname, keepsAttr_of_nextLexeme hnext⟩
      · cases hstep
        exact h
    · cases hstep
      exact h
    · cases hstep
      exact h
    · cases hstep
      exact h

theorem Sanitizes.written {input : Bytes} (h : Sanitizes input out) : Written out := by
  have hstart : Written ([], input).1 := ⟨[], rfl, nofun⟩
  have hkeep : ∀ t t' : Bytes × Bytes, Written t.1 → sanitizeStep t = some t' → Written t'.1 :=
    fun _ _ ht hturn => ht.step hturn
  exact h.visits.1.invariant hstart hkeep

/-! ## The grammar of the output -/

def Node.item : Node → Item
  | .text t => .text (appendEscaped t)
  | .closing name => .closing name
  | .opening name attrs => .opening name (attrs.map fun a => (a.name, appendEscaped a.value))

theorem Node.render_item (n : Node) : n.item.render = n.render := by
  cases n with
  | text | closing => rfl
  | opening name attrs =>
    simp only [Node.item, Item.render, Node.render, openingTag, flatMap_map]
    rfl

/-- A target that is let through has one of the schemes. -/
theorem hasScheme_of_safeUrl {value : Bytes} (h : safeUrl value = true) :
    HasScheme toLower (appendEscaped value) := by
  refine ⟨value.takeWhile fun b => isWs b || b < 32, value.dropWhile fun b => isWs b || b < 32, ?_,
    fun b hb => ?_, ?_⟩
  · rw [decodeEntities_appendEscaped, takeWhile_append_dropWhile]
  · simpa using mem_takeWhile_imp hb
  · simpa [safeUrl, or_assoc] using h

/-- **An attribute that is kept** is one of the grammar. -/
theorem wellFormed_item (h : n.Allowed) : n.item.WellFormed toLower := by
  cases n with
  | text t => exact ⟨not_mem_appendEscaped (.inr (.inl rfl)) t,
    not_mem_appendEscaped (.inr (.inr rfl)) t⟩
  | closing name => exact h
  | opening name attrs =>
    refine ⟨h.1, fun b hb => ?_⟩
    obtain ⟨a, ha, rfl⟩ := mem_map.mp hb
    have hkeep := h.2 a ha
    refine ⟨keepsAttr_policy hkeep, not_mem_appendEscaped (.inl rfl) _,
      not_mem_appendEscaped (.inr (.inl rfl)) _, not_mem_appendEscaped (.inr (.inr rfl)) _, ?_⟩
    intro hhref
    have hhref' : a.name = bytes "href" := hhref
    refine hasScheme_of_safeUrl ?_
    -- the policy lets `href` through on `a` only, and there the target is checked
    have hpolicy : ∀ tag, attrPolicy tag (bytes "href") = .checkUrl ∨
        attrPolicy tag (bytes "href") = .strip := by
      intro tag
      unfold attrPolicy
      by_cases hta : tag = bytes "a"
      · exact .inl (if_pos ⟨hta, rfl⟩)
      · right
        rw [if_neg (fun h => hta h.1), if_neg (fun h => hta h.1)]
        split
        · exact if_neg (by decide)
        · rw [if_neg (fun h => absurd h.2 (by decide)), if_neg (fun h => absurd h.2 (by decide)),
            if_neg (by decide)]
    rw [keepsAttr, hhref'] at hkeep
    rcases hpolicy name with hcheck | hstrip
    · rw [hcheck] at hkeep
      exact hkeep
    · rw [hstrip] at hkeep
      cases hkeep

theorem Written.inGrammar (h : Written out) : InGrammar toLower out := by
  obtain ⟨nodes, rfl, hnodes⟩ := h
  refine ⟨nodes.map Node.item, ?_, fun i hi => ?_⟩
  · simp only [flatMap_map, Node.render_item]
  · obtain ⟨n, hn, rfl⟩ := mem_map.mp hi
    exact wellFormed_item (hnodes n hn)

theorem Written.sanitizes (h : Written out) : Sanitizes out out := by
  obtain ⟨nodes, rfl, hnodes⟩ := h
  exact returns_render hnodes [] []

/-- **The output of the sanitizer**: for every input on which it returns, the output is a sequence
of text without angle brackets, closing tags of allowed names and opening tags of allowed names with
attributes the policy allows, in double quotes, without quotes or angle brackets in the values;
links begin with one of the three schemes, in any case; and the sanitizer returns its output
unchanged. -/
theorem output_grammar (input out : Bytes) (h : Sanitizes input out) :
    InGrammar toLower out ∧ Sanitizes out out :=
  ⟨h.written.inGrammar, h.written.sanitizes⟩

theorem output_grammar_link :
    InGrammar toLower (bytes "<a href=\"HTTP://x\">t</a>") ∧
      Sanitizes (bytes "<a href=\"HTTP://x\">t</a>") (bytes "<a href=\"HTTP://x\">t</a>") :=
  output_grammar (bytes "<a onclick=f() href=HTTP://x>t</a>") _ ⟨4, by decide +kernel⟩

/-! ### The case of schemes -/

/-- A text that begins with `<a` and a blank begins with an opening tag `a`. -/
theorem exists_opening {fold : Bytes → Bytes} {items : List Item} {t : Bytes}
    (hwf : ∀ i ∈ items, i.WellFormed fold) (h : items.flatMap Item.render = 60 :: 97 :: 32 :: t) :
    ∃ attrs rest, Item.opening (bytes "a") attrs ∈ items ∧
      attrs.flatMap attrText ++ 62 :: rest = 32 :: t := by
  induction items with
  | nil => cases h
  | cons i items ih =>
    rw [forall_mem_cons] at hwf
    rw [flatMap_cons] at h
    cases i with
    | text u =>
      cases u with
      | nil =>
        obtain ⟨attrs, rest, hmem, hrest⟩ := ih hwf.2 h
        exact ⟨attrs, rest, .tail _ hmem, hrest⟩
      | cons b u =>
        -- text has no angle bracket
        cases (List.cons.inj h).1
        exact absurd mem_cons_self hwf.1.1
    | closing name => cases h
    | opening name attrs =>
      obtain ⟨-, hchars, -, -⟩ := allowed_spec hwf.1.1
      -- behind the name comes a blank or the end of the tag
      obtain ⟨c, rest, hrest, hc⟩ : ∃ c rest,
          attrs.flatMap attrText ++ 62 :: items.flatMap Item.render = c :: rest ∧
            isTagNameChar c = false := by
        cases attrs with
        | nil => exact ⟨62, _, rfl, by decide⟩
        | cons a attrs => exact ⟨32, _, rfl, by decide⟩
      have htag : name ++ c :: rest = 97 :: 32 :: t := by
        have hrender : (Item.opening name attrs).render ++ items.flatMap Item.render =
            60 :: (name ++ c :: rest) := by
          rw [← hrest]
          simp only [Item.render, append_assoc]
          rfl
        rw [hrender] at h
        exact (List.cons.inj h).2
      have hname : name = [97] := by
        rw [← takeWhile_append_cons hchars hc rest, htag]
        exact takeWhile_append_cons (a := [97]) (all_eq_true.mp rfl) (by decide) t
      subst hname
      exact ⟨attrs, _, mem_cons_self, hrest.trans (List.cons.inj htag).2⟩

/-- **The case of a scheme is kept**: a link need not begin with one of the schemes as they are
written. -/
theorem not_forall_lowerScheme :
    ¬ ∀ input out, Sanitizes input out → InGrammar id out ∧ Sanitizes out out := by
  intro h
  have hout : Sanitizes (bytes "<a href=HTTP://x>") (bytes "<a href=\"HTTP://x\">") :=
    ⟨2, by decide +kernel⟩
  obtain ⟨⟨items, hitems, hwf⟩, -⟩ := h _ _ hout
  obtain ⟨attrs, rest, hmem, hattrs⟩ := exists_opening hwf hitems.symm
  have hopening := (hwf _ hmem).2
  cases attrs with
  | nil => cases hattrs
  | cons a attrs =>
    obtain ⟨hpolicy, hq, -, -, hscheme⟩ := hopening a mem_cons_self
    obtain ⟨-, hchars, -⟩ := attrNames_spec _ (mem_attrNames hpolicy)
    obtain ⟨name, value⟩ := a
    -- the name ends at the first equals sign, the value at the first quote
    have hname : name ++ 61 :: (34 :: (value ++ 34 :: (attrs.flatMap attrText ++ 62 :: rest))) =
        bytes "href" ++ 61 :: (34 :: (bytes "HTTP://x" ++ 34 :: [62])) := by
      have hrender : ((name, value) :: attrs).flatMap attrText ++ 62 :: rest =
          32 :: (name ++ 61 ::
            (34 :: (value ++ 34 :: (attrs.flatMap attrText ++ 62 :: rest)))) := by
        simp only [flatMap_cons, attrText, append_assoc]
        rfl
      rw [hrender] at hattrs
      exact (List.cons.inj hattrs).2
    have hequals : 61 ∉ name := fun hmem => absurd (hchars _ hmem) (by decide)
    obtain ⟨rfl, hval⟩ := split_at_first_inj hequals (by decide) hname
    obtain ⟨rfl, -⟩ := split_at_first_inj hq (by decide) (List.cons.inj hval).2
    obtain ⟨lead, link, hdecode, hlead, hstart⟩ := hscheme rfl
    have hlink : bytes "HTTP://x" = lead ++ link := by
      rw [← hdecode]
      decide
    cases lead with
    | nil =>
      rw [nil_append] at hlink
      rw [← hlink] at hstart
      exact absurd hstart (by decide)
    | cons b lead =>
      have hb := hlead b mem_cons_self
      rw [← (List.cons.inj hlink).1] at hb
      exact absurd hb (by decide)

end HtmlSanitize

end ProtoRelay
