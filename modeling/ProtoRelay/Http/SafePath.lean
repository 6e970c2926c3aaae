import ProtoRelay.Mime.Headers

/-!
# Paths of static files

A request path is decoded, put behind the document root and normalised; it is served if the normal
form begins with that of the root and goes on with a slash.  Paths are those of `std::filesystem` on
a POSIX system, and `lexicallyNormal` follows the rules of the standard for a normal form.

The normal form keeps a slash at the end of the root.  The check then asks for a second one behind
it, so that a root with a slash at the end serves nothing but itself.
-/

namespace ProtoRelay.Http

open List

/-! ## Paths -/

def dot : Bytes := [46]

def dotDot : Bytes := [46, 46]

variable (path : Bytes)

/-- What stands between slashes; a slash at the end leaves an empty last component. -/
def components : List Bytes := path.splitOn 47

/-- `operator/`: an absolute right operand replaces the left one. -/
def joinPath (root rel : Bytes) : Bytes :=
  if rel.head? = some 47 then rel
  else if root.getLast? = some 47 ∨ root = [] then root ++ rel
  else root ++ 47 :: rel

/-- One component is read; those in front of it are on a stack.  Two dots take a name off it. -/
def pushName (isAbsolute : Bool) (stack : List Bytes) (name : Bytes) : List Bytes :=
  if name = [] ∨ name = dot then stack
  else if name = dotDot then
    match stack with
    | [] => if isAbsolute then [] else [dotDot]
    | top :: rest => if top = dotDot then dotDot :: stack else rest
  else name :: stack

/-- The components of the normal form.  There is a slash at the end behind a name if the path ended
in a slash or in dots. -/
def normalComponents : List Bytes :=
  let isAbsolute := path.head? == some 47
  let stack := (components path).foldl (pushName isAbsolute) []
  if stack = [] then if isAbsolute then [[], []] else [dot]
  else
    (if isAbsolute then [[]] else []) ++ stack.reverse ++
      if (components path).getLast? ∈ [some [], some dot, some dotDot] ∧
        stack.head? ≠ some dotDot then
        [[]]
      else []

def lexicallyNormal : Bytes :=
  if path = [] then [] else [47].intercalate (normalComponents path)

/-! ## Requests -/

/-- `percent_decode`; nothing if it fails. -/
def percentDecode : Bytes → Option Bytes
  | [] => some []
  | c :: rest =>
    if c = 37 then
      match rest with
      | h :: l :: rest => do
        let b ← percentByte h l
        let out ← percentDecode rest
        some (b :: out)
      | _ => none
    else (percentDecode rest).map (c :: ·)

/-- `resolve_safe_path`. -/
def resolveSafePath (docRoot urlPath : Bytes) : Option Bytes := do
  let decoded ← percentDecode urlPath
  let rel := if decoded.head? = some 47 then decoded.drop 1 else decoded
  let pn := lexicallyNormal (joinPath docRoot rel)
  let rn := lexicallyNormal docRoot
  if pn.length < rn.length ∨ pn.take rn.length ≠ rn ∨
      (rn.length < pn.length ∧ pn[rn.length]? ≠ some 47) then
    none
  else some pn

/-- **Strictly below, component by component**: behind those of the root there are others, none of
them dots, and none of them empty but perhaps the last one, for a slash at the end. -/
def Below (root path : Bytes) : Prop :=
  ∃ rest, rest ≠ [] ∧ components path = components root ++ rest ∧ dot ∉ rest ∧ dotDot ∉ rest ∧
    [] ∉ rest.dropLast

/-! ## Normal forms -/

theorem slash_not_mem_of_mem_components {path name : Bytes} (h : name ∈ components path) :
    47 ∉ name := by
  induction path generalizing name with
  | nil =>
    obtain rfl := mem_singleton.mp h
    exact not_mem_nil
  | cons b path ih =>
    rw [components, splitOn_cons_eq_if_modifyHead] at h
    split at h
    · rcases mem_cons.mp h with rfl | h
      · exact not_mem_nil
      · exact ih h
    · rename_i hb
      obtain ⟨first, rest, hs⟩ := exists_cons_of_ne_nil (splitOn_ne_nil 47 path)
      rw [components, hs] at ih
      rw [hs] at h
      rcases mem_cons.mp h with rfl | h
      · rw [mem_cons, not_or]
        exact ⟨fun heq => hb (by rw [heq, beq_self_eq_true]), ih mem_cons_self⟩
      · exact ih (mem_cons_of_mem _ h)

/-- A component that names something. -/
structure IsName (name : Bytes) : Prop where
  ne_nil : name ≠ []
  ne_dot : name ≠ dot
  ne_dotDot : name ≠ dotDot
  noSlash : 47 ∉ name

/-- The components read so far are names, behind those that lead up. -/
def NormalStack (isAbsolute : Bool) (stack : List Bytes) : Prop :=
  ∃ names ups, stack = names ++ List.replicate ups dotDot ∧ (∀ c ∈ names, IsName c) ∧
    (isAbsolute = true → ups = 0)

theorem NormalStack.push {isAbsolute : Bool} {stack : List Bytes} {name : Bytes}
    (h : NormalStack isAbsolute stack) (hname : 47 ∉ name) :
    NormalStack isAbsolute (pushName isAbsolute stack name) := by
  obtain ⟨names, ups, rfl, hnames, hups⟩ := h
  unfold pushName
  split
  · exact ⟨names, ups, rfl, hnames, hups⟩
  · rename_i hskip
    rw [not_or] at hskip
    split
    · cases names with
      | cons c names =>
        rw [forall_mem_cons] at hnames
        rw [cons_append]
        dsimp only
        rw [if_neg hnames.1.ne_dotDot]
        exact ⟨names, ups, rfl, hnames.2, hups⟩
      | nil =>
        cases ups with
        | zero =>
          cases isAbsolute with
          | true => exact ⟨[], 0, rfl, hnames, hups⟩
          | false => exact ⟨[], 1, rfl, hnames, nofun⟩
        | succ ups => exact ⟨[], ups + 2, rfl, hnames,
          fun habs => absurd (hups habs) (Nat.succ_ne_zero _)⟩
    · rename_i hups'
      exact ⟨name :: names, ups, rfl,
        forall_mem_cons.mpr ⟨⟨hskip.1, hskip.2, hups', hname⟩, hnames⟩, hups⟩

theorem normalStack_foldl (isAbsolute : Bool) :
    NormalStack isAbsolute ((components path).foldl (pushName isAbsolute) []) := by
  refine List.foldlRecOn (components path) _ ⟨[], 0, rfl, by simp, fun _ => rfl⟩ ?_
  intro stack h name hname
  exact h.push (slash_not_mem_of_mem_components hname)

/-- What is known of the components of a normal form. -/
structure IsNormal (l : List Bytes) : Prop where
  ne_nil : l ≠ []
  noSlash : ∀ c ∈ l, 47 ∉ c
  dot : dot ∈ l → l = [dot]
  ups : ∀ front rest, l = front ++ dotDot :: rest → ∀ c ∈ front, c = dotDot
  inner : [] ∉ l.tail.dropLast

/-- Components that lead up are in front of all others. -/
theorem eq_of_append_replicate {d : Bytes} {l front rest : List Bytes} {n : Nat} (hl : d ∉ l)
    (h : List.replicate n d ++ l = front ++ d :: rest) : ∀ c ∈ front, c = d := by
  induction n generalizing front with
  | zero => exact absurd (by rw [show l = _ from h]; simp) hl
  | succ n ih =>
    cases front with
    | nil => simp
    | cons a front =>
      obtain ⟨rfl, h'⟩ := List.cons.inj h
      exact forall_mem_cons.mpr ⟨rfl, ih h'⟩

/-- Components that lead up and names, perhaps between slashes. -/
theorem isNormal_of_names {lead names tail : List Bytes} {ups : Nat}
    (hnames : ∀ c ∈ names, IsName c)
    (hne : List.replicate ups dotDot ++ names ≠ []) (hlead : lead = [] ∨ lead = [[]] ∧ ups = 0)
    (htail : tail = [] ∨ tail = [[]]) :
    IsNormal (lead ++ (List.replicate ups dotDot ++ names) ++ tail) := by
  have he : ∀ c ∈ lead ++ tail, c = [] := by
    rcases hlead with rfl | ⟨rfl, -⟩ <;> rcases htail with rfl | rfl <;> simp
  have hmem : ∀ c ∈ lead ++ (List.replicate ups dotDot ++ names) ++ tail, c = [] ∨
      c = dotDot ∨ IsName c := by
    intro c hc
    simp only [mem_append, mem_replicate] at hc he
    rcases hc with (hc | hc | hc) | hc
    · exact .inl (he c (.inl hc))
    · exact .inr (.inl hc.2)
    · exact .inr (.inr (hnames c hc))
    · exact .inl (he c (.inr hc))
  constructor
  · exact append_ne_nil_of_left_ne_nil (append_ne_nil_of_right_ne_nil _ hne) _
  · intro c hc
    rcases hmem c hc with rfl | rfl | hname
    · exact not_mem_nil
    · decide
    · exact hname.noSlash
  · intro hdot
    rcases hmem dot hdot with heq | heq | hname
    · cases heq
    · exact absurd heq (by decide)
    · exact absurd rfl hname.ne_dot
  · intro front rest h
    have hups : dotDot ∉ lead ++ names ++ tail := by
      intro hc
      simp only [mem_append] at hc he
      rcases hc with (hc | hc) | hc
      · exact absurd (he _ (.inl hc)) (by decide)
      · exact (hnames _ hc).ne_dotDot rfl
      · exact absurd (he _ (.inr hc)) (by decide)
    refine eq_of_append_replicate (n := ups) hups (Eq.trans ?_ h)
    rcases hlead with rfl | ⟨rfl, rfl⟩ <;> simp
  · have hmid : [] ∉ List.replicate ups dotDot ++ names := by
      intro hc
      rcases mem_append.mp hc with hc | hc
      · exact absurd (eq_of_mem_replicate hc) (by decide)
      · exact (hnames _ hc).ne_nil rfl
    obtain ⟨first, middle, hfst⟩ := exists_cons_of_ne_nil hne
    rw [hfst] at hmid ⊢
    rcases hlead with rfl | ⟨rfl, -⟩ <;> rcases htail with rfl | rfl
    · rw [append_nil]
      exact fun hc => hmid (mem_of_mem_tail (mem_of_mem_dropLast hc))
    · change [] ∉ (middle ++ [[]]).dropLast
      rw [dropLast_concat]
      exact fun hc => hmid (mem_cons_of_mem _ hc)
    · rw [append_nil]
      exact fun hc => hmid (mem_of_mem_dropLast hc)
    · change [] ∉ (first :: middle ++ [[]]).dropLast
      rw [dropLast_concat]
      exact hmid

theorem isNormal_normalComponents : IsNormal (normalComponents path) := by
  have hstack := normalStack_foldl path (path.head? == some 47)
  unfold normalComponents
  dsimp only
  generalize (components path).foldl _ [] = stack at hstack ⊢
  generalize (path.head? == some 47) = isAbsolute at hstack ⊢
  split
  · have hups {l : List Bytes} (hl : dotDot ∉ l) (front rest : List Bytes)
        (h : l = front ++ dotDot :: rest) : ∀ c ∈ front, c = dotDot :=
      eq_of_append_replicate (n := 0) hl h
    cases isAbsolute with
    | true => exact ⟨by decide, by decide, by decide, hups (by decide), by decide⟩
    | false => exact ⟨by decide, by decide, fun _ => rfl, hups (by decide), by decide⟩
  · rename_i hne
    obtain ⟨names, ups, rfl, hnames, hups⟩ := hstack
    rw [reverse_append, reverse_replicate]
    refine isNormal_of_names (fun c hc => hnames c (mem_reverse.mp hc)) ?_ ?_ ?_
    · simpa [and_comm] using hne
    · cases isAbsolute with
      | true => exact .inr ⟨rfl, hups rfl⟩
      | false => exact .inl rfl
    · split
      · exact .inr rfl
      · exact .inl rfl

theorem components_lexicallyNormal {path : Bytes} (h : path ≠ []) :
    components (lexicallyNormal path) = normalComponents path := by
  have hnormal := isNormal_normalComponents path
  rw [lexicallyNormal, if_neg h, components, splitOn_intercalate 47 hnormal.noSlash hnormal.ne_nil]

theorem joinPath_ne_nil {root : Bytes} (h : root ≠ []) (rel : Bytes) : joinPath root rel ≠ [] := by
  unfold joinPath
  split
  · rename_i hrel
    rintro rfl
    cases hrel
  · split
    · exact append_ne_nil_of_left_ne_nil h _
    · exact append_ne_nil_of_left_ne_nil h _

/-- **Static files stay inside the document root**: whatever the request path is, a path that is
resolved is the normal form of the root or lies strictly below it. -/
theorem resolveSafePath_contained {docRoot urlPath path : Bytes} (hroot : docRoot ≠ [])
    (hups : dotDot ∉ components (lexicallyNormal docRoot))
    (h : resolveSafePath docRoot urlPath = some path) :
    path = lexicallyNormal docRoot ∨ Below (lexicallyNormal docRoot) path := by
  obtain ⟨decoded, -, h⟩ := Option.bind_eq_some_iff.mp h
  dsimp only at h
  generalize (if decoded.head? = some 47 then decoded.drop 1 else decoded) = rel at h
  split at h
  · cases h
  · rename_i hchecks
    obtain rfl := Option.some.inj h
    simp only [not_or, ne_eq, not_not, not_and, Nat.not_lt] at hchecks
    obtain ⟨-, htake, hnext⟩ := hchecks
    have hcomponents := components_lexicallyNormal (joinPath_ne_nil hroot rel)
    have hnormal := isNormal_normalComponents (joinPath docRoot rel)
    rw [← hcomponents] at hnormal
    generalize lexicallyNormal (joinPath docRoot rel) = pn at htake hnext hnormal ⊢
    generalize lexicallyNormal docRoot = rn at hups htake hnext ⊢
    rcases Nat.lt_or_ge rn.length pn.length with hlt | hge
    · right
      -- the path goes on with a slash
      have hdrop : pn.drop rn.length = 47 :: pn.drop (rn.length + 1) := by
        rw [drop_eq_getElem_cons hlt]
        congr 1
        exact Option.some.inj ((getElem?_eq_getElem hlt).symm.trans (hnext hlt))
      have hpn : pn = rn ++ 47 :: pn.drop (rn.length + 1) := by
        rw [← hdrop]
        exact (htake ▸ take_append_drop rn.length pn).symm
      have hs : components pn = components rn ++ components (pn.drop (rn.length + 1)) := by
        conv_lhs => rw [hpn]
        exact splitOn_append_cons_self _ _
      obtain ⟨first, others, hrn⟩ := exists_cons_of_ne_nil (splitOn_ne_nil 47 rn)
      have hne : components (pn.drop (rn.length + 1)) ≠ [] := splitOn_ne_nil 47 _
      generalize components (pn.drop (rn.length + 1)) = rest at hs hne
      refine ⟨rest, hne, hs, fun hdot => ?_, fun hdots => ?_, fun hc => ?_⟩
      · have hall := hnormal.dot (hs ▸ mem_append_right _ hdot)
        rw [hs, components, hrn] at hall
        exact hne (append_eq_nil_iff.mp (List.cons.inj hall).2).2
      · obtain ⟨a, b, rfl⟩ := append_of_mem hdots
        rw [← append_assoc] at hs
        have hfst := hnormal.ups _ b hs first
        rw [components, hrn] at hfst hups
        exact hups (hfst mem_cons_self ▸ mem_cons_self)
      · refine hnormal.inner ?_
        rw [hs, components, hrn]
        change [] ∈ (others ++ rest).dropLast
        rw [dropLast_append_of_ne_nil hne]
        exact mem_append_right _ hc
    · left
      rw [take_of_length_le hge] at htake
      exact htake

theorem resolveSafePath_contained_style :
    resolveSafePath (bytes "/srv//www") (bytes "/css/../%73tyle/a.css") =
        some (bytes "/srv/www/style/a.css") ∧
      (bytes "/srv/www/style/a.css" = lexicallyNormal (bytes "/srv//www") ∨
        Below (lexicallyNormal (bytes "/srv//www")) (bytes "/srv/www/style/a.css")) :=
  ⟨by decide, resolveSafePath_contained (by decide) (by decide)
    (show resolveSafePath (bytes "/srv//www") (bytes "/css/../%73tyle/a.css") = _ by decide)⟩

/-! ## A slash behind the root -/

/-- The path ends in a slash or in dots. -/
def EndsInDots (path : Bytes) : Prop :=
  (components path).getLast? ∈ [some [], some dot, some dotDot]

instance : DecidablePred EndsInDots := fun _ => inferInstanceAs (Decidable (_ ∈ _))

/-- The names of an absolute path, and a slash at the end behind a slash or dots. -/
theorem normalComponents_of_absolute {path : Bytes} (h : path.head? = some 47) :
    normalComponents path = [] :: (((components path).foldl (pushName true) []).reverse ++
      if EndsInDots path then [[]] else []) := by
  obtain ⟨names, ups, hstack, hnames, hups⟩ := normalStack_foldl path true
  obtain rfl := hups rfl
  have hhead : ((components path).foldl (pushName true) []).head? ≠ some dotDot := by
    intro hd
    rw [hstack, replicate_zero, append_nil] at hd
    exact (hnames _ (mem_of_mem_head? hd)).ne_dotDot rfl
  simp only [normalComponents, h, beq_self_eq_true, if_true, hhead, ne_eq, not_false_eq_true,
    and_true]
  split
  · rename_i hempty
    -- a name at the end would be on the stack
    obtain ⟨front, last, hs⟩ :=
      (eq_nil_or_concat (components path)).resolve_left (splitOn_ne_nil 47 path)
    rw [hempty, if_pos]
    · rfl
    · rw [EndsInDots, hs, concat_eq_append, getLast?_concat]
      rw [hs] at hempty
      by_contra hname
      simp only [mem_cons, Option.some.injEq, not_mem_nil, or_false, not_or] at hname
      simp [pushName, hname] at hempty
  · rfl

theorem components_injective : Function.Injective components := by
  intro p q h
  exact (intercalate_splitOn 47).symm.trans
    ((congrArg [47].intercalate h).trans (intercalate_splitOn 47))

theorem components_append (path rel : Bytes) :
    components (path ++ 47 :: rel) = components path ++ components rel :=
      splitOn_append_cons_self _ _

/-- What is joined to a path ends it. -/
theorem endsInDots_append (path rel : Bytes) : EndsInDots (path ++ 47 :: rel) ↔ EndsInDots rel := by
  unfold EndsInDots
  rw [components_append,
    getLast?_append_of_ne_nil _ (show components rel ≠ [] from splitOn_ne_nil 47 rel)]

/-- The names of the front are read first. -/
theorem components_lexicallyNormal_append {path rel : Bytes}
    (h : (path ++ 47 :: rel).head? = some 47) :
    components (lexicallyNormal (path ++ 47 :: rel)) = [] ::
      (((components rel).foldl (pushName true)
        ((components path).foldl (pushName true) [])).reverse ++
        if EndsInDots rel then [[]] else []) := by
  rw [components_lexicallyNormal (by simp), normalComponents_of_absolute h, components_append,
    foldl_append]
  simp only [endsInDots_append]

section

variable {root : Bytes} (habs : root.head? = some 47)
include habs

theorem ne_nil_of_absolute : root ≠ [] := by
  rintro rfl
  cases habs

/-- A second slash only makes an empty component. -/
theorem lexicallyNormal_joinPath_slash (rel : Bytes) :
    lexicallyNormal (joinPath (root ++ [47]) rel) = lexicallyNormal (joinPath root rel) := by
  unfold joinPath
  split
  · rfl
  · rw [if_pos (by simp), append_assoc]
    split
    · rename_i hend
      obtain ⟨front, rfl⟩ := getLast?_eq_some_iff.mp (hend.resolve_right (ne_nil_of_absolute habs))
      have habs' : ∀ p, (front ++ 47 :: p).head? = some 47 := by
        intro p
        cases front with
        | nil => rfl
        | cons b front => exact habs
      have hs : components (47 :: rel) = [] :: components rel := components_append [] rel
      have hend : EndsInDots (47 :: rel) ↔ EndsInDots rel := endsInDots_append [] rel
      apply components_injective
      rw [append_assoc, append_assoc, singleton_append, singleton_append,
        components_lexicallyNormal_append (habs' _), components_lexicallyNormal_append (habs' _)]
      simp only [hend]
      rfl
    · rfl

/-- Behind a root whose normal form does not end in a slash, a slash and a name stay. -/
theorem lexicallyNormal_append {name : Bytes} (hdots : ¬ EndsInDots root)
    (hname : name = [] ∨ name = [97]) :
    lexicallyNormal (root ++ 47 :: name) = lexicallyNormal root ++ 47 :: name := by
  apply components_injective
  rw [components_lexicallyNormal_append (by simp [habs]), components_append,
    components_lexicallyNormal (ne_nil_of_absolute habs), normalComponents_of_absolute habs,
      if_neg hdots,
    append_nil]
  congr 1
  rcases hname with rfl | rfl
  · rfl
  · change ([97] :: _).reverse ++ [] = _
    rw [reverse_cons, append_nil]
    rfl

theorem lexicallyNormal_slash (hdots : EndsInDots root) :
    lexicallyNormal (root ++ [47]) = lexicallyNormal root := by
  apply components_injective
  rw [components_lexicallyNormal_append (by simp [habs]),
    components_lexicallyNormal (ne_nil_of_absolute habs), normalComponents_of_absolute habs,
    if_pos hdots]
  rfl

/-- **A slash behind the root** makes no difference exactly if the root ends in a slash or
in dots. -/
theorem resolveSafePath_slash_iff :
    (∀ urlPath, resolveSafePath root urlPath = resolveSafePath (root ++ [47]) urlPath) ↔
      EndsInDots root := by
  constructor
  · intro h
    by_contra hdots
    have hname := h [97]
    have hjoin : joinPath (root ++ [47]) [97] = root ++ [47, 97] := by simp [joinPath]
    have hdecode : percentDecode [97] = some [97] := by decide
    simp only [resolveSafePath, ← lexicallyNormal_joinPath_slash habs, hdecode] at hname
    simp [hjoin, lexicallyNormal_append habs hdots] at hname
  · intro hdots urlPath
    simp only [resolveSafePath, lexicallyNormal_joinPath_slash habs,
      lexicallyNormal_slash habs hdots]

end

theorem resolveSafePath_slash_iff_up : EndsInDots (bytes "/srv/www/..") ∧ ∀ urlPath,
    resolveSafePath (bytes "/srv/www/..") urlPath =
      resolveSafePath (bytes "/srv/www/../") urlPath := by
  have hdots : EndsInDots (bytes "/srv/www/..") := by decide
  exact ⟨hdots, (resolveSafePath_slash_iff rfl).mpr hdots⟩

theorem not_forall_resolveSafePath_slash : ¬ ∀ root urlPath : Bytes, root.head? = some 47 →
    resolveSafePath root urlPath = resolveSafePath (root ++ [47]) urlPath := by
  intro h
  exact absurd (h (bytes "/srv") (bytes "/a") rfl) (by decide)

end ProtoRelay.Http
