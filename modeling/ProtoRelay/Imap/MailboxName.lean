import ProtoRelay.Base.Bytes

/-!
# Mailbox names on the wire

LIST prints the name of a mailbox in modified UTF-7 and, if need be, in quotes; the commands decode
what they are given.  `kBase64Decode` is not the inverse of `kBase64`: it reads `,` as 62 and `_` as
63 where the encoder writes `+` and `,`, so the names with one of the two in their encoded form are
not read back.

The encoder writes characters, `&-` and base64 between `&` and `-`.  These are the parts of a name;
the decoder reads a text part by part, which is all that is needed about either of them.
-/

namespace ProtoRelay

open List

/-! ## Encoding -/

def kBase64 : Bytes := bytes "ABCDEFGHIJKLMNOPQRSTUVWXYZabcdefghijklmnopqrstuvwxyz0123456789+,"

/-- The base64 of `encode_mailbox_name`, without padding. -/
def modifiedBase64 : Bytes → Bytes
  | [] => []
  | [b0] =>
    let t := b0.toNat <<< 16
    [kBase64.getD (t >>> 18 &&& 0x3F) 0, kBase64.getD (t >>> 12 &&& 0x3F) 0]
  | [b0, b1] =>
    let t := b0.toNat <<< 16 ||| b1.toNat <<< 8
    [kBase64.getD (t >>> 18 &&& 0x3F) 0, kBase64.getD (t >>> 12 &&& 0x3F) 0,
      kBase64.getD (t >>> 6 &&& 0x3F) 0]
  | b0 :: b1 :: b2 :: rest =>
    let t := b0.toNat <<< 16 ||| b1.toNat <<< 8 ||| b2.toNat
    [kBase64.getD (t >>> 18 &&& 0x3F) 0, kBase64.getD (t >>> 12 &&& 0x3F) 0,
      kBase64.getD (t >>> 6 &&& 0x3F) 0, kBase64.getD (t &&& 0x3F) 0] ++ modifiedBase64 rest

def unitBytes (u : Nat) : Bytes := [UInt8.ofNat (u >>> 8 &&& 0xFF), UInt8.ofNat (u &&& 0xFF)]

/-- `flush` of `encode_mailbox_name`. -/
def flushUnits (units : List Nat) : Bytes :=
  if units = [] then [] else 38 :: modifiedBase64 (units.flatMap unitBytes) ++ [45]

/-- The code point that begins with a byte, and the number of bytes it has besides.  Behind the end
of the name there is a NUL. -/
def readCodePoint (c : UInt8) (rest : Bytes) : Nat × Nat :=
  let (cp, extra) :=
    if 0xF0 ≤ c then (c.toNat &&& 0x07, 3)
    else if 0xE0 ≤ c then (c.toNat &&& 0x0F, 2)
    else (c.toNat &&& 0x1F, 1)
  ((List.range extra).foldl (fun cp j => cp <<< 6 ||| ((rest.getD j 0).toNat &&& 0x3F)) cp, extra)

def unitsOf (cp : Nat) : List Nat :=
  if 0xFFFF < cp then
    let cp := cp - 0x10000
    [0xD800 ||| (cp >>> 10 &&& 0x3FF), 0xDC00 ||| (cp &&& 0x3FF)]
  else [cp]

/-- The loop of `encode_mailbox_name`, which has still to pass the rest of a code point. -/
def encodeFrom : Nat → List Nat → Bytes → Bytes
  | _, buf, [] => flushUnits buf
  | skip + 1, buf, _ :: rest => encodeFrom skip buf rest
  | 0, buf, c :: rest =>
    if c < 0x80 then
      flushUnits buf ++ (if c = 38 then [38, 45] else [c]) ++ encodeFrom 0 [] rest
    else encodeFrom (readCodePoint c rest).2 (buf ++ unitsOf (readCodePoint c rest).1) rest

def encodeMailboxName (name : Bytes) : Bytes :=
  if toUpper name = bytes "INBOX" then bytes "INBOX" else encodeFrom 0 [] name

/-! ## Decoding -/

def kBase64Decode (b : UInt8) : Option Nat :=
  if b = 44 then some 62
  else if 48 ≤ b ∧ b ≤ 57 then some (b.toNat - 48 + 52)
  else if 65 ≤ b ∧ b ≤ 90 then some (b.toNat - 65)
  else if b = 95 then some 63
  else if 97 ≤ b ∧ b ≤ 122 then some (b.toNat - 97 + 26)
  else none

/-- The bits read so far, how many of them are left, and the bytes. -/
structure Base64State where
  acc : Nat := 0
  bits : Nat := 0
  out : Bytes := []

/-- One character of base64; what is not a digit is passed over. -/
def base64Step (st : Base64State) (b : UInt8) : Base64State :=
  match kBase64Decode b with
  | none => st
  | some val =>
    let acc := (st.acc <<< 6 ||| val) % 2 ^ 32
    let bits := st.bits + 6
    if 8 ≤ bits then
      { acc, bits := bits - 8, out := st.out ++ [UInt8.ofNat (acc >>> (bits - 8) &&& 0xFF)] }
    else { st with acc, bits }

def unitsOfBytes : Bytes → List Nat
  | b0 :: b1 :: rest => (b0.toNat <<< 8 ||| b1.toNat) :: unitsOfBytes rest
  | _ => []

/-- The UTF-8 that `decode_mailbox_name` writes for UTF-16.  A high surrogate takes the unit behind
it for the low one, whatever it is. -/
def utf8OfUtf16 : List Nat → Bytes
  | [] => []
  | unit :: rest =>
    if 0xD800 ≤ unit ∧ unit ≤ 0xDBFF then
      match rest with
      | [] => []
      | low :: rest =>
        let cp := 0x10000 + (unit - 0xD800) <<< 10 + low - 0xDC00
        [UInt8.ofNat (0xF0 ||| (cp >>> 18 &&& 0x07)), UInt8.ofNat (0x80 ||| (cp >>> 12 &&& 0x3F)),
          UInt8.ofNat (0x80 ||| (cp >>> 6 &&& 0x3F)), UInt8.ofNat (0x80 ||| (cp &&& 0x3F))] ++
          utf8OfUtf16 rest
    else if 0xD800 ≤ unit ∧ unit ≤ 0xDFFF then utf8OfUtf16 rest
    else if unit < 0x80 then UInt8.ofNat unit :: utf8OfUtf16 rest
    else if unit < 0x800 then
      [UInt8.ofNat (0xC0 ||| (unit >>> 6 &&& 0x1F)), UInt8.ofNat (0x80 ||| (unit &&& 0x3F))] ++
        utf8OfUtf16 rest
    else
      [UInt8.ofNat (0xE0 ||| (unit >>> 12 &&& 0x0F)), UInt8.ofNat (0x80 ||| (unit >>> 6 &&& 0x3F)),
        UInt8.ofNat (0x80 ||| (unit &&& 0x3F))] ++ utf8OfUtf16 rest

/-- What stands for the base64 between `&` and `-`. -/
def decodeBase64 (b64 : Bytes) : Bytes := utf8OfUtf16 (unitsOfBytes (b64.foldl base64Step {}).out)

/-- The loop of `decode_mailbox_name`, which has still to pass the rest of a base64 section. -/
def decodeFrom : Nat → Bytes → Bytes
  | _, [] => []
  | skip + 1, _ :: rest => decodeFrom skip rest
  | 0, c :: rest =>
    if c = 38 then
      if rest.head? = some 45 then 38 :: decodeFrom 1 rest
      else
        match findByte 45 rest with
        | none => c :: decodeFrom 0 rest
        | some stop => decodeBase64 (rest.take stop) ++ decodeFrom (stop + 1) rest
    else c :: decodeFrom 0 rest

/-- `decode_mailbox_name`, and `decode_imap_utf7`. -/
def decodeMailboxName (imap7 : Bytes) : Bytes := decodeFrom 0 imap7

theorem decodeFrom_eq (skip : Nat) (s : Bytes) :
    decodeFrom skip s = decodeMailboxName (s.drop skip) := by
  induction skip generalizing s with
  | zero => rfl
  | succ skip ih =>
    cases s with
    | nil => rfl
    | cons c rest => exact ih rest

variable {c : UInt8} {s : Bytes} {parts : List NamePart}

theorem decodeMailboxName_cons (hc : c ≠ 38) (rest : Bytes) :
    decodeMailboxName (c :: rest) = c :: decodeMailboxName rest := by
  unfold decodeMailboxName
  rw [decodeFrom, if_neg hc]

theorem decodeMailboxName_of_not_mem (h : 38 ∉ s) : decodeMailboxName s = s := by
  induction s with
  | nil => rfl
  | cons c s ih =>
    rw [mem_cons, not_or] at h
    rw [decodeMailboxName_cons (Ne.symm h.1), ih h.2]

/-! ## Quoting -/

def escapeQuoted (s : Bytes) : Bytes :=
  s.flatMap fun c => if c = 34 ∨ c = 92 then [92, c] else [c]

def needsQuote (s : Bytes) : Bool :=
  s.isEmpty || s.head? == some 38 || s.any (fun c => c == 34 || c == 92) || s.contains 32

def quoteString (s : Bytes) : Bytes :=
  if needsQuote s then 34 :: escapeQuoted s ++ [34] else s

/-! ## Parts -/

/-- A part of an encoded name. -/
inductive NamePart
  | char (c : UInt8)
  | ampersand
  | base64 (digits : Bytes)
  deriving DecidableEq

/-- The digits the encoder writes. -/
def isModifiedBase64 (b : UInt8) : Bool :=
  (65 ≤ b && b ≤ 90) || (97 ≤ b && b ≤ 122) || (48 ≤ b && b ≤ 57) || b == 43 || b == 44

namespace NamePart

def text : NamePart → Bytes
  | char c => [c]
  | ampersand => [38, 45]
  | base64 digits => 38 :: digits ++ [45]

def decoded : NamePart → Bytes
  | char c => [c]
  | ampersand => [38]
  | base64 digits => decodeBase64 digits

/-- The encoder writes such a part. -/
def Ok : NamePart → Prop
  | char c => c ≠ 38
  | ampersand => True
  | base64 digits => digits ≠ [] ∧ ∀ b ∈ digits, isModifiedBase64 b = true

end NamePart

def partsText (parts : List NamePart) : Bytes := parts.flatMap NamePart.text

def partsName (parts : List NamePart) : Bytes := parts.flatMap NamePart.decoded

theorem partsText_append (a b : List NamePart) : partsText (a ++ b) = partsText a ++ partsText b :=
  flatMap_append

theorem partsName_append (a b : List NamePart) : partsName (a ++ b) = partsName a ++ partsName b :=
  flatMap_append

variable (p : NamePart)

theorem partsText_cons (ps : List NamePart) : partsText (p :: ps) = p.text ++ partsText ps := rfl

theorem partsName_cons (ps : List NamePart) : partsName (p :: ps) = p.decoded ++ partsName ps := rfl

theorem not_mem_of_isModifiedBase64 (hc : isModifiedBase64 c = false) {digits : Bytes}
    (h : ∀ b ∈ digits, isModifiedBase64 b = true) : c ∉ digits := by
  intro hmem
  rw [h c hmem] at hc
  cases hc

/-- **Parts are decoded one by one.** -/
theorem decodeMailboxName_text (h : ∀ p ∈ parts, p.Ok) :
    decodeMailboxName (partsText parts) = partsName parts := by
  induction parts with
  | nil => rfl
  | cons p ps ih =>
    rw [forall_mem_cons] at h
    rw [partsName_cons, ← ih h.2]
    cases p with
    | char c => exact decodeMailboxName_cons h.1 _
    | ampersand => rfl
    | base64 digits =>
      obtain ⟨hne, hdigits⟩ := h.1
      have hdash : (45 : UInt8) ∉ digits := not_mem_of_isModifiedBase64 (by decide) hdigits
      have hstop := findByte_append_of_not_mem hdash (partsText ps)
      have hhead : (digits ++ 45 :: partsText ps).head? ≠ some 45 := by
        cases digits with
        | nil => exact absurd rfl hne
        | cons d ds =>
          intro heq
          exact hdash (Option.some.inj heq ▸ mem_cons_self)
      change decodeFrom 0 (38 :: ((digits ++ [45]) ++ partsText ps)) = _
      rw [append_assoc, singleton_append, decodeFrom, if_neg hhead, hstop]
      simp only [take_left, decodeFrom_eq]
      simp [NamePart.decoded]

/-! ## The parts of an encoded name -/

theorem isModifiedBase64_getD (n : Nat) :
    isModifiedBase64 (kBase64.getD (n &&& 0x3F) 0) = true := by
  have hall : ∀ m < 64, isModifiedBase64 (kBase64.getD m 0) = true := by decide +kernel
  exact hall _ (Nat.lt_of_le_of_lt Nat.and_le_right (by decide))

theorem isModifiedBase64_of_mem {b : UInt8} (h : b ∈ modifiedBase64 s) :
    isModifiedBase64 b = true := by
  fun_induction modifiedBase64 s with
  | case1 => cases h
  | case2 b0 t =>
    simp only [mem_cons, not_mem_nil, or_false] at h
    rcases h with rfl | rfl <;> exact isModifiedBase64_getD _
  | case3 b0 b1 t =>
    simp only [mem_cons, not_mem_nil, or_false] at h
    rcases h with rfl | rfl | rfl <;> exact isModifiedBase64_getD _
  | case4 b0 b1 b2 rest t ih =>
    rw [mem_append] at h
    rcases h with h | h
    · simp only [mem_cons, not_mem_nil, or_false] at h
      rcases h with rfl | rfl | rfl | rfl <;> exact isModifiedBase64_getD _
    · exact ih h

theorem modifiedBase64_ne_nil (hs : s ≠ []) : modifiedBase64 s ≠ [] := by
  fun_cases modifiedBase64 s
  case case1 => exact absurd rfl hs
  all_goals exact cons_ne_nil _ _

theorem exists_parts_flushUnits (units : List Nat) :
    ∃ parts : List NamePart, (∀ p ∈ parts, p.Ok) ∧ flushUnits units = partsText parts := by
  unfold flushUnits
  split
  · exact ⟨[], by simp, rfl⟩
  · rename_i hne
    have hbytes : units.flatMap unitBytes ≠ [] := by
      cases units with
      | nil => exact absurd rfl hne
      | cons u us => exact cons_ne_nil _ _
    refine ⟨[.base64 (modifiedBase64 (units.flatMap unitBytes))], ?_, ?_⟩
    · intro p hp
      rw [mem_singleton.mp hp]
      exact ⟨modifiedBase64_ne_nil hbytes, fun b hb => isModifiedBase64_of_mem hb⟩
    · exact (append_nil _).symm

theorem exists_parts_encodeFrom (skip : Nat) (buf : List Nat) (s : Bytes) :
    ∃ parts : List NamePart, (∀ p ∈ parts, p.Ok) ∧ encodeFrom skip buf s = partsText parts := by
  induction s generalizing skip buf with
  | nil =>
    exact exists_parts_flushUnits buf
  | cons c rest ih =>
    cases skip with
    | succ skip => exact ih skip buf
    | zero =>
      rw [encodeFrom]
      split
      · obtain ⟨flushed, hflushed, hflush⟩ := exists_parts_flushUnits buf
        obtain ⟨parts, hparts, htext⟩ := ih 0 []
        by_cases hc : c = 38
        · refine ⟨flushed ++ .ampersand :: parts, ?_, ?_⟩
          · simp only [forall_mem_append, forall_mem_cons]
            exact ⟨hflushed, trivial, hparts⟩
          · rw [if_pos hc, hflush, htext, partsText_append, append_assoc]
            rfl
        · refine ⟨flushed ++ .char c :: parts, ?_, ?_⟩
          · simp only [forall_mem_append, forall_mem_cons]
            exact ⟨hflushed, hc, hparts⟩
          · rw [if_neg hc, hflush, htext, partsText_append, append_assoc]
            rfl
      · exact ih _ _

/-- **An encoded name is made of parts.** -/
theorem exists_parts_encode (name : Bytes) :
    ∃ parts : List NamePart, (∀ p ∈ parts, p.Ok) ∧ encodeMailboxName name = partsText parts := by
  unfold encodeMailboxName
  split
  · refine ⟨[.char 73, .char 78, .char 66, .char 79, .char 88], ?_, by decide⟩
    intro p hp
    simp only [mem_cons, not_mem_nil, or_false] at hp
    rcases hp with rfl | rfl | rfl | rfl | rfl <;> exact fun h => nomatch h
  · exact exists_parts_encodeFrom 0 [] name

/-! ## Splitting and escaping -/

/-- A byte that is in a part only as a character. -/
def isPlainByte (c : UInt8) : Bool := c != 38 && c != 45 && !isModifiedBase64 c

theorem eq_char_of_mem_text {p : NamePart} (hp : p.Ok) (hc : isPlainByte c = true)
    (h : c ∈ p.text) :
    p = .char c := by
  simp only [isPlainByte, Bool.and_eq_true, bne_iff_ne, ne_eq, Bool.not_eq_true'] at hc
  obtain ⟨⟨hamp, hdash⟩, hdig⟩ := hc
  cases p with
  | char d => rw [mem_singleton.mp h]
  | ampersand =>
    simp only [NamePart.text, mem_cons, not_mem_nil, or_false] at h
    rcases h with h | h
    · exact absurd h hamp
    · exact absurd h hdash
  | base64 digits =>
    simp only [NamePart.text, cons_append, mem_cons, mem_append, not_mem_nil, or_false] at h
    rcases h with h | h | h
    · exact absurd h hamp
    · exact absurd h (not_mem_of_isModifiedBase64 hdig hp.2)
    · exact absurd h hdash

/-- A text is split at a plain byte where its parts are split. -/
theorem exists_split_parts (hparts : ∀ p ∈ parts, p.Ok) (hc : isPlainByte c = true) {a b : Bytes}
    (h : partsText parts = a ++ c :: b) :
    ∃ front back, parts = front ++ .char c :: back ∧ partsText front = a ∧ partsText back = b := by
  induction parts generalizing a with
  | nil => simp [partsText] at h
  | cons p ps ih =>
    rw [forall_mem_cons] at hparts
    rw [partsText_cons, append_eq_append_iff] at h
    rcases h with ⟨a', rfl, hps⟩ | ⟨t, htext, hrest⟩
    · obtain ⟨front, back, rfl, rfl, rfl⟩ := ih hparts.2 hps
      exact ⟨p :: front, back, rfl, rfl, rfl⟩
    · cases t with
      | nil =>
        rw [append_nil] at htext
        obtain ⟨front, back, rfl, hf, rfl⟩ := @ih hparts.2 [] hrest.symm
        refine ⟨p :: front, back, rfl, ?_, rfl⟩
        rw [partsText_cons, hf, append_nil, htext]
      | cons d t =>
        obtain ⟨rfl, rfl⟩ := List.cons.inj hrest
        have hp := eq_char_of_mem_text hparts.1 hc (by rw [htext]; simp)
        subst hp
        -- the text of a character is that character
        have hlen := congrArg List.length htext
        simp only [NamePart.text, length_append, length_cons, length_nil] at hlen
        have ha : a = [] := eq_nil_of_length_eq_zero (by omega)
        have ht : t = [] := eq_nil_of_length_eq_zero (by omega)
        subst ha ht
        exact ⟨[], ps, rfl, rfl, rfl⟩

/-- The parts of an escaped part. -/
def escapePart : List NamePart :=
  if p = .char 34 ∨ p = .char 92 then [.char 92, p] else [p]

def escapeParts (parts : List NamePart) : List NamePart := parts.flatMap escapePart

theorem partsName_escapePart :
    partsName (escapePart p) = (if p = .char 34 ∨ p = .char 92 then [92] else []) ++ p.decoded := by
  unfold escapePart
  split
  · exact congrArg (92 :: ·) (append_nil _)
  · exact append_nil _

theorem escapeQuoted_of_not_mem (hquote : 34 ∉ s) (hback : 92 ∉ s) : escapeQuoted s = s := by
  induction s with
  | nil => rfl
  | cons c s ih =>
    rw [mem_cons, not_or] at hquote hback
    have hc : ¬(c = 34 ∨ c = 92) := by
      rintro (rfl | rfl)
      · exact hquote.1 rfl
      · exact hback.1 rfl
    change (if c = 34 ∨ c = 92 then [92, c] else [c]) ++ escapeQuoted s = c :: s
    rw [if_neg hc, ih hquote.2 hback.2]
    rfl

theorem escapeQuoted_append (a b : Bytes) :
    escapeQuoted (a ++ b) = escapeQuoted a ++ escapeQuoted b := flatMap_append

theorem escapeQuoted_partsText (h : ∀ p ∈ parts, p.Ok) :
    escapeQuoted (partsText parts) = partsText (escapeParts parts) := by
  induction parts with
  | nil => rfl
  | cons p ps ih =>
    rw [forall_mem_cons] at h
    change escapeQuoted (p.text ++ partsText ps) = partsText (escapePart p ++ escapeParts ps)
    rw [escapeQuoted_append, ih h.2, partsText_append]
    congr 1
    unfold escapePart
    split
    · rename_i hp
      rcases hp with rfl | rfl <;> rfl
    · rename_i hp
      rw [not_or] at hp
      have hquote : 34 ∉ p.text := fun hm => hp.1 (eq_char_of_mem_text h.1 (by decide) hm)
      have hback : 92 ∉ p.text := fun hm => hp.2 (eq_char_of_mem_text h.1 (by decide) hm)
      rw [escapeQuoted_of_not_mem hquote hback]
      exact (append_nil _).symm

theorem ok_of_mem_escapeParts (h : ∀ p ∈ parts, p.Ok) : ∀ p ∈ escapeParts parts, p.Ok := by
  intro p hp
  obtain ⟨q, hq, hp⟩ := mem_flatMap.mp hp
  unfold escapePart at hp
  split at hp
  · simp only [mem_cons, not_mem_nil, or_false] at hp
    rcases hp with rfl | rfl
    · exact fun heq => nomatch heq
    · exact h p hq
  · rw [mem_singleton.mp hp]
    exact h q hq

/-- Escaping adds no quotes to a name. -/
theorem count_quote_escapeParts (parts : List NamePart) :
    (partsName (escapeParts parts)).count 34 = (partsName parts).count 34 := by
  induction parts with
  | nil => rfl
  | cons p ps ih =>
    change (partsName (escapePart p ++ escapeParts ps)).count 34 = _
    rw [partsName_append, partsName_cons, count_append, count_append, ih, partsName_escapePart,
      count_append]
    have hnone : (if p = .char 34 ∨ p = .char 92 then [92] else [] : Bytes).count 34 = 0 := by
      split <;> rfl
    rw [hnone, Nat.zero_add]

/-- Escaping makes a name longer if there is something to escape. -/
theorem length_escapeParts (parts : List NamePart) :
    (partsName parts).length ≤ (partsName (escapeParts parts)).length ∧
      (.char 92 ∈ parts → (partsName parts).length < (partsName (escapeParts parts)).length) := by
  induction parts with
  | nil => exact ⟨le_rfl, fun h => nomatch h⟩
  | cons p ps ih =>
    have hlen : (partsName (escapeParts (p :: ps))).length =
        (if p = .char 34 ∨ p = .char 92 then [92] else [] : Bytes).length + p.decoded.length +
          (partsName (escapeParts ps)).length := by
      change (partsName (escapePart p ++ escapeParts ps)).length = _
      rw [partsName_append, length_append, partsName_escapePart, length_append]
    rw [partsName_cons, length_append, hlen]
    refine ⟨by omega, ?_⟩
    intro hmem
    rcases mem_cons.mp hmem with rfl | hmem
    · rw [if_pos (Or.inr rfl), length_singleton]
      omega
    · have := ih.2 hmem
      omega

end ProtoRelay
