import Mathlib.Tactic.Ring
import ProtoRelay.Http2.Hpack

/-!
# Encoding and decoding response headers

The encoder writes what the decoder reads, except for the length of a long string.  Lengths from
127 on do not fit into the prefix of the length byte, and for these `write_string_raw` sets the bit
that announces the Huffman code, although the bytes that follow are the string itself.  The decoder
then applies the Huffman code to them, and no string decodes to itself.
-/

namespace ProtoRelay.Http2

open List UInt8

open ProtoRelay HeaderDecoder

/-! ## Integers -/

theorem toNat_byte {v : Nat} (hv : v < 256) : (UInt8.ofNat v).toNat = v := by
  rw [toNat_ofNat']
  omega

/-- The number denoted by the groups of seven bits at the front of the bytes (RFC 7541, 5.1), of any
size, and the bytes behind the last group. -/
def groups : Bytes → Option (Nat × Bytes)
  | [] => none
  | byte :: rest =>
    if byte < 128 then some (byte.toNat % 128, rest)
    else (groups rest).map fun (w, rest) => (byte.toNat % 128 + 128 * w, rest)

/-- The integer denoted by a prefix of `n` bits and the bytes behind it. -/
def denoted (n : Nat) : Bytes → Option (Nat × Bytes)
  | [] => none
  | first :: rest =>
    if first.toNat % 2 ^ n < 2 ^ n - 1 then some (first.toNat % 2 ^ n, rest)
    else (groups rest).map fun (w, rest) => (2 ^ n - 1 + w, rest)

theorem length_lt_of_groups {b rest : Bytes} {w : Nat} (h : groups b = some (w, rest)) :
    rest.length < b.length := by
  induction b generalizing w with
  | nil => cases h
  | cons byte b ih =>
    rw [groups] at h
    split at h
    · cases h
      exact Nat.lt_succ_self _
    · obtain ⟨⟨w', r⟩, hw', heq⟩ := Option.map_eq_some_iff.mp h
      cases heq
      exact (ih hw').trans (Nat.lt_succ_self _)

/-- The loop reads at most `k` groups and keeps 32 bits of the number. -/
theorem readContinuation_eq {shift k : Nat} (hk : shift + 7 * k = 35) (value : Nat) (b : Bytes) :
    readContinuation value shift b = (groups b).bind fun r =>
      if b.length ≤ r.2.length + k then some ((value + r.1 * 2 ^ shift) % 2 ^ 32, r.2)
        else none := by
  induction b generalizing value shift k with
  | nil => rfl
  | cons byte b ih =>
    rw [readContinuation]
    cases k with
    | zero =>
      rw [if_pos (by omega), eq_comm, Option.bind_eq_none_iff]
      intro r hw
      have hlt := length_lt_of_groups hw
      exact if_neg (by omega)
    | succ k =>
      rw [if_neg (by omega), groups]
      split
      · exact (if_pos (by simp)).symm
      · rw [ih (k := k) (by omega), Option.bind_map]
        congr
        funext r
        simp only [Function.comp_apply, length_cons, ← Nat.add_assoc, Nat.add_le_add_iff_right,
          Nat.mod_add_mod]
        ring_nf

theorem readInteger_eq {n : Nat} (hn : n ≤ 8) (b : Bytes) :
    readInteger n b = (denoted n b).bind fun r =>
      if b.length ≤ r.2.length + 6 then some (r.1 % 2 ^ 32, r.2) else none := by
  cases b with
  | nil => rfl
  | cons first b =>
    have hpow : 2 ^ n ≤ 2 ^ 8 := Nat.pow_le_pow_right (by omega) hn
    rw [readInteger, denoted]
    split
    · have hlt : first.toNat % 2 ^ n < 2 ^ 32 := by omega
      rw [Option.bind_some]
      rw [if_pos (by simp), Nat.mod_eq_of_lt hlt]
    · rw [readContinuation_eq (k := 5) rfl, Option.bind_map]
      simp

theorem groups_writeContinuation (v : Nat) (rest : Bytes) :
    groups (writeContinuation v ++ rest) = some (v, rest) := by
  induction v using Nat.strong_induction_on with
  | _ v ih =>
    rw [writeContinuation]
    split
    · have hbyte := toNat_byte (v := v % 128 + 128) (by omega)
      rw [cons_append, groups, if_neg, ih (v / 128) (by omega)]
      · simp [Nat.mod_add_div]
      · rw [lt_iff_toNat_lt, hbyte]
        simp
    · have hbyte := toNat_byte (v := v) (by omega)
      rw [singleton_append, groups, if_pos, hbyte, Nat.mod_eq_of_lt (by omega)]
      rw [lt_iff_toNat_lt]
      simp
      omega

theorem length_writeContinuation_le {v : Nat} (k : Nat) (hv : v < 128 ^ (k + 1)) :
    (writeContinuation v).length ≤ k + 1 := by
  induction k generalizing v with
  | zero =>
    rw [writeContinuation, if_neg (by omega)]
    exact le_rfl
  | succ k ih =>
    rw [writeContinuation]
    split
    · have hdiv : v / 128 < 128 ^ (k + 1) := by
        rw [Nat.div_lt_iff_lt_mul (by omega)]
        exact hv
      exact Nat.succ_le_succ (ih hdiv)
    · exact Nat.succ_le_succ (Nat.zero_le _)

/-- An integer is read back.  Only the bits of the prefix count in the first byte. -/
theorem readInteger_small {n v w : Nat} (hv : v < 256) (hw : v % 2 ^ n = w) (hlt : w < 2 ^ n - 1)
    (rest : Bytes) : readInteger n (UInt8.ofNat v :: rest) = some (w, rest) := by
  simp only [readInteger, toNat_byte hv, hw]
  rw [if_pos hlt]

theorem readInteger_large {n v : Nat} (first : UInt8) (h : first.toNat % 2 ^ n = 2 ^ n - 1)
    (hle : 2 ^ n - 1 ≤ v) (hlt : v < 2 ^ 32) (rest : Bytes) :
    readInteger n (first :: (writeContinuation (v - (2 ^ n - 1)) ++ rest)) = some (v, rest) := by
  have hlen := length_writeContinuation_le (v := v - (2 ^ n - 1)) 4 (by omega)
  have hv : 2 ^ n - 1 + (v - (2 ^ n - 1)) * 2 ^ 0 = v := by omega
  simp only [readInteger]
  rw [if_neg (by omega), readContinuation_eq (k := 5) rfl, groups_writeContinuation,
    Option.bind_some]
  dsimp only
  rw [hv, Nat.mod_eq_of_lt hlt]
  refine if_pos ?_
  rw [length_append]
  omega

/-- **Integers are exact below 2^32.**  What is read is the integer denoted exactly if an
integer denoted in at most six bytes has at most 32 bits, and what `write_integer_raw` wrote is
read back. -/
theorem readInteger_exact (n : Nat) (hn : n ≤ 8) :
    (∀ b, (∀ v rest, readInteger n b = some (v, rest) → denoted n b = some (v, rest)) ↔
      ∀ w rest, denoted n b = some (w, rest) → b.length ≤ rest.length + 6 → w < 2 ^ 32) ∧
    ∀ v < 2 ^ 32, ∀ rest, readInteger n (writeIntegerRaw v n ++ rest) = some (v, rest) := by
  refine ⟨fun b => ?_, fun v hv rest => ?_⟩
  · rw [readInteger_eq hn]
    cases denoted n b with
    | none => simp
    | some r =>
      obtain ⟨w, rest⟩ := r
      by_cases hlen : b.length ≤ rest.length + 6
      · simp only [Option.bind_some, if_pos hlen, Option.some.injEq, Prod.mk.injEq, and_imp]
        constructor
        · rintro h w rest rfl rfl -
          exact (h _ _ rfl rfl).1 ▸ Nat.mod_lt _ (by omega)
        · rintro h w rest rfl rfl
          exact ⟨(Nat.mod_eq_of_lt (h _ _ rfl rfl hlen)).symm, rfl⟩
      · simp [hlen]
  · rw [writeIntegerRaw]
    have hpow : 2 ^ n ≤ 2 ^ 8 := Nat.pow_le_pow_right (by omega) hn
    split
    · exact readInteger_small (by omega) (Nat.mod_eq_of_lt (by omega)) (by assumption) rest
    · refine readInteger_large _ ?_ (by omega) hv rest
      rw [toNat_byte (by omega), Nat.mod_eq_of_lt (Nat.sub_one_lt (Nat.two_pow_pos n).ne')]

theorem readInteger_exact_five : 5 ≤ 8 ∧ ∀ rest,
    readInteger 5 (writeIntegerRaw 1337 5 ++ rest) = some (1337, rest) :=
  ⟨by decide, (readInteger_exact 5 (by decide)).2 1337 (by decide)⟩

/-- Six bytes can denote 2^32 and more, of which 32 bits are returned. -/
theorem not_forall_readInteger_exact : ¬ ∀ (n : Nat) (b : Bytes) (v : Nat) (rest : Bytes),
    n ≤ 8 → readInteger n b = some (v, rest) → denoted n b = some (v, rest) := by
  intro h
  have hwrap := h 7 [127, 129, 255, 255, 255, 15] 0 [] (by decide) rfl
  exact absurd hwrap (by decide)

/-! ## Strings -/

theorem readString_of_integer {first : UInt8} {b rest : Bytes} {len : Nat}
    (h : readInteger 7 (first :: b) = some (len, rest)) : readString (first :: b) =
      if len > rest.length then none
      else if 128 ≤ first then (huffmanDecode (rest.take len)).map (·, rest.drop len)
      else some (rest.take len, rest.drop len) := by
  rw [readString, h]

theorem readString_short {len : Nat} (hlen : len < 127) (b : Bytes) :
    readString (UInt8.ofNat len :: b) =
      if len > b.length then none else some (b.take len, b.drop len) := by
  have hint := readInteger_small (n := 7) (by omega) (Nat.mod_eq_of_lt (by omega)) hlen b
  have hflag : ¬ 128 ≤ UInt8.ofNat len := by
    rw [le_iff_toNat_le]
    simp
    omega
  rw [readString_of_integer hint, if_neg hflag]

/-- **Short strings are read back.** -/
theorem readString_writeStringRaw {s : Bytes} (hs : s.length < 127) (rest : Bytes) :
    readString (writeStringRaw s ++ rest) = some (s, rest) := by
  have hlen : s.length % 2 ^ 32 = s.length := Nat.mod_eq_of_lt (by omega)
  simp only [writeStringRaw, hlen]
  rw [if_pos hs, append_assoc, singleton_append, readString_short hs, if_neg (by simp),
    take_left, drop_left]

/-- **Long strings never are**: what follows is taken for a Huffman code. -/
theorem ne_of_readString_writeStringRaw {s t rest rest' : Bytes} (hs : 127 ≤ s.length)
    (h : readString (writeStringRaw s ++ rest) = some (t, rest')) : t ≠ s := by
  rintro rfl
  have hmod : t.length % 2 ^ 32 < 2 ^ 32 := Nat.mod_lt _ (by omega)
  simp only [writeStringRaw] at h
  split at h
  · -- the length has wrapped around to a short one
    rename_i hlen
    rw [append_assoc, singleton_append, readString_short hlen] at h
    split at h
    · cases h
    · have heq := congrArg (List.length ∘ Prod.fst) (Option.some.inj h)
      simp only [Function.comp_apply, length_take] at heq
      omega
  · have hint := readInteger_large (n := 7) (UInt8.ofNat (0x80 ||| 0x7f))
      (by decide) (by omega) hmod (t ++ rest)
    rw [show 2 ^ 7 - 1 = 127 from rfl] at hint
    have hflag : (128 : UInt8) ≤ UInt8.ofNat (0x80 ||| 0x7f) := by decide
    rw [cons_append, cons_append, append_assoc, readString_of_integer hint] at h
    split at h
    · cases h
    · obtain ⟨t', hdecode, ht'⟩ := Option.map_eq_some_iff.mp h
      obtain ⟨rfl, -⟩ := Prod.mk.inj ht'
      rw [take_append_of_le_length (Nat.mod_le ..)] at hdecode
      by_cases hwrap : t'.length < 2 ^ 32
      · rw [Nat.mod_eq_of_lt hwrap, take_length] at hdecode
        refine huffmanDecode_ne_self ?_ hdecode
        rintro rfl
        simp at hs
      · -- only a part of the string is decoded, and it is too short to give all of it
        have hle := length_le_of_huffmanDecode hdecode
        rw [length_take] at hle
        have hps := Nat.mod_add_div t'.length (2 ^ 32)
        omega

/-! ## The static table -/

theorem length_kStaticTable : kStaticTable.length = 61 := rfl

/-- An index found in the static table is one of it. -/
theorem staticTableAt_of_findIdx? {p : Header → Bool} {i : Nat}
    (h : kStaticTable.findIdx? p = some i) : i + 1 ≤ 61 ∧ p (staticTableAt (i + 1)) = true := by
  obtain ⟨hlt, hp, -⟩ := findIdx?_eq_some_iff_getElem.mp h
  have hle : i < 61 := by simpa only [length_kStaticTable] using hlt
  refine ⟨hle, ?_⟩
  rw [staticTableAt, if_neg (by omega), Nat.add_sub_cancel, getD_eq_getElem?_getD,
    getElem?_eq_getElem hlt]
  exact hp

theorem staticTableAt_staticTableFind {name value : Bytes} (h : 0 < staticTableFind name value) :
    staticTableFind name value ≤ 61 ∧
      staticTableAt (staticTableFind name value) = (name, value) := by
  rw [staticTableFind] at h ⊢
  split
  · rename_i i hi
    obtain ⟨hle, heq⟩ := staticTableAt_of_findIdx? hi
    exact ⟨hle, eq_of_beq heq⟩
  · rename_i hnone
    rw [hnone] at h
    cases h

theorem staticTableAt_staticIndexByName {name : Bytes} (h : staticIndexByName name ≠ 0) :
    (staticTableAt (staticIndexByName name)).1 = name := by
  rw [staticIndexByName] at h ⊢
  split
  · rename_i i hi
    exact eq_of_beq (staticTableAt_of_findIdx? hi).2
  · rename_i hnone
    rw [hnone] at h
    exact absurd rfl h

theorem staticIndexByName_le (name : Bytes) : staticIndexByName name ≤ 61 := by
  rw [staticIndexByName]
  split
  · rename_i i hi
    exact (staticTableAt_of_findIdx? hi).1
  · exact Nat.zero_le _

/-! ## Fields -/

/-- The index of a name fits into the first byte of a literal and the one behind it, and the first
byte is that of a literal which is not indexed. -/
theorem writeIntegerRaw_four {v : Nat} (hv : v ≤ 61) : ∃ first more,
    writeIntegerRaw v 4 = first :: more ∧ first.toNat < 16 ∧
      ∀ rest, readInteger 4 (first :: (more ++ rest)) = some (v, rest) := by
  simp only [writeIntegerRaw]
  split
  · rename_i hlt
    refine ⟨UInt8.ofNat v, [], rfl, ?_, fun rest => ?_⟩
    · rw [toNat_byte (by omega)]
      omega
    · exact readInteger_small (by omega) (Nat.mod_eq_of_lt (by omega)) hlt rest
  · refine ⟨UInt8.ofNat (2 ^ 4 - 1), writeContinuation (v - (2 ^ 4 - 1)), rfl, by decide, ?_⟩
    exact fun rest => readInteger_large _ (by decide) (by omega) (by omega) rest

theorem decodeField_indexed {h : Header} (hfull : 0 < staticTableFind h.1 h.2) (d : HeaderDecoder)
    (rest : Bytes) : d.decodeField (encodeHeader h ++ rest) = some (some h, d, rest) := by
  obtain ⟨hle, hat⟩ := staticTableAt_staticTableFind hfull
  have hor : 0x80 ||| staticTableFind h.1 h.2 = 128 + staticTableFind h.1 h.2 := by
    exact (Nat.two_pow_add_eq_or_of_lt (by omega : staticTableFind h.1 h.2 < 2 ^ 7) 1).symm
  have hflag : 128 ≤ UInt8.ofNat (128 + staticTableFind h.1 h.2) := by
    rw [le_iff_toNat_le, toNat_byte (by omega)]
    simp
  have hint := readInteger_small (n := 7) (v := 128 + staticTableFind h.1 h.2)
    (w := staticTableFind h.1 h.2) (by omega) (by omega) (by omega) rest
  simp only [encodeHeader]
  rw [if_pos hfull, hor, singleton_append, decodeField, if_pos hflag, hint]
  dsimp only
  rw [if_neg (by omega), if_pos hle, hat]

theorem decodeField_literal {h : Header} (hfull : staticTableFind h.1 h.2 = 0) (d : HeaderDecoder)
    (rest : Bytes) : d.decodeField (encodeHeader h ++ rest) = ((d.readName (staticIndexByName h.1)
        ((if staticIndexByName h.1 = 0 then writeStringRaw h.1 else []) ++
          (writeStringRaw h.2 ++ rest))).bind fun (name, r) =>
        (readString r).map fun (value, r) => (some (name, value), d, r)) := by
  obtain ⟨first, more, hwrite, hlt, hread⟩ := writeIntegerRaw_four (staticIndexByName_le h.1)
  have hflag : ¬ 128 ≤ first := by
    rw [le_iff_toNat_le]
    simp
    omega
  have hsix : first.toNat.testBit 6 = false := Nat.testBit_lt_two_pow (by omega)
  have hfive : first.toNat.testBit 5 = false := Nat.testBit_lt_two_pow (by omega)
  simp only [encodeHeader]
  rw [if_neg (by omega), hwrite, append_assoc, append_assoc, cons_append, decodeField,
    if_neg hflag, hsix, if_neg (by decide), hfive, if_neg (by decide), readLiteral, hread]
  dsimp only
  split
  · rename_i hname
    rw [hname]
    rfl
  · rename_i name r hname
    rw [hname, Option.map_map]
    rfl

/-! ## Headers -/

/-- Every string written out for the header has fewer than 127 bytes: its value, unless name and
value are an entry of the static table, and its name, unless that is the name of one. -/
def WrittenShort (h : Header) : Prop :=
  staticTableFind h.1 h.2 = 0 →
    (staticIndexByName h.1 = 0 → h.1.length < 127) ∧ h.2.length < 127

instance (h : Header) : Decidable (WrittenShort h) := by
  unfold WrittenShort
  infer_instance

theorem decodeField_encodeHeader {h : Header} (hsh : WrittenShort h) (d : HeaderDecoder)
    (rest : Bytes) : d.decodeField (encodeHeader h ++ rest) = some (some h, d, rest) := by
  by_cases hfull : staticTableFind h.1 h.2 = 0
  · obtain ⟨hname, hval⟩ := hsh hfull
    have hreadName : ∀ r, d.readName (staticIndexByName h.1)
        ((if staticIndexByName h.1 = 0 then writeStringRaw h.1 else []) ++ r) = some (h.1, r) := by
      intro r
      rw [readName]
      by_cases hidx : staticIndexByName h.1 = 0
      · rw [if_neg (by simpa using hidx), if_pos hidx, readString_writeStringRaw (hname hidx)]
      · have hle := staticIndexByName_le h.1
        rw [if_pos hidx, if_neg hidx, HeaderDecoder.lookup, if_pos ⟨by omega, hle⟩,
          staticTableAt_staticIndexByName hidx]
        rfl
    rw [decodeField_literal hfull, hreadName, Option.bind_some]
    dsimp only
    rw [readString_writeStringRaw hval]
    rfl
  · exact decodeField_indexed (by omega) d rest

/-- A header with a long string is read as another one, if it is read at all. -/
theorem ne_of_decodeField_encodeHeader {h : Header} (hlong : ¬ WrittenShort h)
    {d d' : HeaderDecoder} {rest rest' : Bytes} {o : Option Header}
    (hfld : d.decodeField (encodeHeader h ++ rest) = some (o, d', rest')) :
    ∃ h', o = some h' ∧ h' ≠ h := by
  obtain ⟨hfull, hlong⟩ := Classical.not_imp.mp hlong
  rw [decodeField_literal hfull, Option.bind_eq_some_iff] at hfld
  obtain ⟨⟨name, r⟩, hname, hval⟩ := hfld
  obtain ⟨⟨value, r'⟩, hval, heq⟩ := Option.map_eq_some_iff.mp hval
  cases heq
  refine ⟨(name, value), rfl, ?_⟩
  rintro rfl
  apply hlong
  dsimp only at hname hval ⊢
  rw [readName] at hname
  by_cases hidx : staticIndexByName name = 0
  · rw [if_neg (by simpa using hidx), if_pos hidx] at hname
    have hnameShort : name.length < 127 := by
      by_contra hge
      exact ne_of_readString_writeStringRaw (by omega) hname rfl
    rw [readString_writeStringRaw hnameShort] at hname
    cases hname
    refine ⟨fun _ => hnameShort, ?_⟩
    by_contra hge
    exact ne_of_readString_writeStringRaw (by omega) hval rfl
  · rw [if_pos hidx, if_neg hidx] at hname
    obtain ⟨n, -, hn⟩ := Option.map_eq_some_iff.mp hname
    cases hn
    refine ⟨fun h0 => absurd h0 hidx, ?_⟩
    by_contra hge
    exact ne_of_readString_writeStringRaw (by omega) hval rfl

theorem encodeHeader_ne_nil (h : Header) : encodeHeader h ≠ [] := by
  simp only [encodeHeader]
  split
  · exact cons_ne_nil _ _
  · obtain ⟨first, more, hwrite, -⟩ := writeIntegerRaw_four (staticIndexByName_le h.1)
    rw [hwrite]
    exact cons_ne_nil _ _

theorem decode_encode_append_iff (d : HeaderDecoder) (headers out : List Header) :
    d.decode (encodeResponseHeaders headers) out =
      { ok := true, decoder := d, headers := out ++ headers } ↔
      ∀ h ∈ headers, WrittenShort h := by
  induction headers generalizing out with
  | nil => simp [encodeResponseHeaders]
  | cons h headers ih =>
    rw [encodeResponseHeaders, flatMap_cons, ← encodeResponseHeaders, forall_mem_cons]
    by_cases hsh : WrittenShort h
    · rw [decode_of_field (decodeField_encodeHeader hsh d _), ← ih (out ++ [h])]
      simp [hsh]
    · refine iff_of_false ?_ fun hall => hsh hall.1
      cases hfld : d.decodeField (encodeHeader h ++ encodeResponseHeaders headers) with
      | none =>
        rw [decode_of_field_eq_none (by simp [encodeHeader_ne_nil]) hfld]
        simp
      | some r =>
        obtain ⟨o, d', rest⟩ := r
        obtain ⟨h', rfl, hne⟩ := ne_of_decodeField_encodeHeader hsh hfld
        rw [decode_of_field hfld]
        intro heq
        -- the header read stays where it was put
        have hext := headers_decode_extends d' rest (out ++ [h'])
        rw [Option.toList_some] at heq
        rw [heq] at hext
        have htail := (prefix_append_right_inj out).mp hext
        exact hne (cons_prefix_cons.mp htail).1

/-- **The headers that are decoded again.**  Whatever the state of the decoder is, it decodes the
block of a list of headers to that list and keeps its dynamic table exactly if every string written
out for them has fewer than 127 bytes. -/
theorem decode_encodeResponseHeaders_iff (d : HeaderDecoder) (headers : List Header) :
    d.decode (encodeResponseHeaders headers) [] = { ok := true, decoder := d, headers := headers } ↔
      ∀ h ∈ headers, WrittenShort h :=
  decode_encode_append_iff d headers []

/-- A value of 127 bytes is not read back. -/
theorem not_forall_decode_encodeResponseHeaders : ¬ ∀ (d : HeaderDecoder) (headers : List Header),
    d.decode (encodeResponseHeaders headers) [] =
      { ok := true, decoder := d, headers := headers } := by
  intro hall
  have hsh := (decode_encode_append_iff {} [(bytes "etag", List.replicate 127 97)] []).mp
    (hall {} [(bytes "etag", List.replicate 127 97)])
  exact absurd (hsh _ mem_cons_self) (by decide +kernel)

end ProtoRelay.Http2
