import ProtoRelay.Http2.Huffman

/-!
# HPACK

The header compression of an HTTP/2 connection.  The decoder of a connection keeps a dynamic table
that all streams share; a header block is a sequence of fields, each an index into the tables, a
literal, or a change of the capacity of the dynamic table.  The encoder of the responses has no
table: it writes indices into the static table and literals that are not to be indexed.

The reading functions of the source take a string and a position.  Here they take what is left of
the string, and return what is left behind what they read.
-/

namespace ProtoRelay.Http2

open ProtoRelay

abbrev Header := Bytes × Bytes

/-! ## The static table -/

/-- `kStaticTable`; the entry at the index 1 comes first. -/
def kStaticTable : List Header :=
  [(bytes ":authority", bytes ""), (bytes ":method", bytes "GET"), (bytes ":method", bytes "POST"),
    (bytes ":path", bytes "/"), (bytes ":path", bytes "/index.html"),
    (bytes ":scheme", bytes "http"), (bytes ":scheme", bytes "https"),
    (bytes ":status", bytes "200"), (bytes ":status", bytes "204"), (bytes ":status", bytes "206"),
    (bytes ":status", bytes "304"), (bytes ":status", bytes "400"), (bytes ":status", bytes "404"),
    (bytes ":status", bytes "500"), (bytes "accept-charset", bytes ""),
    (bytes "accept-encoding", bytes "gzip, deflate"), (bytes "accept-language", bytes ""),
    (bytes "accept-ranges", bytes ""), (bytes "accept", bytes ""),
    (bytes "access-control-allow-origin", bytes ""), (bytes "age", bytes ""),
    (bytes "allow", bytes ""), (bytes "authorization", bytes ""), (bytes "cache-control", bytes ""),
    (bytes "content-disposition", bytes ""), (bytes "content-encoding", bytes ""),
    (bytes "content-language", bytes ""), (bytes "content-length", bytes ""),
    (bytes "content-location", bytes ""), (bytes "content-range", bytes ""),
    (bytes "content-type", bytes ""), (bytes "cookie", bytes ""), (bytes "date", bytes ""),
    (bytes "etag", bytes ""), (bytes "expect", bytes ""), (bytes "expires", bytes ""),
    (bytes "from", bytes ""), (bytes "host", bytes ""), (bytes "if-match", bytes ""),
    (bytes "if-modified-since", bytes ""), (bytes "if-none-match", bytes ""),
    (bytes "if-range", bytes ""), (bytes "if-unmodified-since", bytes ""),
    (bytes "last-modified", bytes ""), (bytes "link", bytes ""), (bytes "location", bytes ""),
    (bytes "max-forwards", bytes ""), (bytes "proxy-authenticate", bytes ""),
    (bytes "proxy-authorization", bytes ""), (bytes "range", bytes ""), (bytes "referer", bytes ""),
    (bytes "refresh", bytes ""), (bytes "retry-after", bytes ""), (bytes "server", bytes ""),
    (bytes "set-cookie", bytes ""), (bytes "strict-transport-security", bytes ""),
    (bytes "transfer-encoding", bytes ""), (bytes "user-agent", bytes ""), (bytes "vary", bytes ""),
    (bytes "via", bytes ""), (bytes "www-authenticate", bytes "")]

def staticTableAt (index : Nat) : Header :=
  if index < 1 ∨ index > 61 then ([], []) else kStaticTable.getD (index - 1) ([], [])

/-- `static_index_by_name`: the first entry of the name, or 0. -/
def staticIndexByName (name : Bytes) : Nat :=
  match kStaticTable.findIdx? (·.1 == name) with
  | some i => i + 1
  | none => 0

/-- `static_table_find`: the entry of the name and the value, or 0. -/
def staticTableFind (name value : Bytes) : Nat :=
  match kStaticTable.findIdx? (· == (name, value)) with
  | some i => i + 1
  | none => 0

/-! ## Reading integers and strings -/

/-- The loop of `read_integer`: seven bits a byte, the low ones first, in 32-bit arithmetic. -/
def readContinuation (value shift : Nat) : Bytes → Option (Nat × Bytes)
  | [] => none
  | byte :: rest =>
    if shift > 28 then none
    else
      let value' := (value + byte.toNat % 128 * 2 ^ shift) % 2 ^ 32
      if byte < 128 then some (value', rest) else readContinuation value' (shift + 7) rest

/-- `read_integer`, with a prefix of `n` bits in the first byte. -/
def readInteger (n : Nat) : Bytes → Option (Nat × Bytes)
  | [] => none
  | first :: rest =>
    let mask := 2 ^ n - 1
    let value := first.toNat % 2 ^ n
    if value < mask then some (value, rest) else readContinuation mask 0 rest

/-- `read_string`: the flag for the Huffman code shares a byte with the length. -/
def readString : Bytes → Option (Bytes × Bytes)
  | [] => none
  | first :: rest =>
    match readInteger 7 (first :: rest) with
    | none => none
    | some (len, rest) =>
      if len > rest.length then none
      else if 128 ≤ first then (huffmanDecode (rest.take len)).map (·, rest.drop len)
      else some (rest.take len, rest.drop len)

/-! ## The decoder -/

def kMaxHeaderTableSize : Nat := 4096

/-- `HeaderDecoder`: the dynamic table, newest entry first, its size and its capacity. -/
structure HeaderDecoder where
  dynamic : List Header := []
  size : Nat := 0
  capacity : Nat := 4096

/-- The loop of `trim`, over the entries from the oldest one on. -/
def trimOldest (capacity : Nat) : Nat → List Header → Nat × List Header
  | size, [] => (size, [])
  | size, e :: es =>
    if size > capacity then
      trimOldest capacity ((size + 2 ^ 64 - (32 + e.1.length + e.2.length)) % 2 ^ 64) es
    else (size, e :: es)

namespace HeaderDecoder

def trim (d : HeaderDecoder) : HeaderDecoder :=
  let kept := trimOldest d.capacity d.size d.dynamic.reverse
  { d with size := kept.1, dynamic := kept.2.reverse }

def setHeaderTableSize (d : HeaderDecoder) (n : Nat) : HeaderDecoder :=
  trim { d with capacity := min n kMaxHeaderTableSize }

/-- `lookup`: the name of an entry of the static or the dynamic table. -/
def lookup (d : HeaderDecoder) (index : Nat) : Option Bytes :=
  if 1 ≤ index ∧ index ≤ 61 then some (staticTableAt index).1
  else if 62 ≤ index then (d.dynamic[index - 62]?).map (·.1)
  else none

def readName (d : HeaderDecoder) (idx : Nat) (b : Bytes) : Option (Bytes × Bytes) :=
  if idx ≠ 0 then (d.lookup idx).map (·, b) else readString b

/-- The name and the value of a literal whose first byte has a prefix of `n` bits. -/
def readLiteral (d : HeaderDecoder) (n : Nat) (b : Bytes) : Option (Header × Bytes) :=
  match readInteger n b with
  | none => none
  | some (idx, rest) =>
    match d.readName idx rest with
    | none => none
    | some (name, rest) => (readString rest).map fun (value, rest) => ((name, value), rest)

/-- A new entry of the dynamic table; one that is larger than the table empties it. -/
def insert (d : HeaderDecoder) (h : Header) : HeaderDecoder :=
  let entrySize := (32 + h.1.length + h.2.length) % 2 ^ 32
  if entrySize > d.capacity then { d with dynamic := [], size := 0 }
  else trim { d with dynamic := h :: d.dynamic, size := d.size + entrySize }

/-- One turn of the loop of `decode`: the header of the field, if it is one, the decoder behind it,
and the rest of the block.  A turn that fails changes nothing. -/
def decodeField (d : HeaderDecoder) : Bytes → Option (Option Header × HeaderDecoder × Bytes)
  | [] => none
  | b :: rest =>
    if 128 ≤ b then
      -- 1xxxxxxx: an indexed field
      match readInteger 7 (b :: rest) with
      | none => none
      | some (idx, rest) =>
        if idx = 0 then none
        else if idx ≤ 61 then some (some (staticTableAt idx), d, rest)
        else (d.dynamic[idx - 62]?).map fun h => (some h, d, rest)
    else if b.toNat.testBit 6 then
      -- 01xxxxxx: a literal that enters the dynamic table
      (d.readLiteral 6 (b :: rest)).map fun (h, rest) => (some h, d.insert h, rest)
    else if b.toNat.testBit 5 then
      -- 001xxxxx: the capacity of the dynamic table
      (readInteger 5 (b :: rest)).map fun (sz, rest) => (none, d.setHeaderTableSize sz, rest)
    else
      -- 000xxxxx: a literal that does not
      (d.readLiteral 4 (b :: rest)).map fun (h, rest) => (some h, d, rest)

end HeaderDecoder

/-! ## Every field takes a byte -/

variable {b rest : Bytes}

theorem readContinuation_length_lt {value shift v : Nat}
    (h : readContinuation value shift b = some (v, rest)) : rest.length < b.length := by
  induction b generalizing value shift with
  | nil => cases h
  | cons byte b ih =>
    simp only [readContinuation] at h
    split at h
    · cases h
    · split at h
      · cases h
        exact Nat.lt_succ_self _
      · exact (ih h).trans (Nat.lt_succ_self _)

theorem readInteger_length_lt {n v : Nat} (h : readInteger n b = some (v, rest)) :
    rest.length < b.length := by
  cases b with
  | nil => cases h
  | cons first b =>
    simp only [readInteger] at h
    split at h
    · cases h
      exact Nat.lt_succ_self _
    · exact (readContinuation_length_lt h).trans (Nat.lt_succ_self _)

/-- A string takes a byte for its length, and the Huffman code makes at most eight bytes of five. -/
theorem readString_length_lt {s : Bytes} (h : readString b = some (s, rest)) :
    5 * s.length + 8 * rest.length < 8 * b.length := by
  cases b with
  | nil => cases h
  | cons first b =>
    rw [readString] at h
    split at h
    · cases h
    · rename_i len rest' hint
      have hlt := readInteger_length_lt hint
      split at h
      · cases h
      · split at h
        · obtain ⟨t, hdecode, ht⟩ := Option.map_eq_some_iff.mp h
          cases ht
          have hle := length_le_of_huffmanDecode hdecode
          rw [List.length_take] at hle
          rw [List.length_drop]
          omega
        · cases h
          rw [List.length_take, List.length_drop]
          omega

namespace HeaderDecoder

variable {d : HeaderDecoder} {b rest : Bytes}

theorem readName_length_le {idx : Nat} {s : Bytes} (h : d.readName idx b = some (s, rest)) :
    rest.length ≤ b.length := by
  rw [readName] at h
  split at h
  · obtain ⟨t, -, ht⟩ := Option.map_eq_some_iff.mp h
    cases ht
    exact le_rfl
  · have hlt := readString_length_lt h
    omega

theorem readLiteral_length_lt {n : Nat} {h : Header} (hread : d.readLiteral n b = some (h, rest)) :
    rest.length < b.length := by
  rw [readLiteral] at hread
  split at hread
  · cases hread
  · rename_i idx r₁ hint
    split at hread
    · cases hread
    · rename_i name r₂ hname
      obtain ⟨⟨value, r₃⟩, hval, hr⟩ := Option.map_eq_some_iff.mp hread
      cases hr
      have h₁ := readInteger_length_lt hint
      have h₂ := readName_length_le hname
      have h₃ := readString_length_lt hval
      omega

/-- What a field does to the table: nothing, an insertion or a change of the capacity. -/
theorem decodeField_cases {d' : HeaderDecoder} {h : Option Header}
    (hfld : d.decodeField b = some (h, d', rest)) :
    rest.length < b.length ∧ (d' = d ∨ (∃ n, d' = d.setHeaderTableSize n) ∨
      ∃ n e, d.readLiteral n b = some (e, rest) ∧ d' = d.insert e) := by
  cases b with
  | nil => cases hfld
  | cons first b =>
    simp only [decodeField] at hfld
    split at hfld
    · split at hfld
      · cases hfld
      · rename_i idx r hint
        have hlt := readInteger_length_lt hint
        split at hfld
        · cases hfld
        · split at hfld
          · cases hfld
            exact ⟨hlt, .inl rfl⟩
          · obtain ⟨e, -, he⟩ := Option.map_eq_some_iff.mp hfld
            cases he
            exact ⟨hlt, .inl rfl⟩
    · split at hfld
      · obtain ⟨⟨e, r⟩, hlit, he⟩ := Option.map_eq_some_iff.mp hfld
        cases he
        exact ⟨readLiteral_length_lt hlit, .inr (.inr ⟨6, e, hlit, rfl⟩)⟩
      · split at hfld
        · obtain ⟨⟨sz, r⟩, hint, he⟩ := Option.map_eq_some_iff.mp hfld
          cases he
          exact ⟨readInteger_length_lt hint, .inr (.inl ⟨sz, rfl⟩)⟩
        · obtain ⟨⟨e, r⟩, hlit, he⟩ := Option.map_eq_some_iff.mp hfld
          cases he
          exact ⟨readLiteral_length_lt hlit, .inl rfl⟩

end HeaderDecoder

/-- What `decode` leaves behind: its result, the decoder, and the output. -/
structure Decoded where
  ok : Bool
  decoder : HeaderDecoder
  headers : List Header

namespace HeaderDecoder

/-- `decode`, with `out` the output so far.  A block that fails leaves behind what its fields up to
the failure did. -/
def decode (d : HeaderDecoder) (block : Bytes) (out : List Header) : Decoded :=
  if block = [] then { ok := true, decoder := d, headers := out }
  else
    match _hfield : d.decodeField block with
    | none => { ok := false, decoder := d, headers := out }
    | some (h, d', rest) => decode d' rest (out ++ h.toList)
termination_by block.length
decreasing_by exact (decodeField_cases _hfield).1

@[simp] theorem decode_nil (d : HeaderDecoder) (out : List Header) :
    d.decode [] out = { ok := true, decoder := d, headers := out } := by
  rw [decode, if_pos rfl]

/-- **Field by field.** -/
theorem decode_of_field {d d' : HeaderDecoder} {block rest : Bytes} {h : Option Header}
    (hfld : d.decodeField block = some (h, d', rest)) (out : List Header) :
    d.decode block out = d'.decode rest (out ++ h.toList) := by
  have hne : block ≠ [] := by
    rintro rfl
    cases hfld
  rw [decode, if_neg hne]
  split
  · rename_i hnone
    rw [hfld] at hnone
    cases hnone
  · rename_i h₁ d₁ r₁ hsome
    rw [hfld] at hsome
    cases hsome
    rfl

theorem decode_of_field_eq_none {d : HeaderDecoder} {block : Bytes} (hne : block ≠ [])
    (hfld : d.decodeField block = none) (out : List Header) :
    d.decode block out = { ok := false, decoder := d, headers := out } := by
  rw [decode, if_neg hne]
  split
  · rfl
  · rename_i h₁ d₁ r₁ hsome
    rw [hfld] at hsome
    cases hsome

/-- The headers decoded are appended to the output. -/
theorem headers_decode_extends (d : HeaderDecoder) (block : Bytes) (out : List Header) :
    out <+: (d.decode block out).headers := by
  fun_induction decode d block out with
  | case1 | case2 => exact List.prefix_refl _
  | case3 d block out hne h d' rest hfld ih => exact (List.prefix_append _ _).trans ih

end HeaderDecoder

/-! ## The encoder -/

/-- The loop of both writers: seven bits a byte, the low ones first. -/
def writeContinuation (v : Nat) : Bytes :=
  if 128 ≤ v then UInt8.ofNat (v % 128 + 128) :: writeContinuation (v / 128) else [UInt8.ofNat v]

/-- `write_integer_raw`, with a prefix of `n` bits. -/
def writeIntegerRaw (value n : Nat) : Bytes :=
  let mask := 2 ^ n - 1
  if value < mask then [UInt8.ofNat value]
  else UInt8.ofNat mask :: writeContinuation (value - mask)

/-- `write_string_raw`: the length as a `uint32_t`, then the bytes. -/
def writeStringRaw (s : Bytes) : Bytes :=
  let len := s.length % 2 ^ 32
  let mask := 0x7f
  (if len < mask then [UInt8.ofNat len]
    else UInt8.ofNat (0x80 ||| mask) :: writeContinuation (len - mask)) ++ s

/-- One turn of the loop of `encode_response_headers`. -/
def encodeHeader (h : Header) : Bytes :=
  let full := staticTableFind h.1 h.2
  if full > 0 then [UInt8.ofNat (0x80 ||| full)]
  else
    let nidx := staticIndexByName h.1
    writeIntegerRaw nidx 4 ++ (if nidx = 0 then writeStringRaw h.1 else []) ++ writeStringRaw h.2

def encodeResponseHeaders (headers : List Header) : Bytes := headers.flatMap encodeHeader

end ProtoRelay.Http2
