import ProtoRelay.Base.Runs
import ProtoRelay.Http2.Codec

/-!
# The dynamic table

The decoder keeps the size of its dynamic table beside the entries: insertion adds the size of an
entry, eviction subtracts it, and a change of the capacity evicts.  The size of an entry is computed
in 32 bits and would wrap around for a literal of 4 GiB, but the codec, which alone calls the
decoder, assembles no block of more than 64 KiB.  So the size is the sum over the entries after
every sequence of frames, whether their blocks decode or not.
-/

namespace ProtoRelay.Http2

open List

open ProtoRelay OrderedMap

/-- The size of an entry (RFC 7541, 4.1). -/
def entrySize (h : Header) : Nat := 32 + h.1.length + h.2.length

def tableSize (l : List Header) : Nat := (l.map entrySize).sum

/-- No subtraction of the loop of `trim` wraps around. -/
def TrimsExactly (capacity : Nat) : Nat → List Header → Prop
  | _, [] => True
  | size, e :: es =>
    capacity < size → entrySize e ≤ size ∧ TrimsExactly capacity (size - entrySize e) es

namespace HeaderDecoder

/-- What holds of the table: its size is that of its entries and within the capacity, the next
change of the capacity and the next insertion subtract exactly, and an index is accepted if it is
that of an entry, the newest one being 62. -/
structure TableExact (d : HeaderDecoder) : Prop where
  size : d.size = tableSize d.dynamic
  size_le : d.size ≤ d.capacity
  capacity_le : d.capacity ≤ 4096
  resize : ∀ n, TrimsExactly n d.size d.dynamic.reverse
  insert : ∀ h, TrimsExactly d.capacity (d.size + entrySize h) (h :: d.dynamic).reverse
  indexed : ∀ {b block idx r o d' rest}, 128 ≤ b → readInteger 7 (b :: block) = some (idx, r) →
    62 ≤ idx → d.decodeField (b :: block) = some (o, d', rest) →
      ∃ e, d.dynamic[idx - 62]? = some e ∧ o = some e
  named : ∀ {idx name}, 62 ≤ idx → d.lookup idx = some name →
    ∃ e, d.dynamic[idx - 62]? = some e ∧ e.1 = name

end HeaderDecoder

theorem trimsExactly_of_size (capacity : Nat) (l : List Header) :
    TrimsExactly capacity (tableSize l) l := by
  induction l with
  | nil => trivial
  | cons e l ih =>
    intro _
    rw [tableSize, map_cons, sum_cons, Nat.add_sub_cancel_left]
    exact ⟨Nat.le_add_right _ _, ih⟩

theorem tableSize_reverse (l : List Header) : tableSize l.reverse = tableSize l := by
  rw [tableSize, map_reverse, sum_reverse, tableSize]

/-- Trimming leaves entries whose sizes add up to at most the capacity. -/
theorem trimOldest_exact (capacity : Nat) {l : List Header} (hlt : tableSize l < 2 ^ 64) :
    (trimOldest capacity (tableSize l) l).1 = tableSize (trimOldest capacity (tableSize l) l).2 ∧
      (trimOldest capacity (tableSize l) l).1 ≤ capacity := by
  induction l with
  | nil => exact ⟨rfl, Nat.zero_le _⟩
  | cons e l ih =>
    rw [trimOldest]
    split
    · have hsize : tableSize (e :: l) = 32 + e.1.length + e.2.length + tableSize l := by
        simp [tableSize, entrySize]
      have hsub : (tableSize (e :: l) + 2 ^ 64 - (32 + e.1.length + e.2.length)) % 2 ^ 64 =
          tableSize l := by omega
      rw [hsub]
      exact ih (by omega)
    · exact ⟨rfl, by omega⟩

namespace HeaderDecoder

variable {d : HeaderDecoder}

theorem TableExact.of_size (hsize : d.size = tableSize d.dynamic) (hle : d.size ≤ d.capacity)
    (hcap : d.capacity ≤ 4096) : TableExact d := by
  refine ⟨hsize, hle, hcap, fun n => ?_, fun h => ?_, fun hb hint hidx hfld => ?_,
    fun hidx hname => ?_⟩
  · rw [hsize, ← tableSize_reverse]
    exact trimsExactly_of_size n _
  · have hadd : d.size + entrySize h = tableSize (h :: d.dynamic).reverse := by
      rw [hsize]
      simp [tableSize]
    rw [hadd]
    exact trimsExactly_of_size _ _
  · rw [decodeField, if_pos hb, hint] at hfld
    dsimp only at hfld
    rw [if_neg (by omega), if_neg (by omega)] at hfld
    obtain ⟨e, he, heq⟩ := Option.map_eq_some_iff.mp hfld
    cases heq
    exact ⟨e, he, rfl⟩
  · rw [lookup, if_neg (by omega), if_pos hidx] at hname
    exact Option.map_eq_some_iff.mp hname

theorem tableExact_trim (hsize : d.size = tableSize d.dynamic) (hlt : d.size < 2 ^ 64)
    (hcap : d.capacity ≤ 4096) : TableExact d.trim := by
  have h := trimOldest_exact d.capacity (l := d.dynamic.reverse)
  rw [tableSize_reverse, ← hsize] at h
  obtain ⟨hs, hle⟩ := h hlt
  refine .of_size ?_ hle hcap
  rw [trim]
  rw [tableSize_reverse]
  exact hs

section

variable (h : TableExact d)

include h

theorem TableExact.setHeaderTableSize (n : Nat) : TableExact (d.setHeaderTableSize n) := by
  have hsize := h.size_le
  have hcap := h.capacity_le
  exact tableExact_trim h.size (by dsimp only; omega) (Nat.min_le_right _ _)

theorem TableExact.inserted {e : Header} (hlt : entrySize e < 2 ^ 32) :
    TableExact (d.insert e) := by
  have hsize := h.size_le
  have hcap := h.capacity_le
  rw [HeaderDecoder.insert, ← entrySize, Nat.mod_eq_of_lt hlt]
  split
  · exact .of_size rfl (Nat.zero_le _) hcap
  · refine tableExact_trim ?_ (by dsimp only; omega) hcap
    simp [h.size, tableSize, Nat.add_comm]

/-- The static and the dynamic table only have short names. -/
theorem TableExact.length_lookup_le {idx : Nat} {name : Bytes}
    (hname : d.lookup idx = some name) : name.length ≤ 4096 := by
  by_cases hidx : 62 ≤ idx
  · obtain ⟨e, he, rfl⟩ := h.named hidx hname
    obtain ⟨newer, older, hsp⟩ := append_of_mem (mem_of_getElem? he)
    have hfits := h.size ▸ h.size_le.trans h.capacity_le
    simp only [hsp, tableSize, map_append, map_cons, sum_append_nat, sum_cons, entrySize] at hfits
    omega
  · rw [lookup] at hname
    split at hname
    · cases hname
      have hshort : ∀ i < 61, (kStaticTable.getD i ([], [])).1.length ≤ 4096 := by decide
      rw [staticTableAt, if_neg (by omega)]
      exact hshort (idx - 1) (by omega)
    · cases hname

theorem TableExact.entrySize_lt {n : Nat} {b rest : Bytes} {e : Header}
    (hb : b.length < 2 ^ 31) (hread : d.readLiteral n b = some (e, rest)) :
    entrySize e < 2 ^ 32 := by
  rw [readLiteral] at hread
  split at hread
  · cases hread
  · rename_i idx r₁ hint
    split at hread
    · cases hread
    · rename_i name r₂ hname
      obtain ⟨⟨value, r₃⟩, hval, hr⟩ := Option.map_eq_some_iff.mp hread
      cases hr
      have h₁ := readInteger_length_lt hint
      have h₃ := readString_length_lt hval
      rw [entrySize]
      rw [readName] at hname
      split at hname
      · obtain ⟨t, ht, heq⟩ := Option.map_eq_some_iff.mp hname
        cases heq
        have hle := h.length_lookup_le ht
        dsimp only
        omega
      · have h₂ := readString_length_lt hname
        dsimp only
        omega

theorem TableExact.decoded {block : Bytes} (hb : block.length < 2 ^ 31)
    (out : List Header) : TableExact (d.decode block out).decoder := by
  fun_induction decode d block out with
  | case1 | case2 => exact h
  | case3 d block out hne o d' rest hfld ih =>
    obtain ⟨hlt, hd'⟩ := decodeField_cases hfld
    refine ih ?_ (hlt.trans hb)
    rcases hd' with rfl | ⟨n, rfl⟩ | ⟨n, e, hlit, rfl⟩
    · exact h
    · exact h.setHeaderTableSize n
    · exact h.inserted (h.entrySize_lt hb hlit)

end

end HeaderDecoder

/-! ## Runs -/

/-- The calls of the codec, which has the decoder. -/
inductive CodecCall
  | feed (f : Frame)
  | abortStream (id : Nat)
  | clear
  | applyHeaderTableSize (n : Nat)

namespace H2Codec

def call (c : H2Codec) : CodecCall → H2Codec
  | .feed f => (c.feed f).1
  | .abortStream id => c.abortStream id
  | .clear => c.clear
  | .applyHeaderTableSize n => c.applyHeaderTableSize n

/-- The table is exact, and the blocks that are assembled are within the limit of the codec. -/
structure Bounded (c : H2Codec) : Prop where
  table : c.decoder.TableExact
  short : ∀ {id h}, c.heads.get? id = some h → h.block.length ≤ kMaxHeaderBlockBytes

variable {c : H2Codec} {id last : Nat} {d : HeaderDecoder} {h : Head}

/-- The entry of a stream is replaced. -/
theorem Bounded.set (hc : c.Bounded) (hd : d.TableExact)
    (hlen : h.block.length ≤ kMaxHeaderBlockBytes) :
    Bounded ⟨d, c.heads.set id h, last⟩ where
  table := hd
  short {id' h'} hget := by
    rw [get?_set] at hget
    split at hget
    · cases hget
      exact hlen
    · exact hc.short hget

theorem Bounded.erase (hc : c.Bounded) (hd : d.TableExact) :
    Bounded ⟨d, c.heads.erase id, last⟩ where
  table := hd
  short hget := hc.short (get?_of_get?_erase hget).1

/-- A complete block is decoded, and it is short. -/
theorem Bounded.finish (hc : c.Bounded) (id : Nat) : Bounded (c.finish id).1 := by
  rw [H2Codec.finish]
  split
  · exact hc
  · rename_i h hget
    have hlen := hc.short hget
    have hlt : h.block.length < 2 ^ 31 := hlen.trans_lt (by decide)
    have htable := hc.table.decoded hlt h.headers
    dsimp only
    split
    · split
      · exact hc.erase htable
      · exact hc.set htable hlen
    · exact hc

theorem Bounded.feedHeaders (hc : c.Bounded) (flags : UInt8) (payload : Bytes) :
    Bounded (c.feedHeaders id flags payload).1 := by
  have hhead : ((c.heads.get? id).getD {}).block.length ≤ kMaxHeaderBlockBytes := by
    cases hget : c.heads.get? id with
    | none => exact Nat.zero_le _
    | some h => exact hc.short hget
  rw [H2Codec.feedHeaders]
  split
  · exact hc
  · dsimp only
    split
    · exact hc.set hc.table hhead
    · split
      · exact hc.set hc.table hhead
      · exact (hc.set hc.table (by rw [length_append]; omega)).finish id

theorem Bounded.feedContinuation (hc : c.Bounded) (flags : UInt8) (payload : Bytes) :
    Bounded (c.feedContinuation id flags payload).1 := by
  rw [H2Codec.feedContinuation]
  split
  · exact hc
  · split
    · exact hc
    · exact (hc.set hc.table (by rw [length_append]; omega)).finish id

theorem Bounded.feedData (hc : c.Bounded) (flags : UInt8) : Bounded (c.feedData id flags).1 := by
  rw [H2Codec.feedData]
  split
  · exact hc
  · rename_i h hget
    have hlen := hc.short hget
    exact (hc.set hc.table (by exact hlen)).finish id

theorem Bounded.feed (hc : c.Bounded) (f : Frame) : Bounded (c.feed f).1 := by
  rw [H2Codec.feed]
  split
  · exact hc.feedHeaders _ _
  · exact hc.feedContinuation _ _
  · exact hc.feedData _
  · exact hc

/-- **The dynamic table is exact** after every sequence of frames, aborted streams and changes of
the capacity. -/
theorem tableExact_run (cs : List CodecCall) : (run call {} cs).decoder.TableExact := by
  have hempty : ∀ {id h}, (OrderedMap.empty : OrderedMap Head).get? id = some h →
      h.block.length ≤ kMaxHeaderBlockBytes := fun hget => by cases hget
  have hrun : (run call {} cs).Bounded := by
    refine run_invariant Bounded ?_ ⟨.of_size rfl (Nat.zero_le _) le_rfl, hempty⟩ cs
    intro c i hc
    cases i with
    | feed f => exact hc.feed f
    | abortStream id => exact hc.erase hc.table
    | clear => exact ⟨hc.table, hempty⟩
    | applyHeaderTableSize n => exact { hc with table := hc.table.setHeaderTableSize n }
  exact hrun.table

end H2Codec

end ProtoRelay.Http2
