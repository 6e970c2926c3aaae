import Mathlib.Data.List.Pairwise
import ProtoRelay.Base.Bits

/-!
# The Huffman code of header strings

`huffman_decode` reads the bits of a string into a register until the register is a word of the
table, appends the symbol of the word and clears the register.  What is left over at the end has to
be at most seven set bits.  The strings it accepts are therefore the concatenations of the words of
the symbols it returns, padded with set bits: no word of the table is the start of another one, and
seven set bits are the start of no short one.

No string but the empty one decodes to itself.  Its first symbol would have to be 255, the only
byte that starts like its own word.  The words of the bytes from 128 on start with eight set bits,
so each of them makes a byte from 128 on wherever it starts, and the word of 255 makes two: such a
string would hold more of these bytes than it does.
-/

namespace ProtoRelay.Http2

open List

open ProtoRelay

/-- `H2HuffEntry`: a word, its length in bits, and its symbol. -/
structure HuffmanEntry where
  bits : Nat
  len : Nat
  sym : UInt8
deriving DecidableEq

def HuffmanEntry.word (e : HuffmanEntry) : List Bool := natBits e.len e.bits

/-- `kHuffman`, in the order of the source. -/
def kHuffman : List HuffmanEntry :=
  [⟨0x0, 5, 48⟩, ⟨0x1, 5, 49⟩, ⟨0x2, 5, 50⟩, ⟨0x3, 5, 97⟩, ⟨0x4, 5, 99⟩, ⟨0x5, 5, 101⟩,
    ⟨0x6, 5, 105⟩, ⟨0x7, 5, 111⟩, ⟨0x8, 5, 115⟩, ⟨0x9, 5, 116⟩, ⟨0x14, 6, 32⟩, ⟨0x15, 6, 37⟩,
    ⟨0x16, 6, 45⟩, ⟨0x17, 6, 46⟩, ⟨0x18, 6, 47⟩, ⟨0x19, 6, 51⟩, ⟨0x1a, 6, 52⟩, ⟨0x1b, 6, 53⟩,
    ⟨0x1c, 6, 54⟩, ⟨0x1d, 6, 55⟩, ⟨0x1e, 6, 56⟩, ⟨0x1f, 6, 57⟩, ⟨0x20, 6, 61⟩, ⟨0x21, 6, 65⟩,
    ⟨0x22, 6, 95⟩, ⟨0x23, 6, 98⟩, ⟨0x24, 6, 100⟩, ⟨0x25, 6, 102⟩, ⟨0x26, 6, 103⟩, ⟨0x27, 6, 104⟩,
    ⟨0x28, 6, 108⟩, ⟨0x29, 6, 109⟩, ⟨0x2a, 6, 110⟩, ⟨0x2b, 6, 112⟩, ⟨0x2c, 6, 114⟩, ⟨0x2d, 6, 117⟩,
    ⟨0x5c, 7, 58⟩, ⟨0x5d, 7, 66⟩, ⟨0x5e, 7, 67⟩, ⟨0x5f, 7, 68⟩, ⟨0x60, 7, 69⟩, ⟨0x61, 7, 70⟩,
    ⟨0x62, 7, 71⟩, ⟨0x63, 7, 72⟩, ⟨0x64, 7, 73⟩, ⟨0x65, 7, 74⟩, ⟨0x66, 7, 75⟩, ⟨0x67, 7, 76⟩,
    ⟨0x68, 7, 77⟩, ⟨0x69, 7, 78⟩, ⟨0x6a, 7, 79⟩, ⟨0x6b, 7, 80⟩, ⟨0x6c, 7, 81⟩, ⟨0x6d, 7, 82⟩,
    ⟨0x6e, 7, 83⟩, ⟨0x6f, 7, 84⟩, ⟨0x70, 7, 85⟩, ⟨0x71, 7, 86⟩, ⟨0x72, 7, 87⟩, ⟨0x73, 7, 89⟩,
    ⟨0x74, 7, 106⟩, ⟨0x75, 7, 107⟩, ⟨0x76, 7, 113⟩, ⟨0x77, 7, 118⟩, ⟨0x78, 7, 119⟩, ⟨0x79, 7, 120⟩,
    ⟨0x7a, 7, 121⟩, ⟨0x7b, 7, 122⟩, ⟨0xf8, 8, 38⟩, ⟨0xf9, 8, 42⟩, ⟨0xfa, 8, 44⟩, ⟨0xfb, 8, 59⟩,
    ⟨0xfc, 8, 88⟩, ⟨0xfd, 8, 90⟩, ⟨0x3f8, 10, 33⟩, ⟨0x3f9, 10, 34⟩, ⟨0x3fa, 10, 40⟩,
    ⟨0x3fb, 10, 41⟩, ⟨0x3fc, 10, 63⟩, ⟨0x7fa, 11, 39⟩, ⟨0x7fb, 11, 43⟩, ⟨0x7fc, 11, 124⟩,
    ⟨0xffa, 12, 35⟩, ⟨0xffb, 12, 62⟩, ⟨0x1ff8, 13, 0⟩, ⟨0x1ff9, 13, 36⟩, ⟨0x1ffa, 13, 64⟩,
    ⟨0x1ffb, 13, 91⟩, ⟨0x1ffc, 13, 93⟩, ⟨0x1ffd, 13, 126⟩, ⟨0x3ffc, 14, 94⟩, ⟨0x3ffd, 14, 125⟩,
    ⟨0x7ffc, 15, 60⟩, ⟨0x7ffd, 15, 96⟩, ⟨0x7ffe, 15, 123⟩, ⟨0x7fff0, 19, 92⟩, ⟨0x7fff1, 19, 195⟩,
    ⟨0x7fff2, 19, 208⟩, ⟨0xfffe6, 20, 128⟩, ⟨0xfffe7, 20, 130⟩, ⟨0xfffe8, 20, 131⟩,
    ⟨0xfffe9, 20, 162⟩, ⟨0xfffea, 20, 184⟩, ⟨0xfffeb, 20, 194⟩, ⟨0xfffec, 20, 224⟩,
    ⟨0xfffed, 20, 226⟩, ⟨0x1fffdc, 21, 153⟩, ⟨0x1fffdd, 21, 161⟩, ⟨0x1fffde, 21, 167⟩,
    ⟨0x1fffdf, 21, 172⟩, ⟨0x1fffe0, 21, 176⟩, ⟨0x1fffe1, 21, 177⟩, ⟨0x1fffe2, 21, 179⟩,
    ⟨0x1fffe3, 21, 209⟩, ⟨0x1fffe4, 21, 216⟩, ⟨0x1fffe5, 21, 217⟩, ⟨0x1fffe6, 21, 227⟩,
    ⟨0x1fffe7, 21, 229⟩, ⟨0x1fffe8, 21, 230⟩, ⟨0x3fffd2, 22, 129⟩, ⟨0x3fffd3, 22, 132⟩,
    ⟨0x3fffd4, 22, 133⟩, ⟨0x3fffd5, 22, 134⟩, ⟨0x3fffd6, 22, 136⟩, ⟨0x3fffd7, 22, 146⟩,
    ⟨0x3fffd8, 22, 154⟩, ⟨0x3fffd9, 22, 156⟩, ⟨0x3fffda, 22, 160⟩, ⟨0x3fffdb, 22, 163⟩,
    ⟨0x3fffdc, 22, 164⟩, ⟨0x3fffdd, 22, 169⟩, ⟨0x3fffde, 22, 170⟩, ⟨0x3fffdf, 22, 173⟩,
    ⟨0x3fffe0, 22, 178⟩, ⟨0x3fffe1, 22, 181⟩, ⟨0x3fffe2, 22, 185⟩, ⟨0x3fffe3, 22, 186⟩,
    ⟨0x3fffe4, 22, 187⟩, ⟨0x3fffe5, 22, 189⟩, ⟨0x3fffe6, 22, 190⟩, ⟨0x3fffe7, 22, 196⟩,
    ⟨0x3fffe8, 22, 198⟩, ⟨0x3fffe9, 22, 228⟩, ⟨0x3fffea, 22, 232⟩, ⟨0x3fffeb, 22, 233⟩,
    ⟨0x7fffd8, 23, 1⟩, ⟨0x7fffd9, 23, 135⟩, ⟨0x7fffda, 23, 137⟩, ⟨0x7fffdb, 23, 138⟩,
    ⟨0x7fffdc, 23, 139⟩, ⟨0x7fffdd, 23, 140⟩, ⟨0x7fffde, 23, 141⟩, ⟨0x7fffdf, 23, 143⟩,
    ⟨0x7fffe0, 23, 147⟩, ⟨0x7fffe1, 23, 149⟩, ⟨0x7fffe2, 23, 150⟩, ⟨0x7fffe3, 23, 151⟩,
    ⟨0x7fffe4, 23, 152⟩, ⟨0x7fffe5, 23, 155⟩, ⟨0x7fffe6, 23, 157⟩, ⟨0x7fffe7, 23, 158⟩,
    ⟨0x7fffe8, 23, 165⟩, ⟨0x7fffe9, 23, 166⟩, ⟨0x7fffea, 23, 168⟩, ⟨0x7fffeb, 23, 174⟩,
    ⟨0x7fffec, 23, 175⟩, ⟨0x7fffed, 23, 180⟩, ⟨0x7fffee, 23, 182⟩, ⟨0x7fffef, 23, 183⟩,
    ⟨0x7ffff0, 23, 188⟩, ⟨0x7ffff1, 23, 191⟩, ⟨0x7ffff2, 23, 197⟩, ⟨0x7ffff3, 23, 231⟩,
    ⟨0x7ffff4, 23, 239⟩, ⟨0xffffea, 24, 9⟩, ⟨0xffffeb, 24, 142⟩, ⟨0xffffec, 24, 144⟩,
    ⟨0xffffed, 24, 145⟩, ⟨0xffffee, 24, 148⟩, ⟨0xffffef, 24, 159⟩, ⟨0xfffff0, 24, 171⟩,
    ⟨0xfffff1, 24, 206⟩, ⟨0xfffff2, 24, 215⟩, ⟨0xfffff3, 24, 225⟩, ⟨0xfffff4, 24, 236⟩,
    ⟨0xfffff5, 24, 237⟩, ⟨0x1ffffec, 25, 199⟩, ⟨0x1ffffed, 25, 207⟩, ⟨0x1ffffee, 25, 234⟩,
    ⟨0x1ffffef, 25, 235⟩, ⟨0x3ffffe0, 26, 192⟩, ⟨0x3ffffe1, 26, 193⟩, ⟨0x3ffffe2, 26, 200⟩,
    ⟨0x3ffffe3, 26, 201⟩, ⟨0x3ffffe4, 26, 202⟩, ⟨0x3ffffe5, 26, 205⟩, ⟨0x3ffffe6, 26, 210⟩,
    ⟨0x3ffffe7, 26, 213⟩, ⟨0x3ffffe8, 26, 218⟩, ⟨0x3ffffe9, 26, 219⟩, ⟨0x3ffffea, 26, 238⟩,
    ⟨0x3ffffeb, 26, 240⟩, ⟨0x3ffffec, 26, 242⟩, ⟨0x3ffffed, 26, 243⟩, ⟨0x3ffffee, 26, 255⟩,
    ⟨0x7ffffde, 27, 203⟩, ⟨0x7ffffdf, 27, 204⟩, ⟨0x7ffffe0, 27, 211⟩, ⟨0x7ffffe1, 27, 212⟩,
    ⟨0x7ffffe2, 27, 214⟩, ⟨0x7ffffe3, 27, 221⟩, ⟨0x7ffffe4, 27, 222⟩, ⟨0x7ffffe5, 27, 223⟩,
    ⟨0x7ffffe6, 27, 241⟩, ⟨0x7ffffe7, 27, 244⟩, ⟨0x7ffffe8, 27, 245⟩, ⟨0x7ffffe9, 27, 246⟩,
    ⟨0x7ffffea, 27, 247⟩, ⟨0x7ffffeb, 27, 248⟩, ⟨0x7ffffec, 27, 250⟩, ⟨0x7ffffed, 27, 251⟩,
    ⟨0x7ffffee, 27, 252⟩, ⟨0x7ffffef, 27, 253⟩, ⟨0x7fffff0, 27, 254⟩, ⟨0xfffffe2, 28, 2⟩,
    ⟨0xfffffe3, 28, 3⟩, ⟨0xfffffe4, 28, 4⟩, ⟨0xfffffe5, 28, 5⟩, ⟨0xfffffe6, 28, 6⟩,
    ⟨0xfffffe7, 28, 7⟩, ⟨0xfffffe8, 28, 8⟩, ⟨0xfffffe9, 28, 11⟩, ⟨0xfffffea, 28, 12⟩,
    ⟨0xfffffeb, 28, 14⟩, ⟨0xfffffec, 28, 15⟩, ⟨0xfffffed, 28, 16⟩, ⟨0xfffffee, 28, 17⟩,
    ⟨0xfffffef, 28, 18⟩, ⟨0xffffff0, 28, 19⟩, ⟨0xffffff1, 28, 20⟩, ⟨0xffffff2, 28, 21⟩,
    ⟨0xffffff3, 28, 23⟩, ⟨0xffffff4, 28, 24⟩, ⟨0xffffff5, 28, 25⟩, ⟨0xffffff6, 28, 26⟩,
    ⟨0xffffff7, 28, 27⟩, ⟨0xffffff8, 28, 28⟩, ⟨0xffffff9, 28, 29⟩, ⟨0xffffffa, 28, 30⟩,
    ⟨0xffffffb, 28, 31⟩, ⟨0xffffffc, 28, 127⟩, ⟨0xffffffd, 28, 220⟩, ⟨0xffffffe, 28, 249⟩,
    ⟨0x3ffffffc, 30, 10⟩, ⟨0x3ffffffd, 30, 13⟩, ⟨0x3ffffffe, 30, 22⟩]

/-- `by_len[l]`: the entries of one length, in the order of the table. -/
def byLen (l : Nat) : List HuffmanEntry := kHuffman.filter (·.len == l)

/-- The register of the loop, and the output so far. -/
structure HuffmanState where
  value : Nat
  nbits : Nat
  out : Bytes

/-- One bit: shifted in, and looked up among the words of the length reached. -/
def huffmanBit (st : HuffmanState) (bit : Bool) : Option HuffmanState :=
  let value := (2 * st.value + bit.toNat) % 2 ^ 32
  let nbits := st.nbits + 1
  if nbits > 30 then none
  else
    match (byLen nbits).find? (·.bits == value) with
    | none => some { st with value := value, nbits := nbits }
    | some e =>
      -- the end-of-string symbol; a symbol is one byte, so the comparison never holds
      if e.sym.toNat == 256 then none
      else some { value := 0, nbits := 0, out := st.out ++ [e.sym] }

def huffmanBits : HuffmanState → List Bool → Option HuffmanState
  | st, [] => some st
  | st, bit :: l => (huffmanBit st bit).bind (huffmanBits · l)

def huffmanDecode (s : Bytes) : Option Bytes :=
  match huffmanBits { value := 0, nbits := 0, out := [] } (bits s) with
  | none => none
  | some st =>
    if st.nbits > 7 then none
    else if st.nbits > 0 ∧ st.value ≠ 2 ^ st.nbits - 1 then none
    else some st.out

/-! ## What is accepted -/

/-- The bits read so far are the words of entries of the table, whose symbols are the output, and
the register. -/
structure HuffmanReads (l : List Bool) (st : HuffmanState) (es : List HuffmanEntry) : Prop where
  table : ∀ e ∈ es, e ∈ kHuffman
  out : st.out = es.map (·.sym)
  split : l = es.flatMap (·.word) ++ natBits st.nbits st.value
  value_lt : st.value < 2 ^ st.nbits
  nbits_le : st.nbits ≤ 30

theorem HuffmanReads.bit {l : List Bool} {st st' : HuffmanState} {es : List HuffmanEntry}
    (h : HuffmanReads l st es) {bit : Bool} (hbit : huffmanBit st bit = some st') :
    ∃ es', HuffmanReads (l ++ [bit]) st' es' := by
  have hlt : 2 * st.value + bit.toNat < 2 ^ (st.nbits + 1) := by
    have hb := bit.toNat_lt
    have hv := h.value_lt
    omega
  -- the register has at most 30 bits, so that the machine word does not lose one
  have hword : st.nbits < 30 → (2 * st.value + bit.toNat) % 2 ^ 32 = 2 * st.value + bit.toNat := by
    intro hn
    refine Nat.mod_eq_of_lt (hlt.trans_le (Nat.pow_le_pow_right (by omega) ?_))
    omega
  have hsp : l ++ [bit] = es.flatMap (·.word) ++
      natBits (st.nbits + 1) (2 * st.value + bit.toNat) := by
    rw [natBits_succ, ← append_assoc, ← h.split]
  unfold huffmanBit at hbit
  dsimp only at hbit
  split at hbit
  · cases hbit
  · rename_i hle
    rw [hword (by omega)] at hbit
    split at hbit
    · cases hbit
      exact ⟨es, h.table, h.out, hsp, hlt, Nat.le_of_not_lt hle⟩
    · rename_i e hfind
      split at hbit
      · cases hbit
      · cases hbit
        have hmem := mem_of_find?_eq_some hfind
        have hbits := find?_some hfind
        rw [beq_iff_eq] at hbits
        rw [byLen, mem_filter, beq_iff_eq] at hmem
        refine ⟨es ++ [e], ?_, ?_, ?_, Nat.one_pos, Nat.zero_le _⟩
        · intro e' he'
          rcases mem_append.mp he' with he' | he'
          · exact h.table e' he'
          · rw [mem_singleton.mp he']
            exact hmem.1
        · rw [map_append, ← h.out]
          rfl
        · rw [hsp, ← hbits, ← hmem.2]
          simp [HuffmanEntry.word]

theorem HuffmanReads.bits {l l' : List Bool} {st st' : HuffmanState} {es : List HuffmanEntry}
    (h : HuffmanReads l st es) (hbits : huffmanBits st l' = some st') :
    ∃ es', HuffmanReads (l ++ l') st' es' := by
  induction l' generalizing l st es with
  | nil =>
    cases hbits
    rw [append_nil]
    exact ⟨es, h⟩
  | cons bit l' ih =>
    obtain ⟨st₁, hbit, hrest⟩ := Option.bind_eq_some_iff.mp hbits
    obtain ⟨es₁, h₁⟩ := h.bit hbit
    obtain ⟨es', h'⟩ := ih h₁ hrest
    rw [append_assoc] at h'
    exact ⟨es', h'⟩

/-- **What is accepted**: words of the table, whose symbols are returned, and at most seven set
bits. -/
theorem huffmanDecode_sound {s t : Bytes} (h : huffmanDecode s = some t) :
    ∃ es : List HuffmanEntry, (∀ e ∈ es, e ∈ kHuffman) ∧ t = es.map (·.sym) ∧
      ∃ n ≤ 7, bits s = es.flatMap (·.word) ++ List.replicate n true := by
  unfold huffmanDecode at h
  split at h
  · cases h
  · rename_i st hst
    have hstart : HuffmanReads [] { value := 0, nbits := 0, out := [] } [] :=
      ⟨fun e he => absurd he not_mem_nil, rfl, rfl, Nat.one_pos, Nat.zero_le _⟩
    obtain ⟨es, hreads⟩ := hstart.bits hst
    rw [nil_append] at hreads
    split at h
    · cases h
    · split at h
      · cases h
      · rename_i hle hpad
        cases h
        have hval : st.value = 2 ^ st.nbits - 1 := by
          by_cases hn : st.nbits = 0
          · have hlt := hreads.value_lt
            rw [hn] at hlt ⊢
            omega
          · by_contra hne
            exact hpad ⟨by omega, hne⟩
        refine ⟨es, hreads.table, hreads.out, st.nbits, by omega, ?_⟩
        rw [hreads.split, hval, natBits_two_pow_sub_one]

theorem kHuffman_five_le_len : ∀ e ∈ kHuffman, 5 ≤ e.len := by decide +kernel

theorem length_flatMap_word_ge {es : List HuffmanEntry} (h : ∀ e ∈ es, e ∈ kHuffman) :
    5 * es.length ≤ (es.flatMap (·.word)).length := by
  induction es with
  | nil => exact Nat.zero_le _
  | cons e es ih =>
    have he := kHuffman_five_le_len e (h e mem_cons_self)
    have htail := ih fun e' he' => h e' (.tail e he')
    rw [flatMap_cons, length_append, length_cons, HuffmanEntry.word, length_natBits]
    omega

/-- The output is at most 8/5 times as long as the input. -/
theorem length_le_of_huffmanDecode {s t : Bytes} (h : huffmanDecode s = some t) :
    5 * t.length ≤ 8 * s.length := by
  obtain ⟨es, htable, rfl, n, -, hs⟩ := huffmanDecode_sound h
  have hwords := length_flatMap_word_ge htable
  have hlen := congrArg List.length hs
  rw [length_bits, length_append] at hlen
  rw [length_map]
  omega

/-! ## All that is accepted -/

/-- As numbers of 30 bits, all that start with the word of `e` are below all that start with the
word of `e'`. -/
def HuffmanEntry.Before (e e' : HuffmanEntry) : Prop :=
  (e.bits + 1) * 2 ^ (30 - e.len) ≤ e'.bits * 2 ^ (30 - e'.len)

instance (e e' : HuffmanEntry) : Decidable (e.Before e') := inferInstanceAs (Decidable (_ ≤ _))

instance : IsTrans HuffmanEntry HuffmanEntry.Before where
  trans _ _ _ h h' := h.trans ((Nat.mul_le_mul_right _ (Nat.le_succ _)).trans h')

theorem kHuffman_before : kHuffman.Pairwise HuffmanEntry.Before :=
  isChain_iff_pairwise.mp (by decide +kernel)

theorem kHuffman_bounds : ∀ e ∈ kHuffman, e.len ≤ 30 ∧ e.bits < 2 ^ e.len := by decide +kernel

/-- **The words are free of prefixes.** -/
theorem kHuffman_unique {e e' : HuffmanEntry} (he : e ∈ kHuffman) (he' : e' ∈ kHuffman)
    (hlen : e'.len ≤ e.len) (hbits : e'.bits = e.bits / 2 ^ (e.len - e'.len)) : e' = e := by
  by_contra hne
  have hle := (kHuffman_bounds e he).1
  have hpow : 2 ^ (30 - e'.len) = 2 ^ (e.len - e'.len) * 2 ^ (30 - e.len) := by
    rw [← Nat.pow_add]
    congr 1
    omega
  have hpos : 0 < 2 ^ (30 - e.len) := Nat.two_pow_pos _
  have hdiv := Nat.div_add_mod e.bits (2 ^ (e.len - e'.len))
  have hmod := Nat.mod_lt e.bits (Nat.two_pow_pos (e.len - e'.len))
  rw [← hbits] at hdiv
  have hsymm : Std.Symm fun a b : HuffmanEntry => a.Before b ∨ b.Before a := ⟨fun _ _ => Or.symm⟩
  have hpair : kHuffman.Pairwise fun a b => a.Before b ∨ b.Before a := kHuffman_before.imp Or.inl
  rcases hpair.forall he' he hne with h | h
  · rw [HuffmanEntry.Before, hpow, ← Nat.mul_assoc] at h
    have hlt := Nat.le_of_mul_le_mul_right h hpos
    rw [Nat.add_mul, Nat.mul_comm] at hlt
    omega
  · rw [HuffmanEntry.Before, hpow, ← Nat.mul_assoc] at h
    have hlt := Nat.le_of_mul_le_mul_right h hpos
    rw [Nat.mul_comm] at hdiv
    omega

theorem huffmanBits_append (st : HuffmanState) (l l' : List Bool) :
    huffmanBits st (l ++ l') = (huffmanBits st l).bind (huffmanBits · l') := by
  induction l generalizing st with
  | nil => rfl
  | cons bit l ih =>
    rw [cons_append, huffmanBits, huffmanBits, Option.bind_assoc]
    simp only [ih]

/-- A number is shifted together from its half and its last bit. -/
theorem shift_half {v : Nat} (hv : v < 2 ^ 32) :
    (2 * (v / 2) + (v % 2 == 1).toNat) % 2 ^ 32 = v := by
  rcases Nat.mod_two_eq_zero_or_one v with h | h <;> rw [h]
  · change (2 * (v / 2) + 0) % _ = _
    omega
  · change (2 * (v / 2) + 1) % _ = _
    omega

/-- While the register is not a word, bits are shifted in. -/
theorem huffmanBits_register {k v : Nat} (hv : v < 2 ^ k) (hk : k ≤ 30)
    (h : ∀ e ∈ kHuffman, e.len ≤ k → e.bits ≠ v / 2 ^ (k - e.len)) (out : Bytes) :
    huffmanBits { value := 0, nbits := 0, out } (natBits k v) =
      some { value := v, nbits := k, out } := by
  induction k generalizing v with
  | zero =>
    obtain rfl : v = 0 := by omega
    rfl
  | succ k ih =>
    have hrest : ∀ e ∈ kHuffman, e.len ≤ k → e.bits ≠ v / 2 / 2 ^ (k - e.len) := by
      intro e he hle
      rw [Nat.div_div_eq_div_mul, ← Nat.pow_succ', ← Nat.succ_sub hle]
      exact h e he (by omega)
    have hnone : (byLen (k + 1)).find? (·.bits == v) = none := by
      rw [find?_eq_none]
      intro e he heq
      rw [byLen, mem_filter, beq_iff_eq] at he
      refine h e he.1 he.2.le ?_
      rw [he.2, Nat.sub_self, Nat.pow_zero, Nat.div_one]
      exact beq_iff_eq.mp heq
    have hlt : v < 2 ^ 32 := hv.trans_le (Nat.pow_le_pow_right (by omega) (by omega))
    rw [natBits, huffmanBits_append, ih (by omega) (by omega) hrest, Option.bind_some, huffmanBits,
      huffmanBit]
    dsimp only
    rw [shift_half hlt, if_neg (by omega), hnone]
    rfl

theorem huffmanBits_word {e : HuffmanEntry} (he : e ∈ kHuffman) (out : Bytes) :
    huffmanBits { value := 0, nbits := 0, out } e.word =
      some { value := 0, nbits := 0, out := out ++ [e.sym] } := by
  obtain ⟨hlen, hbits⟩ := kHuffman_bounds e he
  obtain ⟨k, hk⟩ :=
    Nat.exists_eq_add_of_le' ((show 1 ≤ 5 by decide).trans (kHuffman_five_le_len e he))
  have hrest : ∀ e' ∈ kHuffman, e'.len ≤ k → e'.bits ≠ e.bits / 2 / 2 ^ (k - e'.len) := by
    intro e' he' hle heq
    rw [Nat.div_div_eq_div_mul, ← Nat.pow_succ', ← Nat.succ_sub hle, ← Nat.add_one, ← hk] at heq
    have h := kHuffman_unique he he' (by omega) heq
    rw [h] at hle
    omega
  have hfind : (byLen (k + 1)).find? (·.bits == e.bits) = some e := by
    have hmem : e ∈ byLen (k + 1) := mem_filter.mpr ⟨he, beq_iff_eq.mpr hk⟩
    cases hfind : (byLen (k + 1)).find? (·.bits == e.bits) with
    | none => exact absurd (beq_self_eq_true _) (find?_eq_none.mp hfind e hmem)
    | some e' =>
      have hmem' := mem_filter.mp (mem_of_find?_eq_some hfind)
      have hlen' : e'.len = e.len := (beq_iff_eq.mp hmem'.2).trans hk.symm
      rw [kHuffman_unique he hmem'.1 hlen'.le]
      rw [hlen', Nat.sub_self, Nat.pow_zero, Nat.div_one]
      have heq := find?_some hfind
      exact beq_iff_eq.mp heq
  have hsym : ¬ (e.sym.toNat == 256) = true := by
    have hlt := e.sym.toNat_lt
    rw [beq_iff_eq]
    omega
  rw [hk] at hlen hbits
  rw [HuffmanEntry.word, hk, natBits, huffmanBits_append,
    huffmanBits_register (by omega) (by omega) hrest,
    Option.bind_some, huffmanBits, huffmanBit]
  have hlt : e.bits < 2 ^ 32 := hbits.trans_le (Nat.pow_le_pow_right (by omega) (by omega))
  dsimp only
  rw [shift_half hlt, if_neg (by omega), hfind]
  dsimp only
  rw [if_neg hsym]
  rfl

theorem huffmanBits_words {es : List HuffmanEntry} (h : ∀ e ∈ es, e ∈ kHuffman) (out : Bytes) :
    huffmanBits { value := 0, nbits := 0, out } (es.flatMap (·.word)) =
      some { value := 0, nbits := 0, out := out ++ es.map (·.sym) } := by
  induction es generalizing out with
  | nil => simp [huffmanBits]
  | cons e es ih =>
    rw [forall_mem_cons] at h
    rw [flatMap_cons, huffmanBits_append, huffmanBits_word h.1, Option.bind_some, ih h.2,
      append_assoc]
    rfl

theorem kHuffman_padding : ∀ n ≤ 7, ∀ e ∈ kHuffman, e.len ≤ n →
    e.bits ≠ (2 ^ n - 1) / 2 ^ (n - e.len) := by
  decide +kernel

/-- **What is accepted, exactly**: the words of a list of symbols and at most seven set bits, and
the symbols are returned. -/
theorem huffmanDecode_iff (s t : Bytes) : huffmanDecode s = some t ↔
    ∃ es : List HuffmanEntry, (∀ e ∈ es, e ∈ kHuffman) ∧ t = es.map (·.sym) ∧
      ∃ n ≤ 7, bits s = es.flatMap (·.word) ++ List.replicate n true := by
  refine ⟨huffmanDecode_sound, ?_⟩
  rintro ⟨es, hes, rfl, n, hn, hs⟩
  have hpos := Nat.two_pow_pos n
  rw [huffmanDecode, hs, huffmanBits_append, huffmanBits_words hes, Option.bind_some,
    ← natBits_two_pow_sub_one, huffmanBits_register (by omega) (by omega) (kHuffman_padding n hn)]
  dsimp only
  rw [if_neg (by omega), if_neg (by simp)]
  rfl

/-! ## No string decodes to itself -/

/-- The words of the bytes from 128 on start with eight set bits. -/
theorem kHuffman_heavy : ∀ e ∈ kHuffman,
    decide (128 ≤ e.sym) = true → (List.replicate 8 true).isPrefixOf e.word = true := by
  decide +kernel

/-- The only byte that starts like its own word; its word covers two byte boundaries. -/
theorem kHuffman_word_comparable : ∀ e ∈ kHuffman,
    e.word.isPrefixOf (byteBits e.sym) = true ∨ (byteBits e.sym).isPrefixOf e.word = true →
      2 ≤ alignedOnes 0 e.word := by
  decide +kernel

/-- **No string decodes to itself**, the empty one apart. -/
theorem huffmanDecode_ne_self {s : Bytes} (hne : s ≠ []) : huffmanDecode s ≠ some s := by
  intro h
  obtain ⟨es, htable, hes, n, -, hs⟩ := huffmanDecode_sound h
  obtain ⟨b, s', rfl⟩ := exists_cons_of_ne_nil hne
  cases es with
  | nil => cases hes
  | cons e es =>
    obtain ⟨rfl, rfl⟩ := List.cons.inj hes
    have hfst : 2 ≤ alignedOnes 0 e.word := by
      apply kHuffman_word_comparable e (htable e mem_cons_self)
      have hword : e.word <+: bits (e.sym :: es.map (·.sym)) := by
        rw [hs, flatMap_cons, append_assoc]
        exact prefix_append ..
      have hbyte : byteBits e.sym <+: bits (e.sym :: es.map (·.sym)) := prefix_append ..
      rw [List.isPrefixOf_iff_prefix, List.isPrefixOf_iff_prefix]
      exact prefix_or_prefix_of_prefix hword hbyte
    -- the boundaries covered by the words of the symbols, against the bytes they are to be
    have hcnt := alignedOnes_bits (e.sym :: es.map (·.sym))
    rw [hs, alignedOnes_append, flatMap_cons, alignedOnes_append, countP_cons, countP_map] at hcnt
    have htail : es.countP (fun e' => decide (128 ≤ e'.sym)) ≤
        alignedOnes (0 + e.word.length) (es.flatMap (·.word)) :=
      countP_le_alignedOnes_flatMap (fun e' he' hheavy => List.isPrefixOf_iff_prefix.mp
        (kHuffman_heavy e' (htable e' (.tail e he')) hheavy)) _
    have hhigh : (if decide (128 ≤ e.sym) = true then 1 else 0) ≤ 1 := by split <;> omega
    change _ = es.countP (fun e' => decide (128 ≤ e'.sym)) + _ at hcnt
    omega

end ProtoRelay.Http2
