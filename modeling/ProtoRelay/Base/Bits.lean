import ProtoRelay.Base.Bytes

/-!
# Bit strings

A byte string read bit by bit, the most significant bit of each byte first, and numbers written
with a fixed count of bits.  The bits that stand first in a byte are the ones at the positions
divisible by 8; `alignedOnes` counts the set ones among them when the list itself starts somewhere
inside a byte.

## Main results

* `alignedOnes_append`: counting along a concatenation
* `alignedOnes_bits`: the bytes with the high bit set are counted
* `countP_le_alignedOnes_flatMap`: a code whose words of one kind start with eight set bits makes at
  least as many such bytes as there are symbols of the kind
-/

namespace ProtoRelay

open List

/-- The bits of a byte, the most significant one first. -/
def byteBits (b : UInt8) : List Bool := (List.range 8).map fun i => b.toNat.testBit (7 - i)

def bits (s : Bytes) : List Bool := s.flatMap byteBits

@[simp] theorem bits_cons (b : UInt8) (s : Bytes) : bits (b :: s) = byteBits b ++ bits s := rfl

@[simp] theorem length_byteBits (b : UInt8) : (byteBits b).length = 8 := by simp [byteBits]

@[simp] theorem length_bits (s : Bytes) : (bits s).length = 8 * s.length := by
  induction s with
  | nil => rfl
  | cons b s ih =>
    rw [bits_cons, length_append, length_byteBits, length_cons]
    omega

/-- The number `v` written with `len` bits. -/
def natBits : Nat → Nat → List Bool
  | 0, _ => []
  | len + 1, v => natBits len (v / 2) ++ [v % 2 == 1]

@[simp] theorem natBits_zero (v : Nat) : natBits 0 v = [] := rfl

@[simp] theorem length_natBits (len v : Nat) : (natBits len v).length = len := by
  induction len generalizing v with
  | zero => rfl
  | succ len ih => simp [natBits, ih]

/-- Shifting a bit in. -/
theorem natBits_succ (len v : Nat) (b : Bool) :
    natBits (len + 1) (2 * v + b.toNat) = natBits len v ++ [b] := by
  cases b with
  | false => simp [natBits]
  | true =>
    have hdiv : (2 * v + 1) / 2 = v := by omega
    have hmod : (2 * v + 1) % 2 = 1 := by omega
    simp [natBits, hdiv, hmod]

theorem natBits_two_pow_sub_one (len : Nat) :
    natBits len (2 ^ len - 1) = List.replicate len true := by
  induction len with
  | zero => rfl
  | succ len ih =>
    have hpos : 0 < 2 ^ len := Nat.two_pow_pos len
    have heq : 2 ^ (len + 1) - 1 = 2 * (2 ^ len - 1) + true.toNat := by
      simp only [Bool.toNat_true]
      omega
    rw [heq, natBits_succ, ih, ← replicate_succ']

/-! ## Byte boundaries -/

/-- How many bytes of a stream start with a set bit inside `l`, found at the offset `o`. -/
def alignedOnes : Nat → List Bool → Nat
  | _, [] => 0
  | o, b :: l => (if b && o % 8 == 0 then 1 else 0) + alignedOnes (o + 1) l

theorem alignedOnes_append (o : Nat) (l l' : List Bool) :
    alignedOnes o (l ++ l') = alignedOnes o l + alignedOnes (o + l.length) l' := by
  induction l generalizing o with
  | nil => simp [alignedOnes]
  | cons b l ih =>
    have hoff : o + 1 + l.length = o + (b :: l).length := by
      rw [length_cons]
      omega
    rw [cons_append, alignedOnes, alignedOnes, ih, hoff, Nat.add_assoc]

/-- Only the place inside the byte matters. -/
theorem alignedOnes_congr {o o' : Nat} (h : o % 8 = o' % 8) (l : List Bool) :
    alignedOnes o l = alignedOnes o' l := by
  induction l generalizing o o' with
  | nil => rfl
  | cons b l ih =>
    rw [alignedOnes, alignedOnes, h, ih (by omega : (o + 1) % 8 = (o' + 1) % 8)]

theorem alignedOnes_byteBits (b : UInt8) : alignedOnes 0 (byteBits b) = if 128 ≤ b then 1 else 0 :=
  forall_byte (p := fun b => alignedOnes 0 (byteBits b) = if 128 ≤ b then 1 else 0)
    (by decide +kernel) b

/-- **The bytes with the high bit set** are the ones counted at the boundaries. -/
theorem alignedOnes_bits (s : Bytes) : alignedOnes 0 (bits s) = s.countP (128 ≤ ·) := by
  induction s with
  | nil => rfl
  | cons b s ih =>
    have hoff : alignedOnes (0 + (byteBits b).length) (bits s) = alignedOnes 0 (bits s) :=
      alignedOnes_congr (by rw [length_byteBits]) _
    rw [bits_cons, alignedOnes_append, hoff, ih, alignedOnes_byteBits, countP_cons, Nat.add_comm]
    simp only [decide_eq_true_eq]

/-- Eight set bits in a row cover a byte boundary, wherever they start. -/
theorem one_le_alignedOnes {l : List Bool} (h : List.replicate 8 true <+: l) (o : Nat) :
    1 ≤ alignedOnes o l := by
  obtain ⟨l', rfl⟩ := h
  have height : ∀ o < 8, alignedOnes o (List.replicate 8 true) = 1 := by decide
  rw [alignedOnes_append, alignedOnes_congr (by omega : o % 8 = o % 8 % 8), height _ (by omega)]
  exact Nat.le_add_right ..

/-- If every code word of one kind starts with eight set bits, the coded stream has as many bytes
with the high bit set as there are symbols of the kind. -/
theorem countP_le_alignedOnes_flatMap {α : Type*} {code : α → List Bool} {heavy : α → Bool}
    {t : List α} (h : ∀ a ∈ t, heavy a = true → List.replicate 8 true <+: code a) (o : Nat) :
    t.countP heavy ≤ alignedOnes o (t.flatMap code) := by
  induction t generalizing o with
  | nil => exact Nat.zero_le _
  | cons a t ih =>
    have htail := ih (fun a' ha' => h a' (.tail a ha')) (o + (code a).length)
    have hword : (if heavy a then 1 else 0) ≤ alignedOnes o (code a) := by
      split
      · exact one_le_alignedOnes (h a mem_cons_self ‹_›) o
      · exact Nat.zero_le _
    rw [flatMap_cons, alignedOnes_append, countP_cons]
    omega

end ProtoRelay
