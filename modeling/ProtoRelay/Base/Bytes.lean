import Mathlib.Algebra.Group.Int.Defs
import Mathlib.Algebra.GroupWithZero.Nat
import Mathlib.Data.List.Infix

/-!
# Byte strings

The programs verified here work on `std::string`, a sequence of bytes with no encoding attached.
This module fixes `Bytes` as the list of those bytes and gives the operations of the C++ standard
library the programs use, on that list: `find`, `rfind`, `substr`, ASCII case mapping and trimming.
`std::string::npos` is `none`.

## Main results

* `findByte_eq_some_iff`: the position found splits the string at the first occurrence
* `toLower_toLower`: case folding is idempotent
-/

namespace ProtoRelay

/-- A `std::string`: its bytes, in order. -/
abbrev Bytes := List UInt8

/-- A string literal of the source, as the bytes the compiler stores for it (UTF-8). -/
def bytes (s : String) : Bytes := s.toUTF8.data.toList

/-- `std::to_string` of an unsigned number. -/
def decimal (n : Nat) : Bytes := bytes (toString n)

/-- What holds for the 256 bytes holds for all bytes. -/
theorem forall_byte {p : UInt8 → Prop} (h : ∀ n < 256, p (UInt8.ofNat n)) (b : UInt8) : p b := by
  have hb := h b.toNat b.toNat_lt
  rwa [UInt8.ofNat_toNat] at hb

/-! ## Searching -/

/-- `s.find(c)`. -/
def findByte (c : UInt8) (s : Bytes) : Option Nat := s.findIdx? (· == c)

/-- `s.find(c, pos)`. -/
def findByteFrom (c : UInt8) (pos : Nat) (s : Bytes) : Option Nat :=
  (findByte c (s.drop pos)).map (· + pos)

/-- `s.rfind(c)`. -/
def rfindByte (c : UInt8) (s : Bytes) : Option Nat :=
  (findByte c s.reverse).map fun i => s.length - 1 - i

@[simp] theorem findByte_nil (c : UInt8) : findByte c [] = none := rfl

theorem findByte_cons (c b : UInt8) (s : Bytes) :
    findByte c (b :: s) = if b = c then some 0 else (findByte c s).map (· + 1) := by
  simp [findByte, List.findIdx?_cons]

variable {c : UInt8} {s : Bytes}

theorem findByte_append_of_not_mem {a : Bytes} (h : c ∉ a) (b : Bytes) :
    findByte c (a ++ c :: b) = some a.length := by
  induction a with
  | nil => simp [findByte_cons]
  | cons x a ih =>
    have hx : x ≠ c := fun e => h (by simp [e])
    have ha : c ∉ a := fun m => h (by simp [m])
    simp [findByte_cons, hx, ih ha]

/-- A string is split at the first occurrence of a byte in one way only. -/
theorem split_at_first_inj {a a' b b' : Bytes} (ha : c ∉ a) (ha' : c ∉ a')
    (h : a ++ c :: b = a' ++ c :: b') : a = a' ∧ b = b' := by
  have hpos := findByte_append_of_not_mem ha b
  rw [h, findByte_append_of_not_mem ha' b'] at hpos
  obtain ⟨rfl, hb⟩ := List.append_inj h (Option.some.inj hpos).symm
  exact ⟨rfl, (List.cons.inj hb).2⟩

@[simp] theorem findByte_eq_none_iff : findByte c s = none ↔ c ∉ s := by
  simp only [findByte, List.findIdx?_eq_none_iff, beq_eq_false_iff_ne, ne_eq]
  exact ⟨fun h m => h c m rfl, fun h x hx e => h (e ▸ hx)⟩

/-- **The position `find` returns splits the string at the first occurrence.** -/
theorem findByte_eq_some_iff {i : Nat} :
    findByte c s = some i ↔ ∃ a b, s = a ++ c :: b ∧ c ∉ a ∧ a.length = i := by
  constructor
  · intro h
    induction s generalizing i with
    | nil => simp at h
    | cons x s ih =>
      rw [findByte_cons] at h
      by_cases hx : x = c
      · simp only [hx, if_true, Option.some.injEq] at h
        exact ⟨[], s, by simp [hx], by simp, by simp [h]⟩
      · simp only [hx, if_false, Option.map_eq_some_iff] at h
        obtain ⟨j, hj, rfl⟩ := h
        obtain ⟨a, b, rfl, ha, hl⟩ := ih hj
        exact ⟨x :: a, b, rfl, by simp [ha, Ne.symm hx], by simp [hl]⟩
  · rintro ⟨a, b, rfl, ha, rfl⟩
    exact findByte_append_of_not_mem ha b

theorem rfindByte_append_of_not_mem {b : Bytes} (h : c ∉ b) (a : Bytes) :
    rfindByte c (a ++ c :: b) = some a.length := by
  have hr : (a ++ c :: b).reverse = b.reverse ++ c :: a.reverse := by simp
  rw [rfindByte, hr, findByte_append_of_not_mem (by simpa using h)]
  simp

/-- The pieces `std::getline(…, delim)` reads: without an empty last one. -/
def pieces (delim : UInt8) : Bytes → List Bytes
  | [] => []
  | b :: s =>
    if b = delim then [] :: pieces delim s
    else
      match pieces delim s with
      | [] => [[b]]
      | p :: ps => (b :: p) :: ps

theorem pieces_append_delim {delim : UInt8} {a : Bytes} (h : delim ∉ a) (s : Bytes) :
    pieces delim (a ++ delim :: s) = a :: pieces delim s := by
  induction a with
  | nil => simp [pieces]
  | cons b a ih =>
    rw [List.mem_cons, not_or] at h
    rw [List.cons_append, pieces, if_neg (Ne.symm h.1), ih h.2]

theorem pieces_of_not_mem {delim : UInt8} {a : Bytes} (h : delim ∉ a) (hne : a ≠ []) :
    pieces delim a = [a] := by
  induction a with
  | nil => exact absurd rfl hne
  | cons b a ih =>
    rw [List.mem_cons, not_or] at h
    rw [pieces, if_neg (Ne.symm h.1)]
    cases a with
    | nil => rfl
    | cons c a => rw [ih h.2 (List.cons_ne_nil c a)]

/-! ## Case mapping -/

/-- `std::tolower` on one byte, in the "C" locale the servers run in. -/
def lowerByte (b : UInt8) : UInt8 := if 65 ≤ b ∧ b ≤ 90 then b + 32 else b

/-- `std::toupper` on one byte, in the "C" locale. -/
def upperByte (b : UInt8) : UInt8 := if 97 ≤ b ∧ b ≤ 122 then b - 32 else b

def toLower (s : Bytes) : Bytes := s.map lowerByte

def toUpper (s : Bytes) : Bytes := s.map upperByte

theorem lowerByte_lowerByte (b : UInt8) : lowerByte (lowerByte b) = lowerByte b := by
  by_cases h : 65 ≤ b ∧ b ≤ 90
  · have hup : ¬(65 ≤ b + 32 ∧ b + 32 ≤ 90) := by
      simp only [UInt8.le_iff_toNat_le, UInt8.toNat_add, UInt8.reduceToNat] at h ⊢
      omega
    simp [lowerByte, h, hup]
  · simp [lowerByte, h]

@[simp] theorem toLower_toLower (s : Bytes) : toLower (toLower s) = toLower s := by
  simp [toLower, lowerByte_lowerByte]

@[simp] theorem toLower_nil : toLower [] = [] := rfl

@[simp] theorem toLower_eq_nil_iff : toLower s = [] ↔ s = [] := by
  simp [toLower]

/-! ## Trimming -/

/-- Drop the bytes satisfying `p` at both ends. -/
def trimBy (p : UInt8 → Bool) (s : Bytes) : Bytes := ((s.dropWhile p).reverse.dropWhile p).reverse

/-- The set `" \t\r\n"` of `algorithm::trim`. -/
def isSpace (b : UInt8) : Bool := b == 32 || b == 9 || b == 13 || b == 10

def trim (s : Bytes) : Bytes := trimBy isSpace s

end ProtoRelay
