import Mathlib.Data.List.TakeWhile
import ProtoRelay.Imap.Session

/-!
# Numbers in commands

`safe_parse.h` and `std::to_string`: how the servers read and write unsigned numbers.
-/

namespace ProtoRelay

open List UInt8

def safeStoull (s : Bytes) : Nat := (ImapSession.stoull s).getD 0

/-- The value of a string of digits. -/
def numeralValue (digits : Bytes) : Nat := digits.foldl (fun acc b => acc * 10 + (b.toNat - 48)) 0

/-- A string of digits that does not begin with a zero. -/
structure IsNumeral (digits : Bytes) : Prop where
  lead : ∃ d ds, digits = d :: ds ∧ 49 ≤ d ∧ d ≤ 57
  digit : ∀ b ∈ digits, 48 ≤ b ∧ b ≤ 57

variable {digits rest : Bytes} {d n : Nat}

theorem IsNumeral.ne_nil (h : IsNumeral digits) : digits ≠ [] := by
  obtain ⟨d, ds, rfl, -⟩ := h.lead
  exact cons_ne_nil d ds

/-- A byte that stands in no numeral. -/
theorem IsNumeral.not_mem (h : IsNumeral digits) {b : UInt8} (hb : b < 48 ∨ 57 < b) :
    b ∉ digits := by
  intro hmem
  obtain ⟨hlow, hhigh⟩ := h.digit b hmem
  rw [le_iff_toNat_le] at hlow hhigh
  rw [lt_iff_toNat_lt, lt_iff_toNat_lt] at hb
  omega

/-- Digits are read up to the first byte that is none. -/
theorem stoull_digits (hne : digits ≠ []) (hdig : ∀ b ∈ digits, 48 ≤ b ∧ b ≤ 57)
    (hfits : numeralValue digits < 2 ^ 64) :
    ImapSession.stoull digits = some (numeralValue digits) := by
  obtain ⟨d, ds, rfl⟩ := exists_cons_of_ne_nil hne
  obtain ⟨hlow, hhigh⟩ := hdig d mem_cons_self
  have hd := le_iff_toNat_le.mp hlow
  have hd' := le_iff_toNat_le.mp hhigh
  simp only [UInt8.reduceToNat] at hd hd'
  -- nothing is skipped in front, there is no sign, and the digits end where the numeral does
  have hblank : (d == 32 || 9 ≤ d && d ≤ 13) = false := by
    simp only [Bool.or_eq_false_iff, beq_eq_false_iff_ne, ne_eq, Bool.and_eq_false_iff,
      decide_eq_false_iff_not, UInt8.le_iff_toNat_le, UInt8.reduceToNat, ← UInt8.toNat_inj]
    omega
  have hsign : ¬(d = 45 ∨ d = 43) := by
    simp only [← UInt8.toNat_inj, UInt8.reduceToNat]
    omega
  have hall : (d :: ds).takeWhile (fun b => 48 ≤ b && b ≤ 57) = d :: ds :=
    takeWhile_eq_self_iff.mpr fun b hb => by simpa using hdig b hb
  have hminus : d ≠ 45 := fun e => hsign (.inl e)
  unfold ImapSession.stoull
  rw [dropWhile_cons_of_neg (by simp [hblank])]
  simp only [head?_cons, Option.some.injEq, if_neg hsign, hall, reduceCtorEq, false_or,
    if_neg hminus]
  exact if_neg (Nat.not_le.mpr hfits)

/-- **A numeral that fits in 64 bits is read as its value.** -/
theorem safeStoull_of_isNumeral (h : IsNumeral digits) (hfits : numeralValue digits < 2 ^ 64) :
    safeStoull digits = numeralValue digits := by
  rw [safeStoull, stoull_digits h.ne_nil h.digit hfits, Option.getD_some]

/-! ## Writing numbers -/

theorem bytes_ofList (l : List Char) :
    bytes (String.ofList l) = l.flatMap String.utf8EncodeChar := by
  change ((String.ofList l).toByteArray).data.toList = _
  rw [String.toByteArray_ofList]
  unfold List.utf8Encode
  rw [data_toByteArray]

theorem utf8EncodeChar_digitChar (h : d < 10) :
    String.utf8EncodeChar d.digitChar = [UInt8.ofNat (48 + d)] := by
  have hall : ∀ d < 10, String.utf8EncodeChar (Nat.digitChar d) = [UInt8.ofNat (48 + d)] := by
    decide
  exact hall d h

theorem decimal_of_lt (h : n < 10) : decimal n = [UInt8.ofNat (48 + n)] := by
  change bytes (String.ofList (Nat.toDigits 10 n)) = _
  rw [bytes_ofList, Nat.toDigits_of_lt_base h, flatMap_singleton, utf8EncodeChar_digitChar h]

theorem decimal_of_le (h : 10 ≤ n) :
    decimal n = decimal (n / 10) ++ [UInt8.ofNat (48 + n % 10)] := by
  change bytes (String.ofList (Nat.toDigits 10 n)) =
    bytes (String.ofList (Nat.toDigits 10 (n / 10))) ++ _
  rw [bytes_ofList, bytes_ofList, Nat.toDigits_eq_if (by decide), if_neg (by omega),
    flatMap_append, flatMap_singleton, utf8EncodeChar_digitChar (Nat.mod_lt n (by decide))]

theorem toNat_digit (h : d < 10) : (UInt8.ofNat (48 + d)).toNat = 48 + d := by
  rw [toNat_ofNat']
  omega

theorem numeralValue_snoc (digits : Bytes) (h : d < 10) :
    numeralValue (digits ++ [UInt8.ofNat (48 + d)]) = numeralValue digits * 10 + d := by
  unfold numeralValue
  rw [foldl_append, foldl_cons, foldl_nil, toNat_digit h, Nat.add_sub_cancel_left]

/-- **A number is written as a numeral of that value.** -/
theorem isNumeral_decimal (h : 1 ≤ n) : IsNumeral (decimal n) ∧ numeralValue (decimal n) = n := by
  induction n using Nat.strongRecOn with
  | ind n ih =>
    by_cases hlt : n < 10
    · rw [decimal_of_lt hlt]
      have hdig := toNat_digit hlt
      refine ⟨⟨⟨_, [], rfl, ?_, ?_⟩, ?_⟩, ?_⟩
      · rw [le_iff_toNat_le, hdig]
        change 49 ≤ 48 + n
        omega
      · rw [le_iff_toNat_le, hdig]
        change 48 + n ≤ 57
        omega
      · intro b hb
        rw [mem_singleton.mp hb, le_iff_toNat_le, le_iff_toNat_le, hdig]
        change 48 ≤ 48 + n ∧ 48 + n ≤ 57
        omega
      · exact (numeralValue_snoc [] hlt).trans (Nat.zero_mul 10 ▸ Nat.zero_add n)
    · have hmod : n % 10 < 10 := Nat.mod_lt n (by decide)
      obtain ⟨hf, hval⟩ := ih (n / 10) (by omega) (by omega)
      rw [decimal_of_le (by omega)]
      obtain ⟨d, ds, hdigits, hlow, hhigh⟩ := hf.lead
      refine ⟨⟨⟨d, ds ++ [UInt8.ofNat (48 + n % 10)], by rw [hdigits]; rfl, hlow, hhigh⟩, ?_⟩, ?_⟩
      · intro b hb
        rcases mem_append.mp hb with hb | hb
        · exact hf.digit b hb
        · rw [mem_singleton.mp hb, le_iff_toNat_le, le_iff_toNat_le, toNat_digit hmod]
          change 48 ≤ 48 + n % 10 ∧ 48 + n % 10 ≤ 57
          omega
      · rw [numeralValue_snoc _ hmod]
        omega

end ProtoRelay
