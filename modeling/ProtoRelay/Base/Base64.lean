import ProtoRelay.Base.Bytes

/-!
# Base64

The encoder of the crypto library, `EVP_EncodeBlock`: groups of three bytes become four digits, with
padding and without line breaks.

## Main definitions

* `base64Digit`, `base64`

## Main results

* `isBase64_of_mem_base64`: the alphabet of the output
-/

namespace ProtoRelay

def base64Digit (n : Nat) : UInt8 :=
  if n < 26 then UInt8.ofNat (65 + n)
  else if n < 52 then UInt8.ofNat (97 + (n - 26))
  else if n < 62 then UInt8.ofNat (48 + (n - 52))
  else if n = 62 then 43
  else 47

/-- `EVP_EncodeBlock`. -/
def base64 : Bytes → Bytes
  | a :: b :: c :: rest =>
    base64Digit (a.toNat / 4) :: base64Digit (a.toNat % 4 * 16 + b.toNat / 16) ::
      base64Digit (b.toNat % 16 * 4 + c.toNat / 64) :: base64Digit (c.toNat % 64) :: base64 rest
  | [a, b] =>
    [base64Digit (a.toNat / 4), base64Digit (a.toNat % 4 * 16 + b.toNat / 16),
      base64Digit (b.toNat % 16 * 4), 61]
  | [a] => [base64Digit (a.toNat / 4), base64Digit (a.toNat % 4 * 16), 61, 61]
  | [] => []

example : base64 (bytes "any carnal pleas") = bytes "YW55IGNhcm5hbCBwbGVhcw==" := by decide

/-- The alphabet: letters, digits, `+`, `/` and the padding. -/
def isBase64 (b : UInt8) : Bool :=
  (65 ≤ b && b ≤ 90) || (97 ≤ b && b ≤ 122) || (48 ≤ b && b ≤ 57) || b == 43 || b == 47 || b == 61

theorem isBase64_base64Digit (n : Nat) : isBase64 (base64Digit n) = true := by
  by_cases h : n < 63
  · -- the digits of the values in range are checked one by one
    have hall : ∀ i : Fin 63, isBase64 (base64Digit i) = true := by decide
    exact hall ⟨n, h⟩
  · have hdig : base64Digit n = 47 := by
      unfold base64Digit
      split_ifs <;> first | omega | rfl
    rw [hdig]
    decide

theorem isBase64_of_mem_base64 {s : Bytes} {b : UInt8} (h : b ∈ base64 s) : isBase64 b = true := by
  induction s using base64.induct with
  | case1 x y z rest ih =>
    simp only [base64, List.mem_cons] at h
    rcases h with rfl | rfl | rfl | rfl | h
    case inr.inr.inr.inr => exact ih h
    all_goals exact isBase64_base64Digit _
  | case2 x y =>
    simp only [base64, List.mem_cons, List.not_mem_nil, or_false] at h
    rcases h with rfl | rfl | rfl | rfl
    case inr.inr.inr => decide
    all_goals exact isBase64_base64Digit _
  | case3 x =>
    simp only [base64, List.mem_cons, List.not_mem_nil, or_false] at h
    rcases h with rfl | rfl | rfl | rfl
    · exact isBase64_base64Digit _
    · exact isBase64_base64Digit _
    all_goals decide
  | case4 => cases h

end ProtoRelay
