import ProtoRelay.Base.Bytes

/-!
# Big-endian words

Numbers of a fixed count of bytes, the most significant one first, written in front of other bytes
and taken from there again.

## Main definitions

* `Word w`: a number of `w` bytes
* `putWord`, `takeWord`: writing and taking a word

## Main results

* `takeWord_eq_some_iff`: a word is taken from what begins with it
-/

namespace ProtoRelay

abbrev Word (w : Nat) := BitVec (8 * w)

/-- The last `w` bytes of a number. -/
def putNat : Nat → Nat → Bytes
  | 0, _ => []
  | w + 1, n => putNat w (n / 256) ++ [UInt8.ofNat n]

/-- The number that is written in some bytes. -/
def getNat (s : Bytes) : Nat := s.foldl (fun n b => n * 256 + b.toNat) 0

theorem getNat_snoc (s : Bytes) (b : UInt8) : getNat (s ++ [b]) = getNat s * 256 + b.toNat := by
  simp [getNat]

theorem length_putNat (w n : Nat) : (putNat w n).length = w := by
  induction w generalizing n with
  | zero => rfl
  | succ w ih => simp [putNat, ih]

theorem getNat_putNat (w n : Nat) : getNat (putNat w n) = n % 2 ^ (8 * w) := by
  induction w generalizing n with
  | zero => simp [putNat, getNat, Nat.mod_one]
  | succ w ih =>
    have hpow : 2 ^ (8 * (w + 1)) = 256 * 2 ^ (8 * w) := by
      rw [Nat.mul_add, Nat.pow_add]
      omega
    rw [putNat, getNat_snoc, ih, hpow, Nat.mod_mul, UInt8.toNat_ofNat']
    omega

theorem putNat_getNat (s : Bytes) : putNat s.length (getNat s) = s := by
  induction s using List.reverseRecOn with
  | nil => rfl
  | append_singleton s b ih =>
    have hb := b.toNat_lt
    have hdiv : (getNat s * 256 + b.toNat) / 256 = getNat s := by omega
    have hlast : UInt8.ofNat (getNat s * 256 + b.toNat) = b := by
      apply UInt8.toNat_inj.mp
      rw [UInt8.toNat_ofNat']
      omega
    rw [List.length_append, List.length_singleton, getNat_snoc, putNat, hdiv, ih, hlast]

variable {w : Nat}

def putWord (v : Word w) : Bytes := putNat w v.toNat

/-- The word at the beginning, and what follows it. -/
def takeWord (w : Nat) (s : Bytes) : Option (Word w × Bytes) :=
  if s.length < w then none else some (.ofNat _ (getNat (s.take w)), s.drop w)

@[simp] theorem length_putWord (v : Word w) : (putWord v).length = w := length_putNat w _

@[simp] theorem takeWord_putWord (v : Word w) (rest : Bytes) :
    takeWord w (putWord v ++ rest) = some (v, rest) := by
  have hword : BitVec.ofNat (8 * w) (getNat (putWord v)) = v := by
    apply BitVec.eq_of_toNat_eq
    rw [BitVec.toNat_ofNat, putWord, getNat_putNat, Nat.mod_mod, Nat.mod_eq_of_lt v.isLt]
  rw [takeWord, if_neg (by simp), List.take_left' (length_putWord v),
    List.drop_left' (length_putWord v),
    hword]

/-- **A word is taken** from what begins with it. -/
theorem takeWord_eq_some_iff {s rest : Bytes} {v : Word w} :
    takeWord w s = some (v, rest) ↔ s = putWord v ++ rest := by
  constructor
  · intro h
    rw [takeWord] at h
    split at h
    · cases h
    · rename_i hlen
      have hlength : (s.take w).length = w := List.length_take_of_le (Nat.not_lt.mp hlen)
      have hput := putNat_getNat (s.take w)
      have hlt : getNat (s.take w) < 2 ^ (8 * w) := by
        rw [← hput, hlength, getNat_putNat]
        exact Nat.mod_lt _ (Nat.two_pow_pos _)
      rw [hlength] at hput
      obtain ⟨rfl, rfl⟩ := Prod.mk.inj (Option.some.inj h)
      rw [putWord, BitVec.toNat_ofNat, Nat.mod_eq_of_lt hlt, hput, List.take_append_drop]
  · rintro rfl
    exact takeWord_putWord v rest

end ProtoRelay
