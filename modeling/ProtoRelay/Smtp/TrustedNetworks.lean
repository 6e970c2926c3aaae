import Mathlib.Data.BitVec
import Mathlib.Data.List.TakeWhile
import ProtoRelay.Smtp.Policy

/-!
# The trusted relay networks

An entry of `trusted_relay_networks` is an address, of either family and compared as text, or an
IPv4 network `a.b.c.d/n`.  Whatever is neither of the two matches no client; in particular a
prefix length that is not a number between 0 and 32 does not turn the entry into the whole address
space.  IPv6 networks are not supported and match nothing.
-/

namespace ProtoRelay

open List

def IsDigit (b : UInt8) : Prop := 48 ≤ b ∧ b ≤ 57

instance (b : UInt8) : Decidable (IsDigit b) := inferInstanceAs (Decidable (_ ∧ _))

/-- The number a digit string continues `n` to. -/
def decimalFrom (n : Nat) (t : Bytes) : Nat := t.foldl (fun acc b => acc * 10 + (b.toNat - 48)) n

/-- The text of a number below 256, without leading zeros. -/
structure IsOctet (t : Bytes) (n : Nat) : Prop where
  ne_nil : t ≠ []
  digits : ∀ b ∈ t, IsDigit b
  lead : t.head? = some 48 → t = [48]
  value : decimalFrom 0 t = n
  le : n ≤ 255

def DottedQuad (s : Bytes) (addr : BitVec 32) : Prop :=
  ∃ a b c d m n p q, s = a ++ 46 :: (b ++ 46 :: (c ++ 46 :: d)) ∧
    IsOctet a m ∧ IsOctet b n ∧ IsOctet c p ∧ IsOctet d q ∧
    addr = BitVec.ofNat 32 (((m * 256 + n) * 256 + p) * 256 + q)

/-- The entry is an IPv4 network `base/n`, and the first `n` bits of the address are the
network's. -/
def InCidr (ip entry : Bytes) : Prop :=
  ∃ base len n b a, entry = base ++ 47 :: len ∧ 47 ∉ base ∧ len ≠ [] ∧ (∀ c ∈ len, IsDigit c) ∧
    decimalFrom 0 len = n ∧ n ≤ 32 ∧ DottedQuad base b ∧ DottedQuad ip a ∧
    ∀ i < n, b.getMsbD i = a.getMsbD i

/-! ## Reading a dotted quad -/

theorem le_decimalFrom (n : Nat) (t : Bytes) : n ≤ decimalFrom n t := by
  induction t generalizing n with
  | nil => exact Nat.le_refl n
  | cons b t ih =>
    have := ih (n * 10 + (b.toNat - 48))
    simp only [decimalFrom, foldl_cons] at this ⊢
    omega

theorem decimalFrom_cons (n : Nat) (b : UInt8) (t : Bytes) :
    decimalFrom n (b :: t) = decimalFrom (n * 10 + (b.toNat - 48)) t := by
  simp only [decimalFrom, foldl_cons]

/-- What follows the digits of an octet: the end behind the fourth one, or a dot. -/
def OctetEnd (u : Bytes) (octets r : List Nat) (n : Nat) : Prop :=
  u = [] ∧ octets.length = 3 ∧ r = n :: octets ∨
    ∃ v, u = 46 :: v ∧ octets.length < 3 ∧ inetPtonFrom v (n :: octets) 0 false = some r

theorem not_isDigit_dot : ¬IsDigit 46 := by decide

variable {ch : UInt8} {s : Bytes} {octets r : List Nat} {n : Nat}

theorem inetPtonFrom_digit (hd : IsDigit ch) (s : Bytes) (octets : List Nat) (cur : Nat)
    (saw : Bool) :
    inetPtonFrom (ch :: s) octets cur saw =
      if saw && cur == 0 then none
      else if 255 < cur * 10 + (ch.toNat - 48) then none
      else if !saw && 4 < octets.length + 1 then none
      else inetPtonFrom s octets (cur * 10 + (ch.toNat - 48)) true := by
  rw [inetPtonFrom, if_pos (show 48 ≤ ch ∧ ch ≤ 57 from hd)]

theorem inetPtonFrom_not_digit (hd : ¬IsDigit ch) (s : Bytes) (octets : List Nat) (cur : Nat)
    (saw : Bool) :
    inetPtonFrom (ch :: s) octets cur saw =
      if ch = 46 ∧ saw then
        if octets.length + 1 = 4 then none else inetPtonFrom s (cur :: octets) 0 false
      else none := by
  rw [inetPtonFrom, if_neg (show ¬(48 ≤ ch ∧ ch ≤ 57) from hd)]

/-- A digit in front of what is read belongs to the octet. -/
theorem exists_cons_digit_iff (hd : IsDigit ch) {P : Bytes → Bytes → Prop}
    (hP : ∀ t u, P t u → ∃ n, OctetEnd u octets r n) :
    (∃ t u, ch :: s = t ++ u ∧ P t u) ↔ ∃ t u, s = t ++ u ∧ P (ch :: t) u := by
  constructor
  · rintro ⟨_ | ⟨b, t⟩, u, hs, h⟩
    · obtain ⟨n, ⟨rfl, -⟩ | ⟨v, rfl, -⟩⟩ := hP _ _ h
      · cases hs
      · obtain ⟨rfl, -⟩ := List.cons.inj hs
        exact absurd hd not_isDigit_dot
    · obtain ⟨rfl, rfl⟩ := List.cons.inj hs
      exact ⟨t, u, rfl, h⟩
  · rintro ⟨t, u, rfl, h⟩
    exact ⟨ch :: t, u, rfl, h⟩

/-- Any other byte ends it. -/
theorem exists_cons_not_digit_iff (hd : ¬IsDigit ch) {P : Bytes → Bytes → Prop}
    (hP : ∀ t u, P t u → ∀ b ∈ t, IsDigit b) :
    (∃ t u, ch :: s = t ++ u ∧ P t u) ↔ P [] (ch :: s) := by
  constructor
  · rintro ⟨_ | ⟨b, t⟩, u, hs, h⟩
    · exact hs ▸ h
    · obtain ⟨rfl, -⟩ := List.cons.inj hs
      exact absurd (hP _ _ h ch mem_cons_self) hd
  · intro h
    exact ⟨[], ch :: s, rfl, h⟩

/-- **The rest of an octet**, of which digits with the value `cur` have been read. -/
theorem inetPtonFrom_true_iff {cur : Nat} (hlen : octets.length ≤ 3) (hcur : cur ≤ 255) :
    inetPtonFrom s octets cur true = some r ↔
      ∃ t u, s = t ++ u ∧ (∀ b ∈ t, IsDigit b) ∧ (t ≠ [] → cur ≠ 0) ∧ decimalFrom cur t ≤ 255 ∧
        OctetEnd u octets r (decimalFrom cur t) := by
  induction s generalizing cur with
  | nil =>
    have hlen3 : 3 ≤ octets.length ↔ octets.length = 3 := by omega
    simp [inetPtonFrom, OctetEnd, decimalFrom, hcur, hlen3, @eq_comm _ r]
  | cons ch s ih =>
    by_cases hd : IsDigit ch
    · rw [inetPtonFrom_digit hd, exists_cons_digit_iff hd fun t u h => ⟨_, h.2.2.2⟩]
      simp only [Bool.true_and, beq_iff_eq, Bool.not_true, Bool.false_and, Bool.false_eq_true,
        if_false]
      by_cases h0 : cur = 0
      · -- a digit behind a leading zero
        simp [h0]
      · rw [if_neg h0]
        by_cases hbig : 255 < cur * 10 + (ch.toNat - 48)
        · rw [if_pos hbig]
          refine iff_of_false (by simp) ?_
          rintro ⟨t, u, -, -, -, hle, -⟩
          have := le_decimalFrom (cur * 10 + (ch.toNat - 48)) t
          rw [decimalFrom_cons] at hle
          omega
        · rw [if_neg hbig, ih (by omega)]
          simp [decimalFrom_cons, hd, h0]
    · rw [inetPtonFrom_not_digit hd, exists_cons_not_digit_iff hd fun t u h => h.1]
      have hlen3 : octets.length < 3 ↔ ¬octets.length = 3 := by omega
      by_cases hdot : ch = 46
      · simp [OctetEnd, decimalFrom, hcur, hdot, hlen3]
      · simp [OctetEnd, hdot]

theorem isOctet_cons_iff {t : Bytes} (hd : IsDigit ch) :
    IsOctet (ch :: t) n ↔ (∀ b ∈ t, IsDigit b) ∧ (t ≠ [] → 0 * 10 + (ch.toNat - 48) ≠ 0) ∧
      decimalFrom (0 * 10 + (ch.toNat - 48)) t = n ∧ n ≤ 255 := by
  have hzero : 0 * 10 + (ch.toNat - 48) = 0 ↔ ch = 48 := by
    have := UInt8.le_iff_toNat_le.mp hd.1
    simp only [UInt8.reduceToNat] at this
    rw [← UInt8.toNat_inj]
    simp only [UInt8.reduceToNat]
    omega
  rw [← decimalFrom_cons]
  simp only [ne_eq, hzero]
  constructor
  · intro h
    refine ⟨(forall_mem_cons.mp h.digits).2, fun hne h48 => hne ?_, h.value, h.le⟩
    exact (List.cons.inj (h.lead (by rw [h48, head?_cons]))).2
  · rintro ⟨hdig, hlead, hval, hle⟩
    refine ⟨cons_ne_nil _ _, forall_mem_cons.mpr ⟨hd, hdig⟩, ?_, hval, hle⟩
    intro hhead
    obtain rfl := Option.some.inj hhead
    rw [not_imp_not.mp hlead rfl]

/-- **One octet** and what follows it. -/
theorem inetPtonFrom_false_iff (hlen : octets.length ≤ 3) :
    inetPtonFrom s octets 0 false = some r ↔
      ∃ t u, s = t ++ u ∧ ∃ n, IsOctet t n ∧ OctetEnd u octets r n := by
  cases s with
  | nil =>
    rw [inetPtonFrom, if_pos (by simp; omega)]
    refine iff_of_false (by simp) ?_
    rintro ⟨t, u, hs, n, ht, -⟩
    exact ht.ne_nil (append_eq_nil_iff.mp hs.symm).1
  | cons ch s =>
    by_cases hd : IsDigit ch
    · have hsmall : ch.toNat - 48 ≤ 9 := by
        have := UInt8.le_iff_toNat_le.mp hd.2
        simp only [UInt8.reduceToNat] at this
        omega
      rw [inetPtonFrom_digit hd, if_neg (by simp), if_neg (by omega), if_neg (by simp; omega),
        inetPtonFrom_true_iff hlen (by omega), exists_cons_digit_iff hd fun t u h =>
          h.imp fun n h => h.2]
      simp only [isOctet_cons_iff hd, and_assoc, exists_and_left, exists_eq_left']
    · rw [inetPtonFrom_not_digit hd, exists_cons_not_digit_iff hd fun t u h => h.elim
        fun n h => h.1.digits]
      refine iff_of_false (by simp) ?_
      rintro ⟨n, h, -⟩
      exact h.ne_nil rfl

/-- An octet that is not the last one is followed by a dot. -/
theorem OctetEnd.dot {u : Bytes} (h : OctetEnd u octets r n) (hlen : octets.length ≠ 3) :
    ∃ v, u = 46 :: v ∧ inetPtonFrom v (n :: octets) 0 false = some r := by
  rcases h with ⟨-, h3, -⟩ | ⟨v, hu, -, hv⟩
  · exact absurd h3 hlen
  · exact ⟨v, hu, hv⟩

/-- **`inet_pton` takes exactly the dotted quads.** -/
theorem inetPton_eq_some_iff (hs : (0 : UInt8) ∉ s) {addr : BitVec 32} :
    inetPton s = some addr ↔ DottedQuad s addr := by
  have htake : s.takeWhile (· != 0) = s :=
    takeWhile_eq_self_iff.mpr fun b hb => by
      have hne : b ≠ 0 := fun e => hs (e ▸ hb)
      simpa using hne
  rw [inetPton, htake, Option.map_eq_some_iff]
  constructor
  · rintro ⟨r, hr, haddr⟩
    obtain ⟨a, u, rfl, m, ha, hend⟩ := (inetPtonFrom_false_iff (by simp)).mp hr
    obtain ⟨v₁, rfl, hv₁⟩ := hend.dot (by simp)
    obtain ⟨b, u₁, rfl, n, hb, hend₁⟩ := (inetPtonFrom_false_iff (by simp)).mp hv₁
    obtain ⟨v₂, rfl, hv₂⟩ := hend₁.dot (by simp)
    obtain ⟨c, u₂, rfl, p, hc, hend₂⟩ := (inetPtonFrom_false_iff (by simp)).mp hv₂
    obtain ⟨v₃, rfl, hv₃⟩ := hend₂.dot (by simp)
    obtain ⟨d, u₃, rfl, q, hd, hend₃⟩ := (inetPtonFrom_false_iff (by simp)).mp hv₃
    rcases hend₃ with ⟨rfl, -, rfl⟩ | ⟨v, -, h3, -⟩
    · refine ⟨a, b, c, d, m, n, p, q, by simp, ha, hb, hc, hd, haddr.symm.trans ?_⟩
      simp only [foldr_cons, foldr_nil, Nat.zero_mul, Nat.zero_add]
    · simp at h3
  · rintro ⟨a, b, c, d, m, n, p, q, rfl, ha, hb, hc, hd, rfl⟩
    refine ⟨[q, p, n, m], ?_, by simp only [foldr_cons, foldr_nil, Nat.zero_mul, Nat.zero_add]⟩
    refine (inetPtonFrom_false_iff (by simp)).mpr ⟨a, _, rfl, m, ha, .inr ⟨_, rfl, by simp, ?_⟩⟩
    refine (inetPtonFrom_false_iff (by simp)).mpr ⟨b, _, rfl, n, hb, .inr ⟨_, rfl, by simp, ?_⟩⟩
    refine (inetPtonFrom_false_iff (by simp)).mpr ⟨c, _, rfl, p, hc, .inr ⟨_, rfl, by simp, ?_⟩⟩
    exact (inetPtonFrom_false_iff (by simp)).mpr ⟨d, [], by simp, q, hd, .inl ⟨rfl, rfl, rfl⟩⟩

/-! ## Matching -/

theorem parseUint_le_iff (hn : n ≤ 32) :
    parseUint s = some n ↔ s ≠ [] ∧ (∀ c ∈ s, IsDigit c) ∧ decimalFrom 0 s = n := by
  have hall : (s.all fun b => 48 ≤ b && b ≤ 57) = true ↔ ∀ c ∈ s, IsDigit c := by
    simp [IsDigit]
  change (if s ≠ [] ∧ _ then (if decimalFrom 0 s < 2 ^ 64 then some (decimalFrom 0 s) else none)
    else none) = some n ↔ _
  constructor
  · intro h
    split at h
    · rename_i hs
      split at h
      · exact ⟨hs.1, hall.mp hs.2, Option.some.inj h⟩
      · cases h
    · cases h
  · rintro ⟨hne, hdig, hv⟩
    rw [if_pos ⟨hne, hall.mpr hdig⟩, hv, if_pos (by omega)]

/-- The first `n` bits, as the mask takes them. -/
theorem and_mask_eq_iff (hn : n ≤ 32) (b a : BitVec 32) :
    (b &&& (if n = 0 then 0 else BitVec.allOnes 32 <<< (32 - n)) =
      a &&& (if n = 0 then 0 else BitVec.allOnes 32 <<< (32 - n))) ↔
      ∀ i < n, b.getMsbD i = a.getMsbD i := by
  have hmask : ∀ i < 32, (if n = 0 then (0 : BitVec 32)
      else BitVec.allOnes 32 <<< (32 - n)).getMsbD i = decide (i < n) := by
    intro i hi
    by_cases h0 : n = 0
    · simp [h0]
    · rw [if_neg h0, BitVec.getMsbD_shiftLeft, BitVec.getMsbD_allOnes, decide_eq_decide]
      omega
  constructor
  · intro h i hi
    have hbit := congrArg (BitVec.getMsbD · i) h
    simp only [BitVec.getMsbD_and, hmask i (by omega), hi, decide_true, Bool.and_true] at hbit
    exact hbit
  · intro h
    refine BitVec.eq_of_getMsbD_eq fun i hi => ?_
    rw [BitVec.getMsbD_and, BitVec.getMsbD_and, hmask i hi]
    by_cases hin : i < n
    · rw [h i hin]
    · simp [hin]

/-- **What one entry matches**: itself, and the addresses inside an IPv4 network. -/
theorem networkMatches_iff {ip entry : Bytes} (hip : (0 : UInt8) ∉ ip) (he : (0 : UInt8) ∉ entry) :
    networkMatches ip entry = true ↔ entry = ip ∨ InCidr ip entry := by
  rw [networkMatches, Bool.or_eq_true, beq_iff_eq]
  refine or_congr_right ?_
  constructor
  · intro h
    cases hslash : findByte 47 entry with
    | none => simp [hslash] at h
    | some slash =>
      obtain ⟨base, len, rfl, hbase, rfl⟩ := findByte_eq_some_iff.mp hslash
      have hlen : (base ++ 47 :: len).drop (base.length + 1) = len := by simp
      have htake : (base ++ 47 :: len).take base.length = base := by simp
      simp only [hslash, hlen, htake] at h
      cases hn : parseUint len with
      | none => simp [hn] at h
      | some n =>
        by_cases hbig : 32 < n
        · simp [hn, hbig] at h
        · cases hb : inetPton base with
          | none => simp [hn, hbig, hb] at h
          | some b =>
            cases ha : inetPton ip with
            | none => simp [hn, hbig, hb, ha] at h
            | some a =>
              obtain ⟨hne, hdig, hval⟩ := (parseUint_le_iff (by omega)).mp hn
              refine ⟨base, len, n, b, a, rfl, hbase, hne, hdig, hval, by omega,
                (inetPton_eq_some_iff fun m => he (by simp [m])).mp hb,
                (inetPton_eq_some_iff hip).mp ha, (and_mask_eq_iff (by omega) b a).mp ?_⟩
              simpa [hn, hbig, hb, ha] using h
  · rintro ⟨base, len, n, b, a, rfl, hbase, hne, hdig, hval, hle, hb, ha, hbits⟩
    have hslash : findByte 47 (base ++ 47 :: len) = some base.length :=
      findByte_append_of_not_mem hbase len
    have hlen : (base ++ 47 :: len).drop (base.length + 1) = len := by simp
    have htake : (base ++ 47 :: len).take base.length = base := by simp
    have hn := (parseUint_le_iff hle).mpr ⟨hne, hdig, hval⟩
    have hb := (inetPton_eq_some_iff fun m => he (by simp [m])).mpr hb
    have ha := (inetPton_eq_some_iff hip).mpr ha
    simpa [hslash, hlen, htake, hn, hb, ha,
      Nat.not_lt.mpr hle] using (and_mask_eq_iff hle b a).mpr hbits

/-- **The clients a list of entries trusts**: those with an entry of their own, and those inside an
IPv4 network of the list.  No other entry matches anything. -/
theorem ipInTrustedNetworks_iff {ip : Bytes} {networks : List Bytes} (hip : (0 : UInt8) ∉ ip)
    (hn : ∀ e ∈ networks, (0 : UInt8) ∉ e) : ipInTrustedNetworks ip networks = true ↔
      ip ≠ [] ∧ ∃ e ∈ networks, e = ip ∨ InCidr ip e := by
  rw [ipInTrustedNetworks, Bool.and_eq_true, any_eq_true]
  refine and_congr (by simp) ⟨?_, ?_⟩
  · rintro ⟨e, he, hm⟩
    exact ⟨e, he, (networkMatches_iff hip (hn e he)).mp hm⟩
  · rintro ⟨e, he, hm⟩
    exact ⟨e, he, (networkMatches_iff hip (hn e he)).mpr hm⟩

end ProtoRelay
