import ProtoRelay.Client.Session

/-!
# Reading replies

A reply is a sequence of lines that begin with one code, the last with a blank or nothing behind it
and the others with a hyphen.  The loop of `read_reply` takes such a sequence from the front of the
bytes received, however they were cut into pieces.
-/

namespace ProtoRelay

def codeText (code : Nat) : Bytes :=
  [UInt8.ofNat (48 + code / 100), UInt8.ofNat (48 + code / 10 % 10), UInt8.ofNat (48 + code % 10)]

example : codeText 250 = bytes "250" := by decide

structure InnerLine (code : Nat) (line : Bytes) : Prop where
  code : codeText code ++ [45] <+: line
  noBreak : (splitSep 13 10 line).1 = []

structure LastLine (code : Nat) (line : Bytes) : Prop where
  code : line = codeText code ∨ codeText code ++ [32] <+: line
  noBreak : (splitSep 13 10 line).1 = []

/-- **A complete reply with this code**: lines that end in CRLF. -/
def IsReply (code : Nat) (raw : Bytes) : Prop :=
  ∃ lines last, raw = joinSep 13 10 (lines ++ [last]) [] ∧ (∀ line ∈ lines, InnerLine code line) ∧
    LastLine code last

/-- The lines that were read are the beginning of a reply; without lines there is no code. -/
def PartialReply (reply : ReplyState) : Prop :=
  ∃ lines, reply.raw = joinSep 13 10 lines [] ∧ (∀ line ∈ lines, InnerLine reply.code line) ∧
    (reply.code = 0 → lines = [])

theorem partialReply_empty : PartialReply {} :=
  ⟨[], rfl, fun _ h => absurd h List.not_mem_nil, fun _ => rfl⟩

/-! ## Lines -/

theorem isDigit_iff {b : UInt8} : isDigit b = true ↔ 48 ≤ b.toNat ∧ b.toNat ≤ 57 := by
  simp [isDigit, UInt8.le_iff_toNat_le]

theorem ofNat_eq_of_toNat {b : UInt8} {n : Nat} (h : n = b.toNat) : UInt8.ofNat n = b := by
  rw [h, UInt8.ofNat_toNat]

/-- The digits of the code a line gives are its first three bytes. -/
theorem codeText_eq {d₀ d₁ d₂ : UInt8} (h₀ : 48 ≤ d₀.toNat ∧ d₀.toNat ≤ 57)
    (h₁ : 48 ≤ d₁.toNat ∧ d₁.toNat ≤ 57) (h₂ : 48 ≤ d₂.toNat ∧ d₂.toNat ≤ 57) :
    codeText ((d₀.toNat - 48) * 100 + (d₁.toNat - 48) * 10 + (d₂.toNat - 48)) = [d₀, d₁, d₂] := by
  have e₀ : 48 + ((d₀.toNat - 48) * 100 + (d₁.toNat - 48) * 10 + (d₂.toNat - 48)) / 100 =
      d₀.toNat := by
    omega
  have e₁ : 48 + ((d₀.toNat - 48) * 100 + (d₁.toNat - 48) * 10 + (d₂.toNat - 48)) / 10 % 10 =
      d₁.toNat := by omega
  have e₂ : 48 + ((d₀.toNat - 48) * 100 + (d₁.toNat - 48) * 10 + (d₂.toNat - 48)) % 10 =
      d₂.toNat := by
    omega
  rw [codeText, ofNat_eq_of_toNat e₀, ofNat_eq_of_toNat e₁, ofNat_eq_of_toNat e₂]

/-- **The lines that are accepted**: a code that is not zero, and behind it a hyphen, or a blank or
nothing. -/
theorem replyLine_eq_some {line : Bytes} {code : Nat} {isLast : Bool}
    (h : replyLine line = some (code, isLast)) :
    code ≠ 0 ∧ (isLast = false → codeText code ++ [45] <+: line) ∧
      (isLast = true → line = codeText code ∨ codeText code ++ [32] <+: line) := by
  match line with
  | [] | [_] | [_, _] => cases h
  | d₀ :: d₁ :: d₂ :: rest =>
    simp only [replyLine] at h
    split_ifs at h with hline
    simp only [Bool.and_eq_true, decide_eq_true_eq, UInt8.le_iff_toNat_le, isDigit_iff] at hline
    obtain ⟨⟨⟨⟨hlow, hhigh⟩, h₁⟩, h₂⟩, hrest⟩ := hline
    have hlow' : 50 ≤ d₀.toNat := hlow
    have hhigh' : d₀.toNat ≤ 53 := hhigh
    obtain ⟨rfl, rfl⟩ := Prod.mk.inj (Option.some.inj h)
    rw [codeText_eq ⟨by omega, by omega⟩ h₁ h₂]
    refine ⟨by omega, fun hlast => ?_, fun hlast => ?_⟩
    · have hhead : rest.head? = some 45 := by simpa using hlast
      obtain ⟨text, rfl⟩ := List.head?_eq_some_iff.mp hhead
      exact ⟨text, rfl⟩
    · -- the third possibility is the hyphen
      have hhead : rest.head? ≠ some 45 := by simpa using hlast
      cases rest with
      | nil => exact .inl rfl
      | cons b text =>
        have hb : b = 32 ∨ b = 45 := by simpa using hrest
        rcases hb with rfl | rfl
        · exact .inr ⟨text, rfl⟩
        · exact absurd rfl hhead

/-! ## The loop -/

section

variable {reply : ReplyState} {code : Nat}

/-- The lines so far have the code of the next one, if that is accepted. -/
theorem PartialReply.exists_lines (h : PartialReply reply)
    (hsame : ¬(reply.code ≠ 0 ∧ reply.code ≠ code)) :
    ∃ lines, reply.raw = joinSep 13 10 lines [] ∧ ∀ line ∈ lines, InnerLine code line := by
  obtain ⟨lines, hraw, hlines, hzero⟩ := h
  refine ⟨lines, hraw, fun line hline => ?_⟩
  by_cases h0 : reply.code = 0
  · rw [hzero h0] at hline
    cases hline
  · have hcode : reply.code = code := by
      by_contra hne
      exact hsame ⟨h0, hne⟩
    exact hcode ▸ hlines line hline

theorem PartialReply.line {line : Bytes} (h : PartialReply reply) (hline : InnerLine code line)
    (hcode : code ≠ 0) (hsame : ¬(reply.code ≠ 0 ∧ reply.code ≠ code)) (texts : List Bytes)
    (size : Nat) :
    PartialReply { lines := texts, code, size, raw := reply.raw ++ line ++ [13, 10] } := by
  obtain ⟨lines, hraw, hlines⟩ := h.exists_lines hsame
  refine ⟨lines ++ [line], by simp [hraw, joinSep], fun l hl => ?_, fun h0 => absurd h0 hcode⟩
  rcases List.mem_append.mp hl with hl | hl
  · exact hlines l hl
  · rw [List.mem_singleton.mp hl]
    exact hline

theorem PartialReply.complete {line : Bytes} (h : PartialReply reply) (hline : LastLine code line)
    (hsame : ¬(reply.code ≠ 0 ∧ reply.code ≠ code)) :
    IsReply code (reply.raw ++ line ++ [13, 10]) := by
  obtain ⟨lines, hraw, hlines⟩ := h.exists_lines hsame
  exact ⟨lines, line, by simp [hraw, joinSep], hlines, hline⟩

/-- What the loop makes of `buffer`, behind the bytes `raw` of the reply. -/
def ReplyRead.Spec (raw buffer : Bytes) : ReplyRead × Bytes → Prop
  | (.more reply, rest) => PartialReply reply ∧ reply.raw ++ rest = raw ++ buffer
  | (.failed _ _, _) => True
  | (.complete reply, rest) => IsReply reply.code reply.raw ∧ reply.raw ++ rest = raw ++ buffer

/-- **The loop of `read_reply`** splits what was received into the reply, or what there is of it,
and the rest. -/
theorem readReplyLines_spec {carry : Bytes} {lines : List Bytes}
    (hlines : ∀ l ∈ lines, (splitSep 13 10 l).1 = []) (h : PartialReply reply) :
    ReplyRead.Spec reply.raw (joinSep 13 10 lines carry) (readReplyLines carry lines reply) := by
  induction lines generalizing reply with
  | nil =>
    unfold readReplyLines
    split
    · trivial
    · exact ⟨h, rfl⟩
  | cons line lines ih =>
    unfold readReplyLines
    have hbreak := hlines line List.mem_cons_self
    split
    · trivial
    · rename_i code isLast hline
      obtain ⟨hcode, hinner, hlast⟩ := replyLine_eq_some hline
      dsimp only
      split_ifs with hsize hsame hend
      · trivial
      · trivial
      · refine ⟨h.complete ⟨hlast hend, hbreak⟩ hsame, ?_⟩
        simp [joinSep_cons]
      · -- the line belongs to the reply, and the loop goes on
        have hnext := ih (fun l hl => hlines l (.tail _ hl))
          (h.line ⟨hinner (Bool.eq_false_iff.mpr hend), hbreak⟩ hcode hsame
            (reply.lines ++ [line.drop 4]) (reply.size + (line.length + 2)))
        have hjoin : reply.raw ++ joinSep 13 10 (line :: lines) carry =
            reply.raw ++ line ++ [13, 10] ++ joinSep 13 10 lines carry := by simp [joinSep_cons]
        generalize readReplyLines carry lines _ = r at hnext
        match r, hnext with
        | (.more _, _), ⟨hp, hraw⟩ => exact ⟨hp, hraw.trans hjoin.symm⟩
        | (.failed _ _, _), _ => trivial
        | (.complete _, _), ⟨hp, hraw⟩ => exact ⟨hp, hraw.trans hjoin.symm⟩

end

end ProtoRelay
