import ProtoRelay.Base.Logs
import ProtoRelay.Pop3.Session

/-!
# Message numbers

In RFC 1939 a maildrop is numbered once: number `n` is the `n`-th message of the session's snapshot,
and a mark makes a number unusable without changing the others.  The handlers of the server count
the messages that are not marked instead.  The two readings of numbers agree as long as messages are
deleted from the end of the snapshot, and they part at the first DELE that is not.
-/

namespace ProtoRelay

open List Pop3Context Finset

/-! ## The maildrop of RFC 1939 -/

/-- A maildrop: the messages of a snapshot, and the numbers that are marked as deleted. -/
structure Maildrop where
  snapshot : List Pop3Message
  marked : Finset Nat

namespace Maildrop

variable (d : Maildrop)

/-- The message with the number `n`, unless it is marked. -/
def message (n : Nat) : Option Pop3Message :=
  if n = 0 ∨ n ∈ d.marked then none else d.snapshot[n - 1]?

/-- The messages that are not marked, with their numbers. -/
def entries : List (Nat × Pop3Message) :=
  ((d.snapshot.zipIdx 1).map Prod.swap).filter fun e => e.1 ∉ d.marked

/-- The mail with the id `id` has a number that is marked. -/
def Marks (id : Nat) : Prop :=
  ∃ n ∈ d.marked, ∃ m, d.snapshot[n - 1]? = some m ∧ m.mailId = id

/-- The command was answered as the numbers of the maildrop have it: one that is marked or that
there is not gets `-ERR no such message`, any other is about its message. -/
def Answers (a : Pop3Answer) : Prop :=
  let n := safeStoull a.args
  match a.event with
  | .stat => a.reply = pop3Line (statReply d.entries)
  | .list =>
    a.reply = pop3Line (if a.args ≠ [] then listReply n (d.message n) else listAllReply d.entries)
  | .uidl =>
    a.reply = pop3Line (if a.args ≠ [] then uidlReply n (d.message n) else uidlAllReply d.entries)
  | .retr =>
    if a.args = [] then a.reply = pop3Line (bytes "-ERR RETR requires a message number")
    else
      match d.message n with
      | none => a.reply = pop3Line noSuchMessage
      | some m => ∃ body, a.reply = pop3Line (retrReply m body)
  | .dele =>
    a.reply = pop3Line (if a.args = [] then bytes "-ERR DELE requires a message number"
      else deleReply n (d.message n))
  | _ => True

end Maildrop

def Pop3Answer.isOk (a : Pop3Answer) : Bool := (bytes "+OK").isPrefixOf a.reply

/-- The numbers named by the successful DELE commands since the last RSET. -/
def markedSince : List Pop3Answer → Finset Nat
  | [] => ∅
  | a :: log =>
    match a.event with
    | .rset => ∅
    | .dele => if a.isOk then insert (safeStoull a.args) (markedSince log) else markedSince log
    | _ => markedSince log

/-- What QUIT was asked to delete. -/
def Pop3Pending.request : Pop3Pending → Option Pop3DeletionRequest
  | .lease r _ | .mark r _ | .remove r _ | .release r _ _ => some r
  | _ => none

namespace Pop3Session

/-- **Message numbers are fixed**: numbers denote the messages of the snapshot, every command was
answered accordingly, and the mails to be deleted are those whose numbers are marked. -/
structure NumbersFixed (snapshot : List Pop3Message) (s : Pop3Session) : Prop where
  message : ∀ n, s.ctx.message n = (Maildrop.mk snapshot (markedSince s.log)).message n
  answers : Grounded (fun a earlier => (Maildrop.mk snapshot (markedSince earlier)).Answers a) s.log
  deleted : ∀ id, id ∈ s.ctx.deleted ↔ (Maildrop.mk snapshot (markedSince s.log)).Marks id
  request : ∀ p r, s.pending = some p → p.request = some r →
    ∀ id, id ∈ r.mailIds ↔ (Maildrop.mk snapshot (markedSince s.log)).Marks id

def Ready (s : Pop3Session) : Prop := s.closed = false ∧ s.pending = none

/-- A DELE that finds a message is for the last one that is left, and no other message left is the
same mail. -/
def DeletesLast (s : Pop3Session) : Input → Prop
  | .command data _ =>
    s.Ready → (parsePop3Command data).1 = .dele →
      ∀ m, s.ctx.message (safeStoull (parsePop3Command data).2) = some m →
        safeStoull (parsePop3Command data).2 = s.ctx.remaining.length ∧
          m.mailId ∉ s.ctx.remaining.dropLast.map (·.mailId)
  | _ => True

/-! ## Logs of answers -/

section

variable {a : Pop3Answer} {log : List Pop3Answer}

theorem isPrefix_pop3Line {p text : Bytes} (h : p <+: text) : p <+: pop3Line text := by
  unfold pop3Line
  split
  · exact h
  · exact h.trans (prefix_append text _)

theorem isOk_deleReply (args : Bytes) (n : Nat) (m : Pop3Message) :
    Pop3Answer.isOk ⟨.dele, args, pop3Line (deleReply n (some m))⟩ = true := by
  rw [Pop3Answer.isOk, List.isPrefixOf_iff_prefix]
  apply isPrefix_pop3Line
  have htext : bytes "+OK message " = bytes "+OK" ++ bytes " message " := by decide
  exact prefix_append _ _

theorem isOk_dele_error {text : Bytes}
    (h : text = noSuchMessage ∨ text = bytes "-ERR DELE requires a message number") (args : Bytes) :
    Pop3Answer.isOk ⟨.dele, args, pop3Line text⟩ = false := by
  change (bytes "+OK").isPrefixOf (pop3Line text) = false
  rcases h with rfl | rfl
  · decide
  · decide

theorem markedSince_cons_of_ne (hrset : a.event ≠ .rset) (hdele : a.event ≠ .dele) :
    markedSince (a :: log) = markedSince log := by
  rw [markedSince]
  split
  · exact absurd ‹_› hrset
  · exact absurd ‹_› hdele
  · rfl

theorem markedSince_cons_rset (h : a.event = .rset) : markedSince (a :: log) = ∅ := by
  simp [markedSince, h]

theorem markedSince_cons_dele (h : a.event = .dele) (hok : a.isOk = true) :
    markedSince (a :: log) = insert (safeStoull a.args) (markedSince log) := by
  simp [markedSince, h, hok]

theorem markedSince_cons_dele_failed (h : a.event = .dele) (hok : a.isOk = false) :
    markedSince (a :: log) = markedSince log := by
  simp [markedSince, h, hok]

end

/-! ## Snapshots with messages deleted from their end -/

/-- The messages left are the first `left` of the snapshot, and the numbers behind them are
marked. -/
structure FrontLeft (snapshot : List Pop3Message) (ctx : Pop3Context) (marked : Finset Nat)
    (left : Nat) : Prop where
  messages : ctx.messages = snapshot
  le : left ≤ snapshot.length
  remaining : ctx.remaining = snapshot.take left
  marked : ∀ n, n ∈ marked ↔ left < n ∧ n ≤ snapshot.length

section

variable {snapshot : List Pop3Message} {ctx : Pop3Context} {marked : Finset Nat} {left : Nat}

theorem FrontLeft.length_remaining (h : FrontLeft snapshot ctx marked left) :
    ctx.remaining.length = left := by
  rw [h.remaining, length_take, Nat.min_eq_left h.le]

/-- **Numbers agree** while the messages left are the front of the snapshot. -/
theorem message_eq_of_frontLeft (h : FrontLeft snapshot ctx marked left) (n : Nat) :
    ctx.message n = (Maildrop.mk snapshot marked).message n := by
  have hlen := h.le
  simp only [message, Maildrop.message, h.messages, h.remaining, h.marked]
  rcases Nat.eq_zero_or_pos n with rfl | hpos
  · simp
  · by_cases hleft : n ≤ left
    · -- a number that is left
      have hlow : ¬ (n < 1 ∨ snapshot.length < n) := by omega
      have hhigh : ¬ (n = 0 ∨ left < n ∧ n ≤ snapshot.length) := by omega
      rw [if_neg hlow, if_neg hhigh, getElem?_take_of_lt (by omega)]
    · -- a number that is marked, or that is none
      have hnone : (snapshot.take left)[n - 1]? = none := by
        rw [List.getElem?_eq_none_iff, length_take]
        omega
      rw [hnone, ite_self]
      split
      · rfl
      · rw [eq_comm, List.getElem?_eq_none_iff]
        omega

theorem filter_zipIdx_lt {α : Type*} (l : List α) (k left : Nat) :
    (l.zipIdx k).filter (fun e => e.2 < k + left) = (l.take left).zipIdx k := by
  induction l generalizing k left with
  | nil => simp
  | cons x l ih =>
    cases left with
    | zero =>
      -- all numbers are `k` or larger
      rw [take_zero, zipIdx_nil, filter_eq_nil_iff]
      rintro ⟨y, j⟩ hy
      have hle := le_snd_of_mem_zipIdx hy
      simpa using hle
    | succ left =>
      have hshift : k + (left + 1) = k + 1 + left := by omega
      rw [zipIdx_cons, List.filter_cons_of_pos (by simp), hshift, ih, take_succ_cons, zipIdx_cons]

theorem entries_eq_of_frontLeft (h : FrontLeft snapshot ctx marked left) :
    ctx.entries = (Maildrop.mk snapshot marked).entries := by
  rw [entries, h.remaining, Maildrop.entries, filter_map, ← filter_zipIdx_lt snapshot 1 left]
  congr 1
  refine filter_congr fun e he => ?_
  have hlt := snd_lt_of_mem_zipIdx he
  have hle := le_snd_of_mem_zipIdx he
  simp only [Function.comp_apply, Prod.fst_swap, h.marked, decide_eq_decide]
  omega

theorem remaining_insert (ctx : Pop3Context) (id : Nat) :
    remaining { ctx with deleted := insert id ctx.deleted } =
      ctx.remaining.filter fun m => m.mailId ≠ id := by
  simp only [remaining, List.filter_filter]
  refine filter_congr fun m _ => ?_
  simp only [mem_insert, not_or, Bool.decide_and]

section

variable (h : FrontLeft snapshot ctx marked left)

include h

/-- A message that is found is one of those left. -/
theorem FrontLeft.of_message {n : Nat} {m : Pop3Message} (hm : ctx.message n = some m) :
    0 < n ∧ n ≤ left ∧ snapshot[n - 1]? = some m := by
  rw [message_eq_of_frontLeft h] at hm
  simp only [Maildrop.message, h.marked] at hm
  split at hm
  · cases hm
  · have hlt := (List.getElem?_eq_some_iff.mp hm).1
    exact ⟨by omega, by omega, hm⟩

/-- **Deleting the last message** leaves the front of the snapshot. -/
theorem FrontLeft.delete {m : Pop3Message} (hm : ctx.message left = some m)
    (hoth : m.mailId ∉ ctx.remaining.dropLast.map (·.mailId)) :
    FrontLeft snapshot { ctx with deleted := insert m.mailId ctx.deleted } (insert left marked)
      (left - 1) := by
  obtain ⟨hpos, -, hget⟩ := h.of_message hm
  have hle := h.le
  obtain ⟨k, rfl⟩ : ∃ k, left = k + 1 := ⟨left - 1, by omega⟩
  have htake : snapshot.take (k + 1) = snapshot.take k ++ [m] := by
    rw [take_add_one]
    simpa using hget
  refine ⟨h.messages, by omega, ?_, fun n => ?_⟩
  · rw [remaining_insert, h.remaining, htake, filter_append]
    rw [h.remaining, htake, dropLast_concat] at hoth
    -- the others stay, the last one goes
    have hstay : (snapshot.take k).filter (fun x => x.mailId ≠ m.mailId) = snapshot.take k := by
      rw [filter_eq_self]
      intro x hx
      exact decide_eq_true fun heq => hoth (mem_map.mpr ⟨x, hx, heq⟩)
    rw [hstay]
    simp
  · rw [mem_insert, h.marked]
    omega

/-- **Deleting any other message** leaves a number without its message. -/
theorem FrontLeft.exists_lost {n : Nat} {m : Pop3Message} (hm : ctx.message n = some m)
    (hlast : ¬ (n = ctx.remaining.length ∧ m.mailId ∉ ctx.remaining.dropLast.map (·.mailId))) :
    ∃ k, message { ctx with deleted := insert m.mailId ctx.deleted } k = none ∧
      (Maildrop.mk snapshot (insert n marked)).message k ≠ none := by
  obtain ⟨hpos, hn, hget⟩ := h.of_message hm
  have hle := h.le
  have hlen := h.length_remaining
  have hmem : m ∈ ctx.remaining := by
    rw [h.remaining]
    exact mem_of_getElem? (i := n - 1) (by rw [getElem?_take_of_lt (by omega), hget])
  -- one number is lost: the last one, or the one before it
  have hnone : ∀ k, (ctx.remaining.filter fun x => x.mailId ≠ m.mailId).length < k →
      message { ctx with deleted := insert m.mailId ctx.deleted } k = none := by
    intro k hk
    rw [message, remaining_insert]
    split
    · rfl
    · rw [List.getElem?_eq_none_iff]
      omega
  have hsome : ∀ k, 0 < k → k ≤ left → k ≠ n →
      (Maildrop.mk snapshot (insert n marked)).message k ≠ none := by
    intro k hk hkl hkn
    have hnot : ¬ (k = 0 ∨ k ∈ insert n marked) := by
      rw [mem_insert, h.marked]
      omega
    rw [Maildrop.message, if_neg hnot, ne_eq, List.getElem?_eq_none_iff]
    change ¬ snapshot.length ≤ k - 1
    omega
  by_cases heq : n = left
  · -- another message that is left is the same mail
    have hdup : m.mailId ∈ ctx.remaining.dropLast.map (·.mailId) := by
      by_contra hnot
      exact hlast ⟨heq.trans hlen.symm, hnot⟩
    obtain ⟨x, hx, hid⟩ := mem_map.mp hdup
    have hne : ctx.remaining ≠ [] := ne_nil_of_mem hmem
    have hs := dropLast_append_getLast hne
    have hdrop : (ctx.remaining.dropLast.filter fun x => x.mailId ≠ m.mailId).length <
        ctx.remaining.dropLast.length :=
      length_filter_lt_length_iff_exists.mpr ⟨x, hx, by simp [hid]⟩
    have hlastid : (ctx.remaining.getLast hne).mailId = m.mailId := by
      have hidx : ctx.remaining[n - 1]? = some m := by
        rw [h.remaining, getElem?_take_of_lt (by omega), hget]
      rw [heq, ← hlen, ← getLast?_eq_getElem?, getLast?_eq_some_getLast hne] at hidx
      rw [Option.some.inj hidx]
    have hsh : (ctx.remaining.filter fun x => x.mailId ≠ m.mailId).length < left - 1 := by
      rw [← hs]
      rw [length_dropLast, hlen] at hdrop
      simpa [hlastid] using hdrop
    exact ⟨left - 1, hnone _ hsh, hsome _ (by omega) (by omega) (by omega)⟩
  · have hsh : (ctx.remaining.filter fun x => x.mailId ≠ m.mailId).length < left := by
      rw [← hlen]
      exact length_filter_lt_length_iff_exists.mpr ⟨m, hmem, by simp⟩
    exact ⟨left, hnone _ hsh, hsome _ (by omega) le_rfl (by omega)⟩

end

end

/-! ## Sessions that delete from the end -/

/-- What a session that waits for `p` has found. -/
def Awaits (ctx : Pop3Context) : Pop3Pending → Prop
  | .readBody args target => args ≠ [] ∧ ctx.message (safeStoull args) = some target
  | .lease r _ | .mark r _ | .remove r _ | .release r _ _ => r.mailIds = ctx.deleted
  | _ => False

/-- A session whose messages were deleted from the end of the snapshot. -/
structure Steady (snapshot : List Pop3Message) (s : Pop3Session) : Prop where
  state : s.state = .transaction ∨ s.state = .update ∧ s.closed = true
  authenticated : s.ctx.isAuthenticated = true
  front : ∃ left, FrontLeft snapshot s.ctx (markedSince s.log) left
  answers : Grounded (fun a earlier => (Maildrop.mk snapshot (markedSince earlier)).Answers a) s.log
  deleted : ∀ id, id ∈ s.ctx.deleted ↔ (Maildrop.mk snapshot (markedSince s.log)).Marks id
  pending : ∀ p, s.pending = some p → Awaits s.ctx p

section

variable {snapshot : List Pop3Message} {s t : Pop3Session}

section

variable (h : Steady snapshot s)

include h

theorem numbersFixed_of_steady : NumbersFixed snapshot s := by
  obtain ⟨left, hf⟩ := h.front
  refine ⟨message_eq_of_frontLeft hf, h.answers, h.deleted, fun p r hp hr id => ?_⟩
  have hawaits := h.pending p hp
  have hids : r.mailIds = s.ctx.deleted := by
    cases p with
    | lease | mark | remove | release =>
      cases hr
      exact hawaits
    | _ => cases hr
  rw [hids]
  exact h.deleted id

theorem Steady.message (n : Nat) :
    s.ctx.message n = (Maildrop.mk snapshot (markedSince s.log)).message n :=
  (numbersFixed_of_steady h).message n

theorem Steady.transaction (hopen : s.closed = false) : s.state = .transaction := by
  rcases h.state with hst | ⟨-, hcl⟩
  · exact hst
  · rw [hopen] at hcl
    cases hcl

theorem Steady.entries : s.ctx.entries = (Maildrop.mk snapshot (markedSince s.log)).entries := by
  obtain ⟨left, hf⟩ := h.front
  exact entries_eq_of_frontLeft hf

/-- An answer that marks nothing. -/
theorem Steady.answered {a : Pop3Answer} (hlog : t.log = a :: s.log) (hctx : t.ctx = s.ctx)
    (hst : t.state = .transaction ∨ t.state = .update ∧ t.closed = true)
    (hpend : t.pending = none) (hmarked : markedSince (a :: s.log) = markedSince s.log)
    (ha : (Maildrop.mk snapshot (markedSince s.log)).Answers a) : Steady snapshot t := by
  obtain ⟨left, hf⟩ := h.front
  refine ⟨hst, ?_, ⟨left, ?_⟩, ?_, ?_, ?_⟩
  · rw [hctx]
    exact h.authenticated
  · rw [hlog, hmarked, hctx]
    exact hf
  · rw [hlog]
    exact h.answers.cons ha
  · rw [hlog, hmarked, hctx]
    exact h.deleted
  · intro p hp
    rw [hpend] at hp
    cases hp

theorem Steady.sendLine (hrd : s.Ready) (event : Pop3Event) (hrset : event ≠ .rset)
    (hdele : event ≠ .dele) {args text : Bytes}
    (ha : (Maildrop.mk snapshot (markedSince s.log)).Answers ⟨event, args, pop3Line text⟩) :
    Steady snapshot (s.sendLine event args text) :=
  h.answered rfl rfl h.state hrd.2 (markedSince_cons_of_ne hrset hdele) ha

theorem steady_handleRetr (hrd : s.Ready) (args : Bytes) : Steady snapshot (s.handleRetr args) := by
  unfold handleRetr
  split
  · rename_i hargs
    refine h.sendLine hrd .retr nofun nofun ?_
    simp only [Maildrop.Answers, if_pos hargs]
  · rename_i hargs
    split
    · rename_i hnone
      refine h.sendLine hrd .retr nofun nofun ?_
      rw [h.message] at hnone
      simp only [Maildrop.Answers, if_neg hargs, hnone]
    · rename_i target hsome
      refine { h with pending := fun p hp => ?_ }
      cases hp
      exact ⟨hargs, hsome⟩

/-- A DELE that fails marks nothing. -/
theorem Steady.deleFailed (hrd : s.Ready) {args text : Bytes}
    (htext : text = noSuchMessage ∨ text = bytes "-ERR DELE requires a message number")
    (ha : (Maildrop.mk snapshot (markedSince s.log)).Answers ⟨.dele, args, pop3Line text⟩) :
    Steady snapshot (s.sendLine .dele args text) :=
  h.answered rfl rfl h.state hrd.2
    (markedSince_cons_dele_failed rfl (isOk_dele_error htext args)) ha

/-- A DELE of the last message left. -/
theorem Steady.deleted_last (hrd : s.Ready) {args : Bytes} (hargs : args ≠ []) {m : Pop3Message}
    (hm : s.ctx.message (safeStoull args) = some m)
    (hlast : safeStoull args = s.ctx.remaining.length)
    (hoth : m.mailId ∉ s.ctx.remaining.dropLast.map (·.mailId)) : Steady snapshot ({ s with
      ctx := { s.ctx with deleted := insert m.mailId s.ctx.deleted } }.sendLine .dele args
        (deleReply (safeStoull args) (some m))) := by
  obtain ⟨left, hf⟩ := h.front
  have hn : safeStoull args = left := hlast.trans hf.length_remaining
  have hget := (hf.of_message hm).2.2
  have hmarked :
    markedSince (⟨.dele, args, pop3Line (deleReply (safeStoull args) (some m))⟩ :: s.log) =
      insert (safeStoull args) (markedSince s.log) :=
    markedSince_cons_dele rfl (isOk_deleReply args _ m)
  refine ⟨h.state, h.authenticated, ⟨left - 1, ?_⟩, h.answers.cons ?_, fun id => ?_, ?_⟩
  · change FrontLeft snapshot _ (markedSince (_ :: s.log)) _
    rw [hmarked, hn]
    rw [hn] at hm
    exact hf.delete hm hoth
  · rw [h.message] at hm
    simp only [Maildrop.Answers, if_neg hargs, hm]
  · change id ∈ insert m.mailId s.ctx.deleted ↔ Maildrop.Marks ⟨_, markedSince (_ :: s.log)⟩ id
    rw [hmarked, mem_insert, h.deleted]
    constructor
    · rintro (rfl | ⟨n, hmem, m', hm', hid⟩)
      · exact ⟨_, mem_insert_self _ _, m, hget, rfl⟩
      · exact ⟨n, mem_insert_of_mem hmem, m', hm', hid⟩
    · rintro ⟨n, hmem, m', hm', hid⟩
      rcases mem_insert.mp hmem with rfl | hmem
      · have hsame : m = m' := Option.some.inj (hget.symm.trans hm')
        exact .inl (hsame ▸ hid.symm)
      · exact .inr ⟨n, hmem, m', hm', hid⟩
  · intro p hp
    have hnone : s.pending = some p := hp
    rw [hrd.2] at hnone
    cases hnone

end

theorem not_mem_deleted_of_message {ctx : Pop3Context} {n : Nat} {m : Pop3Message}
    (hm : ctx.message n = some m) : m.mailId ∉ ctx.deleted := by
  rw [message] at hm
  split at hm
  · cases hm
  · have hmem := mem_of_getElem? hm
    simpa using (mem_filter.mp hmem).2

theorem steady_handleDele (h : Steady snapshot s) (hrd : s.Ready) {args : Bytes}
    (hlast : ∀ m, s.ctx.message (safeStoull args) = some m →
      safeStoull args = s.ctx.remaining.length ∧
        m.mailId ∉ s.ctx.remaining.dropLast.map (·.mailId)) : Steady snapshot
          (s.handleDele args) := by
  unfold handleDele
  split
  · rename_i hargs
    refine h.deleFailed hrd (.inr rfl) ?_
    simp only [Maildrop.Answers, if_pos hargs]
  · rename_i hargs
    split
    · rename_i hnone
      refine h.deleFailed hrd (.inl rfl) ?_
      rw [h.message] at hnone
      simp only [Maildrop.Answers, if_neg hargs, hnone, deleReply]
    · rename_i m hm
      rw [if_neg (not_mem_deleted_of_message hm)]
      exact h.deleted_last hrd hargs hm (hlast m hm).1 (hlast m hm).2

theorem frontLeft_of_empty {ctx : Pop3Context} (hmessages : ctx.messages = snapshot)
    (hdel : ctx.deleted = ∅) : FrontLeft snapshot ctx ∅ snapshot.length := by
  refine ⟨hmessages, le_rfl, ?_, fun n => ?_⟩
  · rw [remaining, hmessages, hdel, take_length, filter_eq_self]
    intro m _
    simp
  · simp only [notMem_empty, false_iff]
    omega

section

variable (h : Steady snapshot s)

include h

theorem steady_handleRset (hrd : s.Ready) (args : Bytes) : Steady snapshot (s.handleRset args) := by
  obtain ⟨left, hf⟩ := h.front
  have hmarked : markedSince (⟨.rset, args, pop3Line (bytes "+OK")⟩ :: s.log) = ∅ :=
    markedSince_cons_rset rfl
  refine ⟨h.state, h.authenticated, ⟨snapshot.length, ?_⟩, h.answers.cons trivial,
    fun id => ?_, fun p hp => ?_⟩
  · exact frontLeft_of_empty hf.messages rfl
  · change id ∈ (∅ : Finset Nat) ↔ Maildrop.Marks ⟨_, markedSince (_ :: s.log)⟩ id
    rw [hmarked]
    simp [Maildrop.Marks]
  · have hnone : s.pending = some p := hp
    rw [hrd.2] at hnone
    cases hnone

theorem steady_dispatch (hrd : s.Ready) {event : Pop3Event} {args sid : Bytes}
    (hlast : event = .dele → ∀ m, s.ctx.message (safeStoull args) = some m →
      safeStoull args = s.ctx.remaining.length ∧
        m.mailId ∉ s.ctx.remaining.dropLast.map (·.mailId)) :
    Steady snapshot (s.dispatch event args sid) := by
  unfold dispatch
  rw [h.transaction hrd.1]
  cases event with
  | stat =>
    refine h.sendLine hrd .stat nofun nofun ?_
    simp only [Maildrop.Answers, h.entries]
  | list =>
    dsimp only [handleList]
    split
    · rename_i hargs
      refine h.sendLine hrd .list nofun nofun ?_
      simp only [Maildrop.Answers, if_pos hargs, h.message]
    · rename_i hargs
      refine h.sendLine hrd .list nofun nofun ?_
      simp only [Maildrop.Answers, if_neg hargs, h.entries]
  | uidl =>
    dsimp only [handleUidl]
    split
    · rename_i hargs
      refine h.sendLine hrd .uidl nofun nofun ?_
      simp only [Maildrop.Answers, if_pos hargs, h.message]
    · rename_i hargs
      refine h.sendLine hrd .uidl nofun nofun ?_
      simp only [Maildrop.Answers, if_neg hargs, h.entries]
  | retr => exact steady_handleRetr h hrd args
  | dele => exact steady_handleDele h hrd (hlast rfl)
  | rset => exact steady_handleRset h hrd args
  | quit =>
    dsimp only [handleQuit]
    rw [if_pos h.authenticated]
    obtain ⟨left, hf⟩ := h.front
    refine { h with front := ⟨left, { hf with }⟩, pending := fun p hp => ?_ }
    cases hp
    rfl
  | _ =>
    refine h.sendLine hrd _ ?_ ?_ ?_
    · nofun
    · nofun
    · trivial

theorem steady_finishQuit (deleted released : Bool) :
    Steady snapshot (s.finishQuit deleted released) := by
  unfold finishQuit
  split
  · exact { h with pending := nofun }
  · exact h.answered rfl rfl (.inr ⟨rfl, rfl⟩) rfl (markedSince_cons_of_ne nofun nofun) trivial

/-- **One step** of a session that deletes from the end. -/
theorem steady_step {i : Input} (hi : s.DeletesLast i) : Steady snapshot (s.step i) := by
  cases i with
  | command data sid =>
    simp only [step]
    split
    · exact h
    · rename_i hnot
      have hrd : s.Ready := by
        simpa [Ready, not_or] using hnot
      exact steady_dispatch h hrd fun hev m hm => hi hrd hev m hm
  | connected now =>
    simp only [step]
    rw [if_neg]
    · exact h
    · -- the greeting was sent before the login
      rcases h.state with hst | ⟨hst, -⟩ <;> rw [hst] <;> nofun
  | authenticated | inbox | acquired | verified | loaded =>
    -- the login is over
    simp only [step]
    split
    all_goals
      first
      | exact h
      | rename_i hp
        cases h.pending _ hp
  | bodyRead body =>
    simp only [step]
    split
    · rename_i args target hpend
      obtain ⟨hargs, hmsg⟩ := h.pending _ hpend
      split
      · exact { h with pending := nofun }
      · refine h.answered rfl rfl h.state rfl (markedSince_cons_of_ne nofun nofun) ?_
        rw [h.message] at hmsg
        simp only [Maildrop.Answers, if_neg hargs, hmsg]
        exact ⟨body, rfl⟩
    · exact h
  | leased ok =>
    simp only [step]
    split
    · rename_i request key hpend
      have hids : request.mailIds = s.ctx.deleted := h.pending _ hpend
      split
      · refine { h with pending := fun p hp => ?_ }
        change (if request.mailIds = ∅ then _ else _) = some p at hp
        split at hp <;> cases hp <;> exact hids
      · exact steady_finishQuit h _ _
    · exact h
  | marked ok =>
    simp only [step]
    split
    · rename_i request key hpend
      have hids : request.mailIds = s.ctx.deleted := h.pending _ hpend
      refine { h with pending := fun p hp => ?_ }
      change (if ok = true then _ else _) = some p at hp
      split at hp <;> cases hp <;> exact hids
    · exact h
  | removed ok =>
    simp only [step]
    split
    · rename_i request key hpend
      have hids : request.mailIds = s.ctx.deleted := h.pending _ hpend
      refine { h with pending := fun p hp => ?_ }
      cases hp
      exact hids
    · exact h
  | released ok =>
    simp only [step]
    split
    · rename_i hp
      cases h.pending _ hp
    · exact steady_finishQuit h _ _
    · exact h
  | renewed status =>
    simp only [step]
    split
    · exact { h with state := h.state.imp_right fun hup => ⟨hup.1, rfl⟩ }
    · exact h
  | close => exact { h with state := h.state.imp_right fun hup => ⟨hup.1, rfl⟩ }

/-- **Any other DELE** leaves a number that does not denote its message. -/
theorem not_numbersFixed_step {i : Input} (hi : ¬ s.DeletesLast i) :
    ¬ NumbersFixed snapshot (s.step i) := by
  cases i with
  | command data sid =>
    simp only [DeletesLast, not_forall] at hi
    obtain ⟨hrd, hev, m, hm, hlast⟩ := hi
    obtain ⟨left, hf⟩ := h.front
    have hargs : (parsePop3Command data).2 ≠ [] := by
      intro hnil
      rw [hnil] at hm
      exact absurd (hf.of_message hm).1 (by decide)
    have hstep : s.step (.command data sid) = { s with
        ctx := { s.ctx with deleted := insert m.mailId s.ctx.deleted } }.sendLine .dele
          (parsePop3Command data).2
          (deleReply (safeStoull (parsePop3Command data).2) (some m)) := by
      have hnot : ¬ (s.closed = true ∨ s.pending.isSome = true) := by
        rw [hrd.1, hrd.2]
        decide
      simp only [step, if_neg hnot, dispatch, h.transaction hrd.1, hev, handleDele,
        if_neg hargs, hm, if_neg (not_mem_deleted_of_message hm)]
    obtain ⟨k, hnone, hsome⟩ := hf.exists_lost hm hlast
    intro hfixed
    have hk := hfixed.message k
    rw [hstep] at hk
    have hmarked : markedSince (⟨.dele, (parsePop3Command data).2,
          pop3Line (deleReply (safeStoull (parsePop3Command data).2) (some m))⟩ :: s.log) =
        insert (safeStoull (parsePop3Command data).2) (markedSince s.log) :=
      markedSince_cons_dele rfl (isOk_deleReply _ _ m)
    change message _ k = (Maildrop.mk snapshot (markedSince (_ :: s.log))).message k at hk
    rw [hmarked] at hk
    exact hsome (hk.symm.trans hnone)
  | _ => exact absurd trivial hi

end

theorem steady_loggedIn (key : Pop3LockKey) (inbox : Nat) (snapshot : List Pop3Message) :
    Steady snapshot (loggedIn key inbox snapshot) := by
  refine ⟨.inl rfl, rfl, ⟨snapshot.length, frontLeft_of_empty rfl rfl⟩, ?_, ?_, nofun⟩
  · exact grounded_nil.cons trivial
  · intro id
    have hmarked : markedSince (loggedIn key inbox snapshot).log = ∅ := rfl
    rw [hmarked]
    simp [Maildrop.Marks, loggedIn, install, Pop3Session.sendLine]

end

/-- **Message numbers**: in a session with the snapshot of its login, number `n` denotes the `n`-th
message in all states of a run, marked numbers are refused until RSET, and QUIT deletes what was
marked, if and only if every DELE that finds a message is for the last one left and no other message
left is the same mail. -/
theorem stepsMeet_deletesLast_iff (key : Pop3LockKey) (inbox : Nat) (snapshot : List Pop3Message)
    (is : List Input) : StepsMeet step DeletesLast (loggedIn key inbox snapshot) is ↔
      ∀ js, js <+: is → NumbersFixed snapshot (run step (loggedIn key inbox snapshot) js) :=
  stepsMeet_iff_forall_good (Steady snapshot) (NumbersFixed snapshot)
    (fun _ h => numbersFixed_of_steady h) (fun _ _ h hi => steady_step h hi)
    (fun _ _ h hi => not_numbersFixed_step h hi) (steady_loggedIn key inbox snapshot) is

def threeMails : List Pop3Message :=
  [⟨101, bytes "101.eml", 10⟩, ⟨102, bytes "102.eml", 20⟩, ⟨103, bytes "103.eml", 30⟩]

/-- **Not every session keeps its numbers**: a client that deletes the first and the second of three
messages deletes the first and the third. -/
theorem not_forall_numbersFixed : ¬ ∀ (key : Pop3LockKey) (inbox : Nat)
    (snapshot : List Pop3Message) (is : List Input),
    NumbersFixed snapshot (run step (loggedIn key inbox snapshot) is) := by
  intro h
  let is : List Input := [.command (bytes "DELE 1\r\n") [], .command (bytes "DELE 2\r\n") []]
  have hfixed := h ⟨7, bytes "1"⟩ 70 threeMails is
  -- the second command has marked the mail 103, whose number is 3
  have hmem : 103 ∈ (run step (loggedIn ⟨7, bytes "1"⟩ 70 threeMails) is).ctx.deleted := by
    decide
  obtain ⟨n, hn, m, hm, hid⟩ := (hfixed.deleted 103).mp hmem
  have hmarked : markedSince (run step (loggedIn ⟨7, bytes "1"⟩ 70 threeMails) is).log =
      {2, 1} := by
    decide
  rw [hmarked] at hn
  simp only [Finset.mem_insert, Finset.mem_singleton] at hn
  rcases hn with rfl | rfl
  · cases hm
    exact absurd hid (by decide)
  · cases hm
    exact absurd hid (by decide)

end Pop3Session

end ProtoRelay
