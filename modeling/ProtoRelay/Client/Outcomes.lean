import ProtoRelay.Client.Invariant

/-!
# Outcomes of the client's operations

A caller decides by the outcome of an operation whether to try again.  Whatever the server sends, in
whatever pieces, and wherever the deadline, `close` or a failure of the transport comes between: an
operation is completed once, a message is reported accepted only if the server has accepted it, and
a message whose data was sent without an answer is reported as unknown.
-/

namespace ProtoRelay

/-- A completion is the last event of its operation. -/
theorem LogOk.id_ne_of_mem_later {encodeBlock : Bytes → Bytes}
    {log later earlier : List ClientEvent}
    {nextId n : Nat} {running : Option Nat} {r : ClientResult} {c : Option ClientConnection}
    {e : ClientEvent} (h : LogOk encodeBlock log nextId running)
    (hlog : log = later ++ .completed n r c :: earlier) (he : e ∈ later) : e.id ≠ n := by
  intro hid
  obtain ⟨newer, older, rfl⟩ := List.append_of_mem he
  have hzero : ProtoRelay.completions e.id (older ++ .completed n r c :: earlier) = 0 :=
    h.order newer e (older ++ .completed n r c :: earlier) (by rw [hlog]; simp)
  -- the completion itself is among the events before `e`
  rw [hid, ProtoRelay.completions, List.countP_eq_zero] at hzero
  exact hzero (.completed n r c) (by simp) (beq_self_eq_true n)

namespace ClientSession

/-- **The outcomes of the operations are sound**: each operation is started once, and completed once
unless it is running; one that was accepted has been delivered; and one whose message data was
handed to the transport, and to which no complete reply was read, has an unknown outcome. -/
structure OutcomesSound (s : ClientSession) : Prop where
  starts : ∀ n, starts n s.log = if n < s.nextId then 1 else 0
  completions : ∀ n, completions n s.log =
    if n < s.nextId ∧ ∀ op, s.current = some op → op.id ≠ n then 1 else 0
  accepted : ∀ later n r c earlier, s.log = later ++ .completed n r c :: earlier →
    r.outcome = .accepted → Delivered n c earlier
  unknown : ∀ n r c wire, .completed n r c ∈ s.log → .wrote n .body wire ∈ s.log →
    (∀ code, .reply n .body code ∉ s.log) → r.outcome = .outcomeUnknown

section

variable {encodeBlock : Bytes → Bytes} {s : ClientSession}

theorem Ok.outcomesSound (h : s.Ok encodeBlock) : s.OutcomesSound where
  starts := h.log.starts
  completions n := by
    rw [h.log.completions n]
    congr 1
    cases s.current with
    | none | some => simp
  accepted later n r c earlier hlog hout :=
    Justified.accepted (h.log.sound later (.completed n r c) earlier hlog) hout
  unknown n r c wire hcompl hwrote hnone := by
    obtain ⟨later, earlier, hlog, hjust⟩ := h.log.sound.exists_of_mem hcompl
    rw [hlog] at hwrote
    rcases List.mem_append.mp hwrote with hlater | hearlier
    · exact absurd rfl (h.log.id_ne_of_mem_later hlog hlater)
    · refine Justified.unknown hjust wire ?_ fun code hrep => hnone code ?_
      · exact (List.mem_cons.mp hearlier).resolve_left nofun
      · rw [hlog]
        exact List.mem_append_right _ (.tail _ hrep)

theorem current_step_deadline (encodeBlock : Bytes → Bytes) (s : ClientSession) :
    (s.step encodeBlock .deadline).current = none := by
  unfold ClientSession.step
  dsimp only
  split
  · assumption
  · rfl

end

/-- **Outcome soundness**: in every run the outcomes of the operations are sound, and once the
deadline of the operation that is running has passed, every operation that was started has been
completed exactly once. -/
theorem outcomesSound_run (encodeBlock : Bytes → Bytes) (is : List Input) :
    (run (step encodeBlock) {} is).OutcomesSound ∧
      ∀ n, completions n (run (step encodeBlock) {} (is ++ [.deadline])).log =
        starts n (run (step encodeBlock) {} (is ++ [.deadline])).log := by
  refine ⟨(ok_run encodeBlock is).outcomesSound, fun n => ?_⟩
  have hs := (ok_run encodeBlock (is ++ [.deadline])).outcomesSound
  have hidle : (run (step encodeBlock) {} (is ++ [.deadline])).current = none := by
    rw [run_append]
    exact current_step_deadline encodeBlock _
  rw [hs.completions n, hs.starts n, hidle]
  simp

end ClientSession

end ProtoRelay
