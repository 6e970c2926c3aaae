import Mathlib.Data.List.Perm.Basic
import ProtoRelay.Node.Router

/-!
# Hand-offs and completions

The router counts the envelopes it has given to links, but not its own reports and acks; the count
is raised in one callback and lowered in another.  A call of `send` goes through up to three
callbacks, each in whatever state it finds the router, and one of them calls its completion, unless
the encoding throws.
-/

namespace ProtoRelay.Node

open List

/-- An envelope is with a link. -/
def RouterTask.isOnLink : RouterTask → Bool
  | .onLink _ => true
  | _ => false

/-- It is with a link, and counts. -/
def RouterTask.inFlight : RouterTask → Bool
  | .onLink p => !p.isReport
  | _ => false

/-- The codes that the router itself completes with; a link has one more. -/
def Errc.isRouters : Errc → Bool
  | .notConnected => false
  | _ => true

namespace Router

variable {c : Option Aead} {r : Router} {o : Oracle}

/-! ## Envelopes in flight -/

/-- The count of envelopes in flight, while a callback runs that has `running` of them. -/
structure Accounted (r : Router) (running : Nat) : Prop where
  balance : r.inFlight = r.tasks.countP RouterTask.inFlight + running
  bound : r.inFlight ≤ r.options.maxInFlight

theorem Accounted.post (hr : Accounted r 0) {task : RouterTask} (htask : task.inFlight = false) :
    Accounted (r.post task) 0 := by
  refine { hr with balance := ?_ }
  rw [Router.post, countP_append, countP_singleton, htask]
  exact hr.balance

theorem Accounted.react (hr : Accounted r 0) (reaction : Reaction) :
    Accounted (r.react reaction) 0 := by
  cases reaction with
  | post p => exact hr.post rfl
  | ignore | fail | threw | deliver => exact hr

theorem Accounted.take {i : Nat} {task : RouterTask} (hr : Accounted r 0)
    (hi : r.tasks[i]? = some task) :
    Accounted { r with tasks := r.tasks.eraseIdx i } task.inFlight.toNat := by
  obtain ⟨hlt, rfl⟩ := List.getElem?_eq_some_iff.mp hi
  refine { hr with balance := ?_ }
  have hbal := hr.balance
  rw [← (getElem_cons_eraseIdx_perm hlt).countP_eq] at hbal
  cases hcounts : r.tasks[i].inFlight <;> simp_all

theorem Accounted.afterTask {task : RouterTask} (hr : Accounted r task.inFlight.toNat) :
    Accounted (r.afterTask task) 0 := by
  obtain ⟨hbal, hbound⟩ := hr
  cases task with
  | handoff p =>
    rw [Router.afterTask]
    split
    · exact ⟨hbal, hbound⟩
    · rename_i hgiven
      have hroom : ¬ (¬ p.isReport ∧ r.options.maxInFlight ≤ r.inFlight) := by
        refine fun hfull => hgiven ?_
        rw [refusal]
        split <;> rfl
      constructor
      · cases hrep : p.isReport <;> simp [Router.post, RouterTask.inFlight, hrep, hbal]
      · cases hrep : p.isReport with
        | true => simpa [Router.post] using hbound
        | false =>
          have hlt : r.inFlight < r.options.maxInFlight :=
            Int.not_le.mp fun hfull => hroom ⟨by simp [hrep], hfull⟩
          simpa [Router.post] using Int.add_one_le_iff.mpr hlt
  | onLink p =>
    rw [RouterTask.inFlight] at hbal
    constructor
    · cases hrep : p.isReport <;> simp [Router.afterTask, hrep, hbal]
    · dsimp only [Router.afterTask]
      split <;> omega
  | attach id =>
    rw [Router.afterTask]
    split <;> exact ⟨hbal, hbound⟩
  | send | addKey | detach | clearLinks => exact ⟨hbal, hbound⟩

theorem Accounted.step (hr : Accounted r 0) (input : Input × Oracle) :
    Accounted (r.step c input) 0 := by
  obtain ⟨input, o⟩ := input
  cases input with
  | send | detach => exact hr.post rfl
  | receive wire => exact hr.react _
  | runTask i =>
    rw [Router.step]
    split
    · exact hr
    · rename_i task hi
      exact (hr.take hi).afterTask.react _
  | addKey | attach =>
    rw [Router.step]
    split
    · exact hr.post rfl
    · exact hr
  | stop =>
    rw [Router.step]
    split
    · exact hr
    · exact Accounted.post (r := { r with stopped := true }) { hr with } rfl

/-- **Envelopes in flight**: between any two callbacks the count is the number of envelopes that are
with links, without the router's own reports and acks.  It is within the limit, never negative, and
zero when no such envelope is with a link. -/
theorem inFlight_accounted (c : Option Aead) (nodeId : Bytes) (options : RouterOptions)
    (is : List (Input × Oracle)) :
    let r := run (step c) { nodeId, options } is
    r.inFlight = r.tasks.countP RouterTask.inFlight ∧ r.inFlight ≤ r.options.maxInFlight ∧
      0 ≤ r.inFlight ∧
      (r.tasks.countP RouterTask.inFlight = 0 → r.inFlight = 0) := by
  intro r
  have hr : Accounted r 0 :=
    run_invariant (Accounted · 0) (fun _ _ hr => hr.step _) ⟨rfl, Int.natCast_nonneg _⟩ is
  have hbal := hr.balance
  exact ⟨hbal, hr.bound, by omega, by omega⟩

/-- A report is given to a link and not counted. -/
theorem not_forall_inFlight_eq :
    ¬ ∀ (nodeId : Bytes) (options : RouterOptions) (is : List (Input × Oracle)),
    let r := run (step none) { nodeId, options } is
    r.inFlight = r.tasks.countP RouterTask.isOnLink := by
  intro h
  -- an envelope of type 9 from the neighbour
  have hrep := h [98] {} [(.attach [97], {}), (.runTask 0, {}),
    (.receive (1 :: 9 :: replicate 26 0 ++ [0, 1, 97, 0, 1, 98, 0, 0, 0, 0, 0, 0]), {}),
    (.runTask 0, {})]
  revert hrep
  decide

/-! ## Completions -/

/-- The router and what it is told when a callback runs. -/
structure Moment where
  router : Router
  oracle : Oracle

/-- What the completion of a call of `send` is called with, when its task, that of its hand-off and
the completion of the link run at the given moments; nothing if an exception leaves one of them. -/
def completions (c : Option Aead) (m : Envelope) (task handoff link : Moment) :
    Option (List (Option Errc)) :=
  match task.router.runSend c task.oracle m with
  | .threw => none
  | .fail e => some [some e]
  | .ignore | .deliver _ => some []
  | .post p =>
    match handoff.router.refusal p with
    | some (_, e) =>
      if handoff.router.reaction c handoff.oracle (.handoff p) matches .threw then none
        else some [some e]
    | none =>
      if link.router.reaction c link.oracle (.onLink p) matches .threw then none
        else some [link.oracle.result]

/-- The checks of `run_send` in front of the encoding. -/
structure Accepts (r : Router) (m : Envelope) : Prop where
  running : ¬ r.stopped
  destination : IsId r.options.maxNodeIdBytes m.destination
  payload : m.payload.length ≤ r.options.maxEnvelopeBytes
  hops : m.route.length ≤ r.options.maxRouteHops
  route : r.RouteOk m

/-- An envelope that passes the checks and is to go out in clear can be encoded. -/
def Encodable (r : Router) (m : Envelope) : Prop :=
  r.Accepts m → m.encrypted = false → m.version = 1 ∧ m.payload.length < 2 ^ 32

/-- An envelope as it goes out, sealed or in clear. -/
def wireOf (c : Option Aead) (r : Router) (o : Oracle) (m : Envelope) : Option Bytes :=
  let m := r.sendFresh o m
  if m.encrypted then
    match c, r.keys.lookup m.keyId with
    | some c, some key =>
      (c.encrypt key (aeadNonce m) (aad m (m.payload.length + 16)) m.payload).map fun cipher =>
        encodeHeader m cipher.length ++ cipher
    | _, _ => none
  else encodeEnvelope m

theorem wireOf_of_clear {m : Envelope} (h : m.encrypted = false) :
    r.wireOf c o m = encodeEnvelope (r.sendFresh o m) :=
  if_neg (ne_true_of_eq_false h)

/-- An envelope passes all checks of `run_send`. -/
def Sends (c : Option Aead) (r : Router) (o : Oracle) (m : Envelope) : Prop :=
  r.Accepts m ∧ ∃ wire ∈ r.wireOf c o m, wire.length ≤ r.options.maxEnvelopeBytes

/-- An envelope is given to a link: its first hop is a neighbour, and there is room for it. -/
def GivesToLink (c : Option Aead) (m : Envelope) (task handoff : Moment) : Prop :=
  task.router.Sends c task.oracle m ∧ ¬ handoff.router.stopped ∧
    handoff.router.inFlight < handoff.router.options.maxInFlight ∧
    handoff.router.links.contains (firstHop m)

theorem encodeEnvelope_sendFresh (hr : (create r.nodeId r.options).isSome) {m : Envelope}
    (h : r.Accepts m) :
    encodeEnvelope (r.sendFresh o m) = none ↔ ¬ (m.version = 1 ∧ m.payload.length < 2 ^ 32) := by
  obtain ⟨hid, hids, hhops⟩ := limits_of_create hr
  have hle : ∀ id, IsId r.options.maxNodeIdBytes id → IsId 255 id := fun id h =>
    ⟨h.ne_nil, h.length_le.trans hids⟩
  rw [← not_iff_not, not_not, ← ne_eq, Option.ne_none_iff_exists']
  simp only [encodeEnvelope_eq_some_iff]
  constructor
  · rintro ⟨wire, hver, -, -, -, hpay, -⟩
    exact ⟨hver, hpay⟩
  · rintro ⟨hver, hpay⟩
    exact ⟨_, hver, ⟨hid, hle _ h.destination⟩,
      ⟨Nat.lt_succ_of_le (h.hops.trans hhops), Nat.zero_le _⟩,
      fun hop hhop => hle hop (h.route.1 hop hhop).1, hpay, rfl⟩

theorem runSend_of_not_accepts {m : Envelope} (h : ¬ r.Accepts m) :
    ∃ e, r.runSend c o m = .fail e ∧ e.isRouters := by
  rw [runSend]
  split_ifs with hstop hdest hpay hlen hroute
  any_goals exact ⟨_, rfl, rfl⟩
  exact absurd ⟨hstop, hdest, Nat.not_lt.mp hpay, Nat.not_lt.mp hlen, hroute⟩ h

/-- What comes of a call that passes the checks in front of the encoding. -/
theorem runSend_of_accepts {m : Envelope} (h : r.Accepts m) :
    (∃ wire, r.wireOf c o m = some wire ∧ r.runSend c o m = r.sendWire (r.sendFresh o m) wire) ∨
      r.wireOf c o m = none ∧ if m.encrypted then ∃ e, r.runSend c o m = .fail e ∧ e.isRouters
        else r.runSend c o m = .threw := by
  unfold runSend wireOf
  rw [if_neg h.running, if_neg (not_not.mpr h.destination), if_neg (Nat.not_lt.mpr h.payload),
    if_neg (Nat.not_lt.mpr h.hops), if_neg (not_not.mpr h.route)]
  dsimp only
  have henc : (r.sendFresh o m).encrypted = m.encrypted := rfl
  rw [henc]
  cases m.encrypted with
  | false =>
    cases hwire : encodeEnvelope (r.sendFresh o m) with
    | none => exact .inr ⟨rfl, rfl⟩
    | some wire => exact .inl ⟨wire, rfl, rfl⟩
  | true =>
    cases c with
    | none => exact .inr ⟨rfl, _, rfl, rfl⟩
    | some c =>
      cases hkey : r.keys.lookup (r.sendFresh o m).keyId with
      | none => exact .inr ⟨rfl, _, rfl, rfl⟩
      | some key =>
        dsimp only
        generalize c.encrypt key _ _ _ = cipher
        cases cipher with
        | none => exact .inr ⟨rfl, _, rfl, rfl⟩
        | some cipher =>
          exact .inl ⟨encodeHeader (r.sendFresh o m) cipher.length ++ cipher, if_pos rfl,
            if_pos rfl⟩

/-- A packet that counts is given to a link if there is room and a link for it. -/
theorem refusal_eq_none_iff {p : Packet} (hp : p.isReport = false) :
    r.refusal p = none ↔
      ¬ r.stopped ∧ r.inFlight < r.options.maxInFlight ∧ r.links.contains p.next := by
  rw [refusal]
  split_ifs with hstop hfull hlink
  · exact iff_of_false nofun fun h => h.1 hstop
  · exact iff_of_false nofun fun h => Int.not_lt.mpr hfull.2 h.2.1
  · refine iff_of_false nofun fun h => ?_
    rw [h.2.2] at hlink
    cases hlink
  · refine iff_of_true rfl ⟨hstop, ?_, by simpa using hlink⟩
    by_contra hno
    exact hfull ⟨by rw [hp]; decide, Int.not_lt.mp hno⟩

theorem refusal_isRouters {p : Packet} {code : Option MessageErrorCode} {e : Errc}
    (h : r.refusal p = some (code, e)) : e.isRouters := by
  rw [refusal] at h
  split_ifs at h
  all_goals
    cases h
    rfl

/-- One completion, with a success that the link has reported or with one of the router's codes. -/
def CompletesOnce (link : Moment) (results : Option (List (Option Errc))) : Prop :=
  ∃ result, results = some [result] ∧ (result = none → link.oracle.result = none) ∧
    ∀ e, result = some e → e.isRouters

theorem completesOnce_fail (link : Moment) {e : Errc} (he : e.isRouters) :
    CompletesOnce link (some [some e]) := by
  refine ⟨some e, rfl, nofun, ?_⟩
  rintro e ⟨⟩
  exact he

/-- Once there are bytes to send, only the link can answer with a code that is not the router's. -/
theorem completesOnce_of_wire {m : Envelope} {task handoff link : Moment} {wire : Bytes}
    (hacc : task.router.Accepts m) (hwire : task.router.wireOf c task.oracle m = some wire)
    (hsend : task.router.runSend c task.oracle m =
      task.router.sendWire (task.router.sendFresh task.oracle m) wire) :
    CompletesOnce link (completions c m task handoff link) ↔
      (GivesToLink c m task handoff → ∀ e, link.oracle.result = some e → e.isRouters) := by
  rw [completions, hsend, sendWire]
  by_cases hlong : task.router.options.maxEnvelopeBytes < wire.length
  · rw [if_pos hlong]
    refine iff_of_true (completesOnce_fail link rfl) fun h => ?_
    obtain ⟨wire', hwire', hle⟩ := h.1.2
    cases hwire.symm.trans hwire'
    exact absurd hle (Nat.not_le.mpr hlong)
  · have hsends : task.router.Sends c task.oracle m := ⟨hacc, wire, hwire, Nat.not_lt.mp hlong⟩
    rw [if_neg hlong]
    dsimp only
    -- the router does not report about its own envelopes
    rw [(reaction_of_silent rfl).1, (reaction_of_silent rfl).2]
    split
    · rename_i code e hrefused
      refine iff_of_true (completesOnce_fail link (refusal_isRouters hrefused)) fun h => ?_
      cases hrefused.symm.trans ((refusal_eq_none_iff rfl).mpr h.2)
    · rename_i hgiven
      constructor
      · rintro ⟨result, hres, -, hcodes⟩
        cases hres
        exact fun _ => hcodes
      · exact fun h => ⟨_, rfl, id, h ⟨hsends, (refusal_eq_none_iff rfl).mp hgiven⟩⟩

/-- **A call of `send` completes once**, with a success that its link has reported or with one of
the router's codes, if and only if its envelope has version 1 and a payload whose length fits its
field, unless it is refused before or goes out encrypted, and its link, if it is given to one, does
not answer with a code of its own. -/
theorem completes_once_iff (c : Option Aead) (m : Envelope) (task handoff link : Moment)
    (hr : (create task.router.nodeId task.router.options).isSome) :
    (∃ result, completions c m task handoff link = some [result] ∧
      (result = none → link.oracle.result = none) ∧ ∀ e, result = some e → e.isRouters) ↔
    task.router.Encodable m ∧
      (GivesToLink c m task handoff → ∀ e, link.oracle.result = some e → e.isRouters) := by
  change CompletesOnce link (completions c m task handoff link) ↔ _
  by_cases hacc : task.router.Accepts m
  · have hcode := encodeEnvelope_sendFresh (o := task.oracle) hr hacc
    rcases runSend_of_accepts (c := c) (o := task.oracle) hacc with
      ⟨wire, hwire, hsend⟩ | ⟨hnone, hsend⟩
    · rw [completesOnce_of_wire hacc hwire hsend]
      refine (and_iff_right fun _ hclear => ?_).symm
      rw [wireOf_of_clear hclear] at hwire
      by_contra hnot
      cases (hcode.mpr hnot).symm.trans hwire
    · have hnot : ¬ GivesToLink c m task handoff := by
        rintro ⟨⟨-, wire, hwire, -⟩, -⟩
        cases hnone.symm.trans hwire
      rw [completions]
      cases henc : m.encrypted with
      | true =>
        rw [henc, if_pos rfl] at hsend
        obtain ⟨e, he, hcodes⟩ := hsend
        rw [he]
        refine iff_of_true (completesOnce_fail link hcodes)
          ⟨fun _ hclear => ?_, fun h => absurd h hnot⟩
        cases henc.symm.trans hclear
      | false =>
        rw [henc, if_neg Bool.false_ne_true] at hsend
        rw [wireOf_of_clear henc] at hnone
        rw [hsend]
        refine iff_of_false (by rintro ⟨result, h, -⟩; cases h) fun h => ?_
        exact hcode.mp hnone (h.1 hacc henc)
  · obtain ⟨e, he, hcodes⟩ := runSend_of_not_accepts (c := c) (o := task.oracle) hacc
    rw [completions, he]
    exact iff_of_true (completesOnce_fail link hcodes)
      ⟨fun h => absurd h hacc, fun h => absurd h.1.1 hacc⟩

/-- A router with the defaults, as it was created. -/
def Moment.start : Moment := ⟨{ nodeId := [97], options := {} }, {}⟩

/-- The same router with a neighbour. -/
def Moment.linked : Moment := ⟨{ Moment.start.router with links := [[98]] }, {}⟩

/-- The link to the neighbour is not connected. -/
def Moment.unconnected : Moment := ⟨Moment.linked.router, { result := some .notConnected }⟩

/-- A call on a router that has a link, which is not connected. -/
theorem completes_once_iff_unconnected :
    (∃ result, completions none { destination := [98] } .start .linked .unconnected =
      some [result] ∧
      (result = none → Moment.unconnected.oracle.result = none) ∧
        ∀ e, result = some e → e.isRouters) ↔
    Encodable Moment.start.router { destination := [98] } ∧
      (GivesToLink none { destination := [98] } .start .linked →
        ∀ e, Moment.unconnected.oracle.result = some e → e.isRouters) :=
  completes_once_iff none _ .start .linked .unconnected rfl

/-- An envelope of version 2 makes the encoding throw, and its completion is never called. -/
theorem not_forall_completes_once : ¬ ∀ (m : Envelope) (task handoff link : Moment),
    (create task.router.nodeId task.router.options).isSome →
      ∃ result, completions none m task handoff link = some [result] ∧
        (result = none → link.oracle.result = none) ∧ ∀ e, result = some e → e.isRouters := by
  intro h
  obtain ⟨result, hres, -⟩ := h { version := 2, destination := [98] } .start .start .start rfl
  have hthrew : completions none { version := 2, destination := [98] } .start .start .start =
      none := by
    decide
  cases hthrew.symm.trans hres

end Router

end ProtoRelay.Node
