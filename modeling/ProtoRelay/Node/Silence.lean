import ProtoRelay.Node.Router

/-!
# Silence about control envelopes

A network of routers in which any router may receive any bytes at any time, so that its links may
lose, repeat and reorder what they carry.  No router reports what goes wrong with an error report.
The ack that a router makes for a probe is as silent in its own tasks, but the routers on the way
and the source of the probe treat it like any other envelope: they keep silent as long as nothing
goes wrong with it.
-/

namespace ProtoRelay.Node

open List

/-- The packet of a hand-off or of a completion. -/
def RouterTask.packet : RouterTask → Option Packet
  | .handoff p | .onLink p => some p
  | _ => none

/-- The reaction is an error report. -/
def Reaction.IsReport : Reaction → Prop
  | .post p => p.isReport = true ∧ HasType .error p.wire
  | _ => False

instance (type : MessageType) (wire : Bytes) : Decidable (HasType type wire) :=
  inferInstanceAs (Decidable (_ = _))

namespace Router

/-- The envelope that a router is busy with in a step. -/
def handled (r : Router) : Input → Option Bytes
  | .receive wire => some wire
  | .runTask k => ((r.tasks[k]?).bind RouterTask.packet).map (·.wire)
  | _ => none

/-- What comes of a step. -/
def reactionTo (c : Option Aead) (r : Router) (o : Oracle) : Input → Reaction
  | .receive wire => r.receive c o wire
  | .runTask k => ((r.tasks[k]?).map (r.reaction c o)).getD .ignore
  | _ => .ignore

end Router

/-! ## The network -/

/-- The routers, and the acks that they have made for probes, as these are on the wire in front of
and behind each relay. -/
structure Network where
  routers : List Router
  acks : List Bytes := []

namespace Network

/-- The network of the nodes whose parameters `NodeRouter::create` accepts. -/
def create (nodes : List (Bytes × RouterOptions)) : Network :=
  { routers := nodes.filterMap fun node => Router.create node.1 node.2 }

/-- A router takes a step. -/
structure Input where
  node : Nat
  input : Router.Input
  oracle : Oracle := {}

/-- The ack that a router makes when it receives a probe, or that it passes on. -/
def newAcks (acks : List Bytes) : Router.Input → Reaction → List Bytes
  | .receive wire, .post p =>
    if HasType .ack p.wire ∧ (p.isReport ∨ acks.contains wire) then [p.wire] else []
  | _, _ => []

def step (c : Option Aead) (net : Network) (i : Input) : Network :=
  match net.routers[i.node]? with
  | none => net
  | some r =>
    { routers := net.routers.set i.node (r.step c (i.input, i.oracle))
      acks := newAcks net.acks i.input (r.reactionTo c i.oracle i.input) ++ net.acks }

/-- **The silence rule** in one step: a router that is busy with an error report, or with an ack
that a router has made, emits no error report. -/
def Silent (c : Option Aead) (net : Network) (i : Input) : Prop :=
  ∀ r, net.routers[i.node]? = some r → ∀ wire, r.handled i.input = some wire →
    HasType .error wire ∨ wire ∈ net.acks → ¬ (r.reactionTo c i.oracle i.input).IsReport

end Network

namespace Router

variable {c : Option Aead} {r : Router} {o : Oracle} {e : Envelope}

/-- Nothing goes wrong with an envelope at its destination: it is in time, its nonce is new, and it
is a copy or can be read. -/
def Readable (c : Option Aead) (r : Router) (o : Oracle) (e : Envelope) : Prop :=
  (o.nowMs.toInt - e.timestampMs.toInt).natAbs ≤ r.options.timestampTolerance ∧ ¬ o.nonceSeen ∧
    (r.options.dedupByMessageId ∧ o.idSeen ∨ (r.plainOf c e).isSome)

/-- Nothing goes wrong with an envelope at a relay: it is a copy, or it may be forwarded, is on its
route and is not too old. -/
def Forwardable (r : Router) (o : Oracle) (e : Envelope) : Prop :=
  o.idSeen ∨ r.options.forwardEnabled ∧
    (e.routePos.toNat < e.route.length → e.route[e.routePos.toNat]? = some r.nodeId) ∧ e.ttl ≠ 0

/-- Nothing goes wrong with a packet: there is room and a link for it, or the link has taken it. -/
def Passes (r : Router) (o : Oracle) (p : Packet) : RouterTask → Prop
  | .handoff _ => (p.isReport ∨ r.inFlight < r.options.maxInFlight) ∧ r.links.contains p.next
  | _ => o.result = none

/-- The router is stopped, is where the envelope comes from, or finds nothing wrong with it. -/
def Receives (c : Option Aead) (r : Router) (o : Oracle) (e : Envelope) : Prop :=
  r.stopped ∨ e.source = r.nodeId ∨
    if e.destination = r.nodeId then r.Readable c o e else r.Forwardable o e

/-- The same for a packet. -/
def Carries (r : Router) (o : Oracle) (p : Packet) (task : RouterTask) : Prop :=
  r.stopped ∨ p.back.source = r.nodeId ∨ r.Passes o p task

end Router

/-- **The steps in which nothing goes wrong** with an ack that a router has made. -/
structure Network.Harmless (c : Option Aead) (net : Network) (i : Network.Input) : Prop where
  received : ∀ r, net.routers[i.node]? = some r → ∀ wire ∈ net.acks, i.input = .receive wire →
    ∀ e, decodeEnvelope r.options.toNodeRouterOptions wire = .ok e → r.Receives c i.oracle e
  tasks : ∀ r, net.routers[i.node]? = some r → ∀ k task p, i.input = .runTask k →
    r.tasks[k]? = some task → task.packet = some p → p.wire ∈ net.acks → r.Carries i.oracle p task

/-! ## Reports -/

/-- A report can be sent back over the path. -/
structure ReturnPath.Fits (back : ReturnPath) : Prop where
  source : IsId 255 back.source
  length_lt : back.route.length < 2 ^ 8
  hops : ∀ hop ∈ back.route, IsId 255 hop

/-- What the tasks of a router say about where their envelopes come from. -/
structure Packet.Sound (nodeId : Bytes) (p : Packet) : Prop where
  fits : p.back.Fits
  own : p.back.silent → HasType .error p.wire ∨ p.back.source = nodeId

theorem hasType_of_encodeEnvelope {e : Envelope} {wire : Bytes}
    (henc : encodeEnvelope e = some wire) :
    HasType e.type wire := by
  obtain ⟨-, -, -, -, -, rfl⟩ := encodeEnvelope_eq_some_iff.mp henc
  rw [HasType, encodeHeader]
  simp only [append_assoc]
  rfl

/-- An envelope of a registered type is not taken for one of another. -/
theorem not_hasType_of_okUnknownType {limits : NodeRouterOptions}
    (hlim : limits.maxNodeIdBytes ≤ 255)
    {wire : Bytes} {e : Envelope} (hdec : decodeEnvelope limits wire = .okUnknownType e)
    (type : MessageType) : ¬ HasType type wire := by
  intro htype
  rw [decodeEnvelope] at hdec
  split at hdec
  · cases hdec
  · split at hdec
    · cases hdec
    · split at hdec
      · cases hdec
      · rename_i code e' htake
        split at hdec
        · rename_i hcode
          have hbyte := (takeFields_eq_some hlim htake).1.symm.trans htype
          have heq := word_eq_of_ofNat (Option.some.inj hbyte)
          cases hcode.symm.trans (MessageType.ofCode?_eq_some_iff.mpr heq)
        · cases hdec

namespace Router

variable {c : Option Aead} {r : Router} {o : Oracle} {e : Envelope} {wire : Bytes}

/-- The guard of `report`. -/
def Reports (r : Router) (back : ReturnPath) : Prop :=
  ¬ (r.stopped ∨ back.silent ∨ back.source = r.nodeId)

theorem returnPath_fits (henc : encodeEnvelope e = some wire) (silent : Bool) :
    (returnPath e silent).Fits := by
  obtain ⟨-, ⟨hsource, -⟩, ⟨hlen, -⟩, hhops, -, -⟩ := encodeEnvelope_eq_some_iff.mp henc
  refine ⟨hsource, ?_, fun hop hhop => hhops hop (mem_reverse.mp (mem_of_mem_drop hhop))⟩
  refine lt_of_le_of_lt ?_ hlen
  simp [returnPath, returnRoute]

section Created

variable (hr : (create r.nodeId r.options).isSome)

include hr

theorem isReport_report_iff {back : ReturnPath} (hfits : back.Fits) (code : MessageErrorCode) :
    (r.report o back code).IsReport ↔ r.Reports back := by
  obtain ⟨hid, -, -⟩ := limits_of_create hr
  rw [report, Reports]
  split
  · -- `report` asks for a source as well, which every path has
    rename_i hquiet
    refine iff_of_false id fun hrep => hrep ?_
    rcases hquiet with h | h | h | h
    · exact .inr (.inl h)
    · exact absurd h hfits.source.ne_nil
    · exact .inr (.inr h)
    · exact .inl h
  · rename_i hloud
    have henc := encodeEnvelope_eq_some_iff (e := r.sendFresh o
      { type := .error, destination := back.source, route := back.route,
        payload := putWord code.code ++ putWord back.messageId }).mpr
      ⟨rfl, ⟨hid, hfits.source⟩, ⟨hfits.length_lt, Nat.zero_le _⟩, hfits.hops,
        by simp [sendFresh], rfl⟩
    rw [emit, henc]
    refine iff_of_true ⟨rfl, hasType_of_encodeEnvelope henc⟩ fun hquiet => hloud ?_
    rcases hquiet with h | h | h
    · exact .inr (.inr (.inr h))
    · exact .inl h
    · exact .inr (.inr (.inl h))

theorem isReport_deliver_iff (henc : encodeEnvelope e = some wire) (htype : e.type ≠ .probe) :
    (r.deliver c o e).IsReport ↔
      r.Reports (returnPath e (e.type = .error)) ∧ ¬ r.Readable c o e := by
  have hrep := isReport_report_iff (o := o) hr (returnPath_fits henc (e.type = .error))
  rw [deliver, Readable]
  split
  · -- the envelope is not in time
    rename_i hlate
    rw [hrep, iff_self_and]
    exact fun _ hread => absurd hread.1 (Nat.not_le.mpr hlate)
  · split
    · rename_i hseen
      rw [hrep, iff_self_and]
      exact fun _ hread => hread.2.1 hseen
    · rename_i htime hnew
      have hread (h : r.options.dedupByMessageId ∧ o.idSeen ∨ (r.plainOf c e).isSome) :
          _ ∧ _ ∧ _ := ⟨Nat.not_lt.mp htime, hnew, h⟩
      split
      · -- a copy is dropped without a word
        rename_i hcopy
        exact iff_of_false id fun h => h.2 (hread (.inl hcopy))
      · rename_i hfresh
        split
        · rename_i hnone
          rw [hrep, iff_self_and]
          rintro - ⟨-, -, hcopy | hplain⟩
          · exact hfresh hcopy
          · rw [hnone] at hplain
            cases hplain
        · rename_i plain hplain
          have hok : _ ∧ _ ∧ _ := hread (.inr (Option.isSome_iff_exists.mpr ⟨plain, hplain⟩))
          split
          · -- an envelope of the type ERROR
            refine iff_of_false ?_ fun h => h.2 hok
            split <;> exact id
          · rename_i hprobe
            exact absurd hprobe htype
          · exact iff_of_false id fun h => h.2 hok

theorem isReport_forward_iff (henc : encodeEnvelope e = some wire) :
    (r.forward o e).IsReport ↔
      r.Reports (returnPath e (e.type = .error)) ∧ ¬ r.Forwardable o e := by
  have hrep := isReport_report_iff (o := o) hr (returnPath_fits henc (e.type = .error))
  rw [forward, Forwardable]
  dsimp only
  split
  · rename_i hcopy
    exact iff_of_false id fun h => h.2 (.inl hcopy)
  · rename_i hfresh
    split
    · rename_i hoff
      rw [hrep, iff_self_and]
      exact fun _ hfwd => hoff (hfwd.resolve_left hfresh).1
    · rename_i hon
      split
      · rename_i hroute
        rw [hrep, iff_self_and]
        exact fun _ hfwd => hroute.2 ((hfwd.resolve_left hfresh).2.1 hroute.1)
      · rename_i hroute
        split
        · rename_i httl
          rw [hrep, iff_self_and]
          exact fun _ hfwd => (hfwd.resolve_left hfresh).2.2 httl
        · rename_i httl
          have hok : o.idSeen ∨ r.options.forwardEnabled ∧ _ ∧ _ :=
            .inr ⟨not_not.mp hon, fun hlt => not_not.mp fun hne => hroute ⟨hlt, hne⟩, httl⟩
          refine iff_of_false ?_ fun h => h.2 hok
          split
          · exact id
          · exact fun h => absurd h.1 Bool.false_ne_true

/-- **What is received is reported** unless the router has no reason to. -/
theorem isReport_receive_iff (hdec : decodeEnvelope r.options.toNodeRouterOptions wire = .ok e)
    (htype : e.type ≠ .probe) :
    (r.receive c o wire).IsReport ↔ r.Reports (returnPath e (e.type = .error)) ∧
      ¬ if e.destination = r.nodeId then r.Readable c o e else r.Forwardable o e := by
  have henc := encodeEnvelope_of_decodeEnvelope (limits_of_create hr).2.1 hdec
  rw [receive, hdec]
  split
  · rename_i hstop
    exact iff_of_false id fun h => h.1 (.inl hstop)
  · dsimp only
    split
    · exact isReport_deliver_iff hr henc htype
    · exact isReport_forward_iff hr henc

theorem not_isReport_receive (htype : HasType .error wire) : ¬ (r.receive c o wire).IsReport := by
  have hlim := (limits_of_create hr).2.1
  cases hdec : decodeEnvelope r.options.toNodeRouterOptions wire with
  | ok e =>
    have herror := type_of_encodeEnvelope (encodeEnvelope_of_decodeEnvelope hlim hdec) htype
    rw [isReport_receive_iff hr hdec (by rw [herror]; decide)]
    exact fun h => h.1 (.inr (.inl (decide_eq_true herror)))
  | okUnknownType e => exact absurd htype (not_hasType_of_okUnknownType hlim hdec _)
  | malformed | unknownVersion =>
    rw [receive, hdec]
    split <;> exact id

/-- The acks that a router does not report when it receives them. -/
theorem not_isReport_receive_iff (htype : HasType .ack wire) :
    ¬ (r.receive c o wire).IsReport ↔ ∀ e,
      decodeEnvelope r.options.toNodeRouterOptions wire = .ok e → r.Receives c o e := by
  have hlim := (limits_of_create hr).2.1
  cases hdec : decodeEnvelope r.options.toNodeRouterOptions wire with
  | ok e =>
    have hack := type_of_encodeEnvelope (encodeEnvelope_of_decodeEnvelope hlim hdec) htype
    have hloud : (returnPath e (e.type = .error)).silent = false := by
      rw [hack]
      rfl
    rw [isReport_receive_iff hr hdec (by rw [hack]; decide), Reports, hloud, not_and_not_right]
    simp only [DecodeResult.ok.injEq, forall_eq', Bool.false_eq_true, false_or, Receives,
      returnPath]
    tauto
  | okUnknownType e => exact absurd htype (not_hasType_of_okUnknownType hlim hdec _)
  | malformed | unknownVersion =>
    rw [receive, hdec]
    refine iff_of_true ?_ nofun
    split <;> exact id

omit hr in
theorem not_isReport_of_silent {task : RouterTask} {p : Packet} (htask : task.packet = some p)
    (hsilent : p.back.silent) : ¬ (r.reaction c o task).IsReport := by
  cases task with
  | handoff q =>
    cases htask
    rw [(reaction_of_silent hsilent).1]
    exact id
  | onLink q =>
    cases htask
    rw [(reaction_of_silent hsilent).2]
    exact id
  | send | addKey | attach | detach | clearLinks => cases htask

/-- The acks that a router does not report in its tasks. -/
theorem not_isReport_reaction_iff {task : RouterTask} {p : Packet} (hp : p.Sound r.nodeId)
    (htask : task.packet = some p) (htype : HasType .ack p.wire) :
    ¬ (r.reaction c o task).IsReport ↔ r.Carries o p task := by
  have hrep := isReport_report_iff (o := o) hr hp.fits
  have hown : r.stopped ∨ p.back.silent ∨ p.back.source = r.nodeId ↔
      r.stopped ∨ p.back.source = r.nodeId := by
    refine or_congr_right ⟨fun h => ?_, .inr⟩
    rcases h with hsilent | hsource
    · refine (hp.own hsilent).resolve_left fun herror => ?_
      rw [HasType, htype] at herror
      exact absurd herror (by decide)
    · exact hsource
  rw [Reports, hown] at hrep
  rw [Carries, ← or_assoc]
  cases task with
  | handoff q =>
    cases htask
    rw [reaction, refusal, Passes]
    split_ifs with hstop hfull hlink
    · exact iff_of_true id (.inl (.inl hstop))
    · rw [hrep, not_not]
      refine (or_iff_left ?_).symm
      rintro ⟨hreport | hroom, -⟩
      · exact hfull.1 hreport
      · exact absurd hroom (Int.not_lt.mpr hfull.2)
    · rw [hrep, not_not]
      refine (or_iff_left ?_).symm
      rintro ⟨-, hlinked⟩
      rw [hlinked] at hlink
      cases hlink
    · refine iff_of_true id (.inr ⟨?_, by simpa using hlink⟩)
      by_contra hno
      rw [not_or, Int.not_lt] at hno
      exact hfull hno
  | onLink q =>
    cases htask
    dsimp only [reaction, Passes]
    cases o.result with
    | none => exact iff_of_true id (.inr rfl)
    | some err =>
      dsimp only [linkReport]
      rw [hrep, not_not]
      exact (or_iff_left (Option.some_ne_none err)).symm
  | send | addKey | attach | detach | clearLinks => cases htask

/-! ## Packets -/

/-- An envelope of the router itself is one that it is silent about. -/
theorem sound_own {p : Packet} (hsource : p.back.source = r.nodeId) (hroute : p.back.route = []) :
    p.Sound r.nodeId where
  fits := ⟨hsource ▸ (limits_of_create hr).1, by rw [hroute]; decide, by simp [hroute]⟩
  own _ := .inr hsource

theorem sound_emit {p : Packet} (h : r.emit o e = .post p) : p.Sound r.nodeId := by
  rw [emit] at h
  split at h
  · cases h
  · cases h
    exact sound_own hr rfl rfl

theorem sound_report {back : ReturnPath} {code : MessageErrorCode} {p : Packet}
    (h : r.report o back code = .post p) : p.Sound r.nodeId := by
  rw [report] at h
  split at h
  · cases h
  · exact sound_emit hr h

theorem sound_runSend {m : Envelope} {p : Packet} (h : r.runSend c o m = .post p) :
    p.Sound r.nodeId := by
  have hwire {wire : Bytes} (h : r.sendWire (r.sendFresh o m) wire = .post p) :
      p.Sound r.nodeId := by
    rw [sendWire] at h
    split at h
    · cases h
    · cases h
      exact sound_own hr rfl rfl
  rw [runSend] at h
  split_ifs at h
  dsimp only at h
  split at h
  · split at h
    · split at h
      · cases h
      · exact hwire h
    · cases h
  · split at h
    · cases h
    · exact hwire h

theorem sound_deliver {p : Packet} (h : r.deliver c o e = .post p) : p.Sound r.nodeId := by
  rw [deliver] at h
  split_ifs at h
  · exact sound_report hr h
  · exact sound_report hr h
  · split at h
    · exact sound_report hr h
    · split at h
      · split at h <;> cases h
      · exact sound_emit hr h
      · cases h

theorem sound_forward {p : Packet} (henc : encodeEnvelope e = some wire)
    (h : r.forward o e = .post p) :
    p.Sound r.nodeId := by
  rw [forward] at h
  dsimp only at h
  split at h
  · cases h
  · split at h
    · exact sound_report hr h
    · split at h
      · exact sound_report hr h
      · split at h
        · exact sound_report hr h
        · split at h
          · cases h
          · rename_i hwire
            cases h
            refine ⟨returnPath_fits henc _, fun hsilent => .inl ?_⟩
            have htype := hasType_of_encodeEnvelope hwire
            rwa [show e.type = .error from of_decide_eq_true hsilent] at htype

theorem sound_receive {p : Packet} (h : r.receive c o wire = .post p) : p.Sound r.nodeId := by
  rw [receive] at h
  split at h
  · cases h
  · split at h
    · cases h
    · cases h
    · exact sound_report hr h
    · rename_i hdec
      split at h
      · exact sound_deliver hr h
      · exact sound_forward hr (encodeEnvelope_of_decodeEnvelope (limits_of_create hr).2.1 hdec) h

theorem sound_reaction {task : RouterTask} {p : Packet} (h : r.reaction c o task = .post p) :
    p.Sound r.nodeId := by
  cases task with
  | send m => exact sound_runSend hr h
  | handoff q =>
    rw [reaction] at h
    split at h
    · exact sound_report hr h
    · cases h
  | onLink q =>
    dsimp only [reaction] at h
    split at h
    · exact sound_report hr h
    · cases h
  | addKey | attach | detach | clearLinks => cases h

end Created

/-- The router was created, and its packets are sound. -/
structure Sound (r : Router) : Prop where
  created : (create r.nodeId r.options).isSome
  packets : ∀ task ∈ r.tasks, ∀ p, task.packet = some p → p.Sound r.nodeId

theorem Sound.post (h : r.Sound) {task : RouterTask}
    (htask : ∀ p, task.packet = some p → p.Sound r.nodeId) : (r.post task).Sound where
  created := h.created
  packets t ht := by
    rcases mem_append.mp ht with hold | hnew
    · exact h.packets t hold
    · cases mem_singleton.mp hnew
      exact htask

theorem Sound.react (h : r.Sound) {reaction : Reaction}
    (hpost : ∀ p, reaction = .post p → p.Sound r.nodeId) : (r.react reaction).Sound := by
  cases reaction with
  | post p =>
    refine h.post ?_
    rintro q ⟨⟩
    exact hpost p rfl
  | ignore | fail | threw | deliver => exact h

theorem Sound.afterTask (h : r.Sound) {task : RouterTask}
    (htask : ∀ p, task.packet = some p → p.Sound r.nodeId) : (r.afterTask task).Sound := by
  cases task with
  | handoff p =>
    rw [Router.afterTask]
    split
    · exact h
    · have hcount : ({ r with
          inFlight := if p.isReport then r.inFlight else r.inFlight + 1 } : Router).Sound :=
        ⟨h.created, h.packets⟩
      exact hcount.post fun q hq => htask q hq
  | attach id =>
    rw [Router.afterTask]
    split
    · exact h
    · exact ⟨h.created, h.packets⟩
  | send | onLink | addKey | detach | clearLinks => exact ⟨h.created, h.packets⟩

theorem nodeId_afterTask (task : RouterTask) : (r.afterTask task).nodeId = r.nodeId := by
  cases task with
  | handoff | attach =>
    rw [Router.afterTask]
    split <;> rfl
  | send | onLink | addKey | detach | clearLinks => rfl

theorem Sound.step (h : r.Sound) (i : Input × Oracle) : (r.step c i).Sound := by
  obtain ⟨i, o⟩ := i
  cases i with
  | send | detach => exact h.post nofun
  | receive wire => exact h.react fun p hp => sound_receive h.created hp
  | runTask k =>
    rw [Router.step]
    split
    · exact h
    · rename_i task hk
      have herase : ({ r with tasks := r.tasks.eraseIdx k } : Router).Sound :=
        ⟨h.created, fun t ht => h.packets t (mem_of_mem_eraseIdx ht)⟩
      refine (herase.afterTask (h.packets task (mem_of_getElem? hk))).react fun p hp => ?_
      rw [nodeId_afterTask]
      exact sound_reaction herase.created hp
  | addKey | attach =>
    rw [Router.step]
    split
    · exact h.post nofun
    · exact h
  | stop =>
    rw [Router.step]
    split
    · exact h
    · have hstopped : ({ r with stopped := true } : Router).Sound := ⟨h.created, h.packets⟩
      exact hstopped.post nofun

end Router

/-! ## Runs -/

namespace Network

variable {c : Option Aead} {net : Network}

structure Sound (net : Network) : Prop where
  routers : ∀ r ∈ net.routers, r.Sound
  acks : ∀ wire ∈ net.acks, HasType .ack wire

theorem sound_create (nodes : List (Bytes × RouterOptions)) : (create nodes).Sound where
  routers r hr := by
    obtain ⟨node, -, hnode⟩ := mem_filterMap.mp hr
    have hcreate := hnode
    rw [Router.create] at hcreate
    split at hcreate
    · cases hcreate
    · cases hcreate
      exact ⟨Option.isSome_iff_exists.mpr ⟨_, hnode⟩, fun _ ht => absurd ht not_mem_nil⟩
  acks _ hwire := absurd hwire not_mem_nil

theorem Sound.step (h : net.Sound) (i : Input) : (net.step c i).Sound := by
  rw [Network.step]
  split
  · exact h
  · rename_i r hr
    refine ⟨fun q hq => ?_, fun wire hwire => ?_⟩
    · rcases mem_or_eq_of_mem_set hq with hold | rfl
      · exact h.routers q hold
      · exact (h.routers r (mem_of_getElem? hr)).step _
    · rcases mem_append.mp hwire with hnew | hold
      · unfold newAcks at hnew
        split at hnew
        · split at hnew
          · rename_i hack
            exact mem_singleton.mp hnew ▸ hack.1
          · cases hnew
        · cases hnew
      · exact h.acks wire hold

theorem reactionTo_runTask {r : Router} {o : Oracle} {k : Nat} {task : RouterTask}
    (htask : r.tasks[k]? = some task) : r.reactionTo c o (.runTask k) = r.reaction c o task := by
  rw [Router.reactionTo, htask]
  rfl

/-- **A step keeps the silence rule** if and only if nothing goes wrong in it with an ack of a
router. -/
theorem harmless_iff_silent (h : net.Sound) (i : Input) : net.Harmless c i ↔ net.Silent c i := by
  obtain ⟨node, input, o⟩ := i
  cases input with
  | receive wire =>
    constructor
    · rintro ⟨hreceived, -⟩ r hr wire ⟨⟩ hcontrol
      have hcreated := (h.routers r (mem_of_getElem? hr)).created
      rcases hcontrol with herror | hack
      · exact Router.not_isReport_receive hcreated herror
      · exact (Router.not_isReport_receive_iff hcreated (h.acks wire hack)).mpr
          (hreceived r hr wire hack rfl)
    · intro hsilent
      refine ⟨fun r hr wire hack hwire => ?_, fun r hr k task p hk => ?_⟩
      · cases hwire
        exact (Router.not_isReport_receive_iff (h.routers r (mem_of_getElem? hr)).created
          (h.acks wire hack)).mp (hsilent r hr wire rfl (.inr hack))
      · cases hk
  | runTask k =>
    have hcarries (r : Router) (hr : net.routers[node]? = some r) (task : RouterTask) (p : Packet)
        (htask : r.tasks[k]? = some task) (hpacket : task.packet = some p)
        (hack : p.wire ∈ net.acks) :
        ¬ (r.reaction c o task).IsReport ↔ r.Carries o p task :=
      have hsound := h.routers r (mem_of_getElem? hr)
      Router.not_isReport_reaction_iff hsound.created
        (hsound.packets task (mem_of_getElem? htask) p hpacket) hpacket (h.acks p.wire hack)
    constructor
    · rintro ⟨-, htasks⟩ r hr wire hwire hcontrol
      obtain ⟨p, hp, rfl⟩ := Option.map_eq_some_iff.mp hwire
      obtain ⟨task, htask, hpacket⟩ := Option.bind_eq_some_iff.mp hp
      rw [reactionTo_runTask htask]
      rcases hcontrol with herror | hack
      · exact Router.not_isReport_of_silent hpacket (p.silent herror)
      · exact (hcarries r hr task p htask hpacket hack).mpr
          (htasks r hr k task p rfl htask hpacket hack)
    · intro hsilent
      refine ⟨fun r hr wire hack hwire => ?_, fun r hr k task p hk htask hpacket hack => ?_⟩
      · cases hwire
      · cases hk
        refine (hcarries r hr task p htask hpacket hack).mp ?_
        have hquiet := hsilent r hr p.wire ?_ (.inr hack)
        · rwa [reactionTo_runTask htask] at hquiet
        · rw [Router.handled, htask]
          exact congrArg (Option.map _) hpacket
  | send | addKey | attach | detach | stop =>
    refine iff_of_true ⟨fun r hr wire hack hwire => ?_, fun r hr k task p hk => ?_⟩
      fun r hr wire hwire => ?_
    · cases hwire
    · cases hk
    · cases hwire

/-- **Silence about control envelopes**: in a run of a network no router reports about an error
report or an ack that a router has made, if and only if nothing goes wrong with these acks. -/
theorem control_silent_iff (c : Option Aead) (nodes : List (Bytes × RouterOptions))
    (is : List Input) :
    StepsMeet (step c) (Harmless c) (create nodes) is ↔
      StepsMeet (step c) (Silent c) (create nodes) is :=
  stepsMeet_iff_of_invariant Sound (fun _ i h => harmless_iff_silent h i) (fun _ i h _ => h.step i)
    (sound_create nodes) is

/-- The ack of the router `a` for a probe that has come from `c` over the relay `b`. -/
def probeAck : Bytes :=
  1 :: 2 :: 0 :: 0 :: 0 :: 0 :: 0 :: 8 :: replicate 20 0 ++
    [0, 1, 97, 0, 1, 99, 1, 0, 0, 1, 98, 0, 0, 0, 8] ++ replicate 8 0

/-- A relay that does not forward reports about the ack that a router has made for a probe. -/
theorem not_forall_silent : ¬ ∀ (nodes : List (Bytes × RouterOptions)) (is : List Input),
    StepsMeet (step none) (Silent none) (create nodes) is := by
  intro h
  have hrun := h [([97], {}), ([98], { forwardEnabled := false })]
    [{ node := 0
       input := .receive (1 :: 4 :: replicate 26 0 ++ [0, 1, 99, 0, 1, 97, 1, 1, 0, 1,
         98, 0, 0, 0, 0]) },
      { node := 1, input := .receive probeAck }]
  exact hrun.2.1 _ rfl probeAck rfl (.inr (by decide)) ⟨rfl, rfl⟩

end Network

end ProtoRelay.Node
