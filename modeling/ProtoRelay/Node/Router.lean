import ProtoRelay.Base.Runs
import ProtoRelay.Node.Envelope

/-!
# The node router

A router sends envelopes of its application, delivers those addressed to its node, forwards the
others along their route and reports what goes wrong to the source.  What it hands to a link is
posted to the executor first; tasks, completions of links, received envelopes and calls of the
application interleave in any way.  The cipher is a parameter; random values, the clock and the
answers of the caches and the links are inputs.
-/

namespace ProtoRelay.Node

open List

/-- AES-256-GCM as the router calls it: key, nonce, associated data and text. -/
structure Aead where
  encrypt : Bytes → Bytes → Bytes → Bytes → Option Bytes
  decrypt : Bytes → Bytes → Bytes → Bytes → Option Bytes

structure RouterOptions extends NodeRouterOptions where
  maxHops : Word 4 := 8
  timestampTolerance : Nat := 30000
  maxInFlight : Nat := 128
  dedupByMessageId : Bool := true
  forwardEnabled : Bool := true

inductive Errc
  | operationCanceled | invalidArgument | messageSize | notSupported | protocolError
  | noBufferSpace | hostUnreachable | notConnected
deriving DecidableEq

inductive MessageErrorCode
  | unroutable | ttlExhausted | replayRejected | decryptFailed | unknownType | queueOverflow

def MessageErrorCode.code : MessageErrorCode → Word 1
  | unroutable => 1
  | ttlExhausted => 2
  | replayRejected => 3
  | decryptFailed => 4
  | unknownType => 5
  | queueOverflow => 6

structure ReturnPath where
  source : Bytes
  route : List Bytes
  messageId : Word 8
  silent : Bool

/-- The second byte of an envelope on the wire is its type. -/
def HasType (type : MessageType) (wire : Bytes) : Prop :=
  wire[1]? = some (UInt8.ofNat type.code.toNat)

theorem type_of_encodeEnvelope {e : Envelope} {wire : Bytes} (henc : encodeEnvelope e = some wire)
    {type : MessageType} (h : HasType type wire) : e.type = type := by
  obtain ⟨-, -, -, -, -, rfl⟩ := encodeEnvelope_eq_some_iff.mp henc
  rw [HasType, encodeHeader] at h
  simp only [append_assoc] at h
  have hbyte : UInt8.ofNat e.type.code.toNat = UInt8.ofNat type.code.toNat := Option.some.inj h
  revert hbyte
  cases e.type <;> cases type <;> decide

/-- The arguments of `handoff` but the completion; failures of reports are not reported. -/
structure Packet where
  next : Bytes
  wire : Bytes
  back : ReturnPath
  isReport : Bool
  silent : HasType .error wire → back.silent = true

/-- A callback that is still to run: a task of the executor or the completion of a link. -/
inductive RouterTask
  | send (m : Envelope)
  | handoff (p : Packet)
  | onLink (p : Packet)
  | addKey (keyId : Word 1) (key : Bytes)
  | attach (neighborId : Bytes)
  | detach (neighborId : Bytes)
  | clearLinks

/-- What the clock, the generator, the caches and a link answer in one step. -/
structure Oracle where
  rand32 : Word 4 := 0
  nowMs : Word 8 := 0
  rand64 : Word 8 := 0
  nonceSeen : Bool := false
  idSeen : Bool := false
  result : Option Errc := none

/-- What comes of a received or sent envelope. -/
inductive Reaction
  | ignore
  | fail (e : Errc)
  | threw
  | post (p : Packet)
  | deliver (e : Envelope)

structure Router where
  nodeId : Bytes
  options : RouterOptions
  stopped : Bool := false
  keys : List (Word 1 × Bytes) := []
  links : List Bytes := []
  inFlight : Int := 0
  tasks : List RouterTask := []

namespace Router

/-- `NodeRouter::create`. -/
def create (nodeId : Bytes) (options : RouterOptions) : Option Router :=
  if nodeId = [] ∨ 255 < nodeId.length ∨ options.maxNodeIdBytes = 0 ∨ 255 < options.maxNodeIdBytes ∨
      options.maxRouteHops = 0 ∨ 255 < options.maxRouteHops ∨ options.maxHops = 0 ∨
      options.maxInFlight = 0 ∨ options.maxEnvelopeBytes < 28 + 4 then none
  else some { nodeId, options }

/-- The checks of `create` on the identifiers. -/
theorem limits_of_create {r : Router} (h : (create r.nodeId r.options).isSome) :
    IsId 255 r.nodeId ∧ r.options.maxNodeIdBytes ≤ 255 ∧ r.options.maxRouteHops ≤ 255 := by
  rw [create] at h
  split at h
  · cases h
  · rename_i hval
    simp only [not_or, Nat.not_lt] at hval
    exact ⟨⟨hval.1, hval.2.1⟩, hval.2.2.2.1, hval.2.2.2.2.2.1⟩

/-- `send_fresh`. -/
def sendFresh (r : Router) (o : Oracle) (m : Envelope) : Envelope :=
  { m with
    source := r.nodeId
    ttl := if m.ttl = 0 then r.options.maxHops else m.ttl
    nonce := if m.nonce = 0 then o.rand32 else m.nonce
    timestampMs := if m.timestampMs = 0 then o.nowMs else m.timestampMs
    messageId := if m.messageId = 0 then o.rand64 else m.messageId
    routePos := 0 }

/-- The neighbour a fresh envelope goes to. -/
def firstHop (m : Envelope) : Bytes := m.route.headD m.destination

def aeadNonce (m : Envelope) : Bytes := putWord m.messageId ++ putWord m.nonce

/-- The header without the fields that relays rewrite. -/
def aad (m : Envelope) (payloadLen : Nat) : Bytes :=
  encodeHeader { m with ttl := 0, routePos := 0 } payloadLen

/-- The last steps of `run_send`. -/
def sendWire (r : Router) (m : Envelope) (wire : Bytes) : Reaction :=
  if r.options.maxEnvelopeBytes < wire.length then .fail .messageSize
  else .post ⟨firstHop m, wire, ⟨m.source, [], m.messageId, true⟩, false, fun _ => rfl⟩

/-- The loop of `run_send` over the route. -/
def RouteOk (r : Router) (m : Envelope) : Prop :=
  (∀ hop ∈ m.route, IsId r.options.maxNodeIdBytes hop ∧ hop ≠ r.nodeId ∧ hop ≠ m.destination) ∧
    m.route.Nodup

instance (limit : Nat) (id : Bytes) : Decidable (IsId limit id) :=
  decidable_of_iff (id ≠ [] ∧ id.length ≤ limit) ⟨fun h => ⟨h.1, h.2⟩,
    fun h => ⟨h.ne_nil, h.length_le⟩⟩

instance (r : Router) (m : Envelope) : Decidable (r.RouteOk m) :=
  inferInstanceAs (Decidable (_ ∧ _))

section Functions

variable (c : Option Aead) (r : Router) (o : Oracle)

/-- `run_send` up to its hand-off. -/
def runSend (m : Envelope) : Reaction :=
  if r.stopped then .fail .operationCanceled
  else if ¬ IsId r.options.maxNodeIdBytes m.destination then .fail .invalidArgument
  else if r.options.maxEnvelopeBytes < m.payload.length then .fail .messageSize
  else if r.options.maxRouteHops < m.route.length then .fail .invalidArgument
  else if ¬ r.RouteOk m then .fail .invalidArgument
  else
    let m := r.sendFresh o m
    if m.encrypted then
      match c, r.keys.lookup m.keyId with
      | some c, some key =>
        match c.encrypt key (aeadNonce m) (aad m (m.payload.length + 16)) m.payload with
        | none => .fail .protocolError
        | some cipher => r.sendWire m (encodeHeader m cipher.length ++ cipher)
      | _, _ => .fail .notSupported
    else
      match encodeEnvelope m with
      | none => .threw
      | some wire => r.sendWire m wire

def returnRoute (route : List Bytes) (consumed : Nat) : List Bytes :=
  route.reverse.drop (route.length - consumed)

/-- An envelope of the router itself, on its way. -/
def emit (e : Envelope) : Reaction :=
  let e := r.sendFresh o e
  match encodeEnvelope e with
  | none => .threw
  | some wire => .post ⟨firstHop e, wire, ⟨e.source, [], e.messageId, true⟩, true, fun _ => rfl⟩

def report (back : ReturnPath) (code : MessageErrorCode) : Reaction :=
  if back.silent ∨ back.source = [] ∨ back.source = r.nodeId ∨ r.stopped then .ignore
  else
    r.emit o { type := .error, destination := back.source, route := back.route,
               payload := putWord code.code ++ putWord back.messageId }

def returnPath (e : Envelope) (silent : Bool) : ReturnPath :=
  ⟨e.source, returnRoute e.route (min e.routePos.toNat e.route.length), e.messageId, silent⟩

/-- The payload of a received envelope, if it can be read. -/
def plainOf (e : Envelope) : Option Bytes :=
  if e.encrypted then
    match c, r.keys.lookup e.keyId with
    | some c, some key => c.decrypt key (aeadNonce e) (aad e e.payload.length) e.payload
    | _, _ => none
  else some e.payload

def deliver (e : Envelope) : Reaction :=
  let back := returnPath e (e.type = .error)
  if r.options.timestampTolerance < (o.nowMs.toInt - e.timestampMs.toInt).natAbs then
    r.report o back .replayRejected
  else if o.nonceSeen then r.report o back .replayRejected
  else if r.options.dedupByMessageId ∧ o.idSeen then .ignore
  else
    match r.plainOf c e with
    | none => r.report o back .decryptFailed
    | some plain =>
      match e.type with
      | .error => if plain.length < 9 then .ignore else .deliver { e with payload := plain }
      | .probe =>
        r.emit o { type := .ack, destination := e.source, route := back.route,
                   payload := putWord e.messageId ++ plain }
      | _ => .deliver { e with payload := plain }

def forward (e : Envelope) : Reaction :=
  let back := returnPath e (e.type = .error)
  let pos := e.routePos.toNat
  if o.idSeen then .ignore
  else if ¬ r.options.forwardEnabled then r.report o back .unroutable
  else if pos < e.route.length ∧ e.route[pos]? ≠ some r.nodeId then r.report o back .unroutable
  else if e.ttl = 0 then r.report o back .ttlExhausted
  else
    let e' := { e with
      ttl := e.ttl - 1
      routePos := if pos < e.route.length then e.routePos + 1 else e.routePos }
    match henc : encodeEnvelope e' with
    | none => .threw
    | some wire => .post ⟨e.route.getD (pos + 1) e.destination, wire, back, false,
        fun h => decide_eq_true (type_of_encodeEnvelope henc h)⟩

def receive (wire : Bytes) : Reaction :=
  if r.stopped then .ignore
  else
    match decodeEnvelope r.options.toNodeRouterOptions wire with
    | .malformed | .unknownVersion => .ignore
    | .okUnknownType e => r.report o (returnPath e false) .unknownType
    | .ok e => if e.destination = r.nodeId then r.deliver c o e else r.forward o e

end Functions

/-! ## Steps -/

/-- Why the task of `handoff` does not give a packet to a link: what is reported, and what the
completion is called with. -/
def refusal (r : Router) (p : Packet) : Option (Option MessageErrorCode × Errc) :=
  if r.stopped then some (none, .operationCanceled)
  else if ¬ p.isReport ∧ r.options.maxInFlight ≤ r.inFlight
    then some (some .queueOverflow, .noBufferSpace)
  else if !r.links.contains p.next then some (some .unroutable, .hostUnreachable)
  else none

/-- The report about a packet for which a link has failed. -/
def linkReport (r : Router) (o : Oracle) (p : Packet) (e : Errc) : Reaction :=
  r.report o p.back (if e = .noBufferSpace then .queueOverflow else .unroutable)

def post (r : Router) (task : RouterTask) : Router := { r with tasks := r.tasks ++ [task] }

def react (r : Router) : Reaction → Router
  | .post p => r.post (.handoff p)
  | _ => r

/-- What comes of a callback. -/
def reaction (c : Option Aead) (r : Router) (o : Oracle) : RouterTask → Reaction
  | .send m => r.runSend c o m
  | .handoff p =>
    match r.refusal p with
    | some (some code, _) => r.report o p.back code
    | _ => .ignore
  | .onLink p =>
    match o.result with
    | some e => r.linkReport o p e
    | none => .ignore
  | _ => .ignore

theorem reaction_of_silent {c : Option Aead} {r : Router} {o : Oracle} {p : Packet}
    (h : p.back.silent) :
    r.reaction c o (.handoff p) = .ignore ∧ r.reaction c o (.onLink p) = .ignore := by
  have hrep (code : MessageErrorCode) : r.report o p.back code = .ignore := if_pos (.inl h)
  constructor <;> rw [reaction] <;> split
  · exact hrep _
  · rfl
  · exact hrep _
  · rfl

/-- What a callback changes. -/
def afterTask (r : Router) : RouterTask → Router
  | .send _ => r
  | .handoff p =>
    if (r.refusal p).isSome then r
    else { r with inFlight := if p.isReport then r.inFlight else r.inFlight + 1 }.post (.onLink p)
  | .onLink p => { r with inFlight := if p.isReport then r.inFlight else r.inFlight - 1 }
  | .addKey keyId key => { r with keys := (keyId, key) :: r.keys }
  | .attach id => if r.stopped then r else { r with links := id :: r.links }
  | .detach id => { r with links := r.links.filter (· ≠ id) }
  | .clearLinks => { r with links := [] }

def runTask (c : Option Aead) (r : Router) (o : Oracle) (task : RouterTask) : Router :=
  (r.afterTask task).react (r.reaction c o task)

inductive Input
  | send (m : Envelope)
  | runTask (i : Nat)
  | receive (wire : Bytes)
  | addKey (keyId : Word 1) (key : Bytes)
  | attach (neighborId : Bytes)
  | detach (neighborId : Bytes)
  | stop

def step (c : Option Aead) (r : Router) : Input × Oracle → Router
  | (.send m, _) => r.post (.send m)
  | (.runTask i, o) =>
    match r.tasks[i]? with
    | none => r
    | some task => runTask c { r with tasks := r.tasks.eraseIdx i } o task
  | (.receive wire, o) => r.react (r.receive c o wire)
  | (.addKey keyId key, _) => if key.length = 32 then r.post (.addKey keyId key) else r
  | (.attach id, _) => if IsId r.options.maxNodeIdBytes id then r.post (.attach id) else r
  | (.detach id, _) => r.post (.detach id)
  | (.stop, _) => if r.stopped then r else { r with stopped := true }.post .clearLinks

end Router

end ProtoRelay.Node
