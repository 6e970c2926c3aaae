import ProtoRelay.Base.Words

/-!
# Envelopes of the node protocol

An envelope travels from node to node as one byte string: fixed fields, the two endpoints, the route
and the payload.  Encoding and decoding are inverse to each other within the limits of a router.
-/

namespace ProtoRelay.Node

open List

open ProtoRelay

inductive MessageType
  | data | ack | error | probe
deriving DecidableEq

def MessageType.code : MessageType → Word 1
  | data => 1
  | ack => 2
  | error => 3
  | probe => 4

def MessageType.ofCode? (code : Word 1) : Option MessageType :=
  if code = 1 then some data else if code = 2 then some ack
  else if code = 3 then some error else if code = 4 then some probe else none

structure Envelope where
  version : Word 1 := 1
  type : MessageType := .data
  encrypted : Bool := false
  keyId : Word 1 := 0
  ttl : Word 4 := 0
  nonce : Word 4 := 0
  timestampMs : Word 8 := 0
  messageId : Word 8 := 0
  source : Bytes := []
  destination : Bytes := []
  route : List Bytes := []
  routePos : Word 1 := 0
  payload : Bytes := []

/-- The limits of a router on envelopes. -/
structure NodeRouterOptions where
  maxEnvelopeBytes : Nat := 256 * 1024
  maxNodeIdBytes : Nat := 255
  maxRouteHops : Nat := 8

/-- What decoding finds; an envelope of an unregistered type is read with the default type. -/
inductive DecodeResult
  | ok (e : Envelope)
  | okUnknownType (e : Envelope)
  | malformed
  | unknownVersion

/-! ## Fields -/

def putId (id : Bytes) : Bytes := putWord (.ofNat _ id.length : Word 2) ++ id

/-- `take_id`. -/
def takeId (limit : Nat) (s : Bytes) : Option (Bytes × Bytes) := do
  let (n, s) ← takeWord 2 s
  if n = 0 ∨ limit < n.toNat ∨ s.length < n.toNat then none
    else some (s.take n.toNat, s.drop n.toNat)

/-- The loop over the hops of a route. -/
def takeIds (limit : Nat) : Nat → Bytes → Option (List Bytes × Bytes)
  | 0, s => some ([], s)
  | n + 1, s => do
    let (id, s) ← takeId limit s
    let (ids, s) ← takeIds limit n s
    some (id :: ids, s)

structure IsId (limit : Nat) (id : Bytes) : Prop where
  ne_nil : id ≠ []
  length_le : id.length ≤ limit

variable {limit : Nat} {s rest : Bytes}

theorem takeId_eq_some_iff (hlim : limit ≤ 255) {id : Bytes} :
    takeId limit s = some (id, rest) ↔ IsId limit id ∧ s = putId id ++ rest := by
  rw [takeId, Option.bind_eq_bind, Option.bind_eq_some_iff]
  constructor
  · rintro ⟨⟨n, s'⟩, htake, h⟩
    dsimp only at h
    split at h
    · cases h
    · rename_i hn
      simp only [not_or, Nat.not_lt] at hn
      obtain ⟨hne, hle, hlen⟩ := hn
      obtain ⟨rfl, rfl⟩ := Prod.mk.inj (Option.some.inj h)
      have hlength : (s'.take n.toNat).length = n.toNat := length_take_of_le hlen
      refine ⟨⟨fun hnil => hne ?_, hlength.trans_le hle⟩, ?_⟩
      · rw [hnil] at hlength
        exact BitVec.eq_of_toNat_eq hlength.symm
      · rw [takeWord_eq_some_iff.mp htake, putId, hlength, BitVec.ofNat_toNat, BitVec.setWidth_eq,
          append_assoc, take_append_drop]
  · rintro ⟨⟨hne, hle⟩, rfl⟩
    have hnat : (BitVec.ofNat (8 * 2) id.length).toNat = id.length := by
      rw [BitVec.toNat_ofNat, Nat.mod_eq_of_lt (by omega)]
    have hpos : 0 < id.length := length_pos_iff.mpr hne
    refine ⟨(.ofNat _ id.length, id ++ rest), ?_, ?_⟩
    · rw [putId, append_assoc, takeWord_putWord]
    · dsimp only
      rw [if_neg, hnat, take_left, drop_left]
      rw [hnat, length_append]
      rintro (h | h | h)
      · rw [h] at hnat
        exact absurd hnat.symm hpos.ne'
      · omega
      · omega

theorem takeIds_eq_some_iff (hlim : limit ≤ 255) {n : Nat} {ids : List Bytes} :
    takeIds limit n s = some (ids, rest) ↔
      (ids.length = n ∧ ∀ id ∈ ids, IsId limit id) ∧ s = ids.flatMap putId ++ rest := by
  induction n generalizing s rest ids with
  | zero =>
    rw [takeIds, Option.some.injEq, Prod.mk.injEq, length_eq_zero_iff]
    constructor
    · rintro ⟨rfl, rfl⟩
      exact ⟨⟨rfl, fun id hid => absurd hid not_mem_nil⟩, rfl⟩
    · rintro ⟨⟨rfl, -⟩, rfl⟩
      exact ⟨rfl, rfl⟩
  | succ n ih =>
    simp only [takeIds, Option.bind_eq_bind, Option.bind_eq_some_iff, Prod.exists,
      takeId_eq_some_iff hlim, ih, Option.some.injEq, Prod.mk.injEq]
    constructor
    · rintro ⟨id, s₁, ⟨hid, rfl⟩, ids', s₂, ⟨⟨rfl, hids⟩, rfl⟩, rfl, rfl⟩
      exact ⟨⟨rfl, forall_mem_cons.mpr ⟨hid, hids⟩⟩, by simp⟩
    · rintro ⟨⟨hlen, hids⟩, rfl⟩
      obtain ⟨id, ids', rfl⟩ := exists_of_length_succ ids hlen
      rw [forall_mem_cons] at hids
      refine ⟨id, _, ⟨hids.1, ?_⟩, ids', rest, ⟨⟨by simpa using hlen, hids.2⟩, rfl⟩, rfl, rfl⟩
      simp

/-! ## Envelopes -/

/-- `encode_header`. -/
def encodeHeader (e : Envelope) (payloadLen : Nat) : Bytes :=
  putWord e.version ++ putWord e.type.code ++ putWord (if e.encrypted then 1 else 0 : Word 1) ++
    putWord e.keyId ++ putWord e.ttl ++ putWord e.nonce ++ putWord e.timestampMs ++
    putWord e.messageId ++ putId e.source ++ putId e.destination ++
    putWord (.ofNat _ e.route.length : Word 1) ++ putWord e.routePos ++ e.route.flatMap putId ++
    putWord (.ofNat _ payloadLen : Word 4)

/-- `encode_envelope`; nothing when it throws. -/
def encodeEnvelope (e : Envelope) : Option Bytes :=
  if e.version ≠ 1 then none
  else if e.source = [] ∨ 255 < e.source.length ∨ e.destination = [] ∨
    255 < e.destination.length then
    none
  else if 255 < e.route.length ∨ e.route.length < e.routePos.toNat then none
  else if ∃ hop ∈ e.route, hop = [] ∨ 255 < hop.length then none
  else if 2 ^ 32 - 1 < e.payload.length then none
  else some (encodeHeader e e.payload.length ++ e.payload)

/-- The fields of an envelope, with the number of its type. -/
def takeFields (limits : NodeRouterOptions) (s : Bytes) : Option (Word 1 × Envelope) := do
  let (version, s) ← takeWord 1 s
  let (type, s) ← takeWord 1 s
  let (flags, s) ← takeWord 1 s
  guard (flags &&& ~~~1 = 0)
  let (keyId, s) ← takeWord 1 s
  let (ttl, s) ← takeWord 4 s
  let (nonce, s) ← takeWord 4 s
  let (timestampMs, s) ← takeWord 8 s
  let (messageId, s) ← takeWord 8 s
  let (source, s) ← takeId limits.maxNodeIdBytes s
  let (destination, s) ← takeId limits.maxNodeIdBytes s
  let (routeLen, s) ← takeWord 1 s
  let (routePos, s) ← takeWord 1 s
  guard (routeLen.toNat ≤ limits.maxRouteHops ∧ routePos.toNat ≤ routeLen.toNat)
  let (route, s) ← takeIds limits.maxNodeIdBytes routeLen.toNat s
  let (payloadLen, s) ← takeWord 4 s
  guard (payloadLen.toNat = s.length)
  some (type, ⟨version, .data, flags &&& 1 ≠ 0, keyId, ttl, nonce, timestampMs, messageId, source,
    destination, route, routePos, s⟩)

/-- `decode_envelope`. -/
def decodeEnvelope (limits : NodeRouterOptions) (wire : Bytes) : DecodeResult :=
  if wire.length < 28 + 4 ∨ limits.maxEnvelopeBytes < wire.length then .malformed
  else if wire.head? ≠ some 1 then .unknownVersion
  else
    match takeFields limits wire with
    | none => .malformed
    | some (type, e) =>
      match MessageType.ofCode? type with
      | none => .okUnknownType e
      | some type => .ok { e with type }

/-- The sizes of an envelope are within the limits of a router. -/
structure Envelope.Fits (e : Envelope) (limits : NodeRouterOptions) : Prop where
  source : IsId limits.maxNodeIdBytes e.source
  destination : IsId limits.maxNodeIdBytes e.destination
  route : e.route.length ≤ limits.maxRouteHops
  hops : ∀ hop ∈ e.route, IsId limits.maxNodeIdBytes hop

theorem MessageType.ofCode?_eq_some_iff {code : Word 1} {type : MessageType} :
    ofCode? code = some type ↔ code = type.code := by
  revert code
  cases type <;> decide

theorem flags_eq_of_reserved {flags : Word 1} (h : flags &&& ~~~1 = 0) :
    (if flags &&& 1 ≠ 0 then 1 else 0) = flags := by
  revert flags
  decide

variable {limits : NodeRouterOptions} {code : Word 1} {e : Envelope}

section

variable {α : Type} {a : α}

/-- A field is taken, and the rest is gone on with. -/
theorem takeWord_bind {w : Nat} {f : Word w × Bytes → Option α} :
    takeWord w s >>= f = some a ↔ ∃ v rest, s = putWord v ++ rest ∧ f (v, rest) = some a := by
  simp only [Option.bind_eq_bind, Option.bind_eq_some_iff, Prod.exists, takeWord_eq_some_iff]

theorem takeId_bind (hlim : limit ≤ 255) {f : Bytes × Bytes → Option α} :
    takeId limit s >>= f = some a ↔
      ∃ id rest, (IsId limit id ∧ s = putId id ++ rest) ∧ f (id, rest) = some a := by
  simp only [Option.bind_eq_bind, Option.bind_eq_some_iff, Prod.exists, takeId_eq_some_iff hlim]

theorem takeIds_bind (hlim : limit ≤ 255) {n : Nat} {f : List Bytes × Bytes → Option α} :
    takeIds limit n s >>= f = some a ↔ ∃ ids rest,
      ((ids.length = n ∧ ∀ id ∈ ids, IsId limit id) ∧ s = ids.flatMap putId ++ rest) ∧
        f (ids, rest) = some a := by
  simp only [Option.bind_eq_bind, Option.bind_eq_some_iff, Prod.exists, takeIds_eq_some_iff hlim]

theorem guard_bind {p : Prop} [Decidable p] {f : Unit → Option α} :
    guard p >>= f = some a ↔ p ∧ f () = some a := by
  by_cases hp : p
  · simp [guard, hp]
  · simp [guard, hp]

end

theorem ofNat_toNat_eq {w n : Nat} {v : Word w} (h : v.toNat = n) : BitVec.ofNat (8 * w) n = v := by
  rw [← h, BitVec.ofNat_toNat, BitVec.setWidth_eq]

/-- The fields that are found are those that were written. -/
theorem takeFields_eq_some (hlim : limits.maxNodeIdBytes ≤ 255)
    (h : takeFields limits s = some (code, e)) :
    s[1]? = some (UInt8.ofNat code.toNat) ∧ e.Fits limits ∧ e.routePos.toNat ≤ e.route.length ∧
      e.route.length < 2 ^ 8 ∧ e.payload.length < 2 ^ 32 ∧ ∀ type, code = MessageType.code type →
        s = encodeHeader { e with type } e.payload.length ++ e.payload := by
  obtain ⟨version, s₁, rfl, h₁⟩ := takeWord_bind.mp h
  obtain ⟨code, s₂, rfl, h₂⟩ := takeWord_bind.mp h₁
  obtain ⟨flags, s₃, rfl, h₃⟩ := takeWord_bind.mp h₂
  obtain ⟨hflags, h₄⟩ := guard_bind.mp h₃
  obtain ⟨keyId, s₅, rfl, h₅⟩ := takeWord_bind.mp h₄
  obtain ⟨ttl, s₆, rfl, h₆⟩ := takeWord_bind.mp h₅
  obtain ⟨nonce, s₇, rfl, h₇⟩ := takeWord_bind.mp h₆
  obtain ⟨timestampMs, s₈, rfl, h₈⟩ := takeWord_bind.mp h₇
  obtain ⟨messageId, s₉, rfl, h₉⟩ := takeWord_bind.mp h₈
  obtain ⟨source, t₁, ⟨hsource, rfl⟩, g₁⟩ := (takeId_bind hlim).mp h₉
  obtain ⟨destination, t₂, ⟨hdest, rfl⟩, g₂⟩ := (takeId_bind hlim).mp g₁
  obtain ⟨routeLen, t₃, rfl, g₃⟩ := takeWord_bind.mp g₂
  obtain ⟨routePos, t₄, rfl, g₄⟩ := takeWord_bind.mp g₃
  obtain ⟨⟨hroute, hpos⟩, g₅⟩ := guard_bind.mp g₄
  obtain ⟨route, t₆, ⟨⟨hlen, hhops⟩, rfl⟩, g₆⟩ := (takeIds_bind hlim).mp g₅
  obtain ⟨payloadLen, t₇, rfl, g₇⟩ := takeWord_bind.mp g₆
  obtain ⟨hpay, g₈⟩ := guard_bind.mp g₇
  obtain ⟨rfl, rfl⟩ := Prod.mk.inj (Option.some.inj g₈)
  refine ⟨rfl, ⟨hsource, hdest, hlen.trans_le hroute, hhops⟩, hpos.trans hlen.ge,
    hlen ▸ routeLen.isLt, hpay ▸ payloadLen.isLt, fun type htype => ?_⟩
  simp only [encodeHeader, decide_eq_true_eq, flags_eq_of_reserved hflags, ← htype,
    ofNat_toNat_eq hlen.symm, ofNat_toNat_eq hpay, append_assoc]

theorem takeFields_encodeHeader (hlim : limits.maxNodeIdBytes ≤ 255) (hfits : e.Fits limits)
    (hpos : e.routePos.toNat ≤ e.route.length) (hroute : e.route.length < 2 ^ 8)
    (hpay : e.payload.length < 2 ^ 32) :
    takeFields limits (encodeHeader e e.payload.length ++ e.payload) =
      some (e.type.code, { e with type := .data }) := by
  have hlen : (BitVec.ofNat (8 * 1) e.route.length).toNat = e.route.length := by
    rw [BitVec.toNat_ofNat, Nat.mod_eq_of_lt hroute]
  simp only [encodeHeader, append_assoc]
  iterate 3 refine takeWord_bind.mpr ⟨_, _, rfl, ?_⟩
  refine guard_bind.mpr ⟨by split <;> decide, ?_⟩
  iterate 5 refine takeWord_bind.mpr ⟨_, _, rfl, ?_⟩
  refine (takeId_bind hlim).mpr ⟨_, _, ⟨hfits.source, rfl⟩, ?_⟩
  refine (takeId_bind hlim).mpr ⟨_, _, ⟨hfits.destination, rfl⟩, ?_⟩
  iterate 2 refine takeWord_bind.mpr ⟨_, _, rfl, ?_⟩
  refine guard_bind.mpr ⟨⟨hlen.trans_le hfits.route, hpos.trans hlen.ge⟩, ?_⟩
  refine (takeIds_bind hlim).mpr ⟨_, _, ⟨⟨hlen.symm, hfits.hops⟩, rfl⟩, ?_⟩
  refine takeWord_bind.mpr ⟨_, _, rfl, guard_bind.mpr ⟨?_, ?_⟩⟩
  · rw [BitVec.toNat_ofNat, Nat.mod_eq_of_lt hpay]
  · have hflag : decide ((if e.encrypted then 1 else 0 : Word 1) &&& 1 ≠ 0) = e.encrypted := by
      cases e.encrypted <;> decide
    simp only [hflag]

theorem encodeEnvelope_eq_some_iff {wire : Bytes} :
    encodeEnvelope e = some wire ↔ e.version = 1 ∧ (IsId 255 e.source ∧ IsId 255 e.destination) ∧
      (e.route.length < 2 ^ 8 ∧ e.routePos.toNat ≤ e.route.length) ∧
      (∀ hop ∈ e.route, IsId 255 hop) ∧
        e.payload.length < 2 ^ 32 ∧ encodeHeader e e.payload.length ++ e.payload = wire := by
  have hid : ∀ id, IsId 255 id ↔ ¬ (id = [] ∨ 255 < id.length) := fun id => by
    rw [not_or, Nat.not_lt]
    exact ⟨fun h => ⟨h.ne_nil, h.length_le⟩, fun h => ⟨h.1, h.2⟩⟩
  simp only [encodeEnvelope, Option.ite_none_left_eq_some, Option.some.injEq, hid, ne_eq,
    not_not, not_or,
    not_exists, not_and, Nat.not_lt, and_assoc, Nat.lt_iff_le_pred (Nat.two_pow_pos _)]

theorem word_eq_of_ofNat {v w : Word 1} (h : UInt8.ofNat v.toNat = UInt8.ofNat w.toNat) :
    v = w := by
  have hnat := congrArg UInt8.toNat h
  rw [UInt8.toNat_ofNat', UInt8.toNat_ofNat', Nat.mod_eq_of_lt v.isLt,
    Nat.mod_eq_of_lt w.isLt] at hnat
  exact BitVec.eq_of_toNat_eq hnat

theorem version_of_head? {v : Word 1} (h : (putWord v ++ rest).head? = some 1) : v = 1 :=
  word_eq_of_ofNat (Option.some.inj h)

/-- The bytes an envelope was decoded from are its encoding. -/
theorem encodeEnvelope_of_decodeEnvelope (hlim : limits.maxNodeIdBytes ≤ 255) {wire : Bytes}
    (hdec : decodeEnvelope limits wire = .ok e) : encodeEnvelope e = some wire := by
  rw [decodeEnvelope] at hdec
  split at hdec
  · cases hdec
  · split at hdec
    · cases hdec
    · rename_i hhead
      split at hdec
      · cases hdec
      · rename_i code e' htake
        split at hdec
        · cases hdec
        · rename_i type hcode
          cases hdec
          obtain ⟨-, hfits, hpos, hroute, hpay, hwire⟩ := takeFields_eq_some hlim htake
          obtain rfl := hwire type (MessageType.ofCode?_eq_some_iff.mp hcode)
          have hid : ∀ id, IsId limits.maxNodeIdBytes id → IsId 255 id := fun id h =>
            ⟨h.ne_nil, h.length_le.trans hlim⟩
          refine encodeEnvelope_eq_some_iff.mpr ⟨?_, ⟨hid _ hfits.source, hid _ hfits.destination⟩,
            ⟨hroute, hpos⟩, fun hop h => hid hop (hfits.hops hop h), hpay, rfl⟩
          simp only [encodeHeader, append_assoc] at hhead
          exact version_of_head? (not_not.mp hhead)

/-- **The encoding is canonical**: what a node encodes within the limits of a router is decoded to
the same envelope, and the bytes an envelope was decoded from are its encoding. -/
theorem envelope_canonical (hlim : limits.maxNodeIdBytes ≤ 255) :
    (∀ e wire, encodeEnvelope e = some wire → e.Fits limits →
      wire.length ≤ limits.maxEnvelopeBytes →
      decodeEnvelope limits wire = .ok e) ∧
    ∀ e wire, decodeEnvelope limits wire = .ok e → encodeEnvelope e = some wire := by
  constructor
  · intro e wire henc hfits hlen
    obtain ⟨hver, -, ⟨hroute, hpos⟩, -, hpay, rfl⟩ := encodeEnvelope_eq_some_iff.mp henc
    have hfields := takeFields_encodeHeader hlim hfits hpos hroute hpay
    have hmin : ¬ ((encodeHeader e e.payload.length ++ e.payload).length < 28 + 4 ∨
        limits.maxEnvelopeBytes < (encodeHeader e e.payload.length ++ e.payload).length) := by
      simp only [encodeHeader, length_append, length_putWord] at hlen ⊢
      omega
    have hhead : (encodeHeader e e.payload.length ++ e.payload).head? = some 1 := by
      simp only [encodeHeader, hver, append_assoc]
      rfl
    rw [decodeEnvelope, if_neg hmin, if_neg (not_not.mpr hhead), hfields]
    dsimp only
    rw [MessageType.ofCode?_eq_some_iff.mpr rfl]
  · exact fun e wire hdec => encodeEnvelope_of_decodeEnvelope hlim hdec

/-- An ack that has passed the first of its two hops. -/
def routedAck : Envelope :=
  { type := .ack, ttl := 3, nonce := 7, timestampMs := 1700000000000, messageId := 9,
    source := [97], destination := [98], route := [[99], [100, 101]], routePos := 1,
    payload := bytes "pong" }

theorem envelope_canonical_routedAck :
    ∃ wire, encodeEnvelope routedAck = some wire ∧ decodeEnvelope {} wire = .ok routedAck :=
  ⟨_, rfl, (envelope_canonical (by decide)).1 routedAck _ rfl
    ⟨⟨by decide, by decide⟩, ⟨by decide, by decide⟩, by decide,
      fun hop hhop => ⟨by rintro rfl; revert hhop; decide, by revert hop; decide⟩⟩ (by decide)⟩

end ProtoRelay.Node
