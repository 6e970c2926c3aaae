import ProtoRelay.Base.Bytes

/-!
# Snowflake ids

The primary keys of the tables.  What the clock shows during a call is an input of the model; it may
stand still, jump or go back.
-/

namespace ProtoRelay

open List

/-- `TWEPOCH`. -/
def twepoch : Int := 1288834974657

/-- `SnowflakeGenerator`, its numbers as wide as their masks. -/
structure SnowflakeGenerator where
  lastTimestamp : Int := -1
  sequence : Fin 4096 := 0
  workerId : Fin 32
  datacenterId : Fin 32

/-- How a call of `next_id` ends. -/
inductive NextId
  | returns (id : Nat) (after : SnowflakeGenerator)
  /-- the clock has moved backwards -/
  | throws
  /-- the clock has not shown a later millisecond: the call still holds the lock -/
  | waits

namespace SnowflakeGenerator

/-- The constructor; `none` where it throws. -/
def make (workerId datacenterId : Nat) : Option SnowflakeGenerator :=
  if 31 < workerId ∨ 31 < datacenterId then none
  else some { workerId := .ofNat 32 workerId, datacenterId := .ofNat 32 datacenterId }

/-- The generator of `MailSubmissionService`. -/
def forNode (nodeId : Nat) : Option SnowflakeGenerator :=
  if 1023 < nodeId then none else make (nodeId % 32) (nodeId / 32)

variable (g : SnowflakeGenerator)

/-- The id, for a timestamp that is not before the epoch. -/
def assemble : Nat :=
  (g.lastTimestamp - twepoch).toNat <<< 22 ||| g.datacenterId.val <<< 17 |||
    g.workerId.val <<< 12 ||| g.sequence

def issue (timestamp : Int) (sequence : Fin 4096) : NextId :=
  let after := { g with lastTimestamp := timestamp, sequence := sequence }
  .returns after.assemble after

/-- `next_id`, with what the clock shows during the call; `til_next_millis` reads it until it shows
a later millisecond. -/
def nextId : List Int → NextId
  | [] => .waits
  | timestamp :: clock =>
    if timestamp < g.lastTimestamp then .throws
    else if timestamp = g.lastTimestamp then
      if g.sequence + 1 = 0 then
        match clock.find? (g.lastTimestamp < ·) with
        | some later => g.issue later 0
        | none => .waits
      else g.issue timestamp (g.sequence + 1)
    else g.issue timestamp 0

/-- The ids that successive calls return. -/
def ids : SnowflakeGenerator → List (List Int) → List Nat
  | _, [] => []
  | g, clock :: calls =>
    match g.nextId clock with
    | .returns id after => id :: after.ids calls
    | .throws => g.ids calls
    | .waits => []

/-- The node, as the bits of an id have it. -/
def node : Nat := g.datacenterId * 32 + g.workerId

variable {g} {after : SnowflakeGenerator} {id : Nat} {clock : List Int} {calls : List (List Int)}

/-- The fields of an id do not overlap. -/
theorem assemble_eq (g : SnowflakeGenerator) :
    g.assemble = (g.lastTimestamp - twepoch).toNat * 2 ^ 22 + g.node * 2 ^ 12 + g.sequence := by
  have hor (a : Nat) {b : Nat} (i : Nat) (hb : b < 2 ^ i) : a * 2 ^ i ||| b = a * 2 ^ i + b := by
    rw [← Nat.shiftLeft_eq, Nat.shiftLeft_add_eq_or_of_lt hb]
  unfold assemble node
  simp only [Nat.shiftLeft_eq, Nat.or_assoc]
  -- from the right, where each field is below the shift of the next
  rw [hor _ 12 (by omega), hor _ 17 (by omega), hor _ 22 (by omega)]
  omega

/-- The state behind a call that returns: its timestamp is one the clock has shown, and with the
sequence number it is later than before. -/
structure Follows (g after : SnowflakeGenerator) (clock : List Int) : Prop where
  node : after.node = g.node
  shown : after.lastTimestamp ∈ clock
  later : g.lastTimestamp < after.lastTimestamp ∨
    g.lastTimestamp = after.lastTimestamp ∧ g.sequence < after.sequence

/-- **What a call does that returns.** -/
theorem nextId_eq_returns (h : g.nextId clock = .returns id after) :
    id = after.assemble ∧ g.Follows after clock := by
  cases clock with
  | nil => cases h
  | cons timestamp clock =>
    rw [nextId] at h
    split at h
    · cases h
    · split at h
      · next hsame =>
        split at h
        · split at h
          · next later hlater =>
            cases h
            have hlt := find?_some hlater
            exact ⟨rfl, rfl, .tail _ (mem_of_find?_eq_some hlater), .inl (of_decide_eq_true hlt)⟩
          · cases h
        · next hne =>
          cases h
          refine ⟨rfl, rfl, mem_cons_self, .inr ⟨hsame.symm, ?_⟩⟩
          dsimp only
          omega
      · cases h
        exact ⟨rfl, rfl, mem_cons_self, .inl (by dsimp only; omega)⟩

theorem assemble_lt (h : g.Follows after clock) (hepoch : twepoch ≤ g.lastTimestamp) :
    g.assemble < after.assemble := by
  rw [assemble_eq, assemble_eq, h.node]
  rcases h.later with hlt | ⟨heq, hlt⟩
  · omega
  · rw [heq]
    omega

/-- **The ids of a generator are those of states that follow it.** -/
theorem exists_of_mem_ids (h : id ∈ g.ids calls) :
    ∃ after, id = after.assemble ∧ g.Follows after calls.flatten := by
  induction calls generalizing g with
  | nil => cases h
  | cons clock calls ih =>
    unfold ids at h
    split at h
    · next next_ hnext =>
      obtain ⟨rfl, hfollows⟩ := nextId_eq_returns hnext
      rcases mem_cons.mp h with rfl | h
      · exact ⟨next_, rfl, hfollows.node, mem_append_left _ hfollows.shown, hfollows.later⟩
      · obtain ⟨after, rfl, hafter⟩ := ih h
        refine ⟨after, rfl, hafter.node.trans hfollows.node, mem_append_right _ hafter.shown, ?_⟩
        have h₁ := hfollows.later
        have h₂ := hafter.later
        omega
    · obtain ⟨after, rfl, hafter⟩ := ih h
      exact ⟨after, rfl, hafter.node, mem_append_right _ hafter.shown, hafter.later⟩
    · cases h

/-- Every reading is from the epoch on, and the milliseconds fit in 41 bits. -/
def InRange (calls : List (List Int)) : Prop :=
  ∀ t ∈ calls.flatten, twepoch ≤ t ∧ (t - twepoch).toNat < 2 ^ 41

theorem pairwise_ids (h : InRange calls) : (g.ids calls).Pairwise (· < ·) := by
  induction calls generalizing g with
  | nil => exact .nil
  | cons clock calls ih =>
    have hrest : InRange calls := fun t ht => h t (mem_append_right _ ht)
    unfold ids
    split
    · next hnext =>
      obtain ⟨rfl, hfollows⟩ := nextId_eq_returns hnext
      refine .cons (fun id hid => ?_) (ih hrest)
      obtain ⟨last, rfl, hlast⟩ := exists_of_mem_ids hid
      exact assemble_lt hlast (h _ (mem_append_left _ hfollows.shown)).1
    · exact ih hrest
    · exact .nil

/-- The bits of the node in an id; in range, an id fits in an `int64_t`. -/
theorem of_mem_ids (hid : id ∈ g.ids calls) :
    id / 2 ^ 12 % 1024 = g.node ∧ (InRange calls → id < 2 ^ 63) := by
  obtain ⟨after, rfl, hafter⟩ := exists_of_mem_ids hid
  rw [assemble_eq, hafter.node]
  unfold node
  refine ⟨by omega, fun h => ?_⟩
  have ht := h _ hafter.shown
  omega

theorem node_of_forNode {nodeId : Nat} (h : forNode nodeId = some g) : g.node = nodeId := by
  unfold forNode make at h
  split at h
  · cases h
  · split at h
    · cases h
    · cases h
      simp only [node, Fin.val_ofNat]
      omega

end SnowflakeGenerator

open SnowflakeGenerator

/-- **Ids are unique**: those of one generator grow and fit in 63 bits, and generators of different
nodes have none in common. -/
theorem snowflake_ids_unique :
    (∀ (g : SnowflakeGenerator) (calls : List (List Int)), InRange calls →
      (g.ids calls).Pairwise (· < ·) ∧ ∀ id ∈ g.ids calls, id < 2 ^ 63) ∧
    ∀ (m n : Nat) (g h : SnowflakeGenerator) (calls calls' : List (List Int)), m ≠ n →
      forNode m = some g → forNode n = some h → InRange calls → InRange calls' →
        (g.ids calls).Disjoint (h.ids calls') := by
  refine ⟨fun g calls hrange => ⟨pairwise_ids hrange, fun id hid => (of_mem_ids hid).2 hrange⟩, ?_⟩
  intro m n g h calls calls' hne hg hh _ _ id hid hid'
  have hnode := (of_mem_ids hid).1.symm.trans (of_mem_ids hid').1
  exact hne ((node_of_forNode hg).symm.trans (hnode.trans (node_of_forNode hh)))

/-- Two nodes, with a clock that stands still. -/
theorem snowflake_ids_unique_nodes : ∃ g h, forNode 0 = some g ∧ forNode 1 = some h ∧
    (g.ids [[twepoch], [twepoch]]).Pairwise (· < ·) ∧
    (g.ids [[twepoch], [twepoch]]).Disjoint (h.ids [[twepoch], [twepoch]]) := by
  have hrange : InRange [[twepoch], [twepoch]] := by simp [InRange, twepoch]
  exact ⟨_, _, rfl, rfl, (snowflake_ids_unique.1 _ _ hrange).1,
    snowflake_ids_unique.2 0 1 _ _ _ _ (by decide) rfl rfl hrange hrange⟩

end ProtoRelay
