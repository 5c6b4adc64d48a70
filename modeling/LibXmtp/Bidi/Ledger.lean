import LibXmtp.Bidi.TransportBinding
import LibXmtp.Data.HashEntry
import LibXmtp.Data.HashSet
import LibXmtp.Subscriptions.Waves

namespace LibXmtp.Bidi

open LibXmtp.Data LibXmtp.Types
open LibXmtp.Subscriptions (maxMutateTopics maxMutateBytes)

structure LeaseId where
  id : Nat
  deriving DecidableEq

structure WaveId where
  id : Nat
  deriving DecidableEq

inductive DeliveryKind
  | group
  | welcome
  deriving DecidableEq

inductive LeaseEvent (M : DeliveryKind → Type)
  | messages (kind : DeliveryKind) (messages : List (M kind))
  | topicsLive (topics : List Topic)
  | catchUpComplete

/-- The bounded channel to the consumer of a lease, with everything that was ever sent on it. -/
structure Sender (M : DeliveryKind → Type) where
  depth : Nat
  /-- How many events the consumer has taken when the `n`-th one is offered, if it is still there. -/
  received : Nat → Option Nat := fun _ => some 0
  offered : Nat := 0
  sent : List (LeaseEvent M) := []

inductive WaveOwner
  | lease (id : LeaseId)
  | resume
  deriving DecidableEq

structure PendingWave (C : Type) where
  owner : WaveOwner
  claims : HashMap Topic C := .empty
  holds : List LeaseId := []

structure LeaseState (M : DeliveryKind → Type) (C : Type) where
  tx : Sender M
  topics : List Topic
  floors : HashMap Topic C
  liveSnap : HashMap Topic C := .empty
  replayed : HashMap Topic C := .empty
  held : (kind : DeliveryKind) → HashMap Topic (List (Nat × M kind)) := fun _ => .empty
  withheldSeq : Nat := 0
  preexisting : List WaveId := []
  caughtUp : Bool := false

structure Ledger (M : DeliveryKind → Type) (C : Type) where
  leases : HashMap LeaseId (LeaseState M C) := .empty
  byTopic : HashMap Topic (HashSet LeaseId) := .empty
  lastSeen : HashMap Topic C := .empty
  pendingWaves : HashMap WaveId (PendingWave C) := .empty
  nextLease : Nat := 0
  nextWave : Nat := 1
  chunkCap : Nat := maxMutateTopics
  chunkBytes : Nat := maxMutateBytes

variable {M : DeliveryKind → Type} {C : Type}

/-- Whether replay history of the topic is still owed to the lease. Without a snapshot it is owed
until the catch-up completes. -/
def LeaseState.owedOn (B : TransportBinding C) (state : LeaseState M C) (topic : Topic) : Bool :=
  if state.caughtUp then false else
    match state.liveSnap.get topic with
    | none => true
    | some snap =>
      ((state.floors.get topic).all fun floor => !B.covers floor snap) &&
        !(state.replayed.get topic).any fun replayed => B.covers replayed snap

namespace Ledger

def Holds (ledger : Ledger M C) (topic : Topic) (id : LeaseId) : Prop :=
  ∃ holders, ledger.byTopic.get topic = some holders ∧ id ∈ holders.entries

/-- The two sides of the ledger agree on who holds what, and every lease has a floor for every
topic it holds. -/
structure WellFormed (ledger : Ledger M C) : Prop where
  floors : ∀ id state, ledger.leases.get id = some state →
    ∀ topic ∈ state.topics, (state.floors.get topic).isSome = true
  holds_iff : ∀ topic id,
    ledger.Holds topic id ↔ ∃ state, ledger.leases.get id = some state ∧ topic ∈ state.topics
  nonempty : ∀ topic holders, ledger.byTopic.get topic = some holders → holders.entries ≠ []

def isWellFormed (ledger : Ledger M C) : Bool :=
  (ledger.leases.entries.all fun (id, state) => state.topics.all fun topic =>
    (state.floors.get topic).isSome &&
      (ledger.byTopic.get topic).any fun holders => holders.entries.contains id) &&
  ledger.byTopic.entries.all fun (topic, holders) =>
    !holders.entries.isEmpty && holders.entries.all fun id =>
      (ledger.leases.get id).any fun state => state.topics.contains topic

theorem wellFormed_of_isWellFormed {ledger : Ledger M C} (h : ledger.isWellFormed = true) :
    ledger.WellFormed := by
  rw [isWellFormed, Bool.and_eq_true, List.all_eq_true, List.all_eq_true] at h
  obtain ⟨hleases, htopics⟩ := h
  have hlease : ∀ id state, ledger.leases.get id = some state → ∀ topic ∈ state.topics,
      (state.floors.get topic).isSome = true ∧ ledger.Holds topic id := by
    intro id state hstate topic htopic
    have hentry := hleases (id, state) (HashMap.get_eq_some_iff.mp hstate)
    rw [List.all_eq_true] at hentry
    obtain ⟨hfloor, hholds⟩ := Bool.and_eq_true_iff.mp (hentry topic htopic)
    obtain ⟨holders, hholders, hmem⟩ := (Option.any_eq_true _ _).mp hholds
    exact ⟨hfloor, holders, hholders, List.contains_iff_mem.mp hmem⟩
  have htopic : ∀ topic holders, ledger.byTopic.get topic = some holders →
      holders.entries ≠ [] ∧ ∀ id ∈ holders.entries,
        ∃ state, ledger.leases.get id = some state ∧ topic ∈ state.topics := by
    intro topic holders hholders
    have hentry := htopics (topic, holders) (HashMap.get_eq_some_iff.mp hholders)
    obtain ⟨hne, hall⟩ := Bool.and_eq_true_iff.mp hentry
    refine ⟨by simpa using hne, ?_⟩
    intro id hid
    obtain ⟨state, hstate, hmem⟩ := (Option.any_eq_true _ _).mp (List.all_eq_true.mp hall id hid)
    exact ⟨state, hstate, List.contains_iff_mem.mp hmem⟩
  refine ⟨fun id state hstate topic ht => (hlease id state hstate topic ht).1, ?_,
    fun topic holders hholders => (htopic topic holders hholders).1⟩
  intro topic id
  constructor
  · rintro ⟨holders, hholders, hmem⟩
    exact (htopic topic holders hholders).2 id hmem
  · rintro ⟨state, hstate, ht⟩
    exact (hlease id state hstate topic ht).2

end Ledger

end LibXmtp.Bidi
