import LibXmtp.Bidi.Ledger
import Mathlib.Data.List.Sort

namespace LibXmtp.Bidi

open LibXmtp.Data LibXmtp.Types

structure WireBinding (M : DeliveryKind → Type) (C : Type) extends TransportBinding C where
  topicOf : {kind : DeliveryKind} → M kind → Option Topic
  cursorOf : {kind : DeliveryKind} → M kind → Option C

structure HashOrder where
  iterate : {α : Type} → List α → List α
  iterate_perm : ∀ {α : Type} (as : List α), (iterate as).Perm as

variable {M : DeliveryKind → Type} {C : Type}

def Sender.trySend (tx : Sender M) (event : LeaseEvent M) : Sender M × Bool :=
  let room := (tx.received tx.offered).any fun received => tx.sent.length - received < tx.depth
  ({ tx with
      offered := tx.offered + 1
      sent := if room then tx.sent ++ [event] else tx.sent }, room)

/-- A wave that still brings the lease history: another wave of its own, or one whose claim on a
topic is below the wire position or below the lease's floor. -/
def PendingWave.blocks (B : TransportBinding C) (lastSeen : HashMap Topic C) (lease : LeaseId)
    (state : LeaseState M C) (wave : PendingWave C) : Bool :=
  wave.owner == .lease lease || state.topics.any fun topic =>
    (wave.claims.get topic).any fun claim =>
      ((lastSeen.get topic).any fun line => !B.covers claim line) ||
        (state.floors.get topic).any fun line => !B.covers claim line

def PendingWave.hold (wave : PendingWave C) (lease : LeaseId) : PendingWave C :=
  if wave.holds.contains lease then wave else { wave with holds := wave.holds ++ [lease] }

section Flush

variable (W : WireBinding M C) (state : LeaseState M C)

def LeaseState.withheldTail (kind : DeliveryKind) : List (Nat × M kind) :=
  ((state.held kind).entries.flatMap fun (topic, frames) => frames.filter fun frame =>
    (W.cursorOf frame.2).any fun cursor =>
      !(state.replayed.get topic).any fun replayed => W.covers replayed cursor).insertionSort
        fun a b => a.1 ≤ b.1

def LeaseState.tailEvent (kind : DeliveryKind) : List (LeaseEvent M) :=
  let tail := state.withheldTail W kind
  if tail.isEmpty then [] else [.messages kind (tail.map Prod.snd)]

/-- At most one event of each kind; the kind of the frame that arrived first goes first. -/
def LeaseState.tailEvents : List (LeaseEvent M) :=
  let welcomesFirst : Bool :=
    match (state.withheldTail W .group).head?, (state.withheldTail W .welcome).head? with
    | some group, some welcome => welcome.1 < group.1
    | _, _ => false
  if welcomesFirst then state.tailEvent W .welcome ++ state.tailEvent W .group
  else state.tailEvent W .group ++ state.tailEvent W .welcome

def LeaseState.catchUp : LeaseState M C :=
  { state with caughtUp := true, held := fun _ => .empty, liveSnap := .empty, replayed := .empty }

end Flush

namespace Ledger

variable (order : HashOrder) (W : WireBinding M C)

def deliver (ledger : Ledger M C) (lease : LeaseId) (event : LeaseEvent M) : Ledger M C × Bool :=
  match ledger.leases.get lease with
  | none => (ledger, true)
  | some state =>
    let (tx, sent) := state.tx.trySend event
    ({ ledger with leases := ledger.leases.insert lease { state with tx } }, sent)

def deliverAll (ledger : Ledger M C) (lease : LeaseId) : List (LeaseEvent M) → Ledger M C × Bool
  | [] => (ledger, true)
  | event :: events =>
    let (ledger, sent) := ledger.deliver lease event
    if sent then ledger.deliverAll lease events else (ledger, false)

/-- The lease is caught up, unless a wave still brings it history. Then its completion waits for
that wave. -/
def complete (ledger : Ledger M C) (dropped : List LeaseId) (lease : LeaseId) :
    Ledger M C × List LeaseId :=
  match ledger.leases.get lease with
  | none => (ledger, dropped)
  | some state =>
    if state.caughtUp then (ledger, dropped)
    else
      let blocker := (order.iterate ledger.pendingWaves.entries).find? fun wave =>
        wave.2.blocks W.toTransportBinding ledger.lastSeen lease state
      match blocker with
      | some (id, wave) =>
        ({ ledger with pendingWaves := ledger.pendingWaves.insert id (wave.hold lease) }, dropped)
      | none =>
        let caughtUp := { ledger with leases := ledger.leases.insert lease state.catchUp }
        let (ledger, sent) := caughtUp.deliverAll lease (state.tailEvents W ++ [.catchUpComplete])
        (ledger, if sent then dropped else dropped ++ [lease])

def completeAll (ledger : Ledger M C) (dropped leases : List LeaseId) :
    Ledger M C × List LeaseId :=
  leases.foldl (fun s lease => s.1.complete order W s.2 lease) (ledger, dropped)

def register (ledger : Ledger M C) (topics : List Topic) (floors : HashMap Topic C)
    (tx : Sender M) : Ledger M C × LeaseId :=
  let id : LeaseId := ⟨ledger.nextLease⟩
  ({ ledger with
      nextLease := ledger.nextLease + 1
      byTopic := topics.foldl (fun byTopic topic =>
        byTopic.modifyOr topic (·.insert id) (HashSet.empty.insert id)) ledger.byTopic
      leases := ledger.leases.insert id {
        tx
        topics
        floors
        liveSnap := .ofList (topics.filterMap fun topic =>
          (ledger.lastSeen.get topic).map fun cursor => (topic, cursor))
        preexisting := ledger.pendingWaves.keys } }, id)

def releaseTopic (lease : LeaseId) (s : Ledger M C × List Topic) (topic : Topic) :
    Ledger M C × List Topic :=
  let (ledger, removes) := s
  match ledger.byTopic.get topic with
  | none => (ledger, removes)
  | some holders =>
    let holders := holders.filter (· != lease)
    if holders.entries.isEmpty then
      ({ ledger with
          byTopic := ledger.byTopic.remove topic
          lastSeen := ledger.lastSeen.remove topic }, removes ++ [topic])
    else ({ ledger with byTopic := ledger.byTopic.insert topic holders }, removes)

def forgets (lease : LeaseId) (purged : List WaveId) (id : WaveId) (wave : PendingWave C) : Bool :=
  wave.owner == .lease lease && purged.contains id

def released (ledger : Ledger M C) (lease : LeaseId) (purged : List WaveId) : List LeaseId :=
  ((order.iterate ledger.pendingWaves.entries).filter fun wave =>
    forgets lease purged wave.1 wave.2).flatMap fun wave => wave.2.holds

/-- Nothing is left of the lease, and the topics are listed that nobody holds anymore. -/
def removeLease (ledger : Ledger M C) (lease : LeaseId) (state : LeaseState M C)
    (purged : List WaveId) : Ledger M C × List Topic :=
  state.topics.foldl (releaseTopic lease)
    ({ ledger with
        leases := ledger.leases.remove lease
        pendingWaves := (ledger.pendingWaves.retain fun id wave =>
          !forgets lease purged id wave).mapValues
            fun _ wave => { wave with holds := wave.holds.filter (· != lease) } }, [])

/-- A wave of the lease that never reached the wire is forgotten with it, and the completions that
waited for such a wave are taken up again. -/
def deref (ledger : Ledger M C) (dropped : List LeaseId) (lease : LeaseId)
    (purged : List WaveId) : (Ledger M C × List LeaseId) × List Topic :=
  match ledger.leases.get lease with
  | none => ((ledger, dropped), [])
  | some state =>
    let (rest, removes) := ledger.removeLease lease state purged
    (rest.completeAll order W dropped (ledger.released order lease purged), removes)

end Ledger

end LibXmtp.Bidi
