import LibXmtp.Bidi.Ledger
import LibXmtp.Data.FirstByKey
import Mathlib.Data.List.Sort

/-! What is added again on the wire that replaces a dead one: one wave for each catch-up that was
interrupted, and a resume wave for the other topics. -/

namespace LibXmtp.Bidi

open LibXmtp.Data LibXmtp.Types

variable {M : DeliveryKind → Type} {C : Type}

structure Draft (C : Type) where
  lease : LeaseId
  cands : List (Topic × C)

/-- The cursor a topic is added at, and the index of the draft whose wave carries it. -/
structure TopicPlan (C : Type) where
  meet : C
  best : Nat

structure Reissue (C : Type) where
  lease : LeaseId
  adds : List (Topic × C)

structure ReconnectPlan (C : Type) where
  resumeAdds : List (Topic × C)
  reissues : List (Reissue C)
  /-- Leases that are owed a completion and whose topics are all carried by other leases. -/
  orphans : List LeaseId

/-- The draft takes the topic over if its candidate is not known to cover the cursor so far. -/
def TopicPlan.join (B : TransportBinding C) (idx : Nat) (cursor : C) (plan : TopicPlan C) :
    TopicPlan C :=
  let lower := !B.covers cursor plan.meet
  { meet := B.meet plan.meet cursor, best := if lower then idx else plan.best }

def topicPlans (B : TransportBinding C) (drafts : List (Draft C)) : HashMap Topic (TopicPlan C) :=
  drafts.zipIdx.foldl
    (fun plans (draft, idx) => draft.cands.foldl
      (fun plans (topic, cursor) =>
        plans.modifyOr topic (TopicPlan.join B idx cursor) { meet := cursor, best := idx }) plans)
    .empty

def carriedAdd (plans : HashMap Topic (TopicPlan C)) (idx : Nat) (topic : Topic) :
    Option (Topic × C) := do
  let plan ← plans.get topic
  if plan.best = idx then some (topic, plan.meet) else none

def carriedAdds (plans : HashMap Topic (TopicPlan C)) (draft : Draft C) (idx : Nat) :
    List (Topic × C) :=
  draft.cands.filterMap fun cand => carriedAdd plans idx cand.1

def reissueOf (carried : LeaseId × List (Topic × C)) : Option (Reissue C) :=
  if carried.2.isEmpty then none else some { lease := carried.1, adds := carried.2 }

def orphanOf (carried : LeaseId × List (Topic × C)) : Option LeaseId :=
  if carried.2.isEmpty then some carried.1 else none

namespace Ledger

variable (B : TransportBinding C) (ledger : Ledger M C)

def interrupted : List (WaveId × LeaseId) :=
  (ledger.pendingWaves.entries.filterMap fun (id, wave) =>
    match wave.owner with
    | .lease lease => if ledger.leases.containsKey lease then some (id, lease) else none
    | .resume => none).insertionSort fun a b => a.1.id ≤ b.1.id

def held : List LeaseId :=
  ((ledger.leases.entries.filter fun (id, state) =>
    !state.caughtUp && !ledger.interrupted.any fun wave => wave.2 == id).map Prod.fst).insertionSort
      fun a b => a.id ≤ b.id

def candidate (state : LeaseState M C) (topic : Topic) (floor : C) : C :=
  let owed :=
    match state.liveSnap.get topic with
    | none => true
    | some snap =>
      !B.covers floor snap &&
        (state.replayed.get topic).all fun replayed => !B.covers replayed snap
  if owed then (state.replayed.get topic).elim floor (B.advance floor)
  else (ledger.lastSeen.get topic).getD floor

def cands (state : LeaseState M C) : List (Topic × C) :=
  state.topics.filterMap fun topic =>
    (state.floors.get topic).map fun floor => (topic, ledger.candidate B state topic floor)

def draft (lease : LeaseId) : Option (Draft C) := do
  let state ← ledger.leases.get lease
  if state.caughtUp then none else some { lease, cands := ledger.cands B state }

def drafts : List (Draft C) :=
  (firstByKey id [] (ledger.interrupted.map Prod.snd ++ ledger.held)).filterMap (ledger.draft B)

def caughtUpLine (topic : Topic) (lease : LeaseId) : Option C := do
  let state ← ledger.leases.get lease
  if state.caughtUp then (ledger.lastSeen.get topic).or (state.floors.get topic) else none

def foldCaughtUp (topic : Topic) (plan : TopicPlan C) : TopicPlan C :=
  match ledger.byTopic.get topic with
  | none => plan
  | some holders =>
    { plan with
      meet := (holders.entries.filterMap (ledger.caughtUpLine topic)).foldl B.meet plan.meet }

def plans : HashMap Topic (TopicPlan C) :=
  (topicPlans B (ledger.drafts B)).mapValues (ledger.foldCaughtUp B)

def holderFloors (topic : Topic) (holders : HashSet LeaseId) : List C :=
  holders.entries.filterMap fun lease => do
    let state ← ledger.leases.get lease
    state.floors.get topic

/-- Of a topic on which nothing was ever delivered only the holders' floors are known. -/
def resumeCursor (topic : Topic) (holders : HashSet LeaseId) : Option C :=
  (ledger.lastSeen.get topic).or (B.meetAll (ledger.holderFloors topic holders))

def carried : List (LeaseId × List (Topic × C)) :=
  (ledger.drafts B).zipIdx.map fun (draft, idx) =>
    (draft.lease, carriedAdds (ledger.plans B) draft idx)

def resumeAdds : List (Topic × C) :=
  ledger.byTopic.entries.filterMap fun (topic, holders) =>
    if (ledger.plans B).containsKey topic then none
    else (ledger.resumeCursor B topic holders).map fun cursor => (topic, cursor)

def reconnectPlan : Option (ReconnectPlan C) :=
  if ledger.byTopic.entries.isEmpty then none
  else
    some {
      resumeAdds := ledger.resumeAdds B
      reissues := (ledger.carried B).filterMap reissueOf
      orphans := (ledger.carried B).filterMap orphanOf }

end Ledger

end LibXmtp.Bidi
