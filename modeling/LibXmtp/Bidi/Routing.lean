import LibXmtp.Bidi.Completion

namespace LibXmtp.Bidi

open LibXmtp.Data LibXmtp.Types

inductive WireEvent (M : DeliveryKind → Type)
  | started
  | catchUpComplete (mutateId : Nat)
  | topicsLive (topics : List Topic)
  | messages (kind : DeliveryKind) (batch : List (M kind)) (mutateId : Nat)

def withheldFramesCap : Nat := 512

variable {M : DeliveryKind → Type} {C : Type} (order : HashOrder) (W : WireBinding M C)

section Frames

variable {kind : DeliveryKind}

namespace LeaseState

def setHeld (state : LeaseState M C) (kind : DeliveryKind)
    (held : HashMap Topic (List (Nat × M kind))) : LeaseState M C :=
  { state with held := fun kind' => if h : kind = kind' then h ▸ held else state.held kind' }

def withheld (state : LeaseState M C) : Nat :=
  ((state.held .group).values.map List.length).sum +
    ((state.held .welcome).values.map List.length).sum

def withhold (state : LeaseState M C) (topic : Topic) (message : M kind) : LeaseState M C :=
  { state.setHeld kind ((state.held kind).modifyOr topic (· ++ [(state.withheldSeq, message)])
      [(state.withheldSeq, message)]) with
    withheldSeq := state.withheldSeq + 1 }

def advanceReplayed (state : LeaseState M C) (topic : Topic) (cursor : C) : LeaseState M C :=
  { state with replayed := state.replayed.modifyOr topic (fun r => W.advance r cursor) cursor }

/-- The withheld frames that a frame covers join the feed ahead of it, unless they are copies of
it or of what a replay has delivered. -/
def drainBelow (state : LeaseState M C) (topic : Topic) (cursor : C) :
    LeaseState M C × List (M kind) :=
  match (state.held kind).get topic with
  | none => (state, [])
  | some frames =>
    let covered (frame : Nat × M kind) : Bool :=
      (W.cursorOf frame.2).any fun c => W.covers cursor c
    let joins (frame : Nat × M kind) : Bool :=
      (W.cursorOf frame.2).any fun c =>
        !W.covers c cursor && !(state.replayed.get topic).any fun replayed => W.covers replayed c
    (state.setHeld kind ((state.held kind).insert topic (frames.filter fun f => !covered f)),
      (frames.filter fun f => covered f && joins f).map Prod.snd)

def releaseFrame (topic : Topic) (s : LeaseState M C × List (M kind)) (frame : Nat × M kind) :
    LeaseState M C × List (M kind) :=
  match W.cursorOf frame.2 with
  | none => (s.1, s.2 ++ [frame.2])
  | some cursor =>
    if (s.1.replayed.get topic).any fun replayed => W.covers replayed cursor then s
    else (s.1.advanceReplayed W topic cursor, s.2 ++ [frame.2])

def releaseTail (state : LeaseState M C) (topic : Topic) : LeaseState M C × List (M kind) :=
  (((state.held kind).get topic).getD []).foldl (releaseFrame W topic)
    (state.setHeld kind ((state.held kind).remove topic), [])

/-- A frame past the wire position. It is withheld from a lease that is owed history, unless it is
part of a replay whose end is not known. The flag says that the lease withholds too much. -/
def freshFrame (state : LeaseState M C) (rides : Bool) (topic : Topic) (cursor : C)
    (message : M kind) : LeaseState M C × List (M kind) × Bool :=
  if (state.floors.get topic).any fun floor => W.covers floor cursor then (state, [], false)
  else if state.owedOn W.toTransportBinding topic then
    if !rides || state.liveSnap.containsKey topic then
      if withheldFramesCap ≤ state.withheld then
        ({ state with held := fun _ => .empty }, [], true)
      else (state.withhold topic message, [], false)
    else
      let (state, below) := state.drainBelow W topic cursor
      (state.advanceReplayed W topic cursor, below ++ [message], false)
  else (state, [message], false)

def reachable (state : LeaseState M C) (topic : Topic) (claim : C) : Bool :=
  let floor := (state.floors.get topic).getD claim
  let edge := (state.replayed.get topic).elim floor (W.advance floor)
  W.covers edge claim

/-- A replayed frame at or below the wire position. A lease that is catching up takes the part of
it that it asked for and has not received. -/
def owedFrame (state : LeaseState M C) (wave : Option WaveId) (claim : Option C) (topic : Topic)
    (cursor : C) (message : M kind) : LeaseState M C × List (M kind) :=
  let withinSnap := (state.liveSnap.get topic).all fun snap => W.covers snap cursor
  if state.caughtUp || !withinSnap ||
      (state.floors.get topic).any fun floor => W.covers floor cursor then (state, [])
  else if !(claim.any fun claim => state.reachable W topic claim) ||
      wave.any fun wave => state.preexisting.contains wave then (state, [])
  else if (state.replayed.get topic).any fun replayed => W.covers replayed cursor then (state, [])
  else
    let (state, below) := state.drainBelow W topic cursor
    let state := state.advanceReplayed W topic cursor
    let frames := below ++ [message]
    if state.owedOn W.toTransportBinding topic then (state, frames)
    else
      let (state, tail) := state.releaseTail W topic
      (state, frames ++ tail)

end LeaseState

/-- The state of a batch: the ledger, what each lease is to be sent, and the leases to drop. -/
structure Demux (M : DeliveryKind → Type) (C : Type) (kind : DeliveryKind) where
  ledger : Ledger M C
  perLease : HashMap LeaseId (List (M kind))
  dropped : List LeaseId

namespace Demux

def push (s : Demux M C kind) (lease : LeaseId) (frames : List (M kind)) : Demux M C kind :=
  if frames.isEmpty then s
  else { s with perLease := s.perLease.modifyOr lease (· ++ frames) frames }

def untracked (message : M kind) (s : Demux M C kind) (lease : LeaseId) : Demux M C kind :=
  if s.dropped.contains lease then s else s.push lease [message]

def holder (wave : Option WaveId) (riders : Option LeaseId × List LeaseId) (fresh : Bool)
    (claim : Option C) (topic : Topic) (cursor : C) (message : M kind) (s : Demux M C kind)
    (lease : LeaseId) : Demux M C kind :=
  if s.dropped.contains lease then s
  else
    match s.ledger.leases.get lease with
    | none => s
    | some state =>
      let rides := riders.1 == some lease || riders.2.contains lease
      let (state, frames, overflow) :=
        if fresh then state.freshFrame W rides topic cursor message
        else
          let (state, frames) := state.owedFrame W wave claim topic cursor message
          (state, frames, false)
      let s := { s with
        ledger := { s.ledger with leases := s.ledger.leases.insert lease state }
        dropped := if overflow then s.dropped ++ [lease] else s.dropped }
      s.push lease frames

def message (wave : Option WaveId) (riders : Option LeaseId × List LeaseId) (s : Demux M C kind)
    (message : M kind) : Demux M C kind :=
  match W.topicOf message with
  | none => s
  | some topic =>
    match s.ledger.byTopic.get topic with
    | none => s
    | some holders =>
      match W.cursorOf message with
      | none => (order.iterate holders.entries).foldl (untracked message) s
      | some cursor =>
        let fresh := !(s.ledger.lastSeen.get topic).any fun seen => W.covers seen cursor
        let claim := do
          let pending ← s.ledger.pendingWaves.get (← wave)
          pending.claims.get topic
        -- the live lane never overlaps a replay
        if wave.isNone && !fresh then s
        else
          let s := (order.iterate holders.entries).foldl
            (holder W wave riders fresh claim topic cursor message) s
          let lastSeen := s.ledger.lastSeen.modifyOr topic (fun seen => W.advance seen cursor) cursor
          { s with ledger := { s.ledger with lastSeen } }

end Demux

end Frames

namespace Ledger

def riders (ledger : Ledger M C) (wave : Option WaveId) : Option LeaseId × List LeaseId :=
  match wave.bind ledger.pendingWaves.get with
  | none => (none, [])
  | some pending =>
    match pending.owner with
    | .lease lease => (some lease, pending.holds)
    | .resume => (none, pending.holds)

def demux {kind : DeliveryKind} (ledger : Ledger M C) (batch : List (M kind)) (mutateId : Nat) :
    Demux M C kind :=
  let wave := if mutateId = 0 then none else some ⟨mutateId⟩
  batch.foldl (Demux.message order W wave (ledger.riders wave)) ⟨ledger, .empty, []⟩

def deliverEach (ledger : Ledger M C) (dropped : List LeaseId)
    (events : List (LeaseId × LeaseEvent M)) : Ledger M C × List LeaseId :=
  events.foldl (fun s event =>
    let (ledger, sent) := s.1.deliver event.1 event.2
    (ledger, if sent then s.2 else s.2 ++ [event.1])) (ledger, dropped)

def liveTopics (ledger : Ledger M C) (topics : List Topic) : HashMap LeaseId (List Topic) :=
  topics.foldl (fun perLease topic =>
    match ledger.byTopic.get topic with
    | none => perLease
    | some holders => (order.iterate holders.entries).foldl (fun perLease lease =>
        if (ledger.leases.get lease).any fun state => state.caughtUp then perLease
        else perLease.modifyOr lease (· ++ [topic]) [topic]) perLease) .empty

def route (ledger : Ledger M C) : WireEvent M → Ledger M C × List LeaseId
  | .started => (ledger, [])
  | .catchUpComplete mutateId =>
    match ledger.pendingWaves.get ⟨mutateId⟩ with
    | none => (ledger, [])
    | some wave =>
      let ledger := { ledger with pendingWaves := ledger.pendingWaves.remove ⟨mutateId⟩ }
      let owner := match wave.owner with
        | .lease lease => [lease]
        | .resume => []
      ledger.completeAll order W [] (owner ++ wave.holds)
  | .topicsLive topics =>
    ledger.deliverEach [] ((order.iterate (ledger.liveTopics order topics).entries).map
      fun (lease, topics) => (lease, .topicsLive topics))
  | .messages kind batch mutateId =>
    let s := ledger.demux order W batch mutateId
    s.ledger.deliverEach s.dropped ((order.iterate s.perLease.entries).map
      fun (lease, messages) => (lease, .messages kind messages))

end Ledger

end LibXmtp.Bidi
