import LibXmtp.Subscriptions.Waves
import LibXmtp.Subscriptions.WelcomeIntake
import Mathlib.Data.Finset.Basic
import Mathlib.Order.Interval.Finset.Nat

namespace LibXmtp.Subscriptions

open LibXmtp.Data LibXmtp.Db LibXmtp.Types

structure OpenError where
  isBackendRefusal : Bool
  isRetryable : Bool

inductive CatchUpError
  | subscribe (error : SubscribeError)
  | unsupported (error : OpenError)
  | deadEnd (error : OpenError)

inductive AttemptEnd
  | complete
  | wireDied

structure CatchUpSummary where
  messages : Nat := 0
  conversations : Nat := 0

structure SurfacedMessage where
  cursor : Cursor
  groupId : Bytes

/-- A message of the wire: the cursor it decodes to, and what its processing comes to. -/
structure GroupDelivery where
  cursor : Option Cursor
  processed : Option (Option SurfacedMessage)

inductive BidiEvent
  | started
  | catchUpComplete (mutateId : Nat)
  | topicsLive (topics : List Topic)
  | groupMessages (messages : List GroupDelivery)
  | welcomeMessages (messages : List (Option WelcomeMessage))

/-- What is read before the wire is opened, and whether it opens. -/
structure Setup where
  installationId : Bytes
  welcomeCursors : Except SubscribeError (HashMap Bytes GlobalCursor)
  groupCursors : Except SubscribeError (List Cursor)
  findGroups : Except SubscribeError (List MlsGroup)
  seedReads : SeedReads SubscribeError
  order : TopicsOrder
  opened : Except OpenError Unit

def welcomeMessagesOriginator : Nat := 11

def welcomeSeed (lastCursors : Except SubscribeError (HashMap Bytes GlobalCursor))
    (installation : Bytes) : Except SubscribeError Nat := do
  let cursors ← lastCursors
  return ((cursors.get installation).getD default).get welcomeMessagesOriginator

def knownWelcomesAbove (groupCursors : Except SubscribeError (List Cursor)) (floor : Nat) :
    Except SubscribeError (List Cursor) := do
  let cursors ← groupCursors
  return cursors.filter fun cursor => floor < cursor.sequenceId

inductive Happening
  | seeded (seeds : GroupSeeds)
  | minted (wave : Mutate)
  | sent (wave : Mutate)
  | delivered (event : BidiEvent)
  | absorbed (welcomes : List WelcomeMessage)
  | resolved (task : ProcessWelcomeFuture) (finish : TaskEnd)
  | drained (event : BidiEvent)

structure Attempt where
  tracked : List Topic
  syncGroups : List Bytes
  seen : List Cursor
  intake : WelcomeIntake
  outstanding : Finset Nat
  nextMutateId : Nat
  queued : List Mutate
  summary : CatchUpSummary

inductive Progress
  | looping (attempt : Attempt)
  | closing (summary : CatchUpSummary)
  | ended (result : Except CatchUpError AttemptEnd) (summary : CatchUpSummary)
  | parked

def isSync (group : MlsGroup) : Bool := group.conversationType == .sync

def openAttempt (setup : Setup) (summary : CatchUpSummary) :
    Except CatchUpError (List Happening × Progress) := do
  let welcomeFloor ← (welcomeSeed setup.welcomeCursors setup.installationId).mapError .subscribe
  let known ← (knownWelcomesAbove setup.groupCursors welcomeFloor).mapError .subscribe
  let groups ← setup.findGroups.mapError .subscribe
  let seeds ← (seedGroups setup.seedReads (groups.map (·.groupId))).mapError .subscribe
  let subs := seeds.subs setup.order ++
    [(Topic.newWelcomeMessage setup.installationId, welcomeFloor)]
  if subs.isEmpty then
    return ([.seeded seeds], .ended (.ok .complete) summary)
  else
    let (opening, overflow) := planCatchUpWaves subs
    match setup.opened with
    | .error e =>
      if e.isBackendRefusal then .error (.unsupported e)
      else if e.isRetryable then return ([.seeded seeds], .ended (.ok .wireDied) summary)
      else .error (.deadEnd e)
    | .ok () =>
      return (.seeded seeds :: .minted opening :: overflow.map .minted ++ [.sent opening],
        .looping {
          tracked := seeds.floors.keys
          syncGroups := (groups.filter isSync).map (·.groupId)
          seen := seeds.seen
          intake := .new welcomeFloor known ⟨none, true, none⟩
          outstanding := Finset.Icc 1 (1 + overflow.length)
          nextMutateId := 2 + overflow.length
          queued := overflow
          summary })

inductive TryMutate
  | accepted
  | full
  | closed

/-- The waves that are sent, and those left in the queue unless the connection is closed. -/
def sendQueued (tryMutate : Mutate → TryMutate) : List Mutate → List Mutate × Option (List Mutate)
  | [] => ([], some [])
  | wave :: queued =>
    match tryMutate wave with
    | .accepted => (wave :: (sendQueued tryMutate queued).1, (sendQueued tryMutate queued).2)
    | .full => ([], some (wave :: queued))
    | .closed => ([], none)

inductive Wake
  | event (event : Option BidiEvent)
  | outcome (task : Nat) (finish : TaskEnd) (seedReads : SeedReads SubscribeError)

structure Turn where
  tryMutate : Mutate → TryMutate
  wake : Wake

namespace Attempt

def processGroupMessage (this : Attempt) (delivery : GroupDelivery) : Attempt :=
  match delivery.cursor with
  | none => this
  | some cursor =>
    if this.seen.contains cursor then this
    else
      match delivery.processed with
      | some (some message) =>
        { this with
          seen := message.cursor :: cursor :: this.seen
          summary := if this.syncGroups.contains message.groupId then this.summary else
            { this.summary with messages := this.summary.messages + 1 } }
      | _ => { this with seen := cursor :: this.seen }

def processGroupBatch (this : Attempt) (batch : List GroupDelivery) : Attempt :=
  batch.foldl processGroupMessage this

variable (this : Attempt)

def receive (event : BidiEvent) : List Happening × Progress :=
  match event with
  | .groupMessages messages => ([.delivered event], .looping (this.processGroupBatch messages))
  | .welcomeMessages messages =>
    match this.intake.absorbBatch messages with
    | (intake, true) =>
      ([.delivered event, .absorbed (this.intake.fresh messages)], .looping { this with intake })
    | (_, false) => ([.delivered event], .ended (.ok .wireDied) this.summary)
  | .catchUpComplete mutateId =>
    ([.delivered event], .looping { this with outstanding := this.outstanding.erase mutateId })
  | .started => ([.delivered event], .looping this)
  | .topicsLive _ => ([.delivered event], .looping this)

def noteSync (group : MlsGroup) : Attempt :=
  if isSync group then { this with syncGroups := group.groupId :: this.syncGroups } else this

def countConversation (group : MlsGroup) : Attempt :=
  if isSync group then this else
    { this with summary.conversations := this.summary.conversations + 1 }

def follow (order : TopicsOrder) (topic : Topic) (seeds : GroupSeeds) :
    List Happening × Attempt :=
  let wave := historyOnlyMutate (seeds.subs order) this.nextMutateId
  ([.seeded seeds, .minted wave],
    { this with
      seen := seeds.seen ++ this.seen
      tracked := topic :: this.tracked
      nextMutateId := this.nextMutateId + 1
      outstanding := insert this.nextMutateId this.outstanding
      queued := this.queued ++ [wave] })

def surface (order : TopicsOrder) (group : MlsGroup) (seedReads : SeedReads SubscribeError) :
    Except SubscribeError (List Happening × Attempt) × CatchUpSummary :=
  let this := this.noteSync group
  let topic := Topic.newGroupMessage group.groupId
  if this.tracked.contains topic then (.ok ([], this), this.summary)
  else
    let this := this.countConversation group
    (this.follow order topic <$> seedGroups seedReads [group.groupId], this.summary)

def settle (order : TopicsOrder) (outcome : WelcomeOutcome)
    (seedReads : SeedReads SubscribeError) : List Happening × Progress :=
  match outcome.group with
  | none => ([], .looping { this with intake := this.intake.record outcome.seen })
  | some group =>
    match this.surface order group seedReads with
    | (.ok (happenings, this), _) =>
      (happenings, .looping { this with intake := this.intake.record outcome.seen })
    | (.error e, summary) => ([], .ended (.error (.subscribe e)) summary)

def wakeUp (order : TopicsOrder) (wake : Wake) : List Happening × Progress :=
  match wake with
  | .event none => ([], .ended (.ok .wireDied) this.summary)
  | .event (some event) => this.receive event
  | .outcome i finish seedReads =>
    match this.intake.nextOutcome i finish with
    | none => ([], .parked)
    | some (task, .ok outcome, intake) =>
      let (happenings, progress) := { this with intake }.settle order outcome seedReads
      (.resolved task finish :: happenings, progress)
    | some (task, .error _, intake) =>
      ([.resolved task finish], .looping { this with intake })

def owesNothing : Bool :=
  this.outstanding = ∅ && this.queued.isEmpty && this.intake.isIdle

def turn (order : TopicsOrder) (turn : Turn) : List Happening × Progress :=
  match sendQueued turn.tryMutate this.queued with
  | (sent, none) => (sent.map .sent, .ended (.ok .wireDied) this.summary)
  | (sent, some queued) =>
    let this := { this with queued }
    if this.owesNothing then (sent.map .sent, .closing this.summary)
    else
      let (happenings, progress) := this.wakeUp order turn.wake
      (sent.map .sent ++ happenings, progress)

end Attempt

def runTurns (order : TopicsOrder) : Progress → List Turn → List Happening × Progress
  | .looping attempt, turn :: turns =>
    let (happenings, progress) := attempt.turn order turn
    let (rest, progress) := runTurns order progress turns
    (happenings ++ rest, progress)
  | progress, _ => ([], progress)

/-- The attempt with its turns, and what is still read off the wire once it is closing. There is no
result while the attempt is at work. -/
def catchUpAttempt (setup : Setup) (summary : CatchUpSummary) (turns : List Turn)
    (drain : List BidiEvent) :
    List Happening × Option (Except CatchUpError AttemptEnd × CatchUpSummary) :=
  match openAttempt setup summary with
  | .error e => ([], some (.error e, summary))
  | .ok (opening, progress) =>
    match runTurns setup.order progress turns with
    | (happenings, .closing summary) =>
      (opening ++ happenings ++ drain.map .drained, some (.ok .complete, summary))
    | (happenings, .ended result summary) => (opening ++ happenings, some (result, summary))
    | (happenings, _) => (opening ++ happenings, none)

end LibXmtp.Subscriptions
