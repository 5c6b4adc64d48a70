import LibXmtp.Bidi.ReconnectPlan
import LibXmtp.Bidi.Routing
import Mathlib.Logic.Relation

/-! The task that owns a wire and its ledger: what it does on commands, on events of the wire, and
when the wire is replaced. -/

namespace LibXmtp.Bidi

open LibXmtp.Data LibXmtp.Types
open LibXmtp.Subscriptions (chunkByBudget topicWireCost)

variable {M : DeliveryKind → Type} {C : Type}

structure Mutate (C : Type) where
  adds : List (Topic × C) := []
  removes : List Topic := []
  mutateId : WaveId

/-- A wave that is not on the wire yet, with the lease that issued it. -/
structure QueuedWave (C : Type) where
  lease : Option LeaseId
  id : WaveId
  mutate : Mutate C

/-- What handles and leases ask of the task. A lease comes with how far its consumer will have read
at each delivery. -/
inductive Cmd (C : Type)
  | lease (subs : List (Topic × C)) (nonempty : subs ≠ []) (depth : Nat)
    (received : Nat → Option Nat)
  | deref (id : LeaseId)
  | suspend
  | resume (waiter : Nat)

def Cmd.isSuspend : Cmd C → Bool
  | .suspend => true
  | _ => false

inductive DialOutcome
  | opened
  | failed (retryable : Bool)
  | suspended
  | shutdown

structure Dial (C : Type) where
  absorbed : List (Cmd C)
  proceeds : absorbed.any Cmd.isSuspend = false
  outcome : DialOutcome

/-- A caller of `resume()` that has been answered: whether the wire was live then, and whether a
lease was still owed its completion. -/
structure Answered where
  waiter : Nat
  live : Bool
  owed : Bool

structure LedgerTask (M : DeliveryKind → Type) (C : Type) where
  ledger : Ledger M C := {}
  conn : Option (List (Mutate C)) := none
  suspended : Bool := false
  resumeNotify : List Nat := []
  outbox : List (QueuedWave C) := []
  deferred : List (Cmd C) := []
  answered : List Answered := []
  closed : Bool := false

inductive Step (M : DeliveryKind → Type) (C : Type)
  | cmd (cmd : Option (Cmd C))
  | wire (event : Option (WireEvent M))
  | retry
  | reconnect

def LeaseEvent.isCatchUpComplete : LeaseEvent M → Bool
  | .catchUpComplete => true
  | _ => false

def LeaseState.completed (state : LeaseState M C) : Bool :=
  state.tx.sent.any LeaseEvent.isCatchUpComplete

namespace Ledger

structure ChunkWave (C : Type) where
  id : WaveId
  claims : HashMap Topic C
  mutate : Mutate C

def chunkWaves (ledger : Ledger M C) (adds : List (Topic × C)) : List (ChunkWave C) × Ledger M C :=
  let groups := chunkByBudget ledger.chunkCap ledger.chunkBytes (fun add => topicWireCost add.1) adds
  (groups.zipIdx.map fun (group, i) =>
    let id : WaveId := ⟨ledger.nextWave + i⟩
    { id, claims := .ofList group, mutate := { adds := group, mutateId := id } },
    { ledger with nextWave := ledger.nextWave + groups.length })

def addPending (ledger : Ledger M C) (owner : WaveOwner) (chunks : List (ChunkWave C)) :
    Ledger M C :=
  { ledger with
    pendingWaves := chunks.foldl (fun waves chunk =>
      waves.insert chunk.id { owner, claims := chunk.claims }) ledger.pendingWaves }

def catching (ledger : Ledger M C) : Nat := ledger.leases.entries.countP fun e => !e.2.caughtUp

end Ledger

namespace LedgerTask

def answerAll (task : LedgerTask M C) : LedgerTask M C :=
  let owed := task.ledger.leases.values.any fun state => !state.completed
  { task with
    resumeNotify := []
    answered := task.answered ++
      task.resumeNotify.map fun waiter => { waiter, live := task.conn.isSome, owed } }

def settleIdleWaiters (task : LedgerTask M C) : LedgerTask M C :=
  if task.ledger.leases.entries.isEmpty then
    answerAll { task with ledger := { task.ledger with pendingWaves := .empty } }
  else task

def settleCaughtUpWaiters (task : LedgerTask M C) : LedgerTask M C :=
  if task.conn.isNone || !task.ledger.pendingWaves.entries.isEmpty then task else task.answerAll

/-- The topics that nobody holds go off the wire, and the wire closes with the last lease. -/
def retire (task : LedgerTask M C) (removes : List Topic) : LedgerTask M C :=
  if task.ledger.leases.entries.isEmpty then { task with outbox := [], conn := none }
  else if removes.isEmpty || task.conn.isNone then task
  else
    let groups := chunkByBudget task.ledger.chunkCap task.ledger.chunkBytes topicWireCost removes
    let ledger := { task.ledger with nextWave := task.ledger.nextWave + groups.length }
    let waves := groups.zipIdx.map fun (group, i) =>
      let id : WaveId := ⟨task.ledger.nextWave + i⟩
      { lease := none, id, mutate := { removes := group, mutateId := id } }
    { task with ledger, outbox := task.outbox ++ waves }

def purge (task : LedgerTask M C) (lease : LeaseId) : List WaveId :=
  (task.outbox.filter fun wave => wave.lease == some lease).map QueuedWave.id

section Handlers

variable (order : HashOrder) (W : WireBinding M C)

/-- The leases are dropped, and those that fail a delivery along the way. Each round takes one
lease of the list, so `fuel` rounds are enough if it is at least the length of the list and the
number of leases that may still fail. -/
def dropLeasesFrom : Nat → LedgerTask M C → List LeaseId → List Topic →
    LedgerTask M C × List Topic
  | 0, task, _, removes => (task, removes)
  | fuel + 1, task, dropped, removes =>
    match dropped.getLast? with
    | none => (task, removes)
    | some lease =>
      let ((ledger, dropped), removed) :=
        task.ledger.deref order W dropped.dropLast lease (task.purge lease)
      dropLeasesFrom fuel
        { task with ledger, outbox := task.outbox.filter fun wave => wave.lease != some lease }
        dropped (removes ++ removed)

def dropLeases (task : LedgerTask M C) (dropped : List LeaseId) : LedgerTask M C × List Topic :=
  dropLeasesFrom order W (dropped.length + task.ledger.catching) task dropped []

def dropAndRetire (task : LedgerTask M C) (dropped : List LeaseId) : LedgerTask M C :=
  let (task, removes) := task.dropLeases order W dropped
  ((task.retire removes).settleIdleWaiters).settleCaughtUpWaiters

def parkDeferredResumes (task : LedgerTask M C) : LedgerTask M C :=
  { task with
    resumeNotify := task.resumeNotify ++ task.deferred.filterMap fun
      | .resume waiter => some waiter
      | _ => none
    deferred := task.deferred.filter fun
      | .resume _ => false
      | _ => true }

def suspendPreempted (task : LedgerTask M C) : LedgerTask M C :=
  ({ task with suspended := true }.parkDeferredResumes).answerAll

def shutdown (task : LedgerTask M C) : LedgerTask M C :=
  { task with outbox := [], conn := none, closed := true }

def addReissue (s : List (WaveOwner × Ledger.ChunkWave C) × Ledger M C) (reissue : Reissue C) :
    List (WaveOwner × Ledger.ChunkWave C) × Ledger M C :=
  let (chunks, ledger) := s.2.chunkWaves reissue.adds
  (s.1 ++ chunks.map fun chunk => (.lease reissue.lease, chunk), ledger)

/-- The waves of a plan, in the order they are sent: the resume wave, then the reissues. -/
def planWaves (ledger : Ledger M C) (plan : ReconnectPlan C) :
    List (WaveOwner × Ledger.ChunkWave C) × Ledger M C :=
  let (resumed, ledger) := ledger.chunkWaves plan.resumeAdds
  plan.reissues.foldl addReissue (resumed.map fun chunk => (.resume, chunk), ledger)

def pendingOf (waves : List (WaveOwner × Ledger.ChunkWave C)) : HashMap WaveId (PendingWave C) :=
  waves.foldl (fun pending wave =>
    pending.insert wave.2.id { owner := wave.1, claims := wave.2.claims }) .empty

def queuedOf (wave : WaveOwner × Ledger.ChunkWave C) : QueuedWave C where
  lease :=
    match wave.1 with
    | .lease id => some id
    | .resume => none
  id := wave.2.id
  mutate := wave.2.mutate

/-- On a fresh wire the waves of the plan take the place of those that died with the old one. What
waited for these is taken up again. -/
def reopened (task : LedgerTask M C) (orphans : List LeaseId)
    (initial : WaveOwner × Ledger.ChunkWave C) (rest : List (WaveOwner × Ledger.ChunkWave C)) :
    LedgerTask M C :=
  let released := orphans ++
    (order.iterate task.ledger.pendingWaves.entries).flatMap fun wave => wave.2.holds
  let (ledger, dropped) :=
    { task.ledger with pendingWaves := pendingOf (initial :: rest) }.completeAll order W [] released
  dropAndRetire order W {
    task with
    ledger
    conn := some [initial.2.mutate]
    outbox := task.outbox ++ rest.map queuedOf }
    dropped

def reopen (task : LedgerTask M C) (dial : Dial C) : LedgerTask M C :=
  match task.ledger.reconnectPlan W.toTransportBinding with
  | none => task.answerAll
  | some plan =>
    let (waves, ledger) := planWaves task.ledger plan
    let task := { task with ledger }
    match waves with
    | [] => task
    | initial :: rest =>
      let task := { task with deferred := task.deferred ++ dial.absorbed }
      match dial.outcome with
      | .opened => task.reopened order W plan.orphans initial rest
      | .failed true => task.parkDeferredResumes
      | .failed false => task.shutdown
      | .suspended => task.suspendPreempted
      | .shutdown => task.shutdown

/-- The lease is registered with a wave for each chunk of its topics. A wave that is sent with the
dial is not queued, and none is while there is no wire. -/
def registerLease (task : LedgerTask M C) (subs : List (Topic × C)) (tx : Sender M)
    (chunks queued : List (Ledger.ChunkWave C)) : LedgerTask M C :=
  let (ledger, id) := task.ledger.register (subs.map Prod.fst) (.ofList subs) tx
  { task with
    ledger := ledger.addPending (.lease id) chunks
    outbox :=
      if task.conn.isSome then
        task.outbox ++ queued.map fun chunk => ⟨some id, chunk.id, chunk.mutate⟩
      else task.outbox }

def lease (task : LedgerTask M C) (subs : List (Topic × C)) (tx : Sender M) (dial : Dial C) :
    LedgerTask M C :=
  let (chunks, ledger) := task.ledger.chunkWaves subs
  let task := { task with ledger }
  match chunks with
  | [] => task.registerLease subs tx [] []
  | initial :: rest =>
    -- the first lease opens the wire
    if task.conn.isNone && task.ledger.leases.entries.isEmpty && !task.suspended then
      let task := { task with deferred := task.deferred ++ dial.absorbed }
      match dial.outcome with
      | .opened =>
        { task with conn := some [initial.mutate] }.registerLease subs tx chunks rest
      | .failed _ => task
      | .suspended => task.suspendPreempted.registerLease subs tx chunks rest
      | .shutdown => task.shutdown
    else task.registerLease subs tx chunks chunks

def suspend (task : LedgerTask M C) : LedgerTask M C :=
  answerAll { task with suspended := true, outbox := [], conn := none }

def resume (task : LedgerTask M C) (waiter : Nat) (dial : Dial C) : LedgerTask M C :=
  let task := { task with suspended := false, resumeNotify := task.resumeNotify ++ [waiter] }
  if task.conn.isSome then task.settleCaughtUpWaiters
  else if task.ledger.leases.entries.isEmpty then task.settleIdleWaiters
  else task.reopen order W dial

def handle (task : LedgerTask M C) (cmd : Cmd C) (dial : Dial C) : LedgerTask M C :=
  match cmd with
  | .lease subs _ depth received => task.lease subs { depth := max depth 1, received } dial
  | .deref id => task.dropAndRetire order W [id]
  | .suspend => task.suspend
  | .resume waiter => task.resume order W waiter dial

def wireEvent (task : LedgerTask M C) (event : WireEvent M) : LedgerTask M C :=
  match event with
  | .catchUpComplete 0 => task.shutdown
  | event =>
    let (ledger, dropped) := task.ledger.route order W event
    { task with ledger }.dropAndRetire order W dropped

def wireDied (task : LedgerTask M C) : LedgerTask M C :=
  { task with outbox := [], conn := none }.settleIdleWaiters

def flushOutbox (task : LedgerTask M C) (n : Nat) : LedgerTask M C :=
  match task.conn with
  | none => task
  | some sent =>
    { task with
      conn := some (sent ++ (task.outbox.take n).map QueuedWave.mutate)
      outbox := task.outbox.drop n }

/-- A command comes at any time, the wire wakes the task only while there is one, and a dead wire is
replaced as long as leases need it. -/
def wakesFor (task : LedgerTask M C) : Step M C → Bool
  | .cmd _ => true
  | .wire _ => task.conn.isSome
  | .retry => task.conn.isSome && !task.outbox.isEmpty
  | .reconnect => task.conn.isNone && !task.ledger.leases.entries.isEmpty && !task.suspended

def perform (task : LedgerTask M C) (dial : Dial C) : Step M C → LedgerTask M C
  | .cmd (some cmd) => task.handle order W cmd dial
  | .cmd none => task.shutdown
  | .wire (some event) => task.wireEvent order W event
  | .wire none => task.wireDied
  | .retry => task
  | .reconnect => task.reopen order W dial

end Handlers

/-- The rounds of the task's loop, with the flush that each begins with on its own: a deferred
command is handled, or if there is none what the task wakes up for. -/
inductive Round (W : WireBinding M C) (task : LedgerTask M C) : LedgerTask M C → Prop
  | flush (n : Nat) (hopen : task.closed = false) : Round W task (task.flushOutbox n)
  | deferred (order : HashOrder) (dial : Dial C) {cmd : Cmd C} {cmds : List (Cmd C)}
    (hopen : task.closed = false) (hdeferred : task.deferred = cmd :: cmds) :
    Round W task ({ task with deferred := cmds }.perform order W dial (.cmd (some cmd)))
  | next (order : HashOrder) (dial : Dial C) (step : Step M C) (hopen : task.closed = false)
    (hdeferred : task.deferred = []) (hwakes : task.wakesFor step = true) :
    Round W task (task.perform order W dial step)

def initial (suspended : Bool) (chunkCap chunkBytes : Nat) : LedgerTask M C where
  ledger := { chunkCap, chunkBytes }
  suspended

/-- A state that the task gets into, however it was started. -/
def Reachable (W : WireBinding M C) (task : LedgerTask M C) : Prop :=
  ∃ suspended chunkCap chunkBytes,
    Relation.ReflTransGen (Round W) (initial suspended chunkCap chunkBytes) task

end LedgerTask

end LibXmtp.Bidi
