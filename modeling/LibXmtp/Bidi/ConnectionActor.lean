import LibXmtp.Data.Channel
import LibXmtp.Data.HashEntry
import LibXmtp.Types.GlobalCursor
import Mathlib.Logic.Relation

/-! The actor that owns both halves of a subscription: the only one that writes requests and reads
responses. -/

namespace LibXmtp.Bidi

open LibXmtp.Data LibXmtp.Types

def wireBuffer : Nat := 64

def commandBuffer : Nat := 64

def eventBuffer : Nat := 1024

def defaultKeepaliveMs : Nat := 30000

def probeTimeoutMultiplier : Nat := 3

def watchdogNonce : UInt64 := 18446744073709551615

def maxPendingFrames : Nat := wireBuffer * 2

def drainFlushBudgetMs : Nat := 1000

inductive Event (G W : Type)
  | started (keepaliveIntervalMs : UInt32) (capabilities : List Int32)
  | catchUpComplete (mutateId : UInt64)
  | topicsLive (topics : List Topic)
  | groupMessages (messages : List G) (mutateId : UInt64)
  | welcomeMessages (messages : List W) (mutateId : UInt64)
  deriving DecidableEq

inductive Inbound (G W : Type)
  | ping (nonce : UInt64)
  | pong (nonce : UInt64)
  | emit (event : Event G W)
  | messages (group : List G) (welcome : List W) (mutateId : UInt64)
  | skip

structure BidiBinding where
  Request : Type
  Response : Type
  Mutate : Type
  GroupMessage : Type
  WelcomeMessage : Type
  mutateFrame : Mutate → Request
  pingFrame : UInt64 → Request
  pongFrame : UInt64 → Request
  handle : Response → Inbound GroupMessage WelcomeMessage

abbrev BidiBinding.Event (B : BidiBinding) : Type := Bidi.Event B.GroupMessage B.WelcomeMessage

inductive Command (B : BidiBinding)
  | mutate (mutate : B.Mutate)
  | probe (nonce : UInt64) (ack : Nat)
  | finish

/-- What the actor waits for. It emits the events of a frame one by one before it goes on. -/
inductive Phase (B : BidiBinding)
  | looping
  | emitting (rest : List B.Event)
  | flushing (deadline : Nat)
  | draining (rest : List B.Event)
  | stopped
  | aborted

inductive FlushOutcome
  | flushed
  | wireGone
  | elapsed
  deriving DecidableEq

/-- The branches of the loop, in the order in which they are polled. -/
inductive Branch
  | permit
  | command
  | inbound
  | watchdog

inductive Accepted (B : BidiBinding)
  | initial (mutate : B.Mutate)
  | mutate (mutate : B.Mutate)
  | probe (nonce : UInt64)
  | pong (nonce : UInt64)
  | watchdog

def Accepted.frame {B : BidiBinding} : Accepted B → B.Request
  | .initial m => B.mutateFrame m
  | .mutate m => B.mutateFrame m
  | .probe nonce => B.pingFrame nonce
  | .pong nonce => B.pongFrame nonce
  | .watchdog => B.pingFrame watchdogNonce

/-- The actor with its ends of the channels, and what it has accepted and read so far. -/
structure ConnectionActor (T : Mpsc) (B : BidiBinding) where
  phase : Phase B
  pending : List B.Request
  probes : HashMap UInt64 Nat
  keepaliveMs : Nat
  lastInbound : Nat
  watchdogProbed : Bool
  wireOut : T.Channel B.Request
  commands : T.Channel (Command B)
  inbound : List (Except Unit B.Response)
  inboundEnded : Bool
  events : T.Channel B.Event
  waiting : List Nat
  acknowledged : List Nat
  now : Nat
  accepted : List (Accepted B)
  read : List B.Response
  finishedAt : Option Nat
  flushOutcome : Option FlushOutcome

def Inbound.events {G W : Type} : Inbound G W → List (Event G W)
  | .emit event => [event]
  | .messages group welcome mutateId =>
    (if group.isEmpty then [] else [.groupMessages group mutateId]) ++
      if welcome.isEmpty then [] else [.welcomeMessages welcome mutateId]
  | .ping _ | .pong _ | .skip => []

namespace ConnectionActor

variable {T : Mpsc} {B : BidiBinding}

/-- The first frame is in the channel before anything else can be: a fresh channel has room. -/
def start (initial : B.Mutate) (now : Nat) : Option (ConnectionActor T B) :=
  match T.trySend (T.channel wireBuffer) (B.mutateFrame initial) with
  | .ok wireOut =>
    some {
      phase := .looping
      pending := []
      probes := .empty
      keepaliveMs := defaultKeepaliveMs
      lastInbound := now
      watchdogProbed := false
      wireOut
      commands := T.channel commandBuffer
      inbound := []
      inboundEnded := false
      events := T.channel eventBuffer
      waiting := []
      acknowledged := []
      now
      accepted := [.initial initial]
      read := []
      finishedAt := none
      flushOutcome := none }
  | .error _ => none

section Actor

variable (s : ConnectionActor T B)

def watchdogDeadline : Nat :=
  s.lastInbound + s.keepaliveMs *
    if s.watchdogProbed then probeTimeoutMultiplier else probeTimeoutMultiplier - 1

def leave (phase : Phase B) : ConnectionActor T B :=
  { s with
    phase
    probes := .empty
    wireOut := s.wireOut.dropSenders
    commands := s.commands.dropReceiver
    events := s.events.dropSenders }

def stop : ConnectionActor T B := s.leave .stopped

def pushPending (accepted : Accepted B) : Bool × ConnectionActor T B :=
  let pending := s.pending ++ [accepted.frame]
  (pending.length ≤ maxPendingFrames, { s with pending, accepted := s.accepted ++ [accepted] })

/-- A frame goes to the wire if there is no backlog and the wire has room. A frame that finds the
wire closed is dropped. -/
def enqueue (accepted : Accepted B) : Bool × ConnectionActor T B :=
  if s.pending.isEmpty then
    match s.wireOut.trySend accepted.frame with
    | .ok wireOut => (true, { s with wireOut, accepted := s.accepted ++ [accepted] })
    | .error .full => s.pushPending accepted
    | .error .closed => (false, s)
  else s.pushPending accepted

def proceed : Bool × ConnectionActor T B → ConnectionActor T B
  | (true, s) => s
  | (false, s) => s.stop

def drainBacklog {R : Type} (wireOut : T.Channel R) : List R → T.Channel R × List R
  | [] => (wireOut, [])
  | frame :: pending =>
    match wireOut.trySend frame with
    | .ok wireOut => drainBacklog wireOut pending
    | .error _ => (wireOut, frame :: pending)

def onPermit : ConnectionActor T B :=
  if s.wireOut.state.receiverLive then
    let (wireOut, pending) := drainBacklog s.wireOut s.pending
    { s with wireOut, pending }
  else s.stop

def onCommand : ConnectionActor T B :=
  match s.commands.recv with
  | none => s.stop
  | some (.mutate mutate, commands) =>
    proceed ({ s with commands }.enqueue (.mutate mutate))
  | some (.probe nonce ack, commands) =>
    let probes := (s.probes.retain fun _ ack => s.waiting.contains ack).insert nonce ack
    proceed ({ s with commands, probes }.enqueue (.probe nonce))
  | some (.finish, commands) =>
    { s with
      commands
      probes := .empty
      phase := .flushing (s.now + drainFlushBudgetMs)
      finishedAt := some s.now }

def stamp : ConnectionActor T B :=
  { s with phase := .looping, lastInbound := s.now, watchdogProbed := false }

def resolveProbe (nonce : UInt64) : ConnectionActor T B :=
  match s.probes.get nonce with
  | some ack =>
    { s with
      probes := s.probes.remove nonce
      acknowledged := if s.waiting.contains ack then s.acknowledged ++ [ack] else s.acknowledged }
  | none => s

def adoptKeepalive (instruction : Inbound B.GroupMessage B.WelcomeMessage) : ConnectionActor T B :=
  match instruction with
  | .emit (.started keepaliveIntervalMs _) =>
    if 0 < keepaliveIntervalMs then { s with keepaliveMs := keepaliveIntervalMs.toNat } else s
  | _ => s

def onResponse (response : B.Response) : ConnectionActor T B :=
  match B.handle response with
  | .ping nonce =>
    match s.enqueue (.pong nonce) with
    | (true, s) => s.stamp
    | (false, s) => s.stop
  | .pong nonce => (s.resolveProbe nonce).stamp
  | instruction => { s.adoptKeepalive instruction with phase := .emitting instruction.events }

def onInbound : ConnectionActor T B :=
  match s.inbound with
  | [] => s.stop
  | .error _ :: inbound => { s with inbound }.stop
  | .ok response :: inbound =>
    { s with inbound, read := s.read ++ [response] }.onResponse response

def onWatchdog : ConnectionActor T B :=
  if s.watchdogProbed then s.stop
  else proceed ({ s with watchdogProbed := true }.enqueue .watchdog)

def ready : Branch → Bool
  | .permit =>
    !s.pending.isEmpty &&
      (!s.wireOut.state.receiverLive ||
        s.wireOut.state.queue.length < s.wireOut.state.capacity)
  | .command => !s.commands.state.queue.isEmpty || !s.commands.state.sendersLive
  | .inbound => !s.inbound.isEmpty || s.inboundEnded
  | .watchdog => s.watchdogDeadline ≤ s.now

def take : Branch → ConnectionActor T B
  | .permit => s.onPermit
  | .command => s.onCommand
  | .inbound => s.onInbound
  | .watchdog => s.onWatchdog

def emit (event : B.Event) (next : Phase B) : Option (ConnectionActor T B) :=
  match s.events.trySend event with
  | .ok events => some { s with events, phase := next }
  | .error .full => none
  | .error .closed => some s.stop

def halfClose (outcome : FlushOutcome) : ConnectionActor T B :=
  { s with
    phase := .draining []
    wireOut := s.wireOut.dropSenders
    commands := s.commands.dropReceiver
    flushOutcome := some outcome }

def flush (deadline : Nat) : Option (ConnectionActor T B) :=
  match s.pending with
  | [] => some (s.halfClose .flushed)
  | frame :: pending =>
    match s.wireOut.trySend frame with
    | .ok wireOut => some { s with wireOut, pending }
    | .error .closed => some (s.halfClose .wireGone)
    | .error .full => if deadline ≤ s.now then some (s.halfClose .elapsed) else none

def drain : Option (ConnectionActor T B) :=
  match s.inbound with
  | [] => if s.inboundEnded then some s.stop else none
  | .error _ :: inbound => some { s with inbound }.stop
  | .ok response :: inbound =>
    some { s with
      inbound
      read := s.read ++ [response]
      phase := .draining (B.handle response).events }

def advance (branch : Branch) : Option (ConnectionActor T B) :=
  match s.phase with
  | .looping => if s.ready branch then some (s.take branch) else none
  | .emitting [] => some s.stamp
  | .emitting (event :: rest) => s.emit event (.emitting rest)
  | .flushing deadline => s.flush deadline
  | .draining [] => s.drain
  | .draining (event :: rest) => s.emit event (.draining rest)
  | .stopped | .aborted => none

end Actor

/-- What goes on around the actor and what it does, in any order. The loop may take any branch that
is ready: those before it in the order may become ready only afterwards. -/
inductive Step (s : ConnectionActor T B) : ConnectionActor T B → Prop
  | acted {s' : ConnectionActor T B} (branch : Branch) (h : s.advance branch = some s') : Step s s'
  | transported {frame : B.Request} {wireOut : T.Channel B.Request}
    (h : s.wireOut.recv = some (frame, wireOut)) : Step s { s with wireOut }
  | wireClosed : Step s { s with wireOut := s.wireOut.dropReceiver }
  | submitted {command : Command B} {commands : T.Channel (Command B)}
    (h : s.commands.trySend command = .ok commands) : Step s { s with commands }
  | handlesDropped : Step s { s with commands := s.commands.dropSenders }
  | probed (ack : Nat) : Step s { s with waiting := ack :: s.waiting }
  | probeGivenUp (ack : Nat) : Step s { s with waiting := s.waiting.filter (· ≠ ack) }
  | arrived (frame : Except Unit B.Response) (h : s.inboundEnded = false) :
    Step s { s with inbound := s.inbound ++ [frame] }
  | inboundEnded : Step s { s with inboundEnded := true }
  | consumed {event : B.Event} {events : T.Channel B.Event}
    (h : s.events.recv = some (event, events)) : Step s { s with events }
  | consumerGone : Step s { s with events := s.events.dropReceiver }
  | aborted (h : s.events.state.receiverLive = false) (hphase : s.phase ≠ .stopped) :
    Step s (s.leave .aborted)
  | passed (ms : Nat) : Step s { s with now := s.now + ms }

def Reachable (initial : B.Mutate) (now : Nat) (s : ConnectionActor T B) : Prop :=
  ∃ start', start initial now = some start' ∧ Relation.ReflTransGen Step start' s

end ConnectionActor

end LibXmtp.Bidi
