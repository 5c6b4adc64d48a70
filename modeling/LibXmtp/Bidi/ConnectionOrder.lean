import LibXmtp.Bidi.ConnectionActor

namespace LibXmtp.Bidi

open LibXmtp.Data LibXmtp.Types

variable {T : Mpsc} {B : BidiBinding}

def Phase.rest : Phase B → List B.Event
  | .emitting rest => rest
  | .draining rest => rest
  | .looping | .flushing _ | .stopped | .aborted => []

def Phase.inLoop : Phase B → Bool
  | .looping | .emitting _ => true
  | .flushing _ | .draining _ | .stopped | .aborted => false

def Phase.window (probed : Bool) : Phase B → Nat
  | .looping => if probed then 1 else 0
  | .emitting _ => 0
  | .flushing _ | .draining _ | .stopped | .aborted => 1

theorem Phase.window_le_one (probed : Bool) (phase : Phase B) : phase.window probed ≤ 1 := by
  cases phase with
  | looping => cases probed <;> simp [Phase.window]
  | emitting _ | flushing _ | draining _ | stopped | aborted => simp [Phase.window]

section Causes

variable {G W : Type}

def Command.accepted : Command B → Option (Accepted B)
  | .mutate m => some (.mutate m)
  | .probe nonce _ => some (.probe nonce)
  | .finish => none

namespace Accepted

def ofCommand : Accepted B → Option (Accepted B)
  | .mutate m => some (.mutate m)
  | .probe nonce => some (.probe nonce)
  | .initial _ | .pong _ | .watchdog => none

def ponged : Accepted B → Option UInt64
  | .pong nonce => some nonce
  | .initial _ | .mutate _ | .probe _ | .watchdog => none

def opening : Accepted B → Option B.Mutate
  | .initial m => some m
  | .mutate _ | .probe _ | .pong _ | .watchdog => none

def isWatchdog : Accepted B → Bool
  | .watchdog => true
  | .initial _ | .mutate _ | .probe _ | .pong _ => false

end Accepted

def Inbound.pinged : Inbound G W → Option UInt64
  | .ping nonce => some nonce
  | .pong _ | .emit _ | .messages _ _ _ | .skip => none

/-! Of a frame a consumer sees the marker, the group messages and the welcomes. -/

def Inbound.marker : Inbound G W → Option (Event G W)
  | .emit event => some event
  | _ => none

def Inbound.groupMessages : Inbound G W → Option (Event G W)
  | .messages (m :: ms) _ mutateId => some (.groupMessages (m :: ms) mutateId)
  | _ => none

def Inbound.welcomeMessages : Inbound G W → Option (Event G W)
  | .messages _ (m :: ms) mutateId => some (.welcomeMessages (m :: ms) mutateId)
  | _ => none

def Inbound.content (instruction : Inbound G W) : List (Event G W) :=
  [instruction.marker, instruction.groupMessages, instruction.welcomeMessages].filterMap id

theorem Inbound.events_eq (instruction : Inbound G W) : instruction.events = instruction.content := by
  cases instruction with
  | messages group welcome mutateId => cases group <;> cases welcome <;> rfl
  | ping _ | pong _ | emit _ | skip => rfl

end Causes

namespace BidiBinding

def pinged (B : BidiBinding) (response : B.Response) : Option UInt64 := (B.handle response).pinged

def content (B : BidiBinding) (read : List B.Response) : List B.Event :=
  read.flatMap fun response => (B.handle response).content

theorem content_concat (read : List B.Response) (response : B.Response) :
    B.content (read ++ [response]) = B.content read ++ (B.handle response).events := by
  unfold content
  rw [List.flatMap_append, List.flatMap_singleton, Inbound.events_eq]

end BidiBinding

def FlushOutcome.Holds (s : ConnectionActor T B) : FlushOutcome → Prop
  | .flushed => s.wireOut.sent = s.accepted.map Accepted.frame
  | .wireGone => s.wireOut.state.receiverLive = false
  | .elapsed => ∃ finishedAt, s.finishedAt = some finishedAt ∧
    finishedAt + drainFlushBudgetMs ≤ s.now

namespace ConnectionActor

def Flushed (s : ConnectionActor T B) : Prop :=
  ∃ outcome, s.flushOutcome = some outcome ∧ outcome.Holds s

def Finish (s : ConnectionActor T B) : Prop :=
  match s.phase with
  | .looping | .emitting _ => s.wireOut.state.sendersLive = true ∧ s.finishedAt = none
  | .flushing deadline => s.wireOut.state.sendersLive = true ∧
    s.finishedAt.map (· + drainFlushBudgetMs) = some deadline
  | .draining _ => s.Flushed
  | .stopped => s.finishedAt = none ∨ s.Flushed
  | .aborted => True

/-- What was accepted: the initial frame, the frames of the commands that were taken, the answers to
the pings that were read, and pings of the watchdog, one for each silence. The last command and the
last ping may have found the wire closed, and pings that are drained are not answered. -/
structure Accounted (initial : B.Mutate) (s : ConnectionActor T B) : Prop where
  opening : s.accepted.head? = some (.initial initial) ∧
    s.accepted.filterMap Accepted.opening = [initial]
  commands : s.accepted.filterMap Accepted.ofCommand <+:
    s.commands.state.received.filterMap Command.accepted
  pongs : s.accepted.filterMap Accepted.ponged <+: s.read.filterMap B.pinged
  answered : s.phase.inLoop = true →
    s.accepted.filterMap Accepted.ofCommand = s.commands.state.received.filterMap Command.accepted ∧
      s.accepted.filterMap Accepted.ponged = s.read.filterMap B.pinged
  watchdog : s.accepted.countP Accepted.isWatchdog ≤ s.read.length + s.phase.window s.watchdogProbed

/-- What the frames that were read have for the consumer was sent to it, or will be as long as it is
there. -/
structure Surfaced (s : ConnectionActor T B) : Prop where
  sent : s.events.sent <+: B.content s.read
  live : s.events.state.receiverLive = true → s.events.sent ++ s.phase.rest = B.content s.read

structure Faithful (initial : B.Mutate) (s : ConnectionActor T B) : Prop where
  fifo : s.wireOut.sent ++ s.pending = s.accepted.map Accepted.frame
  accounted : s.Accounted initial
  finish : s.Finish
  surfaced : s.Surfaced

structure Books (B : BidiBinding) where
  phase : Phase B
  wire : List B.Request
  wireOpen : Bool
  pending : List B.Request
  accepted : List (Accepted B)
  probed : Bool
  commands : List (Command B)
  read : List B.Response
  events : List B.Event
  finishedAt : Option Nat
  flushOutcome : Option FlushOutcome

def books (s : ConnectionActor T B) : Books B where
  phase := s.phase
  wire := s.wireOut.sent
  wireOpen := s.wireOut.state.sendersLive
  pending := s.pending
  accepted := s.accepted
  probed := s.watchdogProbed
  commands := s.commands.state.received
  read := s.read
  events := s.events.sent
  finishedAt := s.finishedAt
  flushOutcome := s.flushOutcome

structure Evolves (s s' : ConnectionActor T B) : Prop where
  books : s'.books = s.books
  wireGone : s.wireOut.state.receiverLive = false → s'.wireOut.state.receiverLive = false
  consumer : s'.events.state.receiverLive = true → s.events.state.receiverLive = true
  now : s.now ≤ s'.now

structure Accepting (initial : B.Mutate) (s : ConnectionActor T B) (accepted : Accepted B) : Prop where
  phase : s.phase = .looping
  unfinished : s.wireOut.state.sendersLive = true ∧ s.finishedAt = none
  fifo : s.wireOut.sent ++ s.pending = s.accepted.map Accepted.frame
  accounted : { s with accepted := s.accepted ++ [accepted] }.Accounted initial
  stopped : s.stop.Accounted initial
  surfaced : s.Surfaced

variable {initial : B.Mutate}
variable {s s' : ConnectionActor T B}

theorem finish_iff_of_inLoop (h : s.phase.inLoop = true) :
    s.Finish ↔ s.wireOut.state.sendersLive = true ∧ s.finishedAt = none := by
  unfold Finish
  cases hphase : s.phase with
  | looping => exact Iff.rfl
  | emitting rest => exact Iff.rfl
  | flushing _ | draining _ | stopped | aborted =>
    rw [hphase] at h
    exact absurd h Bool.false_ne_true

theorem finish_iff_of_looping (h : s.phase = .looping) :
    s.Finish ↔ s.wireOut.state.sendersLive = true ∧ s.finishedAt = none :=
  finish_iff_of_inLoop (congrArg Phase.inLoop h)

section Evolving

theorem holds_evolves {outcome : FlushOutcome} (h : outcome.Holds s)
    (he : s.Evolves s') : outcome.Holds s' := by
  cases outcome with
  | flushed =>
    have hwire : s'.wireOut.sent = s.wireOut.sent := congrArg Books.wire he.books
    have haccepted : s'.accepted = s.accepted := congrArg Books.accepted he.books
    exact hwire.trans (Eq.trans h (congrArg (List.map Accepted.frame) haccepted.symm))
  | wireGone => exact he.wireGone h
  | elapsed =>
    obtain ⟨finishedAt, hfinished, hle⟩ := h
    exact ⟨finishedAt, (congrArg Books.finishedAt he.books).trans hfinished, hle.trans he.now⟩

theorem Flushed.leave (phase : Phase B) (h : s.Flushed) : (s.leave phase).Flushed := by
  obtain ⟨outcome, houtcome, hholds⟩ := h
  refine ⟨outcome, houtcome, ?_⟩
  cases outcome with
  | flushed =>
    show s.wireOut.dropSenders.sent = _
    rw [Mpsc.Channel.sent_dropSenders]
    exact hholds
  | wireGone =>
    show s.wireOut.dropSenders.state.receiverLive = false
    rw [Mpsc.Channel.state_dropSenders]
    exact hholds
  | elapsed => exact hholds

theorem Flushed.evolves (h : s.Flushed) (he : s.Evolves s') : s'.Flushed := by
  obtain ⟨outcome, heq, hholds⟩ := h
  exact ⟨outcome, (congrArg Books.flushOutcome he.books).trans heq, holds_evolves hholds he⟩

theorem Finish.evolves (h : s.Finish) (he : s.Evolves s') : s'.Finish := by
  have hphase : s'.phase = s.phase := congrArg Books.phase he.books
  have hopen : s'.wireOut.state.sendersLive = s.wireOut.state.sendersLive := congrArg Books.wireOpen he.books
  have hfinished : s'.finishedAt = s.finishedAt := congrArg Books.finishedAt he.books
  unfold Finish at h ⊢
  rw [hphase, hopen, hfinished]
  cases hs : s.phase with
  | looping | emitting _ | flushing _ =>
    rw [hs] at h
    exact h
  | draining rest =>
    rw [hs] at h
    exact Flushed.evolves h he
  | stopped =>
    rw [hs] at h
    exact Or.imp id (fun hflushed => Flushed.evolves hflushed he) h
  | aborted => trivial

theorem Accounted.evolves (h : s.Accounted initial) (he : s.Evolves s') : s'.Accounted initial := by
  have hphase : s'.phase = s.phase := congrArg Books.phase he.books
  have haccepted : s'.accepted = s.accepted := congrArg Books.accepted he.books
  have hprobed : s'.watchdogProbed = s.watchdogProbed := congrArg Books.probed he.books
  have hcommands : s'.commands.state.received = s.commands.state.received :=
    congrArg Books.commands he.books
  have hread : s'.read = s.read := congrArg Books.read he.books
  refine ⟨?_, ?_, ?_, ?_, ?_⟩
  · rw [haccepted]
    exact h.opening
  · rw [haccepted, hcommands]
    exact h.commands
  · rw [haccepted, hread]
    exact h.pongs
  · rw [haccepted, hcommands, hread, hphase]
    exact h.answered
  · rw [haccepted, hread, hphase, hprobed]
    exact h.watchdog

theorem Faithful.evolves (h : s.Faithful initial) (he : s.Evolves s') : s'.Faithful initial := by
  have hphase : s'.phase = s.phase := congrArg Books.phase he.books
  have haccepted : s'.accepted = s.accepted := congrArg Books.accepted he.books
  have hread : s'.read = s.read := congrArg Books.read he.books
  have hevents : s'.events.sent = s.events.sent := congrArg Books.events he.books
  have hfifo : s'.wireOut.sent ++ s'.pending = s.wireOut.sent ++ s.pending :=
    congrArg₂ (· ++ ·) (congrArg Books.wire he.books) (congrArg Books.pending he.books)
  refine ⟨?_, h.accounted.evolves he, h.finish.evolves he, ⟨?_, ?_⟩⟩
  · rw [hfifo, haccepted]
    exact h.fifo
  · rw [hevents, hread]
    exact h.surfaced.sent
  · intro hlive
    rw [hevents, hphase, hread]
    exact h.surfaced.live (he.consumer hlive)

end Evolving

theorem finish_iff_of_flushing {deadline : Nat} (h : s.phase = .flushing deadline) :
    s.Finish ↔ s.wireOut.state.sendersLive = true ∧
      s.finishedAt.map (· + drainFlushBudgetMs) = some deadline := by
  unfold Finish
  rw [h]

section Leaving

theorem Accounted.exit (h : s.Accounted initial) (haccepted : s'.accepted = s.accepted)
    (hcommands : s.commands.state.received <+: s'.commands.state.received)
    (hread : s.read <+: s'.read) (hphase : s'.phase.window s'.watchdogProbed = 1)
    (hloop : s'.phase.inLoop = false) : s'.Accounted initial := by
  refine ⟨?_, ?_, ?_, fun hin => absurd (hloop.symm.trans hin) Bool.false_ne_true, ?_⟩
  · rw [haccepted]
    exact h.opening
  · rw [haccepted]
    exact h.commands.trans (hcommands.filterMap _)
  · rw [haccepted]
    exact h.pongs.trans (hread.filterMap _)
  · rw [haccepted, hphase]
    have hwatchdog := h.watchdog
    have hwindow := s.phase.window_le_one s.watchdogProbed
    have hlength := hread.length_le
    omega

theorem Accounted.leave (h : s.Accounted initial) {phase : Phase B}
    (hphase : phase.window s.watchdogProbed = 1) (hloop : phase.inLoop = false) :
    (s.leave phase).Accounted initial :=
  h.exit rfl (by rw [ConnectionActor.leave, Mpsc.Channel.state_dropReceiver]) (List.prefix_refl _)
    hphase hloop

theorem Surfaced.leave (h : s.Surfaced)
    (hrest : s.events.state.receiverLive = true → s.phase.rest = []) {phase : Phase B}
    (hphase : phase.rest = []) : (s.leave phase).Surfaced where
  sent := by
    rw [ConnectionActor.leave, Mpsc.Channel.sent_dropSenders]
    exact h.sent
  live hlive := by
    rw [ConnectionActor.leave, Mpsc.Channel.state_dropSenders] at hlive
    have hcontent := h.live hlive
    rw [hrest hlive] at hcontent
    rw [ConnectionActor.leave, Mpsc.Channel.sent_dropSenders, hphase]
    exact hcontent

theorem faithful_stop (hfifo : s.wireOut.sent ++ s.pending = s.accepted.map Accepted.frame)
    (haccounted : s.Accounted initial) (hsurfaced : s.Surfaced)
    (hrest : s.events.state.receiverLive = true → s.phase.rest = [])
    (hfinish : s.finishedAt = none ∨ s.Flushed) : s.stop.Faithful initial where
  fifo := by
    rw [stop, leave, Mpsc.Channel.sent_dropSenders]
    exact hfifo
  accounted := haccounted.leave rfl rfl
  finish := hfinish.imp_right (Flushed.leave _)
  surfaced := hsurfaced.leave hrest rfl

theorem Faithful.abort (h : s.Faithful initial) (hgone : s.events.state.receiverLive = false) :
    (s.leave .aborted).Faithful initial where
  fifo := by
    rw [leave, Mpsc.Channel.sent_dropSenders]
    exact h.fifo
  accounted := h.accounted.leave rfl rfl
  finish := trivial
  surfaced := h.surfaced.leave (fun hlive => absurd (hgone.symm.trans hlive) Bool.false_ne_true) rfl

end Leaving

section Enqueue

theorem exists_enqueue_eq (s : ConnectionActor T B) (accepted : Accepted B)
    (h : s.wireOut.sent ++ s.pending = s.accepted.map Accepted.frame) : ∃ ok wireOut pending log,
      s.enqueue accepted = (ok, { s with wireOut, pending, accepted := log }) ∧
        wireOut.sent ++ pending = log.map Accepted.frame ∧
        wireOut.state.sendersLive = s.wireOut.state.sendersLive ∧
        (log = s.accepted ++ [accepted] ∨ ok = false ∧ log = s.accepted) := by
  have hpushed : s.wireOut.sent ++ (s.pending ++ [accepted.frame]) =
      (s.accepted ++ [accepted]).map Accepted.frame := by
    rw [← List.append_assoc, h, List.map_append]
    rfl
  unfold enqueue
  split
  · rename_i hpending
    have hpending : s.pending = [] := List.isEmpty_iff.mp hpending
    cases hsend : s.wireOut.trySend accepted.frame with
    | ok wireOut =>
      obtain ⟨hsent, _, hsenders, _⟩ := Mpsc.Channel.trySend_eq_ok hsend
      refine ⟨true, wireOut, s.pending, s.accepted ++ [accepted], rfl, ?_, hsenders, .inl rfl⟩
      rw [hsent, hpending, List.append_nil, List.map_append, ← h, hpending, List.append_nil]
      rfl
    | error e =>
      cases e with
      | full => exact ⟨_, s.wireOut, _, _, rfl, hpushed, rfl, .inl rfl⟩
      | closed => exact ⟨false, s.wireOut, s.pending, s.accepted, rfl, h, rfl, .inr ⟨rfl, rfl⟩⟩
  · exact ⟨_, s.wireOut, _, _, rfl, hpushed, rfl, .inl rfl⟩

theorem faithful_enqueue {accepted : Accepted B} (h : s.Accepting initial accepted) {ok : Bool}
    (henqueue : s.enqueue accepted = (ok, s')) :
    (proceed (ok, s')).Faithful initial ∧ s'.phase = .looping := by
  obtain ⟨ok', wireOut, pending, log, heq, hfifo, hsenders, hlog⟩ :=
    exists_enqueue_eq s accepted h.fifo
  rw [heq, Prod.mk.injEq] at henqueue
  obtain ⟨rfl, rfl⟩ := henqueue
  refine ⟨?_, h.phase⟩
  have hrest : s.phase.rest = [] := congrArg Phase.rest h.phase
  have hsurfaced : ({ s with wireOut, pending, accepted := log } : ConnectionActor T B).Surfaced :=
    ⟨h.surfaced.sent, h.surfaced.live⟩
  rcases hlog with rfl | ⟨rfl, rfl⟩
  · have haccounted : ({ s with wireOut, pending, accepted := s.accepted ++ [accepted] } :
        ConnectionActor T B).Accounted initial :=
      ⟨h.accounted.opening, h.accounted.commands, h.accounted.pongs, h.accounted.answered,
        h.accounted.watchdog⟩
    cases ok' with
    | false =>
      exact faithful_stop hfifo haccounted hsurfaced (fun _ => hrest) (.inl h.unfinished.2)
    | true =>
      refine ⟨hfifo, haccounted, ?_, hsurfaced⟩
      refine (finish_iff_of_looping ?_).mpr ⟨hsenders.trans h.unfinished.1, h.unfinished.2⟩
      exact h.phase
  · refine ⟨?_, ?_, .inl h.unfinished.2, hsurfaced.leave (fun _ => hrest) rfl⟩
    · show wireOut.dropSenders.sent ++ pending = _
      rw [Mpsc.Channel.sent_dropSenders]
      exact hfifo
    · exact ⟨h.stopped.opening, h.stopped.commands, h.stopped.pongs, h.stopped.answered,
        h.stopped.watchdog⟩

end Enqueue

section Loop

theorem drainBacklog_append {R : Type} (wireOut : T.Channel R) (pending : List R) :
    (drainBacklog wireOut pending).1.sent ++ (drainBacklog wireOut pending).2 =
        wireOut.sent ++ pending ∧
      (drainBacklog wireOut pending).1.state.sendersLive = wireOut.state.sendersLive := by
  induction pending generalizing wireOut with
  | nil => exact ⟨rfl, rfl⟩
  | cons frame pending ih =>
    rw [drainBacklog]
    cases hsend : wireOut.trySend frame with
    | error e => exact ⟨rfl, rfl⟩
    | ok wireOut' =>
      obtain ⟨hsent, _, hsenders, _⟩ := Mpsc.Channel.trySend_eq_ok hsend
      obtain ⟨happend, hlive⟩ := ih wireOut'
      refine ⟨?_, hlive.trans hsenders⟩
      rw [happend, hsent, List.append_assoc]
      rfl

theorem Faithful.stop (h : s.Faithful initial) (hphase : s.phase = .looping) :
    s.stop.Faithful initial :=
  faithful_stop h.fifo h.accounted h.surfaced (fun _ => congrArg Phase.rest hphase)
    (.inl ((finish_iff_of_looping hphase).mp h.finish).2)

theorem faithful_onPermit (h : s.Faithful initial) (hphase : s.phase = .looping) :
    s.onPermit.Faithful initial := by
  unfold onPermit
  split
  · obtain ⟨happend, hsenders⟩ := drainBacklog_append s.wireOut s.pending
    obtain ⟨hopen, hunfinished⟩ := (finish_iff_of_looping hphase).mp h.finish
    refine ⟨happend.trans h.fifo, ⟨h.accounted.opening, h.accounted.commands, h.accounted.pongs,
      h.accounted.answered, h.accounted.watchdog⟩, ?_, ⟨h.surfaced.sent, h.surfaced.live⟩⟩
    refine (finish_iff_of_looping ?_).mpr ⟨hsenders.trans hopen, hunfinished⟩
    exact hphase
  · exact h.stop hphase

theorem opening_concat (h : s.Accounted initial) {accepted : Accepted B}
    (hopening : accepted.opening = none) :
    (s.accepted ++ [accepted]).head? = some (.initial initial) ∧
      (s.accepted ++ [accepted]).filterMap Accepted.opening = [initial] := by
  obtain ⟨hhead, hfilter⟩ := h.opening
  rw [List.head?_append, hhead, List.filterMap_append, hfilter, List.filterMap_cons_none hopening]
  exact ⟨rfl, rfl⟩

theorem Faithful.accepting_command (h : s.Faithful initial) (hphase : s.phase = .looping)
    {command : Command B} {commands : T.Channel (Command B)} {accepted : Accepted B}
    (hrecv : s.commands.recv = some (command, commands)) (hcommand : command.accepted = some accepted)
    (hkind : accepted.ofCommand = some accepted) (probes : HashMap UInt64 Nat) :
    { s with commands, probes }.Accepting initial accepted := by
  obtain ⟨hcommands, hpongs⟩ := h.accounted.answered (congrArg Phase.inLoop hphase)
  have hreceived := (Mpsc.Channel.recv_eq_some hrecv).2.1
  have hother : accepted.opening = none ∧ accepted.ponged = none ∧ accepted.isWatchdog = false := by
    cases accepted with
    | mutate _ | probe _ => exact ⟨rfl, rfl, rfl⟩
    | initial _ | pong _ | watchdog => cases hkind
  have hnext : (s.accepted ++ [accepted]).filterMap Accepted.ofCommand =
      commands.state.received.filterMap Command.accepted := by
    rw [hreceived, List.filterMap_append, List.filterMap_append, hcommands,
      List.filterMap_cons_some hkind, List.filterMap_cons_some hcommand]
    rfl
  have hsame : (s.accepted ++ [accepted]).filterMap Accepted.ponged = s.read.filterMap B.pinged := by
    rw [List.filterMap_append, List.filterMap_cons_none hother.2.1, List.filterMap_nil,
      List.append_nil, hpongs]
  refine ⟨hphase, (finish_iff_of_looping hphase).mp h.finish, h.fifo,
    ⟨opening_concat h.accounted hother.1, ?_, ?_, fun _ => ⟨hnext, hsame⟩, ?_⟩, ?_,
    ⟨h.surfaced.sent, h.surfaced.live⟩⟩
  · exact hnext ▸ List.prefix_refl _
  · exact hsame ▸ List.prefix_refl _
  · show (s.accepted ++ [accepted]).countP Accepted.isWatchdog ≤ _
    rw [List.countP_append, List.countP_cons_of_neg (by simp [hother.2.2]), List.countP_nil]
    exact h.accounted.watchdog
  · apply Accounted.exit h.accounted
    · rfl
    · show s.commands.state.received <+: commands.dropReceiver.state.received
      rw [Mpsc.Channel.state_dropReceiver, hreceived]
      exact List.prefix_append _ _
    · exact List.prefix_refl _
    · rfl
    · rfl

theorem faithful_onCommand (h : s.Faithful initial) (hphase : s.phase = .looping) :
    s.onCommand.Faithful initial := by
  unfold onCommand
  cases hrecv : s.commands.recv with
  | none => exact h.stop hphase
  | some received =>
    obtain ⟨command, commands⟩ := received
    cases command with
    | mutate m => exact (faithful_enqueue (h.accepting_command hphase hrecv rfl rfl s.probes) rfl).1
    | probe nonce ack => exact (faithful_enqueue (h.accepting_command hphase hrecv rfl rfl _) rfl).1
    | finish =>
      obtain ⟨hopen, _⟩ := (finish_iff_of_looping hphase).mp h.finish
      have hrest : s.phase.rest = [] := congrArg Phase.rest hphase
      refine ⟨h.fifo, h.accounted.exit rfl ?_ (List.prefix_refl _) rfl rfl, ⟨hopen, rfl⟩,
        ⟨h.surfaced.sent, ?_⟩⟩
      · show s.commands.state.received <+: commands.state.received
        rw [(Mpsc.Channel.recv_eq_some hrecv).2.1]
        exact List.prefix_append _ _
      · intro hlive
        have hcontent := h.surfaced.live hlive
        rw [hrest] at hcontent
        exact hcontent

theorem faithful_onWatchdog (h : s.Faithful initial) (hphase : s.phase = .looping) :
    s.onWatchdog.Faithful initial := by
  unfold onWatchdog
  split
  · exact h.stop hphase
  · rename_i hprobed
    obtain ⟨hcommands, hpongs⟩ := h.accounted.answered (congrArg Phase.inLoop hphase)
    have hwatchdog := h.accounted.watchdog
    rw [hphase, Phase.window, if_neg hprobed] at hwatchdog
    have hsame : (s.accepted ++ [Accepted.watchdog]).filterMap Accepted.ofCommand =
        s.commands.state.received.filterMap Command.accepted := by
      rw [List.filterMap_append, hcommands]
      exact List.append_nil _
    have hsame' : (s.accepted ++ [Accepted.watchdog]).filterMap Accepted.ponged =
        s.read.filterMap B.pinged := by
      rw [List.filterMap_append, hpongs]
      exact List.append_nil _
    have haccepting : { s with watchdogProbed := true }.Accepting initial .watchdog := by
      refine ⟨hphase, (finish_iff_of_looping hphase).mp h.finish, h.fifo,
        ⟨opening_concat h.accounted rfl, ?_, ?_, fun _ => ⟨hsame, hsame'⟩, ?_⟩,
        h.accounted.exit rfl ?_ (List.prefix_refl _) rfl rfl, ⟨h.surfaced.sent, h.surfaced.live⟩⟩
      · exact hsame ▸ List.prefix_refl _
      · exact hsame' ▸ List.prefix_refl _
      · show (s.accepted ++ [Accepted.watchdog]).countP Accepted.isWatchdog ≤ s.read.length + s.phase.window true
        rw [List.countP_append, hphase]
        exact Nat.add_le_add_right hwatchdog 1
      · show s.commands.state.received <+: s.commands.dropReceiver.state.received
        rw [Mpsc.Channel.state_dropReceiver]
    exact (faithful_enqueue haccepting rfl).1

theorem exists_resolveProbe_eq (s : ConnectionActor T B) (nonce : UInt64) :
    ∃ probes acknowledged, s.resolveProbe nonce = { s with probes, acknowledged } := by
  unfold resolveProbe
  split
  · exact ⟨_, _, rfl⟩
  · exact ⟨s.probes, s.acknowledged, rfl⟩

theorem exists_adoptKeepalive_eq (s : ConnectionActor T B)
    (instruction : Inbound B.GroupMessage B.WelcomeMessage) :
    ∃ keepaliveMs, s.adoptKeepalive instruction = { s with keepaliveMs } := by
  unfold adoptKeepalive
  split
  · split
    · exact ⟨_, rfl⟩
    · exact ⟨s.keepaliveMs, rfl⟩
  · exact ⟨s.keepaliveMs, rfl⟩

theorem Faithful.stamp (h : s.Faithful initial) (hloop : s.phase.inLoop = true)
    (hrest : s.phase.rest = [])
    (hwatchdog : s.accepted.countP Accepted.isWatchdog ≤ s.read.length) :
    s.stamp.Faithful initial := by
  refine ⟨h.fifo, ⟨h.accounted.opening, h.accounted.commands, h.accounted.pongs,
    fun _ => h.accounted.answered hloop, hwatchdog⟩, (finish_iff_of_inLoop hloop).mp h.finish,
    ⟨h.surfaced.sent, ?_⟩⟩
  intro hlive
  have hcontent := h.surfaced.live hlive
  rw [hrest] at hcontent
  exact hcontent

theorem Accounted.count_le (h : s.Accounted initial) (response : B.Response) :
    s.accepted.countP Accepted.isWatchdog ≤ (s.read ++ [response]).length := by
  have hwatchdog := h.watchdog
  have hwindow := s.phase.window_le_one s.watchdogProbed
  rw [List.length_append, List.length_singleton]
  omega

theorem Surfaced.read (h : s.Surfaced) (hrest : s.phase.rest = []) {response : B.Response}
    (inbound : List (Except Unit B.Response)) {phase : Phase B}
    (hphase : phase.rest = (B.handle response).events) :
    ({ s with inbound, read := s.read ++ [response], phase } : ConnectionActor T B).Surfaced := by
  constructor
  · show s.events.sent <+: B.content (s.read ++ [response])
    rw [BidiBinding.content_concat]
    exact h.sent.trans (List.prefix_append _ _)
  · intro hlive
    have hcontent := h.live hlive
    rw [hrest, List.append_nil] at hcontent
    show s.events.sent ++ phase.rest = B.content (s.read ++ [response])
    rw [BidiBinding.content_concat, hcontent, hphase]

theorem faithful_read (h : s.Faithful initial) (hphase : s.phase = .looping) {response : B.Response}
    {instruction : Inbound B.GroupMessage B.WelcomeMessage}
    (hhandle : B.handle response = instruction) (hpinged : instruction.pinged = none)
    (inbound : List (Except Unit B.Response)) :
    ({ s with
      inbound
      read := s.read ++ [response]
      phase := .emitting instruction.events } : ConnectionActor T B).Faithful initial := by
  obtain ⟨hcommands, hpongs⟩ := h.accounted.answered (congrArg Phase.inLoop hphase)
  have hnext : s.accepted.filterMap Accepted.ponged =
      (s.read ++ [response]).filterMap B.pinged := by
    have hnone : B.pinged response = none := by rw [BidiBinding.pinged, hhandle, hpinged]
    rw [List.filterMap_append, List.filterMap_cons_none hnone, List.filterMap_nil, List.append_nil,
      hpongs]
  refine ⟨h.fifo, ⟨h.accounted.opening, h.accounted.commands, ?_, fun _ => ⟨hcommands, hnext⟩,
    h.accounted.count_le response⟩, (finish_iff_of_looping hphase).mp h.finish,
    h.surfaced.read (congrArg Phase.rest hphase) inbound (congrArg Inbound.events hhandle.symm)⟩
  exact hnext ▸ List.prefix_refl _

theorem Faithful.accepting_pong (h : s.Faithful initial) (hphase : s.phase = .looping)
    {response : B.Response} {nonce : UInt64} (hping : B.handle response = .ping nonce)
    (inbound : List (Except Unit B.Response)) :
    ({ s with inbound, read := s.read ++ [response] } : ConnectionActor T B).Accepting initial
      (.pong nonce) := by
  obtain ⟨hcommands, hpongs⟩ := h.accounted.answered (congrArg Phase.inLoop hphase)
  have hnext : (s.accepted ++ [Accepted.pong nonce]).filterMap Accepted.ponged =
      (s.read ++ [response]).filterMap B.pinged := by
    have hsome : B.pinged response = some nonce := by
      rw [BidiBinding.pinged, hping]
      rfl
    rw [List.filterMap_append, List.filterMap_append, List.filterMap_cons_some hsome, hpongs]
    rfl
  have hsame : (s.accepted ++ [Accepted.pong nonce]).filterMap Accepted.ofCommand =
      s.commands.state.received.filterMap Command.accepted := by
    rw [List.filterMap_append, hcommands]
    exact List.append_nil _
  refine ⟨hphase, (finish_iff_of_looping hphase).mp h.finish, h.fifo,
    ⟨opening_concat h.accounted rfl, ?_, ?_, fun _ => ⟨hsame, hnext⟩, ?_⟩,
    h.accounted.exit rfl ?_ (List.prefix_append _ _) rfl rfl,
    h.surfaced.read (congrArg Phase.rest hphase) inbound
      ((congrArg Phase.rest hphase).trans (congrArg Inbound.events hping.symm))⟩
  · exact hsame ▸ List.prefix_refl _
  · exact hnext ▸ List.prefix_refl _
  · show (s.accepted ++ [Accepted.pong nonce]).countP Accepted.isWatchdog ≤
      (s.read ++ [response]).length + _
    rw [List.countP_append]
    exact (h.accounted.count_le response).trans (Nat.le_add_right _ _)
  · show s.commands.state.received <+: s.commands.dropReceiver.state.received
    rw [Mpsc.Channel.state_dropReceiver]

theorem accepted_enqueue (s : ConnectionActor T B) (accepted : Accepted B) :
    (s.enqueue accepted).2.read = s.read ∧
      ((s.enqueue accepted).2.accepted = s.accepted ++ [accepted] ∨
        (s.enqueue accepted).2.accepted = s.accepted) := by
  unfold enqueue
  split
  · split
    · exact ⟨rfl, .inl rfl⟩
    · exact ⟨rfl, .inl rfl⟩
    · exact ⟨rfl, .inr rfl⟩
  · exact ⟨rfl, .inl rfl⟩

theorem faithful_onResponse (h : s.Faithful initial) (hphase : s.phase = .looping)
    (response : B.Response) (inbound : List (Except Unit B.Response)) :
    (({ s with inbound, read := s.read ++ [response] } : ConnectionActor T B).onResponse
      response).Faithful initial := by
  have hcount := h.accounted.count_le response
  have hemitted : ∀ instruction, B.handle response = instruction → instruction.pinged = none →
      ∀ keepaliveMs, ({ s with
        inbound
        read := s.read ++ [response]
        keepaliveMs
        phase := .emitting instruction.events } : ConnectionActor T B).Faithful initial := by
    intro instruction hhandle hpinged keepaliveMs
    exact (faithful_read h hphase hhandle hpinged inbound).evolves ⟨rfl, id, id, Nat.le_refl _⟩
  generalize ht : ({ s with inbound, read := s.read ++ [response] } : ConnectionActor T B) = t
  have hadopted : ∀ instruction, B.handle response = instruction → instruction.pinged = none →
      ({ t.adoptKeepalive instruction with phase := .emitting instruction.events } :
        ConnectionActor T B).Faithful initial := by
    intro instruction hhandle hpinged
    obtain ⟨keepaliveMs, heq⟩ := exists_adoptKeepalive_eq t instruction
    rw [heq, ← ht]
    exact hemitted instruction hhandle hpinged keepaliveMs
  unfold onResponse
  cases hhandle : B.handle response with
  | ping nonce =>
    have haccepting := h.accepting_pong hphase hhandle inbound
    rw [ht] at haccepting
    obtain ⟨hread, haccepted⟩ := accepted_enqueue t (.pong nonce)
    dsimp only
    generalize hen : t.enqueue (.pong nonce) = answered at hread haccepted ⊢
    obtain ⟨ok, s'⟩ := answered
    obtain ⟨hfaithful, hlooping⟩ := faithful_enqueue haccepting hen
    cases ok with
    | false => exact hfaithful
    | true =>
      refine Faithful.stamp hfaithful (congrArg Phase.inLoop hlooping)
        (congrArg Phase.rest hlooping) ?_
      dsimp only at hread haccepted
      rw [← ht] at hread haccepted
      have hsame : s'.accepted.countP Accepted.isWatchdog =
          s.accepted.countP Accepted.isWatchdog := by
        rcases haccepted with haccepted | haccepted
        · rw [haccepted, List.countP_append]
          rfl
        · rw [haccepted]
      rw [hread, hsame]
      exact hcount
  | pong nonce =>
    have hread := hemitted (.pong nonce) hhandle rfl s.keepaliveMs
    obtain ⟨probes, acknowledged, heq⟩ := exists_resolveProbe_eq t nonce
    dsimp only
    rw [heq, ← ht]
    have hstamped := Faithful.stamp hread rfl rfl hcount
    exact hstamped.evolves ⟨rfl, id, id, Nat.le_refl _⟩
  | emit event => exact hadopted _ hhandle rfl
  | messages group welcome mutateId => exact hadopted _ hhandle rfl
  | skip => exact hadopted _ hhandle rfl

theorem faithful_onInbound (h : s.Faithful initial) (hphase : s.phase = .looping) :
    s.onInbound.Faithful initial := by
  unfold onInbound
  cases s.inbound with
  | nil => exact h.stop hphase
  | cons frame inbound =>
    cases frame with
    | error e =>
      have hread : ({ s with inbound } : ConnectionActor T B).Faithful initial :=
        h.evolves ⟨rfl, id, id, Nat.le_refl _⟩
      exact hread.stop hphase
    | ok response => exact faithful_onResponse h hphase response inbound

theorem faithful_take (h : s.Faithful initial) (hphase : s.phase = .looping) (branch : Branch) :
    (s.take branch).Faithful initial := by
  cases branch with
  | permit => exact faithful_onPermit h hphase
  | command => exact faithful_onCommand h hphase
  | inbound => exact faithful_onInbound h hphase
  | watchdog => exact faithful_onWatchdog h hphase

end Loop

section Drain

theorem faithful_emit (h : s.Faithful initial) {event : B.Event} (next : Phase B)
    (hrest : s.phase.rest = event :: next.rest) (hloop : next.inLoop = true → s.phase.inLoop = true)
    (hwindow : next.window s.watchdogProbed = s.phase.window s.watchdogProbed)
    (hnext : s.Finish → { s with phase := next }.Finish)
    (hstopped : s.Finish → s.finishedAt = none ∨ s.Flushed) (hemit : s.emit event next = some s') :
    s'.Faithful initial := by
  unfold emit at hemit
  cases hsend : s.events.trySend event with
  | ok events =>
    rw [hsend] at hemit
    obtain rfl := Option.some.inj hemit
    obtain ⟨hsent, _, _, hconsumer⟩ := Mpsc.Channel.trySend_eq_ok hsend
    have hcontent : (s.events.sent ++ [event]) ++ next.rest = B.content s.read := by
      rw [List.append_assoc, List.singleton_append, ← hrest]
      exact h.surfaced.live hconsumer
    refine ⟨h.fifo, ⟨h.accounted.opening, h.accounted.commands, h.accounted.pongs,
      fun hin => h.accounted.answered (hloop hin), ?_⟩, hnext h.finish, ⟨?_, fun _ => ?_⟩⟩
    · show s.accepted.countP Accepted.isWatchdog ≤ s.read.length + next.window s.watchdogProbed
      rw [hwindow]
      exact h.accounted.watchdog
    · show events.sent <+: B.content s.read
      rw [hsent, ← hcontent]
      exact List.prefix_append _ _
    · show events.sent ++ next.rest = B.content s.read
      rw [hsent]
      exact hcontent
  | error e =>
    rw [hsend] at hemit
    cases e with
    | full => cases hemit
    | closed =>
      obtain rfl := Option.some.inj hemit
      have hgone := Mpsc.Channel.trySend_eq_closed hsend
      exact faithful_stop h.fifo h.accounted h.surfaced
        (fun hlive => absurd (hgone.symm.trans hlive) Bool.false_ne_true) (hstopped h.finish)

theorem faithful_halfClose (h : s.Faithful initial) (hrest : s.phase.rest = [])
    {outcome : FlushOutcome} (hholds : outcome.Holds s) :
    (s.halfClose outcome).Faithful initial := by
  refine ⟨?_, ?_, ⟨outcome, rfl, ?_⟩, ⟨h.surfaced.sent, ?_⟩⟩
  · rw [halfClose, Mpsc.Channel.sent_dropSenders]
    exact h.fifo
  · apply Accounted.exit h.accounted
    · rfl
    · rw [halfClose, Mpsc.Channel.state_dropReceiver]
    · exact List.prefix_refl _
    · rfl
    · rfl
  · cases outcome with
    | flushed =>
      show s.wireOut.dropSenders.sent = _
      rw [Mpsc.Channel.sent_dropSenders]
      exact hholds
    | wireGone =>
      show s.wireOut.dropSenders.state.receiverLive = false
      rw [Mpsc.Channel.state_dropSenders]
      exact hholds
    | elapsed => exact hholds
  · intro hlive
    have hcontent := h.surfaced.live hlive
    rw [hrest] at hcontent
    exact hcontent

theorem faithful_flush (h : s.Faithful initial) {deadline : Nat} (hphase : s.phase = .flushing deadline)
    (hflush : s.flush deadline = some s') : s'.Faithful initial := by
  have hrest : s.phase.rest = [] := congrArg Phase.rest hphase
  have hloop : s.phase.inLoop = false := congrArg Phase.inLoop hphase
  obtain ⟨hopen, hdeadline⟩ := (finish_iff_of_flushing hphase).mp h.finish
  unfold flush at hflush
  cases hpending : s.pending with
  | nil =>
    rw [hpending] at hflush
    obtain rfl := Option.some.inj hflush
    apply faithful_halfClose h hrest
    show s.wireOut.sent = s.accepted.map Accepted.frame
    rw [← h.fifo, hpending, List.append_nil]
  | cons frame pending =>
    rw [hpending] at hflush
    cases hsend : s.wireOut.trySend frame with
    | ok wireOut =>
      dsimp only at hflush
      rw [hsend] at hflush
      obtain rfl := Option.some.inj hflush
      obtain ⟨hsent, _, hsenders, _⟩ := Mpsc.Channel.trySend_eq_ok hsend
      have hfifo : wireOut.sent ++ pending = s.accepted.map Accepted.frame := by
        rw [hsent, List.append_assoc, List.singleton_append, ← hpending]
        exact h.fifo
      refine ⟨hfifo, ⟨h.accounted.opening, h.accounted.commands, h.accounted.pongs,
        h.accounted.answered, h.accounted.watchdog⟩, (finish_iff_of_flushing ?_).mpr ⟨hsenders.trans hopen, hdeadline⟩,
        ⟨h.surfaced.sent, h.surfaced.live⟩⟩
      exact hphase
    | error e =>
      dsimp only at hflush
      rw [hsend] at hflush
      cases e with
      | closed =>
        obtain rfl := Option.some.inj hflush
        exact faithful_halfClose h hrest (Mpsc.Channel.trySend_eq_closed hsend)
      | full =>
        dsimp only at hflush
        split at hflush
        · rename_i hle
          obtain rfl := Option.some.inj hflush
          obtain ⟨finishedAt, hfinished, hadd⟩ := Option.map_eq_some_iff.mp hdeadline
          apply faithful_halfClose h hrest
          exact ⟨finishedAt, hfinished, hadd.trans_le hle⟩
        · cases hflush

theorem faithful_drain (h : s.Faithful initial) (hphase : s.phase = .draining [])
    (hdrain : s.drain = some s') : s'.Faithful initial := by
  have hrest : s.phase.rest = [] := congrArg Phase.rest hphase
  have hflushed : s.Flushed := by
    have hfinish := h.finish
    unfold Finish at hfinish
    rw [hphase] at hfinish
    exact hfinish
  unfold drain at hdrain
  cases hinbound : s.inbound with
  | nil =>
    rw [hinbound] at hdrain
    dsimp only at hdrain
    split at hdrain
    · obtain rfl := Option.some.inj hdrain
      exact faithful_stop h.fifo h.accounted h.surfaced (fun _ => hrest) (Or.inr hflushed)
    · cases hdrain
  | cons frame inbound =>
    rw [hinbound] at hdrain
    cases frame with
    | error e =>
      obtain rfl := Option.some.inj hdrain
      have hread : ({ s with inbound } : ConnectionActor T B).Faithful initial :=
        h.evolves ⟨rfl, id, id, Nat.le_refl _⟩
      exact faithful_stop hread.fifo hread.accounted hread.surfaced (fun _ => hrest)
        (Or.inr hflushed)
    | ok response =>
      obtain rfl := Option.some.inj hdrain
      refine ⟨h.fifo, ?_, hflushed, h.surfaced.read hrest inbound rfl⟩
      apply Accounted.exit h.accounted
      · rfl
      · exact List.prefix_refl _
      · exact List.prefix_append _ _
      · rfl
      · rfl

theorem Finish.flushed (h : s.Finish) (hfinished : s.finishedAt ≠ none)
    (hclosed : s.wireOut.state.sendersLive = false) (haborted : s.phase ≠ .aborted) : s.Flushed := by
  unfold Finish at h
  cases hphase : s.phase with
  | looping | emitting _ =>
    rw [hphase] at h
    exact absurd h.2 hfinished
  | flushing deadline =>
    rw [hphase] at h
    exact absurd (hclosed.symm.trans h.1) Bool.false_ne_true
  | draining rest =>
    rw [hphase] at h
    exact h
  | stopped =>
    rw [hphase] at h
    exact Or.resolve_left h hfinished
  | aborted => exact absurd hphase haborted

theorem faithful_advance (h : s.Faithful initial) {branch : Branch} (hadvance : s.advance branch = some s') :
    s'.Faithful initial := by
  unfold advance at hadvance
  cases hphase : s.phase with
  | looping =>
    rw [hphase] at hadvance
    dsimp only at hadvance
    split at hadvance
    · obtain rfl := Option.some.inj hadvance
      exact faithful_take h hphase branch
    · cases hadvance
  | emitting rest =>
    rw [hphase] at hadvance
    have hloop : s.phase.inLoop = true := congrArg Phase.inLoop hphase
    cases rest with
    | nil =>
      obtain rfl := Option.some.inj hadvance
      have hwatchdog := h.accounted.watchdog
      rw [hphase] at hwatchdog
      exact h.stamp hloop (congrArg Phase.rest hphase) hwatchdog
    | cons event rest =>
      have hrest : s.phase.rest = event :: rest := congrArg Phase.rest hphase
      have hwindow : (Phase.emitting rest : Phase B).window s.watchdogProbed =
          s.phase.window s.watchdogProbed := by rw [hphase]; rfl
      exact faithful_emit h (.emitting rest) hrest (fun _ => hloop) hwindow
        (finish_iff_of_inLoop hloop).mp
        (fun hfinish => Or.inl ((finish_iff_of_inLoop hloop).mp hfinish).2) hadvance
  | flushing deadline =>
    rw [hphase] at hadvance
    exact faithful_flush h hphase hadvance
  | draining rest =>
    rw [hphase] at hadvance
    cases rest with
    | nil => exact faithful_drain h hphase hadvance
    | cons event rest =>
      have hfinish : s.Finish → s.Flushed := by
        intro hfinish
        unfold Finish at hfinish
        rw [hphase] at hfinish
        exact hfinish
      have hrest : s.phase.rest = event :: rest := congrArg Phase.rest hphase
      have hwindow : (Phase.draining rest : Phase B).window s.watchdogProbed =
          s.phase.window s.watchdogProbed := by rw [hphase]; rfl
      exact faithful_emit h (.draining rest) hrest (fun hloop => absurd hloop Bool.false_ne_true)
        hwindow hfinish (fun hfinished => Or.inr (hfinish hfinished)) hadvance
  | stopped =>
    rw [hphase] at hadvance
    cases hadvance
  | aborted =>
    rw [hphase] at hadvance
    cases hadvance

end Drain

theorem exists_start (T : Mpsc) (initial : B.Mutate) (now : Nat) :
    ∃ s : ConnectionActor T B, start initial now = some s := by
  have hstate := Mpsc.state_channel T wireBuffer (α := B.Request)
  obtain ⟨wireOut, hsend⟩ := T.exists_trySend (B.mutateFrame initial) (by rw [hstate])
    (by rw [hstate]; exact Nat.zero_lt_succ 63)
  rw [start, hsend]
  exact ⟨_, rfl⟩

theorem faithful_start {now : Nat} (h : start initial now = some s) : s.Faithful initial := by
  rw [start] at h
  split at h
  · rename_i wireOut hsend
    cases h
    obtain ⟨hlive, hstate⟩ := Mpsc.trySend_eq_ok T hsend
    rw [Mpsc.state_channel] at hstate
    have hsent : Mpsc.Channel.sent wireOut = [B.mutateFrame initial] := congrArg ChannelState.sent hstate
    have hcommands : (Mpsc.Channel.state (T.channel commandBuffer : T.Channel (Command B))).received =
        [] := congrArg ChannelState.received (Mpsc.state_channel T commandBuffer)
    have hevents : Mpsc.Channel.sent (T.channel eventBuffer : T.Channel B.Event) = [] :=
      congrArg ChannelState.sent (Mpsc.state_channel T eventBuffer)
    refine ⟨?_, ⟨⟨rfl, rfl⟩, List.nil_prefix, List.nil_prefix, fun _ => ⟨?_, rfl⟩, Nat.le_refl _⟩,
      ⟨congrArg ChannelState.sendersLive hstate, rfl⟩, ⟨?_, fun _ => ?_⟩⟩
    · dsimp only
      rw [hsent]
      rfl
    · dsimp only
      rw [hcommands]
      rfl
    · dsimp only
      rw [hevents]
      exact List.nil_prefix
    · dsimp only
      rw [hevents]
      rfl
  · cases h

theorem faithful_step (h : s.Faithful initial) (hstep : s.Step s') : s'.Faithful initial := by
  cases hstep with
  | acted branch hadvance => exact faithful_advance h hadvance
  | transported hrecv =>
    obtain ⟨hsent, _, hreceiver, hsenders⟩ := Mpsc.Channel.recv_eq_some hrecv
    refine h.evolves ⟨?_, fun hgone => hreceiver.trans hgone, id, Nat.le_refl _⟩
    simp only [books, hsent, hsenders]
  | wireClosed =>
    refine h.evolves ⟨?_, fun _ => ?_, id, Nat.le_refl _⟩
    · simp only [books, Mpsc.Channel.sent_dropReceiver, Mpsc.Channel.state_dropReceiver]
    · rw [Mpsc.Channel.state_dropReceiver]
  | submitted hsend =>
    obtain ⟨_, hreceived, _, _⟩ := Mpsc.Channel.trySend_eq_ok hsend
    refine h.evolves ⟨?_, id, id, Nat.le_refl _⟩
    simp only [books, hreceived]
  | handlesDropped =>
    refine h.evolves ⟨?_, id, id, Nat.le_refl _⟩
    simp only [books, Mpsc.Channel.state_dropSenders]
  | probed ack => exact h.evolves ⟨rfl, id, id, Nat.le_refl _⟩
  | probeGivenUp ack => exact h.evolves ⟨rfl, id, id, Nat.le_refl _⟩
  | arrived frame hended => exact h.evolves ⟨rfl, id, id, Nat.le_refl _⟩
  | inboundEnded => exact h.evolves ⟨rfl, id, id, Nat.le_refl _⟩
  | consumed hrecv =>
    obtain ⟨hsent, _, hreceiver, _⟩ := Mpsc.Channel.recv_eq_some hrecv
    refine h.evolves ⟨?_, id, fun hlive => hreceiver.symm.trans hlive, Nat.le_refl _⟩
    simp only [books, hsent]
  | consumerGone =>
    refine h.evolves ⟨?_, id, fun hlive => ?_, Nat.le_refl _⟩
    · simp only [books, Mpsc.Channel.sent_dropReceiver]
    · rw [Mpsc.Channel.state_dropReceiver] at hlive
      exact absurd hlive Bool.false_ne_true
  | aborted hgone hphase => exact h.abort hgone
  | passed ms => exact h.evolves ⟨rfl, id, id, Nat.le_add_right _ _⟩

theorem faithful_of_reachable {now : Nat} (h : Reachable initial now s) : s.Faithful initial := by
  obtain ⟨start', hstart, hrun⟩ := h
  induction hrun with
  | refl => exact faithful_start hstart
  | tail _ hstep ih => exact faithful_step ih hstep

/-- In any run, what is handed to the wire comes first among what was accepted, and nothing is
accepted but the initial frame, the frames of commands, answers to pings and pings of the watchdog; a
flush that the wire leaves time for hands over everything; and a live consumer gets what the frames
that were read have for it, in the loop as in the drain. -/
theorem keeps_order {now : Nat} (h : Reachable initial now s) :
    s.wireOut.sent <+: s.accepted.map Accepted.frame ∧
      s.Accounted initial ∧
      (s.finishedAt ≠ none → s.wireOut.state.sendersLive = false → s.phase ≠ .aborted →
        (s.flushOutcome = some .flushed ∧ s.wireOut.sent = s.accepted.map Accepted.frame) ∨
          (s.flushOutcome = some .wireGone ∧ s.wireOut.state.receiverLive = false) ∨
          (s.flushOutcome = some .elapsed ∧ ∃ finishedAt, s.finishedAt = some finishedAt ∧
            finishedAt + drainFlushBudgetMs ≤ s.now)) ∧
      s.events.sent <+: B.content s.read ∧
      (s.events.state.receiverLive = true →
        s.events.state.received ++ (s.events.state.queue ++ s.phase.rest) = B.content s.read) := by
  have hfaithful := faithful_of_reachable h
  refine ⟨?_, hfaithful.accounted, ?_, hfaithful.surfaced.sent, ?_⟩
  · rw [← hfaithful.fifo]
    exact List.prefix_append _ _
  · intro hfinished hclosed haborted
    obtain ⟨outcome, houtcome, hholds⟩ := hfaithful.finish.flushed hfinished hclosed haborted
    cases outcome with
    | flushed => exact Or.inl ⟨houtcome, hholds⟩
    | wireGone => exact Or.inr (Or.inl ⟨houtcome, hholds⟩)
    | elapsed => exact Or.inr (Or.inr ⟨houtcome, hholds⟩)
  · intro hlive
    rw [← List.append_assoc]
    exact hfaithful.surfaced.live hlive

section Script

inductive Move (B : BidiBinding)
  | act (branch : Branch)
  | transport
  | submit (command : Command B)
  | arrive (response : B.Response)
  | endInbound
  | consume
  | pass (ms : Nat)

def play (s : ConnectionActor T B) : Move B → Option (ConnectionActor T B)
  | .act branch => s.advance branch
  | .transport => s.wireOut.recv.map fun received => { s with wireOut := received.2 }
  | .submit command =>
    (s.commands.trySend command).toOption.map fun commands => { s with commands }
  | .arrive response =>
    if s.inboundEnded then none else some { s with inbound := s.inbound ++ [.ok response] }
  | .endInbound => some { s with inboundEnded := true }
  | .consume => s.events.recv.map fun received => { s with events := received.2 }
  | .pass ms => some { s with now := s.now + ms }

theorem step_of_play {move : Move B} (h : s.play move = some s') : s.Step s' := by
  cases move with
  | act branch => exact .acted branch h
  | transport =>
    obtain ⟨received, hrecv, rfl⟩ := Option.map_eq_some_iff.mp h
    exact .transported hrecv
  | submit command =>
    obtain ⟨commands, hsend, rfl⟩ := Option.map_eq_some_iff.mp h
    cases hsent : s.commands.trySend command with
    | ok sent =>
      rw [hsent] at hsend
      cases hsend
      exact .submitted hsent
    | error e =>
      rw [hsent] at hsend
      cases hsend
  | arrive response =>
    rw [play] at h
    split at h
    · cases h
    · rename_i hopen
      cases h
      exact .arrived _ (Bool.eq_false_iff.mpr hopen)
  | endInbound =>
    cases h
    exact .inboundEnded
  | consume =>
    obtain ⟨received, hrecv, rfl⟩ := Option.map_eq_some_iff.mp h
    exact .consumed hrecv
  | pass ms =>
    cases h
    exact .passed ms

theorem Reachable.play {now : Nat} {moves : List (Move B)} (h : Reachable initial now s)
    (hplay : moves.foldlM ConnectionActor.play s = some s') : Reachable initial now s' := by
  induction moves generalizing s with
  | nil =>
    cases hplay
    exact h
  | cons move moves ih =>
    rw [List.foldlM_cons] at hplay
    obtain ⟨t, ht, hrest⟩ := Option.bind_eq_some_iff.mp hplay
    obtain ⟨start', hstart, hrun⟩ := h
    exact ih ⟨start', hstart, hrun.tail (step_of_play ht)⟩ hrest

inductive SampleFrame
  | mutate (n : Nat)
  | ping (nonce : UInt64)
  | pong (nonce : UInt64)
  deriving DecidableEq

abbrev sample : BidiBinding where
  Request := SampleFrame
  Response := Inbound UInt64 UInt64
  Mutate := Nat
  GroupMessage := UInt64
  WelcomeMessage := UInt64
  mutateFrame := .mutate
  pingFrame := .ping
  pongFrame := .pong
  handle := id

def filling (n : Nat) : List (Move sample) := [.submit (.mutate n), .act .command]

/-- Markers, messages and liveness are read in the meantime, and the watchdog fires once. -/
def listening : List (Move sample) :=
  [.submit (.probe 7 0), .act .command, .arrive (.emit (.started 5000 [])), .act .inbound,
    .act .inbound, .act .inbound, .arrive (.messages [10, 11] [20] 3), .act .inbound, .act .inbound,
    .consume, .act .inbound, .act .inbound, .arrive (.ping 9), .act .inbound, .arrive (.pong 7),
    .act .inbound, .pass 10000, .act .watchdog]

/-- After the finish the wire takes the backlog, and welcomes that come in late are drained. -/
def finishing : List (Move sample) :=
  [.submit .finish, .act .command, .transport, .transport, .transport, .transport, .act .command,
    .act .command, .act .command, .act .command, .act .command, .arrive (.messages [] [21] 0),
    .act .inbound, .act .inbound, .endInbound, .act .inbound]

def script : List (Move sample) := (List.range 64).flatMap filling ++ listening ++ finishing

def surfaced : List (Event UInt64 UInt64) :=
  [.started 5000 [], .groupMessages [10, 11] 3, .welcomeMessages [20] 3, .welcomeMessages [21] 0]

def Played (s : ConnectionActor .plain sample) : Bool :=
  s.flushOutcome == some .flushed && s.finishedAt.isSome && !s.wireOut.state.sendersLive &&
    (s.phase matches .stopped) &&
    (s.accepted.map Accepted.frame).drop 65 == [.ping 7, .pong 9, .ping watchdogNonce] &&
    s.events.sent == surfaced

theorem exists_played : ∃ s : ConnectionActor .plain sample,
    Reachable (0 : Nat) 0 s ∧ Played s = true := by
  obtain ⟨start', hstart⟩ := @exists_start sample .plain (0 : Nat) 0
  have hplayed : ((start (0 : Nat) 0).bind fun s : ConnectionActor .plain sample =>
      script.foldlM play s).any Played = true := by
    decide +kernel
  rw [hstart, Option.bind_some] at hplayed
  obtain ⟨s, hs, hcheck⟩ := (Option.any_eq_true _ _).mp hplayed
  exact ⟨s, Reachable.play ⟨start', hstart, .refl⟩ hs, hcheck⟩

theorem keeps_order_finished : ∃ s : ConnectionActor .plain sample,
    (s.accepted.map Accepted.frame).drop 65 = [.ping 7, .pong 9, .ping watchdogNonce] ∧
    s.Accounted (0 : Nat) ∧ s.wireOut.sent = s.accepted.map Accepted.frame ∧
    s.events.sent = surfaced ∧ s.events.sent <+: sample.content s.read := by
  obtain ⟨s, hreachable, hplayed⟩ := exists_played
  simp only [Played, Bool.and_eq_true, beq_iff_eq, Bool.not_eq_true'] at hplayed
  obtain ⟨⟨⟨⟨⟨hflushed, hfinished⟩, hclosed⟩, hphase⟩, haccepted⟩, hevents⟩ := hplayed
  have hstopped : s.phase ≠ .aborted := by
    intro haborted
    rw [haborted] at hphase
    cases hphase
  have hsome : s.finishedAt ≠ none := by
    intro hnone
    rw [hnone] at hfinished
    cases hfinished
  obtain ⟨_, haccounted, houtcome, hcontent, _⟩ := keeps_order hreachable
  rcases houtcome hsome hclosed hstopped with ⟨_, hsent⟩ | ⟨hgone, _⟩ | ⟨helapsed, _⟩
  · exact ⟨s, haccepted, haccounted, hsent, hevents, hcontent⟩
  · rw [hflushed] at hgone
    cases hgone
  · rw [hflushed] at helapsed
    cases helapsed

end Script

end ConnectionActor

end LibXmtp.Bidi
