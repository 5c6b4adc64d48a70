import Mathlib.Data.List.Infix

namespace LibXmtp.Data

inductive TrySendError
  | full
  | closed

/-- What was received from a channel and what waits in it, and who is still there. -/
structure ChannelState (α : Type) where
  capacity : Nat
  received : List α
  queue : List α
  receiverLive : Bool
  sendersLive : Bool

def ChannelState.sent {α : Type} (s : ChannelState α) : List α := s.received ++ s.queue

/-- What is used of the channels of `tokio::sync::mpsc`. A channel without a receiver takes nothing,
whether there is room or not, and what was sent first is received first. -/
structure Mpsc where
  Channel : Type → Type
  state : {α : Type} → Channel α → ChannelState α
  channel : {α : Type} → Nat → Channel α
  trySend : {α : Type} → Channel α → α → Except TrySendError (Channel α)
  recv : {α : Type} → Channel α → Option (α × Channel α)
  dropReceiver : {α : Type} → Channel α → Channel α
  dropSenders : {α : Type} → Channel α → Channel α
  state_channel {α : Type} (capacity : Nat) :
    state (channel capacity : Channel α) = ⟨capacity, [], [], true, true⟩
  exists_trySend {α : Type} {c : Channel α} (a : α) (hlive : (state c).receiverLive = true)
    (hroom : (state c).queue.length < (state c).capacity) : ∃ c', trySend c a = .ok c'
  trySend_eq_ok {α : Type} {c c' : Channel α} {a : α} (h : trySend c a = .ok c') :
    (state c).receiverLive = true ∧ state c' = { state c with queue := (state c).queue ++ [a] }
  trySend_eq_closed {α : Type} {c : Channel α} {a : α} (h : trySend c a = .error .closed) :
    (state c).receiverLive = false
  recv_eq_some {α : Type} {c c' : Channel α} {a : α} (h : recv c = some (a, c')) :
    ∃ queue, (state c).queue = a :: queue ∧
      state c' = { state c with received := (state c).received ++ [a], queue }
  state_dropReceiver {α : Type} (c : Channel α) :
    state (dropReceiver c) = { state c with receiverLive := false }
  state_dropSenders {α : Type} (c : Channel α) :
    state (dropSenders c) = { state c with sendersLive := false }

namespace Mpsc.Channel

variable {T : Mpsc} {α : Type} (c : T.Channel α)

def state : ChannelState α := Mpsc.state T c

def sent : List α := c.state.sent

def trySend (a : α) : Except TrySendError (T.Channel α) := Mpsc.trySend T c a

def recv : Option (α × T.Channel α) := Mpsc.recv T c

def dropReceiver : T.Channel α := Mpsc.dropReceiver T c

def dropSenders : T.Channel α := Mpsc.dropSenders T c

variable {c} {c' : T.Channel α} {a : α}

@[simp] theorem state_dropReceiver :
    c.dropReceiver.state = { c.state with receiverLive := false } := Mpsc.state_dropReceiver T c

@[simp] theorem state_dropSenders :
    c.dropSenders.state = { c.state with sendersLive := false } := Mpsc.state_dropSenders T c

@[simp] theorem sent_dropReceiver : c.dropReceiver.sent = c.sent := by
  rw [sent, state_dropReceiver]
  rfl

@[simp] theorem sent_dropSenders : c.dropSenders.sent = c.sent := by
  rw [sent, state_dropSenders]
  rfl

theorem trySend_eq_ok (h : c.trySend a = .ok c') :
    c'.sent = c.sent ++ [a] ∧ c'.state.received = c.state.received ∧
      c'.state.sendersLive = c.state.sendersLive ∧ c.state.receiverLive = true := by
  obtain ⟨hlive, hstate⟩ := Mpsc.trySend_eq_ok T h
  change c'.state = { c.state with queue := c.state.queue ++ [a] } at hstate
  rw [sent, hstate]
  exact ⟨(List.append_assoc _ _ _).symm, rfl, rfl, hlive⟩

theorem trySend_eq_closed (h : c.trySend a = .error .closed) : c.state.receiverLive = false :=
  Mpsc.trySend_eq_closed T h

theorem recv_eq_some (h : c.recv = some (a, c')) :
    c'.sent = c.sent ∧ c'.state.received = c.state.received ++ [a] ∧
      c'.state.receiverLive = c.state.receiverLive ∧
      c'.state.sendersLive = c.state.sendersLive := by
  obtain ⟨queue, hqueue, hstate⟩ := Mpsc.recv_eq_some T h
  change c.state.queue = a :: queue at hqueue
  change c'.state = { c.state with received := c.state.received ++ [a], queue } at hstate
  rw [sent, sent, hstate, ChannelState.sent, ChannelState.sent, hqueue]
  exact ⟨List.append_assoc _ _ _, rfl, rfl, rfl⟩

end Mpsc.Channel

namespace ChannelState

variable {α : Type} (s : ChannelState α)

def trySend (a : α) : Except TrySendError (ChannelState α) :=
  if s.receiverLive then
    if s.queue.length < s.capacity then .ok { s with queue := s.queue ++ [a] } else .error .full
  else .error .closed

def recv : Option (α × ChannelState α) :=
  match s.queue with
  | [] => none
  | a :: queue => some (a, { s with received := s.received ++ [a], queue })

end ChannelState

def Mpsc.plain : Mpsc where
  Channel := ChannelState
  state s := s
  channel capacity := ⟨capacity, [], [], true, true⟩
  trySend := ChannelState.trySend
  recv := ChannelState.recv
  dropReceiver s := { s with receiverLive := false }
  dropSenders s := { s with sendersLive := false }
  state_channel _ := rfl
  exists_trySend {_ s} a hlive hroom :=
    ⟨{ s with queue := s.queue ++ [a] }, by rw [ChannelState.trySend, if_pos hlive, if_pos hroom]⟩
  trySend_eq_ok {_ s s' a} h := by
    rw [ChannelState.trySend] at h
    split at h
    · rename_i hlive
      split at h
      · cases h
        exact ⟨hlive, rfl⟩
      · cases h
    · cases h
  trySend_eq_closed {_ s a} h := by
    rw [ChannelState.trySend] at h
    split at h
    · split at h <;> cases h
    · rename_i hclosed
      exact Bool.eq_false_iff.mpr hclosed
  recv_eq_some {_ s s' a} h := by
    rw [ChannelState.recv] at h
    split at h
    · cases h
    · rename_i head queue hqueue
      cases h
      exact ⟨queue, hqueue, rfl⟩
  state_dropReceiver _ := rfl
  state_dropSenders _ := rfl

end LibXmtp.Data
