import LibXmtp.Bidi.LedgerTask

/-! What the routing of frames leaves as it was: the topics of the leases, who is caught up, and the
waves in flight. -/

namespace LibXmtp.Bidi

open LibXmtp.Data LibXmtp.Types

variable {M : DeliveryKind → Type} {C : Type} {order : HashOrder} {W : WireBinding M C}

structure LeaseState.Carries (state state' : LeaseState M C) : Prop where
  topics : state'.topics = state.topics
  floors : state'.floors = state.floors
  caughtUp : state'.caughtUp = state.caughtUp
  sent : state.tx.sent <+: state'.tx.sent

namespace LeaseState.Carries

variable {state state' state'' : LeaseState M C}

@[refl] theorem refl (state : LeaseState M C) : state.Carries state :=
  ⟨rfl, rfl, rfl, List.prefix_refl _⟩

@[trans] theorem trans (h : state.Carries state') (h' : state'.Carries state'') :
    state.Carries state'' where
  topics := h'.topics.trans h.topics
  floors := h'.floors.trans h.floors
  caughtUp := h'.caughtUp.trans h.caughtUp
  sent := h.sent.trans h'.sent

theorem completed (h : state.Carries state') (hcompleted : state.completed = true) :
    state'.completed = true := by
  obtain ⟨event, hevent, his⟩ := List.any_eq_true.mp hcompleted
  exact List.any_eq_true.mpr ⟨event, h.sent.subset hevent, his⟩

end LeaseState.Carries

theorem Sender.prefix_trySend (tx : Sender M) (event : LeaseEvent M) :
    tx.sent <+: (tx.trySend event).1.sent := by
  rw [trySend]
  dsimp only
  split
  · exact List.prefix_append _ _
  · exact List.prefix_refl _

theorem Sender.sent_trySend {tx : Sender M} {event : LeaseEvent M}
    (h : (tx.trySend event).2 = true) : (tx.trySend event).1.sent = tx.sent ++ [event] := by
  rw [trySend] at h ⊢
  exact if_pos h

section States

variable {kind : DeliveryKind} {topic : Topic} {cursor : C}

theorem carries_drainBelow (state : LeaseState M C) :
    state.Carries (state.drainBelow W topic cursor : LeaseState M C × List (M kind)).1 := by
  rw [LeaseState.drainBelow]
  cases (state.held kind).get topic <;> exact ⟨rfl, rfl, rfl, List.prefix_refl _⟩

theorem carries_advanceReplayed (state : LeaseState M C) :
    state.Carries (state.advanceReplayed W topic cursor) :=
  ⟨rfl, rfl, rfl, List.prefix_refl _⟩

theorem carries_releaseFrames (frames : List (Nat × M kind)) (s : LeaseState M C × List (M kind)) :
    s.1.Carries (frames.foldl (LeaseState.releaseFrame W topic) s).1 := by
  induction frames generalizing s with
  | nil => exact .refl s.1
  | cons frame frames ih =>
    rw [List.foldl_cons]
    refine .trans ?_ (ih _)
    rw [LeaseState.releaseFrame]
    cases W.cursorOf frame.2 with
    | none => exact .refl s.1
    | some cursor =>
      dsimp only
      split
      · exact .refl s.1
      · exact carries_advanceReplayed s.1

theorem carries_releaseTail (state : LeaseState M C) :
    state.Carries (state.releaseTail W topic : LeaseState M C × List (M kind)).1 := by
  have hremoved : state.Carries (state.setHeld kind ((state.held kind).remove topic)) :=
    ⟨rfl, rfl, rfl, List.prefix_refl _⟩
  exact hremoved.trans (carries_releaseFrames _ (_, []))

theorem carries_freshFrame (state : LeaseState M C) (rides : Bool) (message : M kind) :
    state.Carries (state.freshFrame W rides topic cursor message).1 := by
  rw [LeaseState.freshFrame]
  split
  · exact .refl state
  split
  · split
    · split <;> exact ⟨rfl, rfl, rfl, List.prefix_refl _⟩
    · exact (carries_drainBelow state).trans (carries_advanceReplayed _)
  · exact .refl state

theorem carries_owedFrame (state : LeaseState M C) (wave : Option WaveId) (claim : Option C)
    (message : M kind) :
    state.Carries (state.owedFrame W wave claim topic cursor message).1 := by
  rw [LeaseState.owedFrame]
  dsimp only
  split
  · exact .refl state
  split
  · exact .refl state
  split
  · exact .refl state
  split
  · exact (carries_drainBelow state).trans (carries_advanceReplayed _)
  · exact ((carries_drainBelow state).trans (carries_advanceReplayed _)).trans
      (carries_releaseTail _)

end States

namespace Ledger

/-- The same leases with the same topics and the same waves, each lease as far as it was. -/
structure Carries (ledger ledger' : Ledger M C) : Prop where
  leases : ∀ id, Option.Rel LeaseState.Carries (ledger.leases.get id) (ledger'.leases.get id)
  byTopic : ledger'.byTopic = ledger.byTopic
  pendingWaves : ledger'.pendingWaves = ledger.pendingWaves
  nextLease : ledger'.nextLease = ledger.nextLease
  nextWave : ledger'.nextWave = ledger.nextWave
  catching : ledger'.catching = ledger.catching

namespace Carries

variable {ledger ledger' ledger'' : Ledger M C} {id : LeaseId} {state state' : LeaseState M C}

@[refl] theorem refl (ledger : Ledger M C) : ledger.Carries ledger where
  leases id := by
    cases ledger.leases.get id with
    | none => exact .none
    | some state => exact .some (.refl state)
  byTopic := rfl
  pendingWaves := rfl
  nextLease := rfl
  nextWave := rfl
  catching := rfl

theorem exists_before (h : ledger.Carries ledger') (hstate : ledger'.leases.get id = some state') :
    ∃ state, ledger.leases.get id = some state ∧ state.Carries state' := by
  have hrel := h.leases id
  rw [hstate] at hrel
  cases hbefore : ledger.leases.get id with
  | none =>
    rw [hbefore] at hrel
    cases hrel
  | some state =>
    rw [hbefore] at hrel
    cases hrel with
    | some hcarries => exact ⟨state, rfl, hcarries⟩

theorem exists_after (h : ledger.Carries ledger') (hstate : ledger.leases.get id = some state) :
    ∃ state', ledger'.leases.get id = some state' ∧ state.Carries state' := by
  have hrel := h.leases id
  rw [hstate] at hrel
  cases hafter : ledger'.leases.get id with
  | none =>
    rw [hafter] at hrel
    cases hrel
  | some state' =>
    rw [hafter] at hrel
    cases hrel with
    | some hcarries => exact ⟨state', rfl, hcarries⟩

@[trans] theorem trans (h : ledger.Carries ledger') (h' : ledger'.Carries ledger'') :
    ledger.Carries ledger'' where
  leases id := by
    have hrel := h'.leases id
    cases hafter : ledger''.leases.get id with
    | some state'' =>
      obtain ⟨state', hstate', hcarries'⟩ := h'.exists_before hafter
      obtain ⟨state, hstate, hcarries⟩ := h.exists_before hstate'
      rw [hstate]
      exact .some (hcarries.trans hcarries')
    | none =>
      cases hbefore : ledger.leases.get id with
      | none => exact .none
      | some state =>
        obtain ⟨state', hstate', _⟩ := h.exists_after hbefore
        obtain ⟨state'', hstate'', _⟩ := h'.exists_after hstate'
        rw [hafter] at hstate''
        cases hstate''
  byTopic := h'.byTopic.trans h.byTopic
  pendingWaves := h'.pendingWaves.trans h.pendingWaves
  nextLease := h'.nextLease.trans h.nextLease
  nextWave := h'.nextWave.trans h.nextWave
  catching := h'.catching.trans h.catching

theorem insert (h : ledger.leases.get id = some state) (hcarries : state.Carries state') :
    ledger.Carries { ledger with leases := ledger.leases.insert id state' } where
  leases id' := by
    rw [HashMap.get_insert]
    by_cases heq : (id == id') = true
    · rw [if_pos heq, ← eq_of_beq heq, h]
      exact .some hcarries
    · rw [if_neg heq]
      exact (Carries.refl ledger).leases id'
  byTopic := rfl
  pendingWaves := rfl
  nextLease := rfl
  nextWave := rfl
  catching := by
    have hcount := HashMap.countP_insert (w := state') (fun e => !e.2.caughtUp) h
    rw [hcarries.caughtUp] at hcount
    exact Nat.add_right_cancel hcount

theorem lastSeen (ledger : Ledger M C) (lastSeen : HashMap Topic C) :
    ledger.Carries { ledger with lastSeen } :=
  ⟨(Carries.refl ledger).leases, rfl, rfl, rfl, rfl, rfl⟩

end Carries

variable {ledger : Ledger M C}

theorem carries_deliver (ledger : Ledger M C) (lease : LeaseId) (event : LeaseEvent M) :
    ledger.Carries (ledger.deliver lease event).1 := by
  rw [deliver]
  cases hstate : ledger.leases.get lease with
  | none => exact .refl ledger
  | some state => exact .insert hstate ⟨rfl, rfl, rfl, state.tx.prefix_trySend event⟩

theorem carries_deliverAll (ledger : Ledger M C) (lease : LeaseId) (events : List (LeaseEvent M)) :
    ledger.Carries (ledger.deliverAll lease events).1 := by
  induction events generalizing ledger with
  | nil => exact .refl ledger
  | cons event events ih =>
    rw [deliverAll]
    dsimp only
    split
    · exact (carries_deliver ledger lease event).trans (ih _)
    · exact carries_deliver ledger lease event

theorem carries_deliverEach (ledger : Ledger M C) (dropped : List LeaseId)
    (events : List (LeaseId × LeaseEvent M)) :
    ledger.Carries (ledger.deliverEach dropped events).1 := by
  rw [deliverEach]
  induction events generalizing ledger dropped with
  | nil => exact .refl ledger
  | cons event events ih =>
    rw [List.foldl_cons]
    exact (carries_deliver ledger event.1 event.2).trans (ih _ _)

end Ledger

namespace Demux

variable {kind : DeliveryKind}

theorem ledger_push (s : Demux M C kind) (lease : LeaseId) (frames : List (M kind)) :
    (s.push lease frames).ledger = s.ledger := by
  rw [push]
  split <;> rfl

theorem ledger_untracked (leases : List LeaseId) (message : M kind) (s : Demux M C kind) :
    (leases.foldl (untracked message) s).ledger = s.ledger := by
  induction leases generalizing s with
  | nil => rfl
  | cons lease leases ih =>
    rw [List.foldl_cons, ih, untracked]
    split
    · rfl
    · exact ledger_push s lease [message]

theorem carries_holder (wave : Option WaveId) (riders : Option LeaseId × List LeaseId)
    (fresh : Bool) (claim : Option C) (topic : Topic) (cursor : C) (message : M kind)
    (s : Demux M C kind) (lease : LeaseId) :
    s.ledger.Carries (s.holder W wave riders fresh claim topic cursor message lease).ledger := by
  rw [holder]
  split
  · exact .refl s.ledger
  cases hstate : s.ledger.leases.get lease with
  | none => exact .refl s.ledger
  | some state =>
    dsimp only
    rw [ledger_push]
    refine .insert hstate ?_
    cases fresh with
    | true => exact carries_freshFrame state _ message
    | false => exact carries_owedFrame state wave claim message

theorem carries_holders (wave : Option WaveId) (riders : Option LeaseId × List LeaseId)
    (fresh : Bool) (claim : Option C) (topic : Topic) (cursor : C) (message : M kind)
    (leases : List LeaseId) (s : Demux M C kind) :
    s.ledger.Carries
      (leases.foldl (holder W wave riders fresh claim topic cursor message) s).ledger := by
  induction leases generalizing s with
  | nil => exact .refl s.ledger
  | cons lease leases ih =>
    rw [List.foldl_cons]
    exact (carries_holder wave riders fresh claim topic cursor message s lease).trans (ih _)

theorem carries_message (wave : Option WaveId) (riders : Option LeaseId × List LeaseId)
    (s : Demux M C kind) (message : M kind) :
    s.ledger.Carries (s.message order W wave riders message).ledger := by
  rw [Demux.message]
  cases W.topicOf message with
  | none => exact .refl s.ledger
  | some topic =>
    dsimp only
    cases s.ledger.byTopic.get topic with
    | none => exact .refl s.ledger
    | some holders =>
      dsimp only
      cases W.cursorOf message with
      | none =>
        dsimp only
        rw [ledger_untracked]
      | some cursor =>
        dsimp only
        split
        · exact .refl s.ledger
        · exact (carries_holders _ _ _ _ _ _ _ _ s).trans (.lastSeen _ _)

end Demux

theorem Ledger.carries_demux {kind : DeliveryKind} (ledger : Ledger M C) (batch : List (M kind))
    (mutateId : Nat) : ledger.Carries (ledger.demux order W batch mutateId).ledger := by
  rw [demux]
  have hbatch (wave : Option WaveId) (riders : Option LeaseId × List LeaseId)
      (s : Demux M C kind) :
      s.ledger.Carries (batch.foldl (Demux.message order W wave riders) s).ledger := by
    induction batch generalizing s with
    | nil => exact .refl s.ledger
    | cons message batch ih =>
      rw [List.foldl_cons]
      exact (Demux.carries_message wave riders s message).trans (ih _)
  exact hbatch _ _ ⟨ledger, .empty, []⟩

end LibXmtp.Bidi
