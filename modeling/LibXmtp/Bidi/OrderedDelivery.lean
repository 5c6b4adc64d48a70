import LibXmtp.Bidi.LeaseFeed
import LibXmtp.Bidi.LedgerActs
import Mathlib.Data.List.Flatten

/-! What the leases of a wire are sent: nothing twice, nothing out of order, and nothing they did
not ask for. -/

namespace LibXmtp.Bidi

open LibXmtp.Data LibXmtp.Types

variable {M : DeliveryKind → Type} {C : Type} {order : HashOrder} {W : WireBinding M C}
  {kind : DeliveryKind}

structure LeaseState.Serves (W : WireBinding M C) (lastSeen : HashMap Topic C)
    (state : LeaseState M C) (events : List (LeaseEvent M)) : Prop where
  onTopic : ∀ topic, state.OnTopic W (lastSeen.get topic) topic (W.fed topic events)
  asked : ∀ event ∈ events, ∀ topic ∈ event.topics W, ∃ topic' ∈ state.topics, topic = some topic'
  heldAsked : ∀ kind topic, state.heldOn kind topic ≠ [] → topic ∈ state.topics
  untold : state.caughtUp = false → ∀ event ∈ events, event.isCatchUpComplete = false
  completes : events.Pairwise fun event event' =>
    event.isCatchUpComplete = true → event'.isMessages = true

namespace LeaseState

variable {lastSeen lastSeen' : HashMap Topic C} {state state' : LeaseState M C} {topic : Topic}
  {events events' : List (LeaseEvent M)}

theorem fed_append (events events' : List (LeaseEvent M)) :
    W.fed topic (events ++ events') = W.fed topic events ++ W.fed topic events' :=
  List.flatMap_append

theorem Serves.sublist (h : state.Serves W lastSeen events) (hevents : events'.Sublist events) :
    state.Serves W lastSeen events' where
  onTopic topic := (h.onTopic topic).sublist (hevents.flatMap _)
  asked event hevent := h.asked event (hevents.subset hevent)
  heldAsked := h.heldAsked
  untold hcatching event hevent := h.untold hcatching event (hevents.subset hevent)
  completes := h.completes.sublist hevents

theorem Serves.fed_eq_nil (h : state.Serves W lastSeen events) (htopic : topic ∉ state.topics) :
    W.fed topic events = [] := by
  refine List.flatMap_eq_nil_iff.mpr fun event hevent => ?_
  cases event with
  | topicsLive _ => rfl
  | catchUpComplete => rfl
  | messages kind batch =>
    rw [LeaseEvent.positions, List.eq_nil_iff_forall_not_mem]
    intro p hp
    obtain ⟨message, hmessage, hof, _⟩ := mem_positions.mp hp
    obtain ⟨topic', htopic', heq⟩ :=
      h.asked _ hevent (W.topicOf message) (List.mem_map.mpr ⟨message, hmessage, rfl⟩)
    rw [hof] at heq
    cases heq
    exact htopic htopic'

theorem Serves.advance (h : state.Serves W lastSeen events)
    (hseen : ∀ topic ∈ state.topics, ∀ p, W.reached (lastSeen.get topic) p = true →
      W.reached (lastSeen'.get topic) p = true) : state.Serves W lastSeen' events where
  onTopic topic := by
    by_cases htopic : topic ∈ state.topics
    · exact (h.onTopic topic).advance (hseen topic htopic)
    · have hheld (kind : DeliveryKind) : state.heldOn kind topic = [] :=
        by_contra fun hne => htopic (h.heldAsked kind topic hne)
      rw [h.fed_eq_nil htopic]
      have hnone {P : C → Prop} : ∀ p ∈ ([] : List C), P p := fun p hp => absurd hp List.not_mem_nil
      refine ⟨⟨.nil, hnone, hnone, fun kind frame hframe => ?_, fun kind => ?_⟩, fun _ => hnone,
        fun _ => hheld⟩
      · rw [hheld kind] at hframe
        exact absurd hframe List.not_mem_nil
      · rw [hheld kind]
        exact .nil
  asked := h.asked
  heldAsked := h.heldAsked
  untold := h.untold
  completes := h.completes

theorem Serves.topicsLive {topics : List Topic} (h : state.Serves W lastSeen events)
    (hcatching : state.caughtUp = false) (htopics : ∀ topic ∈ topics, topic ∈ state.topics) :
    state.Serves W lastSeen (events ++ [.topicsLive topics]) where
  onTopic topic := by
    rw [fed_append]
    exact (List.append_nil (W.fed topic events)).symm ▸ h.onTopic topic
  asked := by
    refine List.forall_mem_append.mpr ⟨h.asked, List.forall_mem_singleton.mpr ?_⟩
    intro topic htopic
    obtain ⟨topic', htopic', heq⟩ := List.mem_map.mp htopic
    exact ⟨topic', htopics topic' htopic', heq.symm⟩
  heldAsked := h.heldAsked
  untold _ := List.forall_mem_append.mpr
    ⟨h.untold hcatching, List.forall_mem_singleton.mpr rfl⟩
  completes := by
    refine List.pairwise_append.mpr ⟨h.completes, List.pairwise_singleton _ _, ?_⟩
    intro event hevent _ _ hcomplete
    rw [h.untold hcatching event hevent] at hcomplete
    cases hcomplete

theorem Serves.byTopic (h : state.Serves W lastSeen events) : state.ByTopic W :=
  fun kind topic frame hframe => ((h.onTopic topic).held kind frame hframe).2.topicOf

theorem mem_withheldTail {frame : Nat × M kind} (h : frame ∈ state.withheldTail W kind) :
    ∃ topic, frame ∈ state.heldOn kind topic := by
  rw [withheldTail, List.mem_insertionSort] at h
  obtain ⟨⟨topic, frames⟩, hentry, hframe⟩ := List.mem_flatMap.mp h
  refine ⟨topic, ?_⟩
  rw [heldOn, HashMap.get_eq_some_iff.mpr hentry]
  exact List.mem_of_mem_filter hframe

theorem mem_tailEvents {event : LeaseEvent M} (h : event ∈ state.tailEvents W) :
    ∃ kind, event = .messages kind ((state.withheldTail W kind).map Prod.snd) := by
  have hevent {kind : DeliveryKind} (hmem : event ∈ state.tailEvent W kind) :
      event = .messages kind ((state.withheldTail W kind).map Prod.snd) := by
    rw [tailEvent] at hmem
    split at hmem
    · exact absurd hmem List.not_mem_nil
    · exact List.mem_singleton.mp hmem
  have heither (kind kind' : DeliveryKind)
      (hmem : event ∈ state.tailEvent W kind ++ state.tailEvent W kind') :
      ∃ kind, event = .messages kind ((state.withheldTail W kind).map Prod.snd) := by
    cases List.mem_append.mp hmem with
    | inl hmem => exact ⟨kind, hevent hmem⟩
    | inr hmem => exact ⟨kind', hevent hmem⟩
  cases tailEvents_eq_or_eq W state with
  | inl heq => exact heither _ _ (heq ▸ h)
  | inr heq => exact heither _ _ (heq ▸ h)

theorem Serves.catchUp (h : state.Serves W lastSeen events) (hlane : W.OneLane)
    (hcatching : state.caughtUp = false) :
    state.catchUp.Serves W lastSeen (events ++ (state.tailEvents W ++ [.catchUpComplete])) where
  onTopic topic := by
    rw [fed_append]
    exact (h.onTopic topic).catchUp h.byTopic hlane
  asked := by
    refine List.forall_mem_append.mpr ⟨h.asked, List.forall_mem_append.mpr ⟨?_, ?_⟩⟩
    · intro event hevent topic htopic
      obtain ⟨kind, heq⟩ := mem_tailEvents hevent
      subst heq
      obtain ⟨message, hmessage, hof⟩ := List.mem_map.mp htopic
      obtain ⟨frame, hframe, heq⟩ := List.mem_map.mp hmessage
      obtain ⟨topic', hheld⟩ := mem_withheldTail hframe
      subst heq
      rw [h.byTopic kind topic' frame hheld] at hof
      exact ⟨topic', h.heldAsked kind topic' (List.ne_nil_of_mem hheld), hof.symm⟩
    · exact List.forall_mem_singleton.mpr fun _ htopic => absurd htopic List.not_mem_nil
  heldAsked _ _ hne := absurd rfl hne
  untold hcaught := Bool.noConfusion hcaught
  completes := by
    have htail : ∀ event ∈ state.tailEvents W, event.isCatchUpComplete = false := by
      intro event hevent
      obtain ⟨kind, heq⟩ := mem_tailEvents hevent
      rw [heq]
      rfl
    have hnone : ∀ event ∈ events ++ state.tailEvents W, event.isCatchUpComplete = false :=
      List.forall_mem_append.mpr ⟨h.untold hcatching, htail⟩
    rw [← List.append_assoc]
    refine List.pairwise_append.mpr ⟨?_, List.pairwise_singleton _ _, ?_⟩
    · refine List.Pairwise.imp_of_mem (R := fun _ _ => True) ?_
        (List.pairwise_of_forall fun _ _ => trivial)
      intro event event' hevent _ _ hcomplete
      rw [hnone event hevent] at hcomplete
      cases hcomplete
    · intro event hevent _ _ hcomplete
      rw [hnone event hevent] at hcomplete
      cases hcomplete

end LeaseState

namespace Ledger

structure Serves (W : WireBinding M C) (ledger : Ledger M C)
    (pending : LeaseId → List (LeaseEvent M)) : Prop where
  sound : ledger.Sound
  serves : ∀ lease state, ledger.leases.get lease = some state →
    state.Serves W ledger.lastSeen (state.tx.sent ++ pending lease)

variable {ledger ledger' : Ledger M C} {pending : LeaseId → List (LeaseEvent M)} {lease : LeaseId}
  {state : LeaseState M C} {event : LeaseEvent M} {events : List (LeaseEvent M)}
  {dropped : List LeaseId}

theorem Serves.keeps (h : ledger.Serves W pending) (hkeeps : ledger.KeepsLeases ledger') :
    ledger'.Serves W pending where
  sound := h.sound.same hkeeps.same
  serves lease state hstate := by
    rw [hkeeps.leases] at hstate
    rw [hkeeps.lastSeen]
    exact h.serves lease state hstate

section Deliver

theorem sublist_trySend (tx : Sender M) (event : LeaseEvent M) (events : List (LeaseEvent M)) :
    ((tx.trySend event).1.sent ++ events).Sublist (tx.sent ++ event :: events) := by
  rw [Sender.trySend]
  dsimp only
  split
  · rw [List.append_assoc]
    exact .refl _
  · exact (List.sublist_cons_self event events).append_left tx.sent

theorem Serves.deliver (h : ledger.Serves W (Function.update pending lease (event :: events))) :
    (ledger.deliver lease event).1.Serves W (Function.update pending lease events) where
  sound := h.sound.same (carries_deliver ledger lease event).same
  serves lease' state' hstate' := by
    rw [Ledger.deliver] at hstate' ⊢
    cases hstate : ledger.leases.get lease with
    | none =>
      rw [hstate] at hstate'
      have hne : lease' ≠ lease := by
        rintro rfl
        rw [hstate] at hstate'
        cases hstate'
      have hserves := h.serves lease' state' hstate'
      rw [Function.update_of_ne hne] at hserves ⊢
      exact hserves
    | some state =>
      rw [hstate] at hstate'
      dsimp only at hstate' ⊢
      rw [HashMap.get_insert] at hstate'
      by_cases heq : (lease == lease') = true
      · rw [if_pos heq] at hstate'
        cases hstate'
        cases eq_of_beq heq
        have hserves := h.serves lease state hstate
        rw [Function.update_self] at hserves ⊢
        have hless := hserves.sublist (sublist_trySend state.tx event events)
        exact ⟨fun topic => (hless.onTopic topic).agrees ⟨⟨rfl, Nat.le_refl _, fun _ => .refl _⟩,
          rfl, rfl, rfl⟩, hless.asked, hless.heldAsked, hless.untold, hless.completes⟩
      · rw [if_neg heq] at hstate'
        have hne : lease' ≠ lease := fun hself => heq (by rw [hself]; exact BEq.rfl)
        have hserves := h.serves lease' state' hstate'
        rw [Function.update_of_ne hne] at hserves ⊢
        exact hserves

theorem Serves.less {pending' : LeaseId → List (LeaseEvent M)} (h : ledger.Serves W pending)
    (hless : ∀ lease, (pending' lease).Sublist (pending lease)) : ledger.Serves W pending' where
  sound := h.sound
  serves lease state hstate :=
    (h.serves lease state hstate).sublist ((hless lease).append_left state.tx.sent)

theorem Serves.deliverAll
    (h : ledger.Serves W (Function.update pending lease events)) (hnone : pending lease = []) :
    (ledger.deliverAll lease events).1.Serves W pending := by
  induction events generalizing ledger with
  | nil =>
    rw [← hnone, Function.update_eq_self] at h
    exact h
  | cons event events ih =>
    rw [Ledger.deliverAll]
    dsimp only
    split
    · exact ih h.deliver
    · refine h.deliver.less fun lease' => ?_
      by_cases heq : lease' = lease
      · rw [heq, hnone]
        exact List.nil_sublist _
      · rw [Function.update_of_ne heq]

def share (events : List (LeaseId × LeaseEvent M)) (lease : LeaseId) : List (LeaseEvent M) :=
  events.flatMap fun event => if event.1 == lease then [event.2] else []

theorem Serves.deliverEach (events : List (LeaseId × LeaseEvent M)) (dropped : List LeaseId)
    (h : ledger.Serves W (share events)) :
    (ledger.deliverEach dropped events).1.Serves W fun _ => [] := by
  rw [Ledger.deliverEach]
  induction events generalizing ledger dropped with
  | nil => exact h
  | cons event events ih =>
    rw [List.foldl_cons]
    refine ih _ ?_
    have hshare : share (event :: events) =
        Function.update (share events) event.1 (event.2 :: share events event.1) := by
      funext lease
      rw [share, List.flatMap_cons]
      by_cases heq : event.1 = lease
      · subst heq
        rw [if_pos BEq.rfl, Function.update_self]
        rfl
      · rw [if_neg (by simpa using heq), Function.update_of_ne (Ne.symm heq)]
        rfl
    rw [hshare] at h
    have hdelivered := h.deliver
    rwa [Function.update_eq_self] at hdelivered

theorem share_iterate {α : Type} (m : HashMap LeaseId α) (make : α → LeaseEvent M) :
    share ((order.iterate m.entries).map fun (lease, a) => (lease, make a)) lease =
      ((m.get lease).map make).toList := by
  have hperm : (share ((order.iterate m.entries).map fun (lease, a) => (lease, make a)) lease).Perm
      (share (m.entries.map fun (lease, a) => (lease, make a)) lease) :=
    ((order.iterate_perm m.entries).map _).flatMap_right _
  have hshare : share (m.entries.map fun (lease, a) => (lease, make a)) lease =
      ((m.get lease).map make).toList := by
    rw [share, List.flatMap_map, HashMap.flatMap_entries (k := lease)]
    · cases m.get lease with
      | none => rfl
      | some a =>
        dsimp only [Option.map_some, Option.getD_some]
        rw [if_pos BEq.rfl]
        rfl
    · intro e _ hne
      exact if_neg (by simpa using hne)
  rw [hshare] at hperm
  cases hget : (m.get lease).map make with
  | none =>
    rw [hget] at hperm
    exact hperm.eq_nil
  | some event =>
    rw [hget] at hperm
    exact List.perm_singleton.mp hperm

end Deliver

section Complete

theorem Serves.complete (h : ledger.Serves W fun _ => []) (hlane : W.OneLane)
    (order : HashOrder) (dropped : List LeaseId) (lease : LeaseId) :
    (ledger.complete order W dropped lease).1.Serves W fun _ => [] := by
  rw [Ledger.complete]
  cases hstate : ledger.leases.get lease with
  | none => exact h
  | some state =>
    dsimp only
    cases hcaught : state.caughtUp with
    | true => exact h
    | false =>
      rw [if_neg Bool.false_ne_true]
      split
      · exact h.keeps ⟨rfl, rfl, rfl, rfl⟩
      · have hpending : { ledger with
            leases := ledger.leases.insert lease state.catchUp }.Serves W
              (Function.update (fun _ => []) lease
                (state.tailEvents W ++ [LeaseEvent.catchUpComplete])) := by
          constructor
          · refine h.sound.same ⟨fun lease' => ?_, rfl, rfl⟩
            rw [asked, asked, HashMap.get_insert]
            split
            · rename_i heq
              rw [← eq_of_beq heq, hstate]
              rfl
            · rfl
          · intro lease' state' hstate'
            rw [HashMap.get_insert] at hstate'
            by_cases heq : (lease == lease') = true
            · rw [if_pos heq] at hstate'
              cases hstate'
              cases eq_of_beq heq
              have hserves := h.serves lease state hstate
              rw [List.append_nil] at hserves
              rw [Function.update_self]
              exact hserves.catchUp hlane hcaught
            · rw [if_neg heq] at hstate'
              have hne : lease' ≠ lease := fun hself => heq (by rw [hself]; exact BEq.rfl)
              rw [Function.update_of_ne hne]
              exact h.serves lease' state' hstate'
        exact hpending.deliverAll rfl

theorem Serves.completeAll (h : ledger.Serves W fun _ => []) (hlane : W.OneLane)
    (order : HashOrder) (dropped leases : List LeaseId) :
    (ledger.completeAll order W dropped leases).1.Serves W fun _ => [] := by
  rw [Ledger.completeAll]
  induction leases generalizing ledger dropped with
  | nil => exact h
  | cons lease leases ih => exact ih (h.complete hlane order dropped lease) _

end Complete

end Ledger

namespace Demux

variable {s : Demux M C kind} {lease : LeaseId} {topic : Topic} {cursor : C}
  {message : M kind} {frames : List (M kind)} {state state' : LeaseState M C}

def pending (s : Demux M C kind) (lease : LeaseId) : List (LeaseEvent M) :=
  ((s.perLease.get lease).map (LeaseEvent.messages kind)).toList

def Serves (W : WireBinding M C) (s : Demux M C kind) : Prop := s.ledger.Serves W s.pending

theorem mem_pending {event : LeaseEvent M} (h : event ∈ s.pending lease) :
    ∃ batch, s.perLease.get lease = some batch ∧ event = .messages kind batch := by
  rw [pending, Option.mem_toList, Option.map_eq_some_iff] at h
  obtain ⟨batch, hbatch, heq⟩ := h
  exact ⟨batch, hbatch, heq.symm⟩

theorem fed_push (s : Demux M C kind) (lease : LeaseId) (frames : List (M kind)) (topic : Topic) :
    W.fed topic ((s.push lease frames).pending lease) =
      W.fed topic (s.pending lease) ++ W.positions topic frames := by
  rw [push]
  split
  · rename_i hempty
    rw [List.isEmpty_iff.mp hempty]
    exact (List.append_nil _).symm
  · rw [pending, pending, HashMap.get_modifyOr, if_pos BEq.rfl]
    cases s.perLease.get lease with
    | none => exact List.append_nil _
    | some batch =>
      change W.positions topic (batch ++ frames) ++ [] =
        (W.positions topic batch ++ []) ++ W.positions topic frames
      rw [List.append_nil, List.append_nil, LeaseState.positions_append]

theorem topics_push {event : LeaseEvent M} (hevent : event ∈ (s.push lease frames).pending lease)
    {t : Option Topic} (ht : t ∈ event.topics W) :
    (∃ event ∈ s.pending lease, t ∈ event.topics W) ∨ t ∈ frames.map W.topicOf := by
  rw [push] at hevent
  split at hevent
  · exact .inl ⟨event, hevent, ht⟩
  · obtain ⟨batch, hbatch, heq⟩ := mem_pending hevent
    subst heq
    rw [HashMap.get_modifyOr, if_pos BEq.rfl] at hbatch
    cases Option.some.inj hbatch
    cases hbefore : s.perLease.get lease with
    | none =>
      rw [hbefore] at ht
      exact .inr ht
    | some batch =>
      rw [hbefore] at ht
      have hmem : t ∈ (batch ++ frames).map W.topicOf := ht
      rw [List.map_append] at hmem
      refine (List.mem_append.mp hmem).imp_left fun hmem => ⟨.messages kind batch, ?_, hmem⟩
      rw [pending, hbefore]
      exact List.mem_singleton_self _

theorem pending_push_of_ne {lease' : LeaseId} (hne : lease ≠ lease') :
    (s.push lease frames).pending lease' = s.pending lease' := by
  rw [push]
  split
  · rfl
  · rw [pending, pending, HashMap.get_modifyOr, if_neg (by simpa using hne)]

theorem serves_push {lastSeen lastSeen' : HashMap Topic C} {events : List (LeaseEvent M)}
    (h : state.Serves W lastSeen (events ++ s.pending lease))
    (honTopic : ∀ topic, state'.OnTopic W (lastSeen'.get topic) topic
      (W.fed topic (events ++ s.pending lease) ++ W.positions topic frames))
    (htopics : state'.topics = state.topics) (hcaught : state'.caughtUp = state.caughtUp)
    (hframes : ∀ frame ∈ frames, ∃ topic ∈ state.topics, W.topicOf frame = some topic)
    (hheld : ∀ kind topic, state'.heldOn kind topic ≠ [] → topic ∈ state.topics) :
    state'.Serves W lastSeen' (events ++ (s.push lease frames).pending lease) := by
  obtain ⟨hsent, hpending⟩ := List.forall_mem_append.mp h.asked
  have hmessages : ∀ event ∈ (s.push lease frames).pending lease, event.isMessages = true ∧
      event.isCatchUpComplete = false := by
    intro event hevent
    obtain ⟨batch, _, heq⟩ := mem_pending hevent
    rw [heq]
    exact ⟨rfl, rfl⟩
  refine ⟨fun topic => ?_, ?_, ?_, ?_, ?_⟩
  · rw [LeaseState.fed_append, fed_push, ← List.append_assoc, ← LeaseState.fed_append]
    exact honTopic topic
  · rw [htopics]
    refine List.forall_mem_append.mpr ⟨hsent, fun event hevent t ht => ?_⟩
    cases topics_push hevent ht with
    | inl hbefore =>
      obtain ⟨event, hevent, ht⟩ := hbefore
      exact hpending event hevent t ht
    | inr hnew =>
      obtain ⟨frame, hframe, heq⟩ := List.mem_map.mp hnew
      rw [← heq]
      exact hframes frame hframe
  · rw [htopics]
    exact hheld
  · rw [hcaught]
    intro hcatching
    exact List.forall_mem_append.mpr
      ⟨(List.forall_mem_append.mp (h.untold hcatching)).1, fun event hevent =>
        (hmessages event hevent).2⟩
  · refine List.pairwise_append.mpr ⟨(List.pairwise_append.mp h.completes).1, ?_, ?_⟩
    · exact List.Pairwise.imp_of_mem (R := fun _ _ => True)
        (fun _ hevent' _ _ => (hmessages _ hevent').1) (List.pairwise_of_forall fun _ _ => trivial)
    · exact fun _ _ event' hevent' _ => (hmessages event' hevent').1

section Untracked

theorem Serves.untracked (h : s.Serves W) (htopic : W.topicOf message = some topic)
    (hcursor : W.cursorOf message = none)
    (hlease : ∀ state, s.ledger.leases.get lease = some state → topic ∈ state.topics) :
    (s.untracked message lease).Serves W := by
  rw [Demux.untracked]
  split
  · exact h
  · constructor
    · rw [ledger_push]
      exact h.sound
    · intro lease' state hstate
      rw [ledger_push] at hstate ⊢
      by_cases heq : lease = lease'
      · subst heq
        have hserves := h.serves lease state hstate
        refine serves_push hserves (fun topic' => ?_) rfl rfl ?_ hserves.heldAsked
        · have hnone : W.positions topic' [message] = [] := by
            rw [WireBinding.positions, List.filterMap_cons, WireBinding.positionOn, hcursor, ite_self]
            rfl
          rw [hnone, List.append_nil]
          exact hserves.onTopic topic'
        · exact List.forall_mem_singleton.mpr ⟨topic, hlease state hstate, htopic⟩
      · rw [pending_push_of_ne heq]
        exact h.serves lease' state hstate

end Untracked

section Holders

variable {lastSeen' : HashMap Topic C} {leases : List LeaseId} {wave : Option WaveId}
  {riders : Option LeaseId × List LeaseId} {claim : Option C}

structure Arrives (W : WireBinding M C) (lastSeen lastSeen' : HashMap Topic C) (topic : Topic)
    (cursor : C) (message : M kind) : Prop where
  topicOf : W.topicOf message = some topic
  cursorOf : W.cursorOf message = some cursor
  reached : W.reached (lastSeen'.get topic) cursor = true
  within : ∀ p, W.reached (lastSeen.get topic) p = true → W.reached (lastSeen'.get topic) p = true
  elsewhere : ∀ topic', topic ≠ topic' → lastSeen'.get topic' = lastSeen.get topic'

theorem Arrives.seen {lastSeen : HashMap Topic C}
    (h : Arrives W lastSeen lastSeen' topic cursor message) (topic' : Topic) (p : C)
    (hp : W.reached (lastSeen.get topic') p = true) : W.reached (lastSeen'.get topic') p = true := by
  by_cases heq : topic = topic'
  · subst heq
    exact h.within p hp
  · rw [h.elsewhere topic' heq]
    exact hp

def take (W : WireBinding M C) (wave : Option WaveId) (riders : Option LeaseId × List LeaseId)
    (fresh : Bool) (claim : Option C) (topic : Topic) (cursor : C) (message : M kind)
    (state : LeaseState M C) (lease : LeaseId) : LeaseState M C × List (M kind) × Bool :=
  if fresh then
    state.freshFrame W (riders.1 == some lease || riders.2.contains lease) topic cursor message
  else
    let (state, frames) := state.owedFrame W wave claim topic cursor message
    (state, frames, false)

theorem holder_eq (wave : Option WaveId) (riders : Option LeaseId × List LeaseId) (fresh : Bool)
    (claim : Option C) (topic : Topic) (cursor : C) (message : M kind) (s : Demux M C kind)
    (lease : LeaseId) : s.holder W wave riders fresh claim topic cursor message lease =
      if s.dropped.contains lease then s
      else
        match s.ledger.leases.get lease with
        | none => s
        | some state =>
          let r := take W wave riders fresh claim topic cursor message state lease
          { s with
            ledger := { s.ledger with leases := s.ledger.leases.insert lease r.1 }
            dropped := if r.2.2 then s.dropped ++ [lease] else s.dropped }.push lease r.2.1 := by
  rw [holder]
  split
  · rfl
  · cases s.ledger.leases.get lease <;> rfl

theorem carries_take (wave : Option WaveId) (riders : Option LeaseId × List LeaseId) (fresh : Bool)
    (claim : Option C) (topic : Topic) (cursor : C) (message : M kind) (state : LeaseState M C)
    (lease : LeaseId) :
    state.Carries (take W wave riders fresh claim topic cursor message state lease).1 := by
  cases fresh with
  | true => exact carries_freshFrame state _ message
  | false => exact carries_owedFrame state wave claim message

theorem tx_take (wave : Option WaveId) (riders : Option LeaseId × List LeaseId) (fresh : Bool)
    (claim : Option C) (topic : Topic) (cursor : C) (message : M kind) (state : LeaseState M C)
    (lease : LeaseId) :
    (take W wave riders fresh claim topic cursor message state lease).1.tx = state.tx := by
  cases fresh with
  | true => exact LeaseState.tx_freshFrame state _ message
  | false => exact LeaseState.tx_owedFrame state wave claim message

theorem agreesOn_take (wave : Option WaveId) (riders : Option LeaseId × List LeaseId)
    (fresh : Bool) (claim : Option C) (cursor : C) (message : M kind) (state : LeaseState M C)
    (lease : LeaseId) {topic' : Topic} (hne : topic ≠ topic') : state.AgreesOn topic'
      (take W wave riders fresh claim topic cursor message state lease).1 := by
  cases fresh with
  | true => exact LeaseState.agreesOn_freshFrame hne
  | false => exact LeaseState.agreesOn_owedFrame hne wave claim

variable {lastSeen : HashMap Topic C} {fresh : Bool}

theorem onTopic_take (wave : Option WaveId) (riders : Option LeaseId × List LeaseId)
    (claim : Option C) {fed : Topic → List C}
    (h : ∀ topic', state.OnTopic W (lastSeen.get topic') topic' (fed topic'))
    (hlane : W.OneLane) (harrives : Arrives W lastSeen lastSeen' topic cursor message)
    (hfresh : W.reached (lastSeen.get topic) cursor = !fresh) (lease : LeaseId) :
    let r := take W wave riders fresh claim topic cursor message state lease
    (∀ topic', r.1.OnTopic W (lastSeen'.get topic') topic'
      (fed topic' ++ W.positions topic' r.2.1)) ∧
        ∀ frame ∈ r.2.1, W.topicOf frame = some topic := by
  intro r
  have hframes : ∀ frame ∈ r.2.1, W.topicOf frame = some topic := by
    cases fresh with
    | true => exact LeaseState.topicOf_freshFrame (h topic).toFeed harrives.topicOf
    | false => exact LeaseState.topicOf_owedFrame (h topic).toFeed harrives.topicOf wave claim
  refine ⟨fun topic' => ?_, hframes⟩
  by_cases heq : topic = topic'
  · subst heq
    cases fresh with
    | true =>
      exact (h topic).freshFrame harrives.topicOf harrives.cursorOf hfresh harrives.within
        harrives.reached
    | false =>
      exact ((h topic).owedFrame hlane harrives.topicOf harrives.cursorOf hfresh wave
        claim).advance harrives.within
  · have hagrees : state.AgreesOn topic' r.1 := agreesOn_take _ _ _ _ _ _ _ _ heq
    rw [LeaseState.positions_of_ne heq hframes, List.append_nil, harrives.elsewhere topic' heq]
    exact (h topic').agrees hagrees

/-- Some leases hold the topic of a frame and are still to take it. The others fit the position that
the wire is moved on to. -/
structure Taking (W : WireBinding M C) (lastSeen lastSeen' : HashMap Topic C) (topic : Topic)
    (leases : List LeaseId) (s : Demux M C kind) : Prop where
  sound : s.ledger.Sound
  seen : s.ledger.lastSeen = lastSeen
  holders : ∀ lease ∈ leases, ∀ state, s.ledger.leases.get lease = some state →
    topic ∈ state.topics
  waiting : ∀ lease ∈ leases, ∀ state, s.ledger.leases.get lease = some state →
    state.Serves W lastSeen (state.tx.sent ++ s.pending lease)
  taken : ∀ lease, lease ∉ leases → ∀ state, s.ledger.leases.get lease = some state →
    state.Serves W lastSeen' (state.tx.sent ++ s.pending lease)

theorem Taking.holder (h : Taking W lastSeen lastSeen' topic (lease :: leases) s)
    (hnodup : lease ∉ leases) (hlane : W.OneLane)
    (harrives : Arrives W lastSeen lastSeen' topic cursor message)
    (hfresh : W.reached (lastSeen.get topic) cursor = !fresh) :
    Taking W lastSeen lastSeen' topic leases
      (s.holder W wave riders fresh claim topic cursor message lease) := by
  have hpassed (hself : ∀ state, s.ledger.leases.get lease = some state →
      state.Serves W lastSeen' (state.tx.sent ++ s.pending lease)) :
      Taking W lastSeen lastSeen' topic leases s := by
    refine ⟨h.sound, h.seen, fun lease' hmem => h.holders lease' (List.mem_cons_of_mem _ hmem),
      fun lease' hmem => h.waiting lease' (List.mem_cons_of_mem _ hmem), ?_⟩
    intro lease' hmem state hstate
    by_cases heq : lease' = lease
    · rw [heq] at hstate ⊢
      exact hself state hstate
    · exact h.taken lease' (fun hcons => (List.mem_cons.mp hcons).elim heq hmem) state hstate
  rw [holder_eq]
  split
  · exact hpassed fun state hstate =>
      (h.waiting lease List.mem_cons_self state hstate).advance fun topic' _ =>
        harrives.seen topic'
  · cases hstate : s.ledger.leases.get lease with
    | none =>
      refine hpassed fun state hsome => ?_
      rw [hstate] at hsome
      cases hsome
    | some state =>
      dsimp only
      have hserves := h.waiting lease List.mem_cons_self state hstate
      have hcarries : state.Carries
          (take W wave riders fresh claim topic cursor message state lease).1 :=
        carries_take wave riders fresh claim topic cursor message state lease
      obtain ⟨honTopic, hframes⟩ := onTopic_take wave riders claim
        hserves.onTopic hlane harrives hfresh lease
      have hasked := h.holders lease List.mem_cons_self state hstate
      have hother {lease' : LeaseId} (hne : lease ≠ lease') {state' : LeaseState M C}
          (hstate' : (s.ledger.leases.insert lease
            (take W wave riders fresh claim topic cursor message state lease).1).get lease' =
              some state') : s.ledger.leases.get lease' = some state' := by
        rwa [HashMap.get_insert, if_neg (by simpa using hne)] at hstate'
      have hne {lease' : LeaseId} (hmem : lease' ∈ leases) : lease ≠ lease' := by
        rintro rfl
        exact hnodup hmem
      constructor
      · rw [ledger_push]
        exact h.sound.same (Ledger.Carries.insert hstate hcarries).same
      · rw [ledger_push]
        exact h.seen
      · intro lease' hmem state' hstate'
        rw [ledger_push] at hstate'
        exact h.holders lease' (List.mem_cons_of_mem _ hmem) state' (hother (hne hmem) hstate')
      · intro lease' hmem state' hstate'
        rw [ledger_push] at hstate'
        rw [pending_push_of_ne (hne hmem)]
        exact h.waiting lease' (List.mem_cons_of_mem _ hmem) state' (hother (hne hmem) hstate')
      · intro lease' hmem state' hstate'
        rw [ledger_push] at hstate'
        by_cases heq : lease = lease'
        · subst heq
          rw [HashMap.get_insert, if_pos BEq.rfl] at hstate'
          cases hstate'
          rw [tx_take]
          refine serves_push hserves honTopic hcarries.topics hcarries.caughtUp
            (fun frame hframe => ⟨topic, hasked, hframes frame hframe⟩) fun kind' topic' hheld => ?_
          by_cases heq : topic = topic'
          · subst heq
            exact hasked
          · refine hserves.heldAsked kind' topic' fun hnil => hheld ?_
            have hless := (agreesOn_take (W := W) wave riders fresh claim cursor message
              state lease heq).held kind'
            rw [hnil] at hless
            exact List.sublist_nil.mp hless
        · rw [pending_push_of_ne heq]
          exact h.taken lease' (fun hcons => (List.mem_cons.mp hcons).elim (Ne.symm heq) hmem)
            state' (hother heq hstate')

theorem Taking.all (h : Taking W lastSeen lastSeen' topic leases s) (hnodup : leases.Nodup)
    (hlane : W.OneLane) (harrives : Arrives W lastSeen lastSeen' topic cursor message)
    (hfresh : W.reached (lastSeen.get topic) cursor = !fresh) :
    Taking W lastSeen lastSeen' topic []
      (leases.foldl (Demux.holder W wave riders fresh claim topic cursor message) s) := by
  induction leases generalizing s with
  | nil => exact h
  | cons lease leases ih =>
    obtain ⟨hnew, hrest⟩ := List.nodup_cons.mp hnodup
    exact ih (h.holder hnew hlane harrives hfresh) hrest

end Holders

section Message

variable {wave : Option WaveId} {riders : Option LeaseId × List LeaseId}

theorem nodup_holders (holders : HashSet LeaseId) : (order.iterate holders.entries).Nodup := by
  rw [(order.iterate_perm _).nodup_iff]
  exact holders.distinct.imp fun hne heq => by simp [heq] at hne

theorem Serves.untrackeds (h : s.Serves W) {leases : List LeaseId}
    (htopic : W.topicOf message = some topic) (hcursor : W.cursorOf message = none)
    (hleases : ∀ lease ∈ leases, ∀ state, s.ledger.leases.get lease = some state →
      topic ∈ state.topics) : (leases.foldl (Demux.untracked message) s).Serves W := by
  induction leases generalizing s with
  | nil => exact h
  | cons lease leases ih =>
    obtain ⟨hlease, hleases⟩ := List.forall_mem_cons.mp hleases
    refine ih (h.untracked htopic hcursor hlease) fun lease' hmem state hstate => ?_
    rw [show s.untracked message lease = [lease].foldl (Demux.untracked message) s from rfl,
      ledger_untracked] at hstate
    exact hleases lease' hmem state hstate

theorem Serves.routed (h : s.Serves W) (hlane : W.OneLane) (wave : Option WaveId)
    (riders : Option LeaseId × List LeaseId) (message : M kind) :
    (s.message order W wave riders message).Serves W := by
  rw [Demux.message]
  cases htopic : W.topicOf message with
  | none => exact h
  | some topic =>
    dsimp only
    cases hholders : s.ledger.byTopic.get topic with
    | none => exact h
    | some holders =>
      dsimp only
      have hasked : ∀ lease ∈ order.iterate holders.entries, ∀ state,
          s.ledger.leases.get lease = some state → topic ∈ state.topics := by
        intro lease hmem state hstate
        rw [(order.iterate_perm _).mem_iff] at hmem
        obtain ⟨state', hstate', hasked⟩ :=
          (h.sound.holds_iff topic lease).mp ⟨holders, hholders, hmem⟩
        rw [hstate] at hstate'
        cases hstate'
        exact hasked
      cases hcursor : W.cursorOf message with
      | none => exact h.untrackeds htopic hcursor hasked
      | some cursor =>
        dsimp only
        split
        · exact h
        · have harrives : Arrives W s.ledger.lastSeen (s.ledger.lastSeen.modifyOr topic
              (fun seen => W.advance seen cursor) cursor) topic cursor message := by
            refine ⟨htopic, hcursor, reached_modifyOr (.inr (W.covers_refl cursor)),
              fun p hp => reached_modifyOr (.inl hp), fun topic' hne => ?_⟩
            rw [HashMap.get_modifyOr, if_neg (by simpa using hne)]
          have hstart : Taking W s.ledger.lastSeen (s.ledger.lastSeen.modifyOr topic
              (fun seen => W.advance seen cursor) cursor) topic
              (order.iterate holders.entries) s :=
            ⟨h.sound, rfl, hasked, fun lease _ => h.serves lease, fun lease _ state hstate =>
              (h.serves lease state hstate).advance fun topic' _ => harrives.seen topic'⟩
          have hfresh : W.reached (s.ledger.lastSeen.get topic) cursor =
              !!(s.ledger.lastSeen.get topic).any fun seen => W.covers seen cursor :=
            (Bool.not_not _).symm
          have hnext (s' : Demux M C kind) (htaken : Taking W s.ledger.lastSeen
              (s.ledger.lastSeen.modifyOr topic (fun seen => W.advance seen cursor) cursor) topic
              [] s') : Demux.Serves W { s' with
                ledger := { s'.ledger with
                  lastSeen := s'.ledger.lastSeen.modifyOr topic
                    (fun seen => W.advance seen cursor) cursor } } := by
            refine ⟨htaken.sound.same ⟨fun _ => rfl, rfl, rfl⟩, fun lease state hstate => ?_⟩
            dsimp only
            rw [htaken.seen]
            exact htaken.taken lease List.not_mem_nil state hstate
          exact hnext _ (hstart.all (nodup_holders holders) hlane harrives hfresh)

end Message

end Demux

namespace Ledger

variable {ledger ledger' : Ledger M C} {lease : LeaseId}

theorem Serves.demux (h : ledger.Serves W fun _ => []) (hlane : W.OneLane) (order : HashOrder)
    (batch : List (M kind)) (mutateId : Nat) :
    (ledger.demux order W batch mutateId).Serves W := by
  have hbatch (wave : Option WaveId) (riders : Option LeaseId × List LeaseId)
      {s : Demux M C kind} (hs : s.Serves W) :
      (batch.foldl (Demux.message order W wave riders) s).Serves W := by
    induction batch generalizing s with
    | nil => exact hs
    | cons message batch ih => exact ih (hs.routed hlane wave riders message)
  rw [Ledger.demux]
  exact hbatch _ _ (show Demux.Serves W ⟨ledger, .empty, []⟩ from h)

section Live

def Hears (ledger : Ledger M C) (perLease : HashMap LeaseId (List Topic)) : Prop :=
  ∀ lease live, perLease.get lease = some live → ∀ state, ledger.leases.get lease = some state →
    state.caughtUp = false ∧ ∀ topic ∈ live, topic ∈ state.topics

theorem Hears.modifyOr {perLease : HashMap LeaseId (List Topic)} {topic : Topic}
    (h : ledger.Hears perLease) (hlease : ∀ state, ledger.leases.get lease = some state →
      state.caughtUp = false ∧ topic ∈ state.topics) :
    ledger.Hears (perLease.modifyOr lease (· ++ [topic]) [topic]) := by
  intro lease' live hlive state hstate
  rw [HashMap.get_modifyOr] at hlive
  split at hlive
  · rename_i heq
    cases eq_of_beq heq
    obtain ⟨hcatching, htopic⟩ := hlease state hstate
    refine ⟨hcatching, ?_⟩
    cases Option.some.inj hlive
    cases hbefore : perLease.get lease with
    | none => exact List.forall_mem_singleton.mpr htopic
    | some before =>
      exact List.forall_mem_append.mpr
        ⟨(h lease before hbefore state hstate).2, List.forall_mem_singleton.mpr htopic⟩
  · exact h lease' live hlive state hstate

theorem hears_liveTopics (h : ledger.Sound) (order : HashOrder) (topics : List Topic) :
    ledger.Hears (ledger.liveTopics order topics) := by
  rw [liveTopics]
  have hleases (topic : Topic) (leases : List LeaseId)
      (hleases : ∀ lease ∈ leases, ledger.Holds topic lease)
      {perLease : HashMap LeaseId (List Topic)} (hhears : ledger.Hears perLease) :
      ledger.Hears (leases.foldl (fun perLease lease =>
        if (ledger.leases.get lease).any fun state => state.caughtUp then perLease
        else perLease.modifyOr lease (· ++ [topic]) [topic]) perLease) := by
    induction leases generalizing perLease with
    | nil => exact hhears
    | cons lease leases ih =>
      obtain ⟨hholds, hleases⟩ := List.forall_mem_cons.mp hleases
      rw [List.foldl_cons]
      apply ih hleases
      split
      · exact hhears
      · rename_i hcatching
        refine hhears.modifyOr fun state hstate => ?_
        rw [hstate, Option.any_some, Bool.not_eq_true] at hcatching
        obtain ⟨state', hstate', htopic⟩ := (h.holds_iff topic lease).mp hholds
        rw [hstate] at hstate'
        cases hstate'
        exact ⟨hcatching, htopic⟩
  have hempty : ledger.Hears .empty := fun lease live hlive => by cases hlive
  revert hempty
  generalize (HashMap.empty : HashMap LeaseId (List Topic)) = perLease
  intro hhears
  induction topics generalizing perLease with
  | nil => exact hhears
  | cons topic topics ih =>
    rw [List.foldl_cons]
    apply ih
    cases hholders : ledger.byTopic.get topic with
    | none => exact hhears
    | some holders =>
      refine hleases topic _ (fun lease hmem => ⟨holders, hholders, ?_⟩) hhears
      rwa [(order.iterate_perm _).mem_iff] at hmem

end Live

theorem Serves.route (h : ledger.Serves W fun _ => []) (hlane : W.OneLane) (order : HashOrder)
    (event : WireEvent M) : (ledger.route order W event).1.Serves W fun _ => [] := by
  cases event with
  | started => exact h
  | catchUpComplete mutateId =>
    rw [Ledger.route]
    cases ledger.pendingWaves.get ⟨mutateId⟩ with
    | none => exact h
    | some wave =>
      have hremoved : { ledger with
          pendingWaves := ledger.pendingWaves.remove ⟨mutateId⟩ }.Serves W fun _ => [] :=
        h.keeps ⟨rfl, rfl, rfl, rfl⟩
      exact hremoved.completeAll hlane order [] _
  | topicsLive topics =>
    refine Serves.deliverEach _ [] ⟨h.sound, fun lease state hstate => ?_⟩
    have hserves := h.serves lease state hstate
    rw [List.append_nil] at hserves
    rw [share_iterate]
    cases hlive : (ledger.liveTopics order topics).get lease with
    | none => exact (List.append_nil state.tx.sent).symm ▸ hserves
    | some live =>
      obtain ⟨hcatching, htopics⟩ := hears_liveTopics h.sound order topics lease live hlive state
        hstate
      exact hserves.topicsLive hcatching htopics
  | messages kind batch mutateId =>
    refine Serves.deliverEach _ _ ⟨(h.demux hlane order batch mutateId).sound, ?_⟩
    intro lease state hstate
    rw [share_iterate]
    exact (h.demux hlane order batch mutateId).serves lease state hstate

section Acts

theorem Serves.register (h : ledger.Serves W fun _ => []) (subs : List (Topic × C))
    {tx : Sender M} (hnew : tx.sent = []) :
    (ledger.register (subs.map Prod.fst) (.ofList subs) tx).1.Serves W fun _ => [] where
  sound := h.sound.register subs tx
  serves lease state hstate := by
    by_cases hself : lease = ⟨ledger.nextLease⟩
    · rw [hself, Ledger.register] at hstate
      dsimp only at hstate
      rw [HashMap.get_insert, if_pos BEq.rfl] at hstate
      cases hstate
      rw [List.append_nil, hnew]
      have hnone {P : C → Prop} : ∀ p ∈ ([] : List C), P p := fun p hp => absurd hp List.not_mem_nil
      exact ⟨fun topic => ⟨⟨.nil, hnone, hnone, fun _ _ hframe => absurd hframe List.not_mem_nil,
        fun _ => .nil⟩, fun _ => hnone, fun _ _ => rfl⟩,
        fun _ hevent => absurd hevent List.not_mem_nil, fun _ _ hne => absurd rfl hne,
        fun _ _ hevent => absurd hevent List.not_mem_nil, .nil⟩
    · exact h.serves lease state ((get_leases_register hself).mp hstate)

theorem lastSeen_releaseTopic (lease : LeaseId) (s : Ledger M C × List Topic)
    (topic topic' : Topic) (h : ((releaseTopic lease s topic').1.byTopic.get topic).isSome = true) :
    (releaseTopic lease s topic').1.lastSeen.get topic = s.1.lastSeen.get topic := by
  rw [releaseTopic] at h ⊢
  dsimp only at h ⊢
  cases hholders : s.1.byTopic.get topic' with
  | none => rfl
  | some holders =>
    rw [hholders] at h
    dsimp only at h ⊢
    split at h
    · rw [HashMap.get_remove] at h
      split at h
      · cases h
      · rename_i hne
        rw [if_pos (by assumption), HashMap.get_remove, if_neg hne]
    · rw [if_neg (by assumption)]

theorem lastSeen_releaseTopics (topics : List Topic) (s : Ledger M C × List Topic) (topic : Topic)
    (h : ((topics.foldl (releaseTopic lease) s).1.byTopic.get topic).isSome = true) :
    (topics.foldl (releaseTopic lease) s).1.lastSeen.get topic = s.1.lastSeen.get topic := by
  induction topics generalizing s with
  | nil => rfl
  | cons topic' topics ih =>
    have hkept := (releases_releaseTopics topics (releaseTopic lease s topic')).kept topic h
    exact (ih (releaseTopic lease s topic') h).trans (lastSeen_releaseTopic lease s topic topic' hkept)

theorem Serves.removeLease (h : ledger.Serves W fun _ => []) {state : LeaseState M C}
    (hstate : ledger.leases.get lease = some state) (purged : List WaveId) :
    (ledger.removeLease lease state purged).1.Serves W fun _ => [] where
  sound := h.sound.removeLease hstate
  serves lease' state' hstate' := by
    have hsound : (ledger.removeLease lease state purged).1.Sound := h.sound.removeLease hstate
    refine (h.serves lease' state' (get_leases_of_removeLease hstate').2).advance ?_
    intro topic htopic p hp
    have hleased := hsound.leased_iff.mp ⟨lease', state', hstate', htopic⟩
    have hsame : (ledger.removeLease lease state purged).1.lastSeen.get topic =
        ledger.lastSeen.get topic := lastSeen_releaseTopics state.topics _ topic hleased
    rw [hsame]
    exact hp

theorem Serves.act (h : ledger.Serves W fun _ => []) (hlane : W.OneLane)
    (hact : ledger.Act W ledger') : ledger'.Serves W fun _ => [] := by
  cases hact with
  | waves hkeeps => exact h.keeps hkeeps
  | register subs tx hnew => exact h.register subs hnew
  | complete order dropped lease => exact h.complete hlane order dropped lease
  | removeLease hstate purged => exact h.removeLease hstate purged
  | route order event => exact h.route hlane order event

end Acts

end Ledger

/-- What a lease has been sent: on each topic frames at ascending positions beyond its floor, only of
topics it asked for, and after the news that it has caught up nothing but messages. -/
structure LeaseState.InOrder (W : WireBinding M C) (state : LeaseState M C) : Prop where
  ascends : ∀ topic, W.Ascends (W.fed topic state.tx.sent)
  past : ∀ topic floor, state.floors.get topic = some floor →
    ∀ p ∈ W.fed topic state.tx.sent, W.covers floor p = false
  asked : ∀ event ∈ state.tx.sent, ∀ topic ∈ event.topics W,
    ∃ topic' ∈ state.topics, topic = some topic'
  completes : state.tx.sent.Pairwise fun event event' =>
    event.isCatchUpComplete = true → event'.isMessages = true

theorem LeaseState.Serves.toInOrder {lastSeen : HashMap Topic C} {state : LeaseState M C}
    (h : state.Serves W lastSeen state.tx.sent) : state.InOrder W where
  ascends topic := (h.onTopic topic).ascends
  past topic floor hfloor p hp := by
    have hpast := (h.onTopic topic).past p hp
    rwa [hfloor] at hpast
  asked := h.asked
  completes := h.completes

namespace LedgerTask

variable {task : LedgerTask M C}

theorem Reachable.serves (h : task.Reachable W) (hlane : W.OneLane) :
    task.ledger.Serves W fun _ => [] := by
  refine h.of_acts (P := fun ledger => ledger.Serves W fun _ => [])
    (fun chunkCap chunkBytes => ⟨Ledger.sound_empty chunkCap chunkBytes, ?_⟩)
    fun _ _ hserves hact => hserves.act hlane hact
  intro lease state hstate
  cases hstate

/-- Whatever the task goes through, every lease has been sent its frames in order, and so has every
lease that any event of the wire makes it deliver to, whether that lease is then dropped or not. -/
theorem Reachable.inOrder (h : task.Reachable W) (hlane : W.OneLane) (order : HashOrder)
    (event : WireEvent M) :
    (∀ lease state, task.ledger.leases.get lease = some state → state.InOrder W) ∧
      ∀ lease state, (task.ledger.route order W event).1.leases.get lease = some state →
        state.InOrder W := by
  have hall {ledger : Ledger M C} (hserves : ledger.Serves W fun _ => []) (lease : LeaseId)
      (state : LeaseState M C) (hstate : ledger.leases.get lease = some state) :
      state.InOrder W := by
    have hlease := hserves.serves lease state hstate
    rw [List.append_nil] at hlease
    exact hlease.toInOrder
  have hserves := h.serves hlane
  exact ⟨hall hserves, hall (hserves.route hlane order event)⟩

end LedgerTask

end LibXmtp.Bidi
