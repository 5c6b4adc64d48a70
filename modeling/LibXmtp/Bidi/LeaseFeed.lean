import LibXmtp.Bidi.RoutedLeases

/-! Where a lease stands on one topic: the positions at which it has been fed, and the frames that
are withheld from it. -/

namespace LibXmtp.Bidi

open LibXmtp.Data LibXmtp.Types

variable {M : DeliveryKind → Type} {C : Type} {kind : DeliveryKind}

def TransportBinding.reached (B : TransportBinding C) (edge : Option C) (p : C) : Bool :=
  edge.any fun q => B.covers q p

def WireBinding.OneLane (W : WireBinding M C) : Prop :=
  ∀ ⦃kind kind' : DeliveryKind⦄ (message : M kind) (message' : M kind') (topic : Topic),
    W.topicOf message = some topic → W.topicOf message' = some topic → kind = kind'

section Positions

variable (W : WireBinding M C)

def WireBinding.positionOn (topic : Topic) (message : M kind) : Option C :=
  if W.topicOf message = some topic then W.cursorOf message else none

def WireBinding.positions (topic : Topic) (messages : List (M kind)) : List C :=
  messages.filterMap (W.positionOn topic)

namespace LeaseEvent

def positions (topic : Topic) : LeaseEvent M → List C
  | .messages _ batch => W.positions topic batch
  | .topicsLive _ => []
  | .catchUpComplete => []

def topics : LeaseEvent M → List (Option Topic)
  | .messages _ batch => batch.map W.topicOf
  | .topicsLive live => live.map some
  | .catchUpComplete => []

def isMessages : LeaseEvent M → Bool
  | .messages _ _ => true
  | _ => false

end LeaseEvent

def WireBinding.fed (topic : Topic) (events : List (LeaseEvent M)) : List C :=
  events.flatMap (LeaseEvent.positions W topic)

def TransportBinding.Ascends (B : TransportBinding C) (ps : List C) : Prop :=
  ps.Pairwise fun p q => B.covers p q = false

end Positions

section Reached

variable {B : TransportBinding C} {edge edge' : Option C} {p q : C} {ps qs : List C}

@[simp] theorem reached_none : B.reached none p = false := rfl

@[simp] theorem reached_some : B.reached (some q) p = B.covers q p := rfl

theorem reached_of_covers (h : B.reached edge p = true) (hcovers : B.covers p q = true) :
    B.reached edge q = true := by
  cases edge with
  | none => cases h
  | some r => exact B.covers_trans h hcovers

theorem not_covers_of_reached (h : B.reached edge p = true) (hbeyond : B.reached edge q = false) :
    B.covers p q = false := by
  cases hcovers : B.covers p q with
  | false => rfl
  | true =>
    rw [reached_of_covers h hcovers] at hbeyond
    cases hbeyond

theorem reached_modifyOr {m : HashMap Topic C} {topic : Topic}
    (h : B.reached (m.get topic) p = true ∨ B.covers q p = true) :
    B.reached ((m.modifyOr topic (fun r => B.advance r q) q).get topic) p = true := by
  rw [HashMap.get_modifyOr, if_pos BEq.rfl, reached_some]
  cases hedge : m.get topic with
  | none =>
    rw [hedge] at h
    exact h.resolve_left Bool.false_ne_true
  | some r =>
    rw [hedge] at h
    have hself := B.covers_advance_iff.mp (B.covers_refl (B.advance r q))
    cases h with
    | inl h => exact B.covers_trans hself.1 h
    | inr h => exact B.covers_trans hself.2 h

theorem ascends_append (hps : B.Ascends ps) (hqs : B.Ascends qs)
    (hreached : ∀ p ∈ ps, B.reached edge p = true)
    (hbeyond : ∀ q ∈ qs, B.reached edge q = false) : B.Ascends (ps ++ qs) := by
  refine List.pairwise_append.mpr ⟨hps, hqs, ?_⟩
  intro p hp q hq
  exact not_covers_of_reached (hreached p hp) (hbeyond q hq)

end Reached

namespace LeaseState

def heldOn (state : LeaseState M C) (kind : DeliveryKind) (topic : Topic) :
    List (Nat × M kind) :=
  ((state.held kind).get topic).getD []

section Held

variable {state : LeaseState M C} {kind' : DeliveryKind} {topic topic' : Topic}

theorem heldOn_setHeld (state : LeaseState M C) (kind : DeliveryKind)
    (held : HashMap Topic (List (Nat × M kind))) (topic : Topic) :
    (state.setHeld kind held).heldOn kind topic = (held.get topic).getD [] := by
  rw [heldOn, setHeld]
  dsimp only
  rw [dif_pos rfl]

theorem heldOn_setHeld_of_ne (hne : kind ≠ kind') (held : HashMap Topic (List (Nat × M kind))) :
    (state.setHeld kind held).heldOn kind' topic = state.heldOn kind' topic := by
  rw [heldOn, setHeld]
  dsimp only
  rw [dif_neg hne]
  rfl

theorem heldOn_setHeld_insert (frames : List (Nat × M kind)) :
    (state.setHeld kind ((state.held kind).insert topic frames)).heldOn kind topic' =
      if topic == topic' then frames else state.heldOn kind topic' := by
  rw [heldOn_setHeld, HashMap.get_insert]
  split <;> rfl

theorem heldOn_setHeld_remove (state : LeaseState M C) :
    (state.setHeld kind ((state.held kind).remove topic)).heldOn kind topic' =
      if topic == topic' then [] else state.heldOn kind topic' := by
  rw [heldOn_setHeld, HashMap.get_remove]
  split <;> rfl

end Held

structure Waits (W : WireBinding M C) (seen : Option C) (topic : Topic) (state : LeaseState M C)
    (message : M kind) : Prop where
  topicOf : W.topicOf message = some topic
  cursorOf : ∃ p, W.cursorOf message = some p ∧
    W.reached (state.floors.get topic) p = false ∧ W.reached seen p = true

def Follows (W : WireBinding M C) (frame frame' : Nat × M kind) : Prop :=
  frame.1 < frame'.1 ∧ ∀ p q, W.cursorOf frame.2 = some p → W.cursorOf frame'.2 = some q →
    W.covers p q = false

/-- A lease has been fed a topic at ascending positions, none of them covered by its floor or beyond
the position of the wire, and what is withheld is of that kind too. -/
structure Feed (W : WireBinding M C) (seen : Option C) (topic : Topic) (state : LeaseState M C)
    (fed : List C) : Prop where
  ascends : W.Ascends fed
  past : ∀ p ∈ fed, W.reached (state.floors.get topic) p = false
  within : ∀ p ∈ fed, W.reached seen p = true
  held : ∀ kind, ∀ frame ∈ state.heldOn kind topic,
    frame.1 < state.withheldSeq ∧ Waits W seen topic state frame.2
  follows : ∀ kind, (state.heldOn kind topic).Pairwise (Follows W)

/-- While history is owed all of it came from replays, and afterwards nothing is withheld. -/
structure OnTopic (W : WireBinding M C) (seen : Option C) (topic : Topic) (state : LeaseState M C)
    (fed : List C) : Prop extends Feed W seen topic state fed where
  replayed : state.owedOn W.toTransportBinding topic = true →
    ∀ p ∈ fed, W.reached (state.replayed.get topic) p = true
  settled : state.owedOn W.toTransportBinding topic = false → ∀ kind, state.heldOn kind topic = []

structure KeepsOn (topic : Topic) (state state' : LeaseState M C) : Prop where
  floor : state'.floors.get topic = state.floors.get topic
  withheldSeq : state.withheldSeq ≤ state'.withheldSeq
  held : ∀ kind, (state'.heldOn kind topic).Sublist (state.heldOn kind topic)

/-- The lease is where it was on the topic, and nothing is added to what is withheld of it. -/
structure AgreesOn (topic : Topic) (state state' : LeaseState M C) : Prop
    extends KeepsOn topic state state' where
  caughtUp : state'.caughtUp = state.caughtUp
  liveSnap : state'.liveSnap.get topic = state.liveSnap.get topic
  replayed : state'.replayed.get topic = state.replayed.get topic

section Agrees

variable {W : WireBinding M C} {seen seen' : Option C} {topic : Topic}
  {state state' state'' : LeaseState M C} {fed fed' : List C}

@[refl] theorem AgreesOn.refl (topic : Topic) (state : LeaseState M C) :
    state.AgreesOn topic state :=
  ⟨⟨rfl, Nat.le_refl _, fun _ => .refl _⟩, rfl, rfl, rfl⟩

@[trans] theorem KeepsOn.trans (h : state.KeepsOn topic state')
    (h' : state'.KeepsOn topic state'') : state.KeepsOn topic state'' where
  floor := h'.floor.trans h.floor
  withheldSeq := h.withheldSeq.trans h'.withheldSeq
  held kind := (h'.held kind).trans (h.held kind)

@[trans] theorem AgreesOn.trans (h : state.AgreesOn topic state')
    (h' : state'.AgreesOn topic state'') : state.AgreesOn topic state'' where
  toKeepsOn := h.toKeepsOn.trans h'.toKeepsOn
  caughtUp := h'.caughtUp.trans h.caughtUp
  liveSnap := h'.liveSnap.trans h.liveSnap
  replayed := h'.replayed.trans h.replayed

theorem AgreesOn.owedOn (h : state.AgreesOn topic state') (B : TransportBinding C) :
    state'.owedOn B topic = state.owedOn B topic := by
  rw [LeaseState.owedOn, LeaseState.owedOn, h.caughtUp, h.liveSnap, h.floor, h.replayed]

theorem Feed.keeps (h : Feed W seen topic state fed) (hkeeps : state.KeepsOn topic state') :
    Feed W seen topic state' fed where
  ascends := h.ascends
  past p hp := by
    rw [hkeeps.floor]
    exact h.past p hp
  within := h.within
  held kind frame hframe := by
    obtain ⟨hnumber, hwaits⟩ := h.held kind frame ((hkeeps.held kind).subset hframe)
    refine ⟨hnumber.trans_le hkeeps.withheldSeq, hwaits.topicOf, ?_⟩
    rw [hkeeps.floor]
    exact hwaits.cursorOf
  follows kind := (h.follows kind).sublist (hkeeps.held kind)

theorem OnTopic.agrees (h : OnTopic W seen topic state fed) (hagrees : state.AgreesOn topic state') :
    OnTopic W seen topic state' fed where
  toFeed := h.toFeed.keeps hagrees.toKeepsOn
  replayed howed := by
    rw [hagrees.owedOn] at howed
    rw [hagrees.replayed]
    exact h.replayed howed
  settled hsettled kind := by
    rw [hagrees.owedOn] at hsettled
    have hheld := hagrees.held kind
    rw [h.settled hsettled kind] at hheld
    exact List.sublist_nil.mp hheld

theorem Feed.advance (h : Feed W seen topic state fed)
    (hseen : ∀ p, W.reached seen p = true → W.reached seen' p = true) :
    Feed W seen' topic state fed where
  ascends := h.ascends
  past := h.past
  within p hp := hseen p (h.within p hp)
  held kind frame hframe := by
    obtain ⟨hnumber, htopic, p, hcursor, hpast, hp⟩ := h.held kind frame hframe
    exact ⟨hnumber, htopic, p, hcursor, hpast, hseen p hp⟩
  follows := h.follows

theorem OnTopic.advance (h : OnTopic W seen topic state fed)
    (hseen : ∀ p, W.reached seen p = true → W.reached seen' p = true) :
    OnTopic W seen' topic state fed :=
  ⟨h.toFeed.advance hseen, h.replayed, h.settled⟩

theorem Feed.sublist (h : Feed W seen topic state fed) (hfed : fed'.Sublist fed) :
    Feed W seen topic state fed' where
  ascends := h.ascends.sublist hfed
  past p hp := h.past p (hfed.subset hp)
  within p hp := h.within p (hfed.subset hp)
  held := h.held
  follows := h.follows

theorem OnTopic.sublist (h : OnTopic W seen topic state fed) (hfed : fed'.Sublist fed) :
    OnTopic W seen topic state fed' :=
  ⟨h.toFeed.sublist hfed, fun howed p hp => h.replayed howed p (hfed.subset hp), h.settled⟩

theorem Feed.append {edge : Option C} {ps : List C} (h : Feed W seen topic state fed)
    (hps : W.Ascends ps) (hreached : ∀ p ∈ fed, W.reached edge p = true)
    (hbeyond : ∀ p ∈ ps, W.reached edge p = false)
    (hpast : ∀ p ∈ ps, W.reached (state.floors.get topic) p = false)
    (hseen : ∀ p ∈ ps, W.reached seen p = true) : Feed W seen topic state (fed ++ ps) where
  ascends := ascends_append h.ascends hps hreached hbeyond
  past := List.forall_mem_append.mpr ⟨h.past, hpast⟩
  within := List.forall_mem_append.mpr ⟨h.within, hseen⟩
  held := h.held
  follows := h.follows

end Agrees

section Frames

variable {W : WireBinding M C} {seen seen' : Option C} {topic topic' : Topic} {cursor : C}
  {state : LeaseState M C} {fed : List C} {message : M kind}

theorem mem_positions {messages : List (M kind)} {p : C} :
    p ∈ W.positions topic messages ↔
      ∃ message ∈ messages, W.topicOf message = some topic ∧ W.cursorOf message = some p := by
  rw [WireBinding.positions, List.mem_filterMap]
  refine exists_congr fun message => and_congr_right fun _ => ?_
  rw [WireBinding.positionOn]
  split
  · rename_i htopic
    exact (and_iff_right htopic).symm
  · rename_i htopic
    exact iff_of_false (Option.some_ne_none p).symm fun h => htopic h.1

theorem positions_append (messages messages' : List (M kind)) :
    W.positions topic (messages ++ messages') =
      W.positions topic messages ++ W.positions topic messages' := List.filterMap_append

theorem positions_singleton (htopic : W.topicOf message = some topic)
    (hcursor : W.cursorOf message = some cursor) : W.positions topic [message] = [cursor] := by
  rw [WireBinding.positions, List.filterMap_cons, WireBinding.positionOn, if_pos htopic, hcursor]
  rfl

theorem positions_of_ne {messages : List (M kind)} (hne : topic ≠ topic')
    (h : ∀ message ∈ messages, W.topicOf message = some topic) :
    W.positions topic' messages = [] := by
  rw [List.eq_nil_iff_forall_not_mem]
  intro p hp
  obtain ⟨message, hmessage, htopic, _⟩ := mem_positions.mp hp
  rw [h message hmessage] at htopic
  exact hne (Option.some.inj htopic)

theorem ascends_positions {frames : List (Nat × M kind)} (h : frames.Pairwise (Follows W)) :
    W.Ascends (W.positions topic (frames.map Prod.snd)) := by
  rw [TransportBinding.Ascends, WireBinding.positions, List.pairwise_filterMap, List.pairwise_map]
  refine h.imp fun {frame frame'} hfollows p hp q hq => ?_
  rw [WireBinding.positionOn] at hp hq
  exact hfollows.2 p q (Option.ite_none_right_eq_some.mp hp).2
    (Option.ite_none_right_eq_some.mp hq).2

theorem Feed.heldOn_of_ne (h : Feed W seen topic state fed) (hlane : W.OneLane)
    (htopic : W.topicOf message = some topic) {kind' : DeliveryKind} (hne : kind ≠ kind') :
    state.heldOn kind' topic = [] := by
  rw [List.eq_nil_iff_forall_not_mem]
  intro frame hframe
  exact hne (hlane message frame.2 topic htopic (h.held kind' frame hframe).2.topicOf)

def joining (W : WireBinding M C) (state : LeaseState M C) (kind : DeliveryKind) (topic : Topic)
    (cursor : C) : List (M kind) :=
  ((state.heldOn kind topic).filter fun frame =>
    ((W.cursorOf frame.2).any fun c => W.covers cursor c) &&
      (W.cursorOf frame.2).any fun c =>
        !W.covers c cursor && !(state.replayed.get topic).any fun replayed => W.covers replayed c).map
    Prod.snd

theorem snd_drainBelow (state : LeaseState M C) (kind : DeliveryKind) (topic : Topic) (cursor : C) :
    (state.drainBelow W topic cursor : LeaseState M C × List (M kind)).2 =
      joining W state kind topic cursor := by
  rw [drainBelow, joining, heldOn]
  cases (state.held kind).get topic <;> rfl

theorem agreesOn_setHeld {frames : List (Nat × M kind)}
    (h : frames.Sublist (state.heldOn kind topic)) :
    state.AgreesOn topic' (state.setHeld kind ((state.held kind).insert topic frames)) := by
  refine ⟨⟨rfl, Nat.le_refl _, fun kind' => ?_⟩, rfl, rfl, rfl⟩
  by_cases hkind : kind = kind'
  · subst hkind
    rw [heldOn_setHeld_insert]
    split
    · rename_i heq
      rw [← eq_of_beq heq]
      exact h
    · exact .refl _
  · rw [heldOn_setHeld_of_ne hkind]

theorem agreesOn_setHeld_insert (state : LeaseState M C) (hne : topic ≠ topic')
    (frames : List (Nat × M kind)) :
    state.AgreesOn topic' (state.setHeld kind ((state.held kind).insert topic frames)) := by
  refine ⟨⟨rfl, Nat.le_refl _, fun kind' => ?_⟩, rfl, rfl, rfl⟩
  by_cases hkind : kind = kind'
  · subst hkind
    rw [heldOn_setHeld_insert, if_neg (by simpa using hne)]
  · rw [heldOn_setHeld_of_ne hkind]

theorem agreesOn_drainBelow (state : LeaseState M C) :
    state.AgreesOn topic' (state.drainBelow W topic cursor : LeaseState M C × List (M kind)).1 := by
  rw [drainBelow]
  cases hframes : (state.held kind).get topic with
  | none => exact .refl topic' state
  | some frames =>
    apply agreesOn_setHeld
    rw [heldOn, hframes]
    exact List.filter_sublist

theorem keepsOn_advanceReplayed (state : LeaseState M C) :
    state.KeepsOn topic' (state.advanceReplayed W topic cursor) :=
  ⟨rfl, Nat.le_refl _, fun _ => .refl _⟩

theorem agreesOn_advanceReplayed (hne : topic ≠ topic') :
    state.AgreesOn topic' (state.advanceReplayed W topic cursor) := by
  refine ⟨keepsOn_advanceReplayed state, rfl, rfl, ?_⟩
  rw [advanceReplayed, HashMap.get_modifyOr, if_neg (by simpa using hne)]

theorem Feed.joining (h : Feed W seen topic state fed) {frame : M kind}
    (hframe : frame ∈ joining W state kind topic cursor) :
    Waits W seen topic state frame ∧ ∀ p, W.cursorOf frame = some p →
      W.reached (state.replayed.get topic) p = false ∧ W.covers cursor p = true ∧
        W.covers p cursor = false := by
  obtain ⟨numbered, hnumbered, heq⟩ := List.mem_map.mp hframe
  subst heq
  obtain ⟨hheld, hjoins⟩ := List.mem_filter.mp hnumbered
  refine ⟨(h.held kind numbered hheld).2, ?_⟩
  intro p hp
  rw [hp, Option.any_some, Option.any_some, Bool.and_eq_true, Bool.and_eq_true, Bool.not_eq_true',
    Bool.not_eq_true'] at hjoins
  exact ⟨hjoins.2.2, hjoins.1, hjoins.2.1⟩

theorem Feed.replay (h : Feed W seen topic state fed)
    (hreplayed : ∀ p ∈ fed, W.reached (state.replayed.get topic) p = true)
    (htopic : W.topicOf message = some topic) (hcursor : W.cursorOf message = some cursor)
    (hpast : W.reached (state.floors.get topic) cursor = false)
    (habove : ∀ p ∈ fed, W.covers p cursor = false)
    (hseen : ∀ p, W.reached seen p = true → W.reached seen' p = true)
    (hself : W.reached seen' cursor = true) :
    let s : LeaseState M C × List (M kind) := state.drainBelow W topic cursor
    let fed' := fed ++ W.positions topic (s.2 ++ [message])
    Feed W seen' topic (s.1.advanceReplayed W topic cursor) fed' ∧
      ∀ p ∈ fed', W.reached ((s.1.advanceReplayed W topic cursor).replayed.get topic) p = true := by
  intro s fed'
  have hout : s.2 = LeaseState.joining W state kind topic cursor :=
    snd_drainBelow state kind topic cursor
  have hagrees : state.AgreesOn topic s.1 := agreesOn_drainBelow state
  have hfed : fed' =
      fed ++ W.positions topic (LeaseState.joining W state kind topic cursor) ++ [cursor] := by
    rw [show fed' = fed ++ W.positions topic (s.2 ++ [message]) from rfl, positions_append, hout,
      positions_singleton htopic hcursor, List.append_assoc]
  have hbelow : ∀ p ∈ W.positions topic (LeaseState.joining W state kind topic cursor),
      W.reached (state.floors.get topic) p = false ∧ W.reached seen p = true ∧
        W.reached (state.replayed.get topic) p = false ∧ W.covers cursor p = true ∧
          W.covers p cursor = false := by
    intro p hp
    obtain ⟨frame, hframe, _, hcursor⟩ := mem_positions.mp hp
    obtain ⟨⟨_, p', hp', hfloor, hseen⟩, hjoins⟩ := h.joining hframe
    rw [hcursor] at hp'
    cases hp'
    exact ⟨hfloor, hseen, hjoins p hcursor⟩
  have hascends : W.Ascends (W.positions topic (LeaseState.joining W state kind topic cursor)) :=
    ascends_positions ((h.follows kind).sublist List.filter_sublist)
  have hdrained := h.append hascends hreplayed (fun p hp => (hbelow p hp).2.2.1)
    (fun p hp => (hbelow p hp).1) fun p hp => (hbelow p hp).2.1
  have hcovered : ∀ p ∈ fed ++ W.positions topic (LeaseState.joining W state kind topic cursor),
      W.covers p cursor = false :=
    List.forall_mem_append.mpr ⟨habove, fun p hp => (hbelow p hp).2.2.2.2⟩
  rw [hfed]
  constructor
  · have hadvanced := hdrained.advance hseen
    have hpushed : Feed W seen' topic state
        (fed ++ W.positions topic (LeaseState.joining W state kind topic cursor) ++ [cursor]) := by
      refine ⟨?_, ?_, ?_, hadvanced.held, hadvanced.follows⟩
      · refine List.pairwise_append.mpr ⟨hadvanced.ascends, List.pairwise_singleton _ _, ?_⟩
        intro p hp q hq
        rw [List.mem_singleton.mp hq]
        exact hcovered p hp
      · exact List.forall_mem_append.mpr ⟨hadvanced.past, List.forall_mem_singleton.mpr hpast⟩
      · exact List.forall_mem_append.mpr ⟨hadvanced.within, List.forall_mem_singleton.mpr hself⟩
    exact hpushed.keeps (hagrees.toKeepsOn.trans (keepsOn_advanceReplayed s.1))
  · intro p hp
    apply reached_modifyOr
    rw [hagrees.replayed]
    cases List.mem_append.mp hp with
    | inr hp =>
      rw [List.mem_singleton.mp hp]
      exact .inr (W.covers_refl cursor)
    | inl hp =>
      refine (List.mem_append.mp hp).imp (hreplayed p) fun hp => (hbelow p hp).2.2.2.1

end Frames

section Release

variable {W : WireBinding M C} {seen : Option C} {topic topic' : Topic}
  {state : LeaseState M C} {fed : List C}

theorem Feed.releaseFrames {frames : List (Nat × M kind)} (s : LeaseState M C × List (M kind))
    (h : Feed W seen topic s.1 (fed ++ W.positions topic s.2))
    (hreplayed : ∀ p ∈ fed ++ W.positions topic s.2,
      W.reached (s.1.replayed.get topic) p = true)
    (hframes : ∀ frame ∈ frames, Waits W seen topic s.1 frame.2) :
    let s' := frames.foldl (releaseFrame W topic) s
    Feed W seen topic s'.1 (fed ++ W.positions topic s'.2) ∧
      ∀ p ∈ fed ++ W.positions topic s'.2, W.reached (s'.1.replayed.get topic) p = true := by
  induction frames generalizing s with
  | nil => exact ⟨h, hreplayed⟩
  | cons frame frames ih =>
    obtain ⟨hframe, hframes⟩ := List.forall_mem_cons.mp hframes
    obtain ⟨htopic, cursor, hcursor, hpast, hwithin⟩ := hframe
    rw [List.foldl_cons, releaseFrame, hcursor]
    dsimp only
    split
    · exact ih s h hreplayed hframes
    · rename_i hbeyond
      rw [Bool.not_eq_true] at hbeyond
      have hpushed : fed ++ W.positions topic (s.2 ++ [frame.2]) =
          fed ++ W.positions topic s.2 ++ [cursor] := by
        rw [positions_append, positions_singleton htopic hcursor, List.append_assoc]
      apply ih
      · rw [hpushed]
        refine Feed.keeps ?_ (keepsOn_advanceReplayed s.1)
        exact h.append (List.pairwise_singleton _ _) hreplayed
          (List.forall_mem_singleton.mpr hbeyond) (List.forall_mem_singleton.mpr hpast)
          (List.forall_mem_singleton.mpr hwithin)
      · rw [hpushed]
        intro p hp
        apply reached_modifyOr
        refine (List.mem_append.mp hp).imp (hreplayed p) fun hp => ?_
        rw [List.mem_singleton.mp hp]
        exact W.covers_refl cursor
      · exact fun frame hframe => ⟨(hframes frame hframe).topicOf, (hframes frame hframe).cursorOf⟩

theorem releaseFrames_eq (W : WireBinding M C) (topic : Topic) (frames : List (Nat × M kind))
    (s : LeaseState M C × List (M kind)) : ∃ replayed,
      (frames.foldl (releaseFrame W topic) s).1 = { s.1 with replayed } ∧
      ∀ topic', topic ≠ topic' → replayed.get topic' = s.1.replayed.get topic' := by
  induction frames generalizing s with
  | nil => exact ⟨s.1.replayed, rfl, fun _ _ => rfl⟩
  | cons frame frames ih =>
    obtain ⟨replayed, heq, hother⟩ := ih (releaseFrame W topic s frame)
    rw [List.foldl_cons]
    refine ⟨replayed, ?_, ?_⟩
    · rw [heq, releaseFrame]
      cases W.cursorOf frame.2 with
      | none => rfl
      | some cursor =>
        dsimp only
        split <;> rfl
    · intro topic' hne
      rw [hother topic' hne, releaseFrame]
      cases W.cursorOf frame.2 with
      | none => rfl
      | some cursor =>
        dsimp only
        split
        · rfl
        · exact (agreesOn_advanceReplayed hne).replayed

theorem mem_releaseFrames {frames : List (Nat × M kind)} {s : LeaseState M C × List (M kind)}
    {message : M kind} (h : message ∈ (frames.foldl (releaseFrame W topic) s).2) :
    message ∈ s.2 ∨ message ∈ frames.map Prod.snd := by
  induction frames generalizing s with
  | nil => exact .inl h
  | cons frame frames ih =>
    rw [List.map_cons, List.mem_cons]
    cases ih h with
    | inr hmem => exact .inr (.inr hmem)
    | inl hmem =>
      have hpushed : message ∈ s.2 ∨ message = frame.2 := by
        rw [releaseFrame] at hmem
        cases hcursor : W.cursorOf frame.2 with
        | none =>
          rw [hcursor] at hmem
          exact (List.mem_append.mp hmem).imp_right List.mem_singleton.mp
        | some cursor =>
          rw [hcursor] at hmem
          dsimp only at hmem
          split at hmem
          · exact .inl hmem
          · exact (List.mem_append.mp hmem).imp_right List.mem_singleton.mp
      exact hpushed.imp_right .inl

theorem agreesOn_setHeld_remove (kind : DeliveryKind) (topic topic' : Topic)
    (state : LeaseState M C) : state.AgreesOn topic'
      (state.setHeld kind ((state.held kind).remove topic)) := by
  refine ⟨⟨rfl, Nat.le_refl _, fun kind' => ?_⟩, rfl, rfl, rfl⟩
  by_cases hkind : kind = kind'
  · subst hkind
    rw [heldOn_setHeld_remove]
    split
    · exact List.nil_sublist _
    · exact .refl _
  · rw [heldOn_setHeld_of_ne hkind]

theorem agreesOn_releaseTail (hne : topic ≠ topic') :
    state.AgreesOn topic' (state.releaseTail W topic : LeaseState M C × List (M kind)).1 := by
  rw [releaseTail]
  obtain ⟨replayed, heq, hother⟩ := releaseFrames_eq W topic
    (((state.held kind).get topic).getD [])
    (state.setHeld kind ((state.held kind).remove topic), [])
  rw [heq]
  have hremoved := agreesOn_setHeld_remove kind topic topic' state
  exact ⟨⟨hremoved.floor, hremoved.withheldSeq, hremoved.held⟩, hremoved.caughtUp,
    hremoved.liveSnap, (hother topic' hne).trans hremoved.replayed⟩

theorem Feed.releaseTail (h : Feed W seen topic state fed) (kind : DeliveryKind)
    (hreplayed : ∀ p ∈ fed, W.reached (state.replayed.get topic) p = true)
    (hlane : ∀ kind', kind ≠ kind' → state.heldOn kind' topic = []) :
    let s : LeaseState M C × List (M kind) := state.releaseTail W topic
    OnTopic W seen topic s.1 (fed ++ W.positions topic s.2) := by
  have hremoved := agreesOn_setHeld_remove kind topic topic state
  have hstart := h.keeps hremoved.toKeepsOn
  rw [← List.append_nil fed] at hstart hreplayed
  have hwaits : ∀ frame ∈ state.heldOn kind topic, Waits W seen topic
      (state.setHeld kind ((state.held kind).remove topic)) frame.2 := by
    intro frame hframe
    obtain ⟨htopic, hcursor⟩ := (h.held kind frame hframe).2
    exact ⟨htopic, hcursor⟩
  obtain ⟨hreleased, hcovered⟩ := Feed.releaseFrames
    (state.setHeld kind ((state.held kind).remove topic), []) hstart hreplayed hwaits
  refine ⟨hreleased, fun _ => hcovered, fun _ kind' => ?_⟩
  obtain ⟨replayed, heq, _⟩ := releaseFrames_eq W topic
    (state.heldOn kind topic) (state.setHeld kind ((state.held kind).remove topic), [])
  have hheld : (state.releaseTail W topic : LeaseState M C × List (M kind)).1.heldOn kind' topic =
      (state.setHeld kind ((state.held kind).remove topic)).heldOn kind' topic :=
    congrArg (fun state => state.heldOn kind' topic) heq
  rw [hheld]
  by_cases hkind : kind = kind'
  · subst hkind
    rw [heldOn_setHeld_remove, if_pos BEq.rfl]
  · rw [heldOn_setHeld_of_ne hkind]
    exact hlane kind' hkind

end Release

section Step

variable {W : WireBinding M C} {seen seen' : Option C} {topic topic' : Topic} {cursor : C}
  {state : LeaseState M C} {fed : List C} {message : M kind} {rides : Bool}

theorem withhold_eq (state : LeaseState M C) (topic : Topic) (message : M kind) :
    state.withhold topic message =
      { state.setHeld kind ((state.held kind).insert topic
          (state.heldOn kind topic ++ [(state.withheldSeq, message)])) with
        withheldSeq := state.withheldSeq + 1 } := by
  have hframes : ((state.held kind).get topic).elim [(state.withheldSeq, message)]
      (· ++ [(state.withheldSeq, message)]) =
        state.heldOn kind topic ++ [(state.withheldSeq, message)] := by
    rw [heldOn]
    cases (state.held kind).get topic <;> rfl
  rw [withhold, HashMap.modifyOr, hframes]

theorem OnTopic.withhold (h : OnTopic W seen topic state fed)
    (howed : state.owedOn W.toTransportBinding topic = true)
    (htopic : W.topicOf message = some topic) (hcursor : W.cursorOf message = some cursor)
    (hpast : W.reached (state.floors.get topic) cursor = false)
    (hfresh : W.reached seen cursor = false)
    (hseen : ∀ p, W.reached seen p = true → W.reached seen' p = true)
    (hself : W.reached seen' cursor = true) :
    OnTopic W seen' topic (state.withhold topic message) fed := by
  have hadvanced := h.toFeed.advance hseen
  have hself' : (state.withhold topic message).heldOn kind topic =
      state.heldOn kind topic ++ [(state.withheldSeq, message)] := by
    rw [withhold_eq]
    exact (heldOn_setHeld_insert _).trans (if_pos BEq.rfl)
  have hother (kind' : DeliveryKind) (hkind : kind ≠ kind') :
      (state.withhold topic message).heldOn kind' topic = state.heldOn kind' topic := by
    rw [withhold_eq]
    exact heldOn_setHeld_of_ne hkind _
  refine ⟨⟨hadvanced.ascends, hadvanced.past, hadvanced.within, ?_, ?_⟩, fun _ => h.replayed howed,
    fun hsettled => ?_⟩
  · intro kind' frame hframe
    have hkept (hmem : frame ∈ state.heldOn kind' topic) :
        frame.1 < state.withheldSeq + 1 ∧ Waits W seen' topic state frame.2 := by
      obtain ⟨hnumber, hwaits⟩ := hadvanced.held kind' frame hmem
      exact ⟨hnumber.trans (Nat.lt_succ_self _), hwaits⟩
    by_cases hkind : kind = kind'
    · subst hkind
      rw [hself'] at hframe
      cases List.mem_append.mp hframe with
      | inl hmem =>
        obtain ⟨hnumber, hwaits⟩ := hkept hmem
        exact ⟨hnumber, hwaits.topicOf, hwaits.cursorOf⟩
      | inr hmem =>
        rw [List.mem_singleton.mp hmem]
        exact ⟨Nat.lt_succ_self _, htopic, cursor, hcursor, hpast, hself⟩
    · rw [hother kind' hkind] at hframe
      obtain ⟨hnumber, hwaits⟩ := hkept hframe
      exact ⟨hnumber, hwaits.topicOf, hwaits.cursorOf⟩
  · intro kind'
    by_cases hkind : kind = kind'
    · subst hkind
      rw [hself']
      refine List.pairwise_append.mpr ⟨h.follows kind, List.pairwise_singleton _ _, ?_⟩
      intro frame hframe frame' hframe'
      rw [List.mem_singleton.mp hframe']
      obtain ⟨hnumber, _, p, hp, _, hwithin⟩ := h.held kind frame hframe
      refine ⟨hnumber, fun p' q hp' hq => ?_⟩
      rw [hp] at hp'
      rw [hcursor] at hq
      cases hp'
      cases hq
      exact not_covers_of_reached hwithin hfresh
    · rw [hother kind' hkind]
      exact h.follows kind'
  · rw [show state.owedOn W.toTransportBinding topic = false from hsettled] at howed
    cases howed

theorem agreesOn_clear (state : LeaseState M C) :
    state.AgreesOn topic { state with held := fun _ => .empty } :=
  ⟨⟨rfl, Nat.le_refl _, fun _ => List.nil_sublist _⟩, rfl, rfl, rfl⟩

theorem owedOn_of_admitted {B : TransportBinding C} (hcatching : state.caughtUp = false)
    (hsnap : ((state.liveSnap.get topic).all fun snap => B.covers snap cursor) = true)
    (hpast : B.reached (state.floors.get topic) cursor = false)
    (hbeyond : B.reached (state.replayed.get topic) cursor = false) :
    state.owedOn B topic = true := by
  rw [owedOn, hcatching, if_neg Bool.false_ne_true]
  cases hget : state.liveSnap.get topic with
  | none => rfl
  | some snap =>
    rw [hget, Option.all_some] at hsnap
    have hunreached {edge : Option C} (h : B.reached edge cursor = false) :
        B.reached edge snap = false := by
      cases hedge : B.reached edge snap with
      | false => rfl
      | true =>
        rw [reached_of_covers hedge hsnap] at h
        cases h
    have hreplayed := hunreached hbeyond
    have hfloor : ((state.floors.get topic).all fun floor => !B.covers floor snap) = true := by
      have hunreached := hunreached hpast
      cases hget : state.floors.get topic with
      | none => rfl
      | some floor =>
        rw [hget, reached_some] at hunreached
        rw [Option.all_some, hunreached]
        rfl
    dsimp only
    rw [hfloor, show ((state.replayed.get topic).any fun replayed => B.covers replayed snap) = false
      from hreplayed]
    rfl

theorem OnTopic.freshFrame (h : OnTopic W seen topic state fed)
    (htopic : W.topicOf message = some topic) (hcursor : W.cursorOf message = some cursor)
    (hfresh : W.reached seen cursor = false)
    (hseen : ∀ p, W.reached seen p = true → W.reached seen' p = true)
    (hself : W.reached seen' cursor = true) :
    let s := state.freshFrame W rides topic cursor message
    OnTopic W seen' topic s.1 (fed ++ W.positions topic s.2.1) := by
  intro s
  have hnothing : fed ++ W.positions topic ([] : List (M kind)) = fed := List.append_nil fed
  have habove : ∀ p ∈ fed, W.covers p cursor = false :=
    fun p hp => not_covers_of_reached (h.within p hp) hfresh
  rw [show s = state.freshFrame W rides topic cursor message from rfl, LeaseState.freshFrame]
  split
  · exact hnothing.symm ▸ h.advance hseen
  rename_i hpast
  rw [Bool.not_eq_true] at hpast
  cases howed : state.owedOn W.toTransportBinding topic with
  | true =>
    rw [if_pos rfl]
    split
    · split
      · exact hnothing.symm ▸ (h.advance hseen).agrees (agreesOn_clear state)
      · exact hnothing.symm ▸ h.withhold howed htopic hcursor hpast hfresh hseen hself
    · rename_i hopen
      rw [Bool.or_eq_true, not_or, Bool.not_eq_true, Bool.not_eq_true,
        HashMap.containsKey_eq_isSome_get, Option.isSome_eq_false_iff,
        Option.isNone_iff_eq_none] at hopen
      obtain ⟨hfeed, hreplayed⟩ :=
        h.toFeed.replay (h.replayed howed) htopic hcursor hpast habove hseen hself
      refine ⟨hfeed, fun _ => hreplayed, fun hsettled => ?_⟩
      -- without a snapshot the lease stays owed
      have hagrees : state.AgreesOn topic
          (state.drainBelow W topic cursor : LeaseState M C × List (M kind)).1 :=
        agreesOn_drainBelow state
      have hcatching : state.caughtUp = false := by
        rw [owedOn] at howed
        split at howed
        · cases howed
        · rename_i hcaught
          exact Bool.not_eq_true _ ▸ hcaught
      rw [owedOn] at hsettled
      rw [show (LeaseState.advanceReplayed W
          (state.drainBelow W topic cursor : LeaseState M C × List (M kind)).1 topic
            cursor).caughtUp = false from hagrees.caughtUp.trans hcatching,
        show (LeaseState.advanceReplayed W
          (state.drainBelow W topic cursor : LeaseState M C × List (M kind)).1 topic
            cursor).liveSnap.get topic = none from hagrees.liveSnap.trans hopen.2] at hsettled
      cases hsettled
  | false =>
    rw [if_neg Bool.false_ne_true]
    rw [positions_singleton htopic hcursor]
    refine ⟨(h.toFeed.advance hseen).append (List.pairwise_singleton _ _) h.within
      (List.forall_mem_singleton.mpr hfresh) (List.forall_mem_singleton.mpr hpast)
      (List.forall_mem_singleton.mpr hself), fun howed' => ?_, fun _ => h.settled howed⟩
    rw [howed] at howed'
    cases howed'

/-- A replayed frame at or below the position of the wire is passed over, or joins the feed with
what it drains. When it is the last one that was owed, the withheld tail follows it. -/
theorem OnTopic.owedFrame (h : OnTopic W seen topic state fed) (hlane : W.OneLane)
    (htopic : W.topicOf message = some topic) (hcursor : W.cursorOf message = some cursor)
    (hseen : W.reached seen cursor = true) (wave : Option WaveId) (claim : Option C) :
    let s := state.owedFrame W wave claim topic cursor message
    OnTopic W seen topic s.1 (fed ++ W.positions topic s.2) := by
  intro s
  have hnothing : fed ++ W.positions topic ([] : List (M kind)) = fed := List.append_nil fed
  rw [show s = state.owedFrame W wave claim topic cursor message from rfl, LeaseState.owedFrame]
  dsimp only
  split
  · exact hnothing.symm ▸ h
  rename_i hadmitted
  split
  · exact hnothing.symm ▸ h
  split
  · exact hnothing.symm ▸ h
  rename_i hbeyond
  rw [Bool.not_eq_true] at hbeyond
  simp only [Bool.or_eq_true, not_or, Bool.not_eq_true, Bool.not_eq_false'] at hadmitted
  obtain ⟨⟨hcatching, hsnap⟩, hpast⟩ := hadmitted
  have howed : state.owedOn W.toTransportBinding topic = true :=
    owedOn_of_admitted hcatching hsnap hpast hbeyond
  have hreplayed := h.replayed howed
  have habove : ∀ p ∈ fed, W.covers p cursor = false :=
    fun p hp => not_covers_of_reached (hreplayed p hp) hbeyond
  obtain ⟨hfeed, hcovered⟩ := h.toFeed.replay hreplayed htopic hcursor hpast habove
    (fun _ h => h) hseen
  split
  · rename_i hstill
    refine ⟨hfeed, fun _ => hcovered, fun hsettled => ?_⟩
    rw [hstill] at hsettled
    cases hsettled
  · have hreleased := hfeed.releaseTail kind hcovered fun kind' hkind =>
      hfeed.heldOn_of_ne hlane htopic hkind
    rw [positions_append, ← List.append_assoc]
    exact hreleased

end Step

section Elsewhere

variable {W : WireBinding M C} {seen : Option C} {topic topic' : Topic} {cursor : C}
  {state : LeaseState M C} {fed : List C} {message : M kind} {rides : Bool}

theorem agreesOn_freshFrame (hne : topic ≠ topic') :
    state.AgreesOn topic' (state.freshFrame W rides topic cursor message).1 := by
  rw [LeaseState.freshFrame]
  split
  · exact .refl topic' state
  split
  · split
    · split
      · exact agreesOn_clear state
      · rw [withhold_eq]
        obtain ⟨⟨hfloor, _, hheld⟩, hcaught, hsnap, hreplayed⟩ :=
          agreesOn_setHeld_insert state hne
            (state.heldOn kind topic ++ [(state.withheldSeq, message)])
        exact ⟨⟨hfloor, Nat.le_succ _, hheld⟩, hcaught, hsnap, hreplayed⟩
    · exact (agreesOn_drainBelow state).trans (agreesOn_advanceReplayed hne)
  · exact .refl topic' state

theorem agreesOn_owedFrame (hne : topic ≠ topic') (wave : Option WaveId) (claim : Option C) :
    state.AgreesOn topic' (state.owedFrame W wave claim topic cursor message).1 := by
  have hdrained : state.AgreesOn topic' (LeaseState.advanceReplayed W
      (state.drainBelow W topic cursor : LeaseState M C × List (M kind)).1 topic cursor) :=
    (agreesOn_drainBelow state).trans (agreesOn_advanceReplayed hne)
  rw [LeaseState.owedFrame]
  dsimp only
  split
  · exact .refl topic' state
  split
  · exact .refl topic' state
  split
  · exact .refl topic' state
  split
  · exact hdrained
  · exact hdrained.trans (agreesOn_releaseTail hne)

theorem topicOf_drained (h : Feed W seen topic state fed)
    (htopic : W.topicOf message = some topic) :
    ∀ frame ∈ (state.drainBelow W topic cursor : LeaseState M C × List (M kind)).2 ++ [message],
      W.topicOf frame = some topic := by
  rw [snd_drainBelow]
  exact List.forall_mem_append.mpr
    ⟨fun _ hframe => (h.joining hframe).1.topicOf, List.forall_mem_singleton.mpr htopic⟩

theorem topicOf_freshFrame (h : Feed W seen topic state fed)
    (htopic : W.topicOf message = some topic) :
    ∀ frame ∈ (state.freshFrame W rides topic cursor message).2.1,
      W.topicOf frame = some topic := by
  have hnothing : ∀ frame ∈ ([] : List (M kind)), W.topicOf frame = some topic :=
    fun _ hframe => absurd hframe List.not_mem_nil
  rw [LeaseState.freshFrame]
  split
  · exact hnothing
  split
  · split
    · split <;> exact hnothing
    · exact topicOf_drained h htopic
  · exact List.forall_mem_singleton.mpr htopic

theorem topicOf_owedFrame (h : Feed W seen topic state fed)
    (htopic : W.topicOf message = some topic) (wave : Option WaveId) (claim : Option C) :
    ∀ frame ∈ (state.owedFrame W wave claim topic cursor message).2,
      W.topicOf frame = some topic := by
  have hnothing : ∀ frame ∈ ([] : List (M kind)), W.topicOf frame = some topic :=
    fun _ hframe => absurd hframe List.not_mem_nil
  rw [LeaseState.owedFrame]
  dsimp only
  split
  · exact hnothing
  split
  · exact hnothing
  split
  · exact hnothing
  split
  · exact topicOf_drained h htopic
  · refine List.forall_mem_append.mpr ⟨topicOf_drained h htopic, ?_⟩
    intro frame hframe
    have hdrained : state.KeepsOn topic (LeaseState.advanceReplayed W
        (state.drainBelow W topic cursor : LeaseState M C × List (M kind)).1 topic cursor) :=
      (agreesOn_drainBelow state).toKeepsOn.trans (keepsOn_advanceReplayed _)
    obtain ⟨numbered, hnumbered, heq⟩ :=
      List.mem_map.mp ((mem_releaseFrames hframe).resolve_left List.not_mem_nil)
    rw [← heq]
    exact ((h.keeps hdrained).held kind numbered hnumbered).2.topicOf

theorem tx_drainBelow (state : LeaseState M C) :
    (state.drainBelow W topic cursor : LeaseState M C × List (M kind)).1.tx = state.tx := by
  rw [drainBelow]
  cases (state.held kind).get topic <;> rfl

theorem tx_releaseTail (state : LeaseState M C) :
    (state.releaseTail W topic : LeaseState M C × List (M kind)).1.tx = state.tx := by
  rw [releaseTail]
  obtain ⟨replayed, heq, _⟩ := releaseFrames_eq W topic
    (((state.held kind).get topic).getD [])
    (state.setHeld kind ((state.held kind).remove topic), [])
  rw [heq]
  rfl

theorem tx_freshFrame (state : LeaseState M C) (rides : Bool) (message : M kind) :
    (state.freshFrame W rides topic cursor message).1.tx = state.tx := by
  rw [LeaseState.freshFrame]
  split
  · rfl
  split
  · split
    · split <;> rfl
    · exact tx_drainBelow state
  · rfl

theorem tx_owedFrame (state : LeaseState M C) (wave : Option WaveId) (claim : Option C)
    (message : M kind) : (state.owedFrame W wave claim topic cursor message).1.tx = state.tx := by
  rw [LeaseState.owedFrame]
  dsimp only
  split
  · rfl
  split
  · rfl
  split
  · rfl
  split
  · exact tx_drainBelow state
  · exact (tx_releaseTail _).trans (tx_drainBelow state)

end Elsewhere

section CatchUp

variable {W : WireBinding M C} {seen : Option C} {topic : Topic} {state : LeaseState M C}
  {fed : List C}

def tailOn (W : WireBinding M C) (state : LeaseState M C) (kind : DeliveryKind) (topic : Topic) :
    List (Nat × M kind) :=
  (state.heldOn kind topic).filter fun frame => (W.cursorOf frame.2).any fun cursor =>
    !W.reached (state.replayed.get topic) cursor

def ByTopic (W : WireBinding M C) (state : LeaseState M C) : Prop :=
  ∀ kind topic, ∀ frame ∈ state.heldOn kind topic, W.topicOf frame.2 = some topic

theorem filter_withheldTail (hby : state.ByTopic W) (h : Feed W seen topic state fed)
    (kind : DeliveryKind) :
    (state.withheldTail W kind).filter (fun frame => W.topicOf frame.2 == some topic) =
      state.tailOn W kind topic := by
  have hentry (e : Topic × List (Nat × M kind)) (he : e ∈ (state.held kind).entries) :
      ∀ frame ∈ e.2, W.topicOf frame.2 = some e.1 := by
    intro frame hframe
    apply hby kind e.1 frame
    rw [heldOn, HashMap.get_eq_some_iff.mpr he]
    exact hframe
  have hordered : (state.tailOn W kind topic).Pairwise fun a b => a.1 ≤ b.1 :=
    ((h.follows kind).sublist List.filter_sublist).imp fun hfollows => hfollows.1.le
  have hself : (state.tailOn W kind topic).filter (fun frame => W.topicOf frame.2 == some topic) =
      state.tailOn W kind topic := by
    refine List.filter_eq_self.mpr fun frame hframe => ?_
    rw [hby kind topic frame (List.mem_of_mem_filter hframe)]
    exact BEq.rfl
  -- the other topics have no part in it
  have hparts : ((state.held kind).entries.flatMap fun e => e.2.filter fun frame =>
        (W.cursorOf frame.2).any fun cursor =>
          !W.reached (state.replayed.get e.1) cursor).filter
      (fun frame => W.topicOf frame.2 == some topic) = state.tailOn W kind topic := by
    rw [List.filter_flatMap, HashMap.flatMap_entries (k := topic)]
    · rw [← hself, tailOn, heldOn]
      cases (state.held kind).get topic <;> rfl
    · intro e he hne
      refine List.filter_eq_nil_iff.mpr fun frame hframe => ?_
      rw [hentry e he frame (List.mem_of_mem_filter hframe)]
      simpa using hne
  have hsublist : (state.tailOn W kind topic).Sublist
      ((state.withheldTail W kind).filter fun frame => W.topicOf frame.2 == some topic) := by
    rw [← hself]
    apply List.Sublist.filter
    refine List.sublist_insertionSort hordered ?_
    rw [← hparts]
    exact List.filter_sublist
  refine (hsublist.eq_of_length ?_).symm
  rw [← hparts]
  exact ((List.perm_insertionSort _ _).symm.filter _).length_eq

theorem positions_filter (messages : List (M kind)) (topic : Topic) :
    W.positions topic (messages.filter fun message => W.topicOf message == some topic) =
      W.positions topic messages := by
  rw [WireBinding.positions, WireBinding.positions, List.filterMap_filter]
  refine List.filterMap_congr fun message _ => ?_
  rw [WireBinding.positionOn]
  by_cases htopic : W.topicOf message = some topic
  · rw [if_pos htopic, if_pos (by rw [htopic]; exact BEq.rfl)]
  · rw [if_neg htopic, ite_self]

theorem fed_tailEvent (hby : state.ByTopic W) (h : Feed W seen topic state fed)
    (kind : DeliveryKind) :
    W.fed topic (state.tailEvent W kind) =
      W.positions topic ((state.tailOn W kind topic).map Prod.snd) := by
  have htail : W.positions topic ((state.withheldTail W kind).map Prod.snd) =
      W.positions topic ((state.tailOn W kind topic).map Prod.snd) := by
    rw [← filter_withheldTail hby h, ← positions_filter, List.filter_map]
    rfl
  rw [← htail, tailEvent]
  split
  · rename_i hempty
    rw [List.isEmpty_iff.mp hempty]
    rfl
  · exact List.append_nil _

theorem tailEvents_eq_or_eq (W : WireBinding M C) (state : LeaseState M C) :
    state.tailEvents W = state.tailEvent W .welcome ++ state.tailEvent W .group ∨
      state.tailEvents W = state.tailEvent W .group ++ state.tailEvent W .welcome := by
  rw [tailEvents]
  exact ite_eq_or_eq _ _ _

theorem exists_fed_tailEvents (hby : state.ByTopic W) (h : Feed W seen topic state fed)
    (hlane : W.OneLane) : ∃ kind, W.fed topic (state.tailEvents W ++ [.catchUpComplete]) =
      W.positions topic ((state.tailOn W kind topic).map Prod.snd) := by
  have hnil {kind : DeliveryKind} (hheld : state.heldOn kind topic = []) :
      W.positions topic ((state.tailOn W kind topic).map Prod.snd) = [] := by
    rw [tailOn, hheld]
    rfl
  have hone : state.heldOn .group topic = [] ∨ state.heldOn .welcome topic = [] := by
    cases hgroup : state.heldOn .group topic with
    | nil => exact .inl rfl
    | cons frame frames =>
      have htopic := hby .group topic frame (by rw [hgroup]; exact List.mem_cons_self)
      exact .inr (h.heldOn_of_ne hlane htopic (by decide))
  have hsum : W.fed topic (state.tailEvents W ++ [.catchUpComplete]) =
      W.fed topic (state.tailEvents W) := by
    rw [WireBinding.fed, List.flatMap_append]
    exact List.append_nil _
  have hfed (kind kind' : DeliveryKind) :
      W.fed topic (state.tailEvent W kind ++ state.tailEvent W kind') =
        W.positions topic ((state.tailOn W kind topic).map Prod.snd) ++
          W.positions topic ((state.tailOn W kind' topic).map Prod.snd) := by
    rw [WireBinding.fed, List.flatMap_append, ← fed_tailEvent hby h, ← fed_tailEvent hby h]
    rfl
  have heither := tailEvents_eq_or_eq W state
  rw [hsum]
  cases hone with
  | inl hgroup =>
    refine ⟨.welcome, ?_⟩
    cases heither with
    | inl heq => rw [heq, hfed, hnil hgroup, List.append_nil]
    | inr heq => rw [heq, hfed, hnil hgroup, List.nil_append]
  | inr hwelcome =>
    refine ⟨.group, ?_⟩
    cases heither with
    | inl heq => rw [heq, hfed, hnil hwelcome, List.nil_append]
    | inr heq => rw [heq, hfed, hnil hwelcome, List.append_nil]

theorem OnTopic.catchUp (h : OnTopic W seen topic state fed) (hby : state.ByTopic W)
    (hlane : W.OneLane) : OnTopic W seen topic state.catchUp
      (fed ++ W.fed topic (state.tailEvents W ++ [.catchUpComplete])) := by
  obtain ⟨kind, htail⟩ := exists_fed_tailEvents hby h.toFeed hlane
  have hkeeps : state.KeepsOn topic state.catchUp :=
    ⟨rfl, Nat.le_refl _, fun _ => List.nil_sublist _⟩
  have hmem : ∀ p ∈ W.positions topic ((state.tailOn W kind topic).map Prod.snd),
      W.reached (state.floors.get topic) p = false ∧ W.reached seen p = true ∧
        W.reached (state.replayed.get topic) p = false := by
    intro p hp
    obtain ⟨message, hmessage, _, hcursor⟩ := mem_positions.mp hp
    obtain ⟨frame, hframe, heq⟩ := List.mem_map.mp hmessage
    subst heq
    obtain ⟨hheld, hbeyond⟩ := List.mem_filter.mp hframe
    obtain ⟨_, _, p', hp', hpast, hwithin⟩ := h.held kind frame hheld
    rw [hcursor] at hp'
    cases hp'
    rw [hcursor, Option.any_some, Bool.not_eq_true'] at hbeyond
    exact ⟨hpast, hwithin, hbeyond⟩
  rw [htail]
  refine ⟨Feed.keeps ?_ hkeeps, fun howed => Bool.noConfusion howed, fun _ _ => rfl⟩
  cases howed : state.owedOn W.toTransportBinding topic with
  | true =>
    refine h.toFeed.append (ascends_positions ((h.follows kind).sublist List.filter_sublist))
      (h.replayed howed) (fun p hp => (hmem p hp).2.2) (fun p hp => (hmem p hp).1)
      fun p hp => (hmem p hp).2.1
  | false =>
    rw [tailOn, h.settled howed kind]
    exact (List.append_nil fed).symm ▸ h.toFeed

end CatchUp

end LeaseState

end LibXmtp.Bidi
