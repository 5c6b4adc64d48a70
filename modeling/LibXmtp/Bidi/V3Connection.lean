import LibXmtp.Bidi.OrderedDelivery
import LibXmtp.Types.Topic

namespace LibXmtp.Bidi

open LibXmtp.Data LibXmtp.Types

namespace V3

structure GroupMessageV1 where
  id : UInt64
  groupId : Bytes

inductive WelcomeVersion
  | v1 (id : UInt64) (installationKey : Bytes)
  | welcomePointer (id : UInt64) (installationKey : Bytes)

/-- A message has no version if it is of one that is not known. -/
def Message : DeliveryKind → Type
  | .group => Option GroupMessageV1
  | .welcome => Option WelcomeVersion

def WelcomeVersion.topic : WelcomeVersion → Topic
  | v1 _ installationKey => .newWelcomeMessage installationKey
  | welcomePointer _ installationKey => .newWelcomeMessage installationKey

def WelcomeVersion.sequenceId : WelcomeVersion → UInt64
  | v1 id _ => id
  | welcomePointer id _ => id

def groupTopic (message : Option GroupMessageV1) : Option Topic :=
  message.map fun v1 => .newGroupMessage v1.groupId

def welcomeTopic (message : Option WelcomeVersion) : Option Topic :=
  message.map WelcomeVersion.topic

def groupCursor (message : Option GroupMessageV1) : Option UInt64 :=
  message.map GroupMessageV1.id

def welcomeCursor (message : Option WelcomeVersion) : Option UInt64 :=
  message.map WelcomeVersion.sequenceId

end V3

def V3Wire : WireBinding V3.Message UInt64 where
  toTransportBinding := V3Binding
  topicOf := fun {kind} =>
    match kind with
    | .group => V3.groupTopic
    | .welcome => V3.welcomeTopic
  cursorOf := fun {kind} =>
    match kind with
    | .group => V3.groupCursor
    | .welcome => V3.welcomeCursor

theorem V3.exists_groupTopic {message : Option V3.GroupMessageV1} {topic : Topic}
    (h : V3.groupTopic message = some topic) : ∃ groupId, topic = .newGroupMessage groupId := by
  obtain ⟨v1, _, heq⟩ := Option.map_eq_some_iff.mp h
  exact ⟨v1.groupId, heq.symm⟩

theorem V3.exists_welcomeTopic {message : Option V3.WelcomeVersion} {topic : Topic}
    (h : V3.welcomeTopic message = some topic) :
    ∃ installationKey, topic = .newWelcomeMessage installationKey := by
  obtain ⟨version, _, heq⟩ := Option.map_eq_some_iff.mp h
  cases version with
  | v1 id installationKey => exact ⟨installationKey, heq.symm⟩
  | welcomePointer id installationKey => exact ⟨installationKey, heq.symm⟩

theorem V3Wire.oneLane : V3Wire.OneLane := by
  have hne {message : Option V3.GroupMessageV1} {message' : Option V3.WelcomeVersion}
      {topic : Topic} (h : V3.groupTopic message = some topic)
      (h' : V3.welcomeTopic message' = some topic) : False := by
    obtain ⟨groupId, heq⟩ := V3.exists_groupTopic h
    obtain ⟨installationKey, heq'⟩ := V3.exists_welcomeTopic h'
    rw [heq] at heq'
    exact Topic.newGroupMessage_ne_newWelcomeMessage groupId installationKey heq'
  intro kind kind' message message' topic htopic htopic'
  cases kind with
  | group =>
    cases kind' with
    | group => rfl
    | welcome => exact (hne htopic htopic').elim
  | welcome =>
    cases kind' with
    | group => exact (hne htopic' htopic).elim
    | welcome => rfl

theorem V3Wire.covers_eq_false_iff {id id' : UInt64} : V3Wire.covers id id' = false ↔ id < id' := by
  rw [show V3Wire.covers id id' = decide (id' ≤ id) from rfl, decide_eq_false_iff_not,
    UInt64.not_le]

namespace LeaseState.InOrder

variable {state : LeaseState V3.Message UInt64}

theorem increasing (h : state.InOrder V3Wire) (topic : Topic) :
    (V3Wire.fed topic state.tx.sent).Pairwise fun id id' => id < id' :=
  (h.ascends topic).imp V3Wire.covers_eq_false_iff.mp

theorem above (h : state.InOrder V3Wire) {topic : Topic} {floor id : UInt64}
    (hfloor : state.floors.get topic = some floor) (hid : id ∈ V3Wire.fed topic state.tx.sent) :
    floor < id :=
  V3Wire.covers_eq_false_iff.mp (h.past topic floor hfloor id hid)

end LeaseState.InOrder

section Served

namespace LedgerTask

def grouped (ids : List UInt64) (wave : Nat) : Step V3.Message UInt64 :=
  .wire (some (.messages .group (ids.map fun id => some ⟨id, [7]⟩) wave))

def leaseGroup (cursor : UInt64) : Step V3.Message UInt64 :=
  .cmd (some (.lease [(.newGroupMessage [7], cursor)] (List.cons_ne_nil _ _) 9 fun _ => some 0))

/-- A lease whose replay overlaps one of its own from further back and the live lane. -/
def served : LedgerTask V3.Message UInt64 :=
  [leaseGroup 5, grouped [6, 8] 1, leaseGroup 3, grouped [9] 0, grouped [4, 6, 8] 2,
    .wire (some (.catchUpComplete 1)), .wire (some (.catchUpComplete 2)), grouped [9, 10] 0].foldl
    (fun task step => task.perform listed V3Wire dialed step) (initial false 8 64)

theorem reachable_served : served.Reachable V3Wire :=
  Reachable.performAll ⟨false, 8, 64, .refl⟩ (by decide +kernel)

theorem inOrder_served : (∀ lease state, served.ledger.leases.get lease = some state →
    state.InOrder V3Wire) ∧
      ∀ lease state, (served.ledger.route listed V3Wire (.catchUpComplete 3)).1.leases.get lease =
        some state → state.InOrder V3Wire :=
  reachable_served.inOrder V3Wire.oneLane listed (.catchUpComplete 3)

example : served.ledger.leases.values.map
    (fun state => V3Wire.fed (.newGroupMessage [7]) state.tx.sent) =
      [[6, 8, 9, 10], [4, 6, 8, 9, 10]] := by
  decide +kernel

end LedgerTask

end Served

end LibXmtp.Bidi
