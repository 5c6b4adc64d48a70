import LibXmtp.Types.GlobalCursor

namespace LibXmtp.Types

open LibXmtp.Data

inductive TopicKind
  | groupMessagesV1
  | welcomeMessagesV1
  | identityUpdatesV1
  | keyPackagesV1
  deriving DecidableEq

namespace TopicKind

def toByte : TopicKind → UInt8
  | groupMessagesV1 => 0
  | welcomeMessagesV1 => 1
  | identityUpdatesV1 => 2
  | keyPackagesV1 => 3

def create (kind : TopicKind) (bytes : Bytes) : Topic := kind.toByte :: bytes

theorem toByte_injective {kind kind' : TopicKind} (h : kind.toByte = kind'.toByte) :
    kind = kind' := by cases kind <;> cases kind' <;> first | rfl | exact absurd h (by decide)

theorem create_inj {kind kind' : TopicKind} {bytes bytes' : Bytes} :
    kind.create bytes = kind'.create bytes' ↔ kind = kind' ∧ bytes = bytes' := by
  constructor
  · intro h
    obtain ⟨hbyte, hbytes⟩ := List.cons.inj h
    exact ⟨toByte_injective hbyte, hbytes⟩
  · rintro ⟨rfl, rfl⟩
    rfl

end TopicKind

namespace Topic

def newGroupMessage (groupId : Bytes) : Topic := TopicKind.groupMessagesV1.create groupId

def newWelcomeMessage (installationId : Bytes) : Topic :=
  TopicKind.welcomeMessagesV1.create installationId

def identifier (topic : Topic) : Bytes := topic.drop 1

theorem newGroupMessage_ne_newWelcomeMessage (groupId installationId : Bytes) :
    newGroupMessage groupId ≠ newWelcomeMessage installationId := by
  intro h
  exact TopicKind.noConfusion (TopicKind.create_inj.mp h).1

end Topic

end LibXmtp.Types
