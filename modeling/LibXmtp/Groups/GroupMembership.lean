import LibXmtp.Data.HashMap
import LibXmtp.Data.Hex

namespace LibXmtp.Groups

open LibXmtp.Data

structure GroupMembership where
  members : HashMap String UInt64
  failedInstallations : List Bytes

structure MembershipDiff where
  addedInboxes : List String
  removedInboxes : List String
  updatedInboxes : List String

namespace GroupMembership

def add (m : GroupMembership) (inboxId : String) (lastSequenceId : UInt64) : GroupMembership :=
  { m with members := m.members.insert inboxId lastSequenceId }

def remove (m : GroupMembership) (inboxId : String) : GroupMembership :=
  { m with members := m.members.remove inboxId }

def get (m : GroupMembership) (inboxId : String) : Option UInt64 := m.members.get inboxId

@[simp] theorem isSome_get_add (m : GroupMembership) (inboxId i : String)
    (lastSequenceId : UInt64) :
    ((m.add inboxId lastSequenceId).get i).isSome = (inboxId == i || (m.get i).isSome) := by
  simp only [add, get, HashMap.get_insert]
  split <;> simp [*]

@[simp] theorem isSome_get_remove (m : GroupMembership) (inboxId i : String) :
    ((m.remove inboxId).get i).isSome = (!(inboxId == i) && (m.get i).isSome) := by
  simp only [remove, get, HashMap.get_remove]
  split <;> simp [*]

def diff (m new : GroupMembership) : MembershipDiff where
  addedInboxes := new.members.keys.filter fun inboxId => !m.members.containsKey inboxId
  removedInboxes := m.members.keys.filter fun inboxId => (new.get inboxId).isNone
  updatedInboxes := (m.members.entries.filter fun (inboxId, lastSequenceId) =>
    (new.get inboxId).any (· ≠ lastSequenceId)).map Prod.fst

end GroupMembership

end LibXmtp.Groups
