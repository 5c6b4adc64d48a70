import LibXmtp.AppData.ComponentSource
import LibXmtp.Groups.CommitValidation

namespace LibXmtp.Groups.Proto

open LibXmtp.Data

structure GroupMembershipEntryV1 where
  sequenceId : UInt64
  failedInstallations : List Bytes

end LibXmtp.Groups.Proto

namespace LibXmtp.AppData

open LibXmtp.Data LibXmtp.Groups

/-- What is used of other crates to read the membership: the entries are decoded by `prost`, and
need not have a version. -/
structure MembershipWire extends Wire where
  hex : Hex
  decodeGroupMembershipEntry : Bytes → Option (Option Groups.Proto.GroupMembershipEntryV1)

inductive MembershipDictError
  | tlsCodec (error : TlsCodecError)
  | decode
  | groupMembershipEntryUnknownVersion

section

variable (wire : MembershipWire)

def decodeGroupMembershipDict (bytes : Bytes) :
    Except MembershipDictError (List (InboxId × Groups.Proto.GroupMembershipEntryV1)) := do
  let snapshot ← ((TlsMap.codec wire.vlen (InboxId.codec wire.vlen)
    wire.vlen.bytes).deserializeExact bytes).mapError MembershipDictError.tlsCodec
  snapshot.iter.mapM fun (key, value) => do
    let envelope ← okOr (wire.decodeGroupMembershipEntry value) .decode
    let entry ← okOr envelope .groupMembershipEntryUnknownVersion
    return (key, entry)

def flattenEntries (entries : List (InboxId × Groups.Proto.GroupMembershipEntryV1)) :
    Groups.Proto.GroupMembership where
  members := .ofList (entries.map fun (inboxId, entry) =>
    (inboxId.toHex wire.hex, entry.sequenceId))
  failedInstallations := entries.flatMap fun (_, entry) => entry.failedInstallations

def readGroupMembership (bytes : Bytes) :
    Except ComponentSourceError Groups.Proto.GroupMembership :=
  match decodeGroupMembershipDict wire bytes with
  | .ok entries => .ok (flattenEntries wire entries)
  | .error _ => .error (.malformedComponentValue ComponentId.groupMembership "TlsMap decode")

/-- The component of a dictionary that need not have one, nor be that of a migrated group. -/
def membershipOfComponents (read : UInt16 → Option Bytes) :
    Except ComponentSourceError (Option Groups.Proto.GroupMembership) :=
  if (read ComponentId.componentRegistry).isSome then
    (read ComponentId.groupMembership).mapM (readGroupMembership wire)
  else .ok none

def readGroupMembershipFromDict (extensions : Extensions) :
    Except ComponentSourceError (Option Groups.Proto.GroupMembership) :=
  if extensions.isMigrated then
    (readFromAppDataDict ComponentId.groupMembership extensions).mapM (readGroupMembership wire)
  else .ok none

end

theorem isMigrated_eq (extensions : Extensions) :
    extensions.isMigrated =
      (readFromAppDataDict ComponentId.componentRegistry extensions).isSome := by
  rw [Extensions.isMigrated, readFromAppDataDict]
  cases extensions.appDataDictionary with
  | none => rfl
  | some dictionary => exact HashMap.containsKey_eq_isSome_get dictionary _

theorem readGroupMembershipFromDict_eq (wire : MembershipWire) (extensions : Extensions) :
    readGroupMembershipFromDict wire extensions =
      membershipOfComponents wire fun id => readFromAppDataDict id extensions := by
  rw [readGroupMembershipFromDict, membershipOfComponents, isMigrated_eq]

end LibXmtp.AppData
