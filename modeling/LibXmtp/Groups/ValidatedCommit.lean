import LibXmtp.Groups.Metadata
import Mathlib.Data.Finset.Basic

namespace LibXmtp.Groups

open LibXmtp.Data

structure CommitParticipant where
  inboxId : String
  installationId : Bytes
  isCreator : Bool
  isAdmin : Bool
  isSuperAdmin : Bool

def CommitParticipant.build (inboxId : String) (installationId : Bytes)
    (immutableMetadata : GroupMetadata) (mutableMetadata : GroupMutableMetadata) :
    CommitParticipant where
  inboxId
  installationId
  isCreator := inboxId == immutableMetadata.creatorInboxId
  isAdmin := mutableMetadata.isAdmin inboxId
  isSuperAdmin := mutableMetadata.isSuperAdmin inboxId

structure Inbox where
  inboxId : String
  isCreator : Bool
  isAdmin : Bool
  isSuperAdmin : Bool
  proposer : Option CommitParticipant

def buildInbox (inboxId : String) (immutableMetadata : GroupMetadata)
    (mutableMetadata : GroupMutableMetadata) : Inbox where
  inboxId
  isCreator := immutableMetadata.creatorInboxId == inboxId
  isAdmin := mutableMetadata.isAdmin inboxId
  isSuperAdmin := mutableMetadata.isSuperAdmin inboxId
  proposer := none

def buildInboxWithProposer (inboxId : String) (immutableMetadata : GroupMetadata)
    (mutableMetadata : GroupMutableMetadata) (proposer : CommitParticipant) : Inbox :=
  { buildInbox inboxId immutableMetadata mutableMetadata with proposer := some proposer }

structure MetadataFieldChange where
  fieldName : String
  oldValue : Option String
  newValue : Option String

structure MutableMetadataValidationInfo where
  metadataFieldChanges : List MetadataFieldChange := []
  adminsAdded : List Inbox := []
  adminsRemoved : List Inbox := []
  superAdminsAdded : List Inbox := []
  superAdminsRemoved : List Inbox := []
  numSuperAdmins : UInt32 := 0
  minimumSupportedProtocolVersion : Option String := none

structure ValidatedCommit where
  actor : CommitParticipant
  proposers : List CommitParticipant
  addedInboxes : List Inbox
  removedInboxes : List Inbox
  readdedInstallations : Finset Bytes
  metadataValidationInfo : MutableMetadataValidationInfo
  installationsChanged : Bool
  permissionsChanged : Bool
  dmMembers : Option DmMembers

section MetadataChanges

variable (immutableMetadata : GroupMetadata) (mutableMetadata : GroupMutableMetadata)

def getAddedMembers (old new : List String) : List Inbox :=
  (new.filter fun inboxId => !old.contains inboxId).map fun inboxId =>
    buildInbox inboxId immutableMetadata mutableMetadata

def getRemovedMembers (old new : List String) : List Inbox :=
  (old.filter fun inboxId => !new.contains inboxId).map fun inboxId =>
    buildInbox inboxId immutableMetadata mutableMetadata

end MetadataChanges

def mutableMetadataFieldChanges (oldMetadata newMetadata : GroupMutableMetadata) :
    List MetadataFieldChange :=
  let oldKeys := oldMetadata.attributes.keys
  let allKeys :=
    oldKeys ++ newMetadata.attributes.keys.filter fun key => !oldKeys.contains key
  allKeys.filterMap fun key =>
    let oldVal := oldMetadata.attributes.get key
    let newVal := newMetadata.attributes.get key
    if oldVal ≠ newVal then some ⟨key, oldVal, newVal⟩ else none

end LibXmtp.Groups
