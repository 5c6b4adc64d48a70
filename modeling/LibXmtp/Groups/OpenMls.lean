import LibXmtp.Data.HashMap
import LibXmtp.Data.Hex

namespace LibXmtp.Groups

open LibXmtp.Data

abbrev LeafNodeIndex := UInt32

inductive ExtensionType
  | appDataDictionary
  | immutableMetadata
  | other (value : UInt16)
  deriving DecidableEq

inductive Extension
  | immutableMetadata (metadata : Bytes)
  | appDataDictionary (dictionary : HashMap UInt16 Bytes)
  | requiredCapabilities (extensionTypes : List ExtensionType)
  | unknown (id : UInt16) (bytes : Bytes)
  | other (extensionType : ExtensionType) (content : Bytes)

abbrev Extensions := List Extension

def mutableMetadataExtensionId : UInt16 := 0xff00

def groupMembershipExtensionId : UInt16 := 0xff01

def groupPermissionsExtensionId : UInt16 := 0xff02

namespace ComponentId

def componentRegistry : UInt16 := 0x8000

def minSupportedProtocolVersion : UInt16 := 0x800A

end ComponentId

namespace Extensions

def immutableMetadata (extensions : Extensions) : Option Bytes :=
  extensions.findSome? fun
    | .immutableMetadata metadata => some metadata
    | _ => none

def appDataDictionary (extensions : Extensions) : Option (HashMap UInt16 Bytes) :=
  extensions.findSome? fun
    | .appDataDictionary dictionary => some dictionary
    | _ => none

def requiredCapabilities (extensions : Extensions) : Option (List ExtensionType) :=
  extensions.findSome? fun
    | .requiredCapabilities extensionTypes => some extensionTypes
    | _ => none

def findUnknownExtension (extensions : Extensions) (extensionType : UInt16) : Option Bytes :=
  extensions.findSome? fun
    | .unknown id bytes => if id = extensionType then some bytes else none
    | _ => none

/-- `is_migrated_extensions`: the bootstrap commit has written the component registry. -/
def isMigrated (extensions : Extensions) : Bool :=
  (extensions.appDataDictionary.map (·.containsKey ComponentId.componentRegistry)).getD false

end Extensions

inductive Credential
  | basic (identity : Bytes)
  | other
  deriving DecidableEq

structure LeafNode where
  credential : Credential
  signatureKey : Bytes
  deriving DecidableEq

inductive AppDataUpdateOperation
  | update (payload : Bytes)
  | remove

inductive Proposal
  | add (leafNode : LeafNode)
  | update (leafNode : LeafNode)
  | remove (removed : LeafNodeIndex)
  | preSharedKey
  | reInit
  | externalInit
  | groupContextExtensions (extensions : Extensions)
  | appDataUpdate (componentId : UInt16) (operation : AppDataUpdateOperation)
  | appEphemeral
  | selfRemove
  | custom

inductive ProposalType
  | add
  | update
  | remove
  | preSharedKey
  | reInit
  | externalInit
  | groupContextExtensions
  | appDataUpdate
  | appEphemeral
  | selfRemove
  | custom

def Proposal.proposalType : Proposal → ProposalType
  | .add _ => .add
  | .update _ => .update
  | .remove _ => .remove
  | .preSharedKey => .preSharedKey
  | .reInit => .reInit
  | .externalInit => .externalInit
  | .groupContextExtensions _ => .groupContextExtensions
  | .appDataUpdate _ _ => .appDataUpdate
  | .appEphemeral => .appEphemeral
  | .selfRemove => .selfRemove
  | .custom => .custom

inductive Sender
  | member (leafIndex : LeafNodeIndex)
  | external
  | newMemberCommit
  | newMemberProposal

structure QueuedProposal where
  proposal : Proposal
  sender : Sender

/-- A commit whose proposals are resolved, with the extensions of the group context it leads to. -/
structure StagedCommit where
  queuedProposals : List QueuedProposal
  groupContextExtensions : Extensions

structure GroupMember where
  index : LeafNodeIndex
  leafNode : LeafNode

structure OpenMlsGroup where
  groupId : Bytes
  extensions : Extensions
  members : List GroupMember
  distinct : (members.map GroupMember.index).Nodup

def OpenMlsGroup.memberAt (group : OpenMlsGroup) (leafIndex : LeafNodeIndex) : Option LeafNode :=
  (group.members.find? (·.index = leafIndex)).map GroupMember.leafNode

end LibXmtp.Groups
