import LibXmtp.Groups.OpenMls
import LibXmtp.Associations.Proto
import LibXmtp.Data.Result

namespace LibXmtp.Groups

open LibXmtp.Data
open Associations.Proto (ConversionError)

namespace Proto

structure Inboxes where
  inboxIds : List String

structure GroupMutableMetadataV1 where
  attributes : HashMap String String
  adminList : Option Inboxes
  superAdminList : Option Inboxes

structure Inbox where
  inboxId : String

structure DmMembers where
  dmMemberOne : Option Inbox
  dmMemberTwo : Option Inbox

structure GroupMetadataV1 where
  conversationType : Int32
  creatorInboxId : String
  dmMembers : Option DmMembers

end Proto

inductive ConversationType
  | group
  | dm
  | sync
  | oneshot
  deriving DecidableEq

def ConversationType.tryFrom (value : Int32) : Except ConversionError ConversationType :=
  if value = 1 then .ok .group
  else if value = 2 then .ok .dm
  else if value = 3 then .ok .sync
  else if value = 4 then .ok .oneshot
  else .error (.invalidValue "ConversationType" "number between 1 - 4" (toString value))

inductive GroupMetadataError
  | deserialization
  | missingExtension
  | missingDmMember
  | conversion (error : ConversionError)

inductive GroupMutableMetadataError
  | deserialization
  | missingExtension
  | missingMetadataField
  | malformedComponent (componentId : Option UInt16) (reason : String)

structure DmMembers where
  memberOneInboxId : String
  memberTwoInboxId : String

def DmMembers.tryFrom (value : Proto.DmMembers) : Except GroupMetadataError DmMembers := do
  let memberOne ← okOr value.dmMemberOne .missingDmMember
  let memberTwo ← okOr value.dmMemberTwo .missingDmMember
  return ⟨memberOne.inboxId, memberTwo.inboxId⟩

structure GroupMetadata where
  conversationType : ConversationType
  creatorInboxId : String
  dmMembers : Option DmMembers

def GroupMetadata.tryFrom (value : Proto.GroupMetadataV1) :
    Except GroupMetadataError GroupMetadata := do
  let dmMembers ← value.dmMembers.mapM DmMembers.tryFrom
  let conversationType ← (ConversationType.tryFrom value.conversationType).mapError .conversion
  return ⟨conversationType, value.creatorInboxId, dmMembers⟩

inductive MetadataField
  | groupName
  | description
  | groupImageUrlSquare
  | messageDisappearFromNS
  | messageDisappearInNS
  | minimumSupportedProtocolVersion
  | commitLogSigner
  | appData
  deriving DecidableEq

def MetadataField.asStr : MetadataField → String
  | .groupName => "group_name"
  | .description => "description"
  | .groupImageUrlSquare => "group_image_url_square"
  | .messageDisappearFromNS => "message_disappear_from_ns"
  | .messageDisappearInNS => "message_disappear_in_ns"
  | .minimumSupportedProtocolVersion => "minimum_supported_protocol_version"
  | .commitLogSigner => "_commit_log_signer"
  | .appData => "app_data"

structure GroupMutableMetadata where
  attributes : HashMap String String
  adminList : List String
  superAdminList : List String

namespace GroupMutableMetadata

def tryFrom (value : Proto.GroupMutableMetadataV1) :
    Except GroupMutableMetadataError GroupMutableMetadata := do
  let adminList ← okOr value.adminList .missingMetadataField
  let superAdminList ← okOr value.superAdminList .missingMetadataField
  return ⟨value.attributes, adminList.inboxIds, superAdminList.inboxIds⟩

def isAdmin (metadata : GroupMutableMetadata) (inboxId : String) : Bool :=
  metadata.adminList.contains inboxId

def isSuperAdmin (metadata : GroupMutableMetadata) (inboxId : String) : Bool :=
  metadata.superAdminList.contains inboxId

end GroupMutableMetadata

end LibXmtp.Groups
