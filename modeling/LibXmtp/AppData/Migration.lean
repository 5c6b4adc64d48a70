import LibXmtp.AppData.Validation

namespace LibXmtp.AppData

open LibXmtp.Data LibXmtp.Groups

inductive MigrationError
  | missingPolicyField (field : String)
  | unknownMetadataField (field : String)
  | nonConstrainedAdminPolicy (base : Option Int32)
  | updatePermissionsNotSuperAdmin (base : Option Int32)
  | unknownMembershipPolicy (base : Option Int32)
  | registry (error : ComponentRegistryError)
  | missingGroupMembershipExtension
  | groupMembershipDecode
  | groupPermissionsDecode
  | mutableMetadataDecode (error : GroupMutableMetadataError)
  | groupMetadataDecode (error : GroupMetadataError)
  | tlsCodec (error : TlsCodecError)
  | invalidInboxId (error : InboxIdError)
  | dmMembersSelfReference (inboxIds : String)
  | groupMembershipEntryUnknownVersion
  | invalidFailedInstallationLength (length : Nat)
  | invalidDisappearingTimestamp (field value reason : String)
  | invalidCommitLogSignerHex
  | invalidCommitLogSignerLength (expected actual : Nat)

def ComponentType.tag : ComponentType → Int32
  | .unspecified => 0
  | .bytes => 1
  | .string => 2
  | .tlsMapBytesBytes => 3
  | .tlsMapInboxIdBytes => 4
  | .tlsSetBytes => 5
  | .tlsSetInboxId => 6

def newComponentMetadata (permissions : Proto.ComponentPermissions)
    (componentType : ComponentType) : Proto.ComponentMetadata where
  componentType := componentType.tag
  permissions := some permissions

def metadataFieldRegistryMapping : List (MetadataField × UInt16 × ComponentType) :=
  [(.groupName, ComponentId.groupName, .string),
    (.description, ComponentId.groupDescription, .string),
    (.groupImageUrlSquare, ComponentId.groupImageUrl, .string),
    (.messageDisappearFromNS, ComponentId.messageDisappearFromNs, .bytes),
    (.messageDisappearInNS, ComponentId.messageDisappearInNs, .bytes),
    (.appData, ComponentId.appData, .string),
    (.minimumSupportedProtocolVersion, ComponentId.minSupportedProtocolVersion, .string)]

def metadataFieldComponentMap : MetadataField → UInt16
  | .groupName => ComponentId.groupName
  | .description => ComponentId.groupDescription
  | .groupImageUrlSquare => ComponentId.groupImageUrl
  | .messageDisappearFromNS => ComponentId.messageDisappearFromNs
  | .messageDisappearInNS => ComponentId.messageDisappearInNs
  | .minimumSupportedProtocolVersion => ComponentId.minSupportedProtocolVersion
  | .commitLogSigner => ComponentId.commitLogSigner
  | .appData => ComponentId.appData

def metadataPolicy (base : MetadataBasePolicies) : Proto.Policy := .base base.inner

def adminListPolicyToMetadataPolicy : Proto.Policy → Except MigrationError Proto.Policy
  | .base base =>
    match PermissionsBasePolicies.ofInner base with
    | some .allowIfActorAdminOrSuperAdmin => .ok (metadataPolicy .allowIfActorAdminOrSuperAdmin)
    | some .allowIfActorSuperAdmin => .ok (metadataPolicy .allowIfActorSuperAdmin)
    | _ => .error (.nonConstrainedAdminPolicy (some base))
  | .andCondition _ | .anyCondition _ | .unset => .error (.nonConstrainedAdminPolicy none)

def membershipPolicyToMetadataPolicy : Proto.Policy → Except MigrationError Proto.Policy
  | .base base =>
    match BasePolicies.ofInner base with
    | some .allow => .ok (metadataPolicy .allow)
    | some .deny => .ok (metadataPolicy .deny)
    | some .allowIfAdminOrSuperAdmin => .ok (metadataPolicy .allowIfActorAdminOrSuperAdmin)
    | some .allowIfSuperAdmin => .ok (metadataPolicy .allowIfActorSuperAdmin)
    | _ => .error (.unknownMembershipPolicy (some base))
  | .andCondition _ | .anyCondition _ | .unset => .error (.unknownMembershipPolicy none)

def validateUpdatePermissionsIsSuperAdmin : Proto.Policy → Except MigrationError Unit
  | .base base =>
    match PermissionsBasePolicies.ofInner base with
    | some .allowIfActorSuperAdmin => .ok ()
    | _ => .error (.updatePermissionsNotSuperAdmin (some base))
  | _ => .error (.updatePermissionsNotSuperAdmin none)

def isKnownMetadataField (key : String) : Bool :=
  metadataFieldRegistryMapping.any fun (field, _, _) => field.asStr == key

def rejectUnknownMetadataFields (policySet : Proto.PolicySet) : Except MigrationError Unit :=
  policySet.updateMetadataPolicy.keys.forM fun key =>
    rejectIf (!isKnownMetadataField key) (.unknownMetadataField key)

def defaultBase (field : MetadataField) : MetadataBasePolicies :=
  if field = .minimumSupportedProtocolVersion then .allowIfActorSuperAdmin
  else .allowIfActorAdminOrSuperAdmin

def fieldPolicy (policySet : Proto.PolicySet) (field : MetadataField) : Proto.Policy :=
  (policySet.updateMetadataPolicy.get field.asStr).getD (metadataPolicy (defaultBase field))

def fieldMetadata (policySet : Proto.PolicySet) (field : MetadataField)
    (componentType : ComponentType) : Proto.ComponentMetadata :=
  newComponentMetadata
    { insertPolicy := some (fieldPolicy policySet field)
      updatePolicy := some (fieldPolicy policySet field)
      deletePolicy := some (metadataPolicy .allowIfActorSuperAdmin) }
    componentType

def migrationSet (wire : Wire) (id : UInt16) (metadata : Proto.ComponentMetadata)
    (registry : ComponentRegistry) : Except MigrationError ComponentRegistry :=
  (registry.set wire id metadata).mapError .registry

def superAdminPermissions : Proto.ComponentPermissions where
  insertPolicy := some (metadataPolicy .allowIfActorSuperAdmin)
  updatePolicy := some (metadataPolicy .allowIfActorSuperAdmin)
  deletePolicy := some (metadataPolicy .allowIfActorSuperAdmin)

def immutablePermissions : Proto.ComponentPermissions where
  insertPolicy := some (metadataPolicy .allowIfActorSuperAdmin)
  updatePolicy := some (metadataPolicy .deny)
  deletePolicy := some (metadataPolicy .deny)

def buildRegistry (wire : Wire) (policySet : Proto.PolicySet)
    (includeDmMembers includeOneshotMessage : Bool) :
    Except MigrationError ComponentRegistry := do
  let addMember ← okOr policySet.addMemberPolicy (.missingPolicyField "add_member_policy")
  let removeMember ← okOr policySet.removeMemberPolicy (.missingPolicyField "remove_member_policy")
  let addAdmin ← okOr policySet.addAdminPolicy (.missingPolicyField "add_admin_policy")
  let removeAdmin ← okOr policySet.removeAdminPolicy (.missingPolicyField "remove_admin_policy")
  let updatePermissions ←
    okOr policySet.updatePermissionsPolicy (.missingPolicyField "update_permissions_policy")
  validateUpdatePermissionsIsSuperAdmin updatePermissions
  rejectUnknownMetadataFields policySet
  let registry ← metadataFieldRegistryMapping.foldlM
    (fun registry (field, id, componentType) =>
      migrationSet wire id (fieldMetadata policySet field componentType) registry)
    ComponentRegistry.new
  -- the legacy rule of this field is implicit: its name starts with an underscore
  let registry ← migrationSet wire ComponentId.commitLogSigner
    (newComponentMetadata superAdminPermissions .bytes) registry
  let adminPolicy ← adminListPolicyToMetadataPolicy addAdmin
  let removeAdminPolicy ← adminListPolicyToMetadataPolicy removeAdmin
  let registry ← migrationSet wire ComponentId.adminList
    (newComponentMetadata ⟨some adminPolicy, some adminPolicy, some removeAdminPolicy⟩
      .tlsSetInboxId) registry
  let insertPolicy ← membershipPolicyToMetadataPolicy addMember
  let deletePolicy ← membershipPolicyToMetadataPolicy removeMember
  let registry ← migrationSet wire ComponentId.groupMembership
    (newComponentMetadata ⟨some insertPolicy, some (metadataPolicy .allow), some deletePolicy⟩
      .tlsMapInboxIdBytes) registry
  let registry ← migrationSet wire ComponentId.conversationType
    (newComponentMetadata immutablePermissions .bytes) registry
  let registry ← migrationSet wire ComponentId.creatorInboxId
    (newComponentMetadata immutablePermissions .bytes) registry
  let registry ← if includeOneshotMessage then
      migrationSet wire ComponentId.oneshotMessage
        (newComponentMetadata immutablePermissions .bytes) registry
    else .ok registry
  if includeDmMembers then
    migrationSet wire ComponentId.dmMembers
      (newComponentMetadata immutablePermissions .tlsSetInboxId) registry
  else .ok registry

def synthesizeRegistryFromPolicySet (wire : Wire) (policySet : Proto.PolicySet) :
    Except MigrationError ComponentRegistry := buildRegistry wire policySet true true

end LibXmtp.AppData
