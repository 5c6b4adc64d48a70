import LibXmtp.AppData.GroupMembershipDict
import LibXmtp.AppData.Migration
import LibXmtp.Data.ParseInt
import LibXmtp.Data.TlsMapSeeds

/-! The commit that migrates a group: the values its sender seeds the dictionary with, and their
validation by a receiver against its own copy of the legacy state. -/

namespace LibXmtp.Groups

open LibXmtp.Data

namespace Proto

structure ReaddRequest where
  groupId : Bytes
  latestCommitSequenceId : UInt64

structure OneshotMessage where
  messageType : Option ReaddRequest

mutual

def Policy.eq : Policy → Policy → Bool
  | .unset, .unset => true
  | .base a, .base b => a == b
  | .andCondition as, .andCondition bs => Policy.eqAll as bs
  | .anyCondition as, .anyCondition bs => Policy.eqAll as bs
  | _, _ => false

def Policy.eqAll : List Policy → List Policy → Bool
  | [], [] => true
  | a :: as, b :: bs => Policy.eq a b && Policy.eqAll as bs
  | _, _ => false

end

mutual

theorem Policy.eq_self : (policy : Policy) → policy.eq policy = true
  | .unset => rfl
  | .base _ => by simp [Policy.eq]
  | .andCondition policies => by rw [Policy.eq, Policy.eqAll_self policies]
  | .anyCondition policies => by rw [Policy.eq, Policy.eqAll_self policies]

theorem Policy.eqAll_self : (policies : List Policy) → Policy.eqAll policies policies = true
  | [] => rfl
  | policy :: policies => by
    rw [Policy.eqAll, Policy.eq_self policy, Policy.eqAll_self policies, Bool.and_self]

end

mutual

theorem Policy.eq_of_eq : (policy policy' : Policy) → policy.eq policy' = true → policy = policy'
  | .unset, .unset, _ => rfl
  | .base a, .base b, h => by
    rw [Policy.eq, beq_iff_eq] at h
    rw [h]
  | .andCondition as, .andCondition bs, h => by
    rw [Policy.eq] at h
    rw [Policy.eq_of_eqAll as bs h]
  | .anyCondition as, .anyCondition bs, h => by
    rw [Policy.eq] at h
    rw [Policy.eq_of_eqAll as bs h]
  | .unset, .base _, h | .unset, .andCondition _, h | .unset, .anyCondition _, h
  | .base _, .unset, h | .base _, .andCondition _, h | .base _, .anyCondition _, h
  | .andCondition _, .unset, h | .andCondition _, .base _, h | .andCondition _, .anyCondition _, h
  | .anyCondition _, .unset, h | .anyCondition _, .base _, h
  | .anyCondition _, .andCondition _, h => by simp [Policy.eq] at h

theorem Policy.eq_of_eqAll :
    (policies policies' : List Policy) → Policy.eqAll policies policies' = true → policies = policies'
  | [], [], _ => rfl
  | a :: as, b :: bs, h => by
    rw [Policy.eqAll, Bool.and_eq_true] at h
    rw [Policy.eq_of_eq a b h.1, Policy.eq_of_eqAll as bs h.2]
  | [], _ :: _, h | _ :: _, [], h => by simp [Policy.eqAll] at h

end

end Proto

def ConversationType.toProto : ConversationType → Int32
  | .group => 1
  | .dm => 2
  | .sync => 3
  | .oneshot => 4

inductive AppDataUpdateOperationType
  | update
  | remove
  deriving DecidableEq

/-- The immutable metadata, with the message that the validation of commits does not read. -/
structure LegacyGroupMetadata extends GroupMetadata where
  oneshotMessage : Option Proto.OneshotMessage

end LibXmtp.Groups

namespace LibXmtp.AppData

open LibXmtp.Data LibXmtp.Groups
open LibXmtp.Mls (ClientError)

structure BootstrapHost extends Host, MembershipWire where
  codec : GroupCodec
  oneshotMessage : Bytes → Option Groups.Proto.OneshotMessage
  encodeOneshotMessage : Groups.Proto.OneshotMessage → Bytes
  encodeGroupMembershipEntry : Groups.Proto.GroupMembershipEntryV1 → Bytes

structure MembersOrder where
  iterate : HashMap String UInt64 → List (String × UInt64)
  iterate_perm : ∀ members, (iterate members).Perm members.entries

structure CanonicalBootstrapExpectation where
  strict : TlsMap UInt16 (AppDataUpdateOperationType × Bytes)
  expectedRegistry : TlsMap UInt16 Proto.ComponentMetadata
  membershipSequenceIds : TlsMap InboxId UInt64
  allowedFailedInstallations : Finset Bytes

section Canonical

variable (host : BootstrapHost)

section Encode

def parseDisappearingI64 (field legacyValue : String) : Except MigrationError Bytes := do
  let n ← (parseI64 legacyValue).mapError fun kind =>
    .invalidDisappearingTimestamp field legacyValue kind.display
  return toBigEndian 8 n.toUInt64.toNat

def encodeMetadataAttributeValue (id : UInt16) (legacyValue : String) :
    Except MigrationError Bytes :=
  if id = ComponentId.messageDisappearFromNs then
    parseDisappearingI64 "messageDisappearFromNS" legacyValue
  else if id = ComponentId.messageDisappearInNs then
    parseDisappearingI64 "messageDisappearInNS" legacyValue
  else .ok legacyValue.toUTF8.data.toList

def decodeCommitLogSigner (text : String) : Except MigrationError Bytes := do
  let raw ← okOr (host.hex.decode text) .invalidCommitLogSignerHex
  rejectIf (raw.length ≠ ed25519KeyLength)
    (.invalidCommitLogSignerLength ed25519KeyLength raw.length)
  return raw

def inboxIdFromHex (text : String) : Except MigrationError InboxId :=
  (InboxId.fromHex host.hex text).mapError .invalidInboxId

def encodeInboxIdDelta (ids : TlsSet InboxId) : Except MigrationError Bytes :=
  ((TlsSetDelta.codec host.vlen (InboxId.codec host.vlen)).serialize ids.seed).mapError .tlsCodec

def encodeInboxIdSet (inboxIdsHex : List String) : Except MigrationError Bytes := do
  let ids ← inboxIdsHex.mapM (inboxIdFromHex host)
  encodeInboxIdDelta host (TlsSet.ofList ids)

def encodeDmMembers (dm : DmMembers) : Except MigrationError Bytes := do
  let one ← inboxIdFromHex host dm.memberOneInboxId
  let two ← inboxIdFromHex host dm.memberTwoInboxId
  rejectIf (one = two) (.dmMembersSelfReference
    (one.toHex host.hex ++
      s!" (member_one={dm.memberOneInboxId}, member_two={dm.memberTwoInboxId})"))
  encodeInboxIdDelta host (TlsSet.ofList [one, two])

def encodeConversationType (value : Int32) : Bytes := toBigEndian 4 value.toUInt32.toNat

def encodeCreatorInboxId (creatorInboxId : String) : Except MigrationError Bytes := do
  let id ← inboxIdFromHex host creatorInboxId
  ((InboxId.codec host.vlen).serialize id).mapError .tlsCodec

def encodeGroupMembershipDelta
    (entries : TlsMap InboxId Groups.Proto.GroupMembershipEntryV1) : Except MigrationError Bytes :=
  ((TlsMapDelta.codec host.vlen (InboxId.codec host.vlen) host.vlen.bytes).serialize
    (entries.mapValues host.encodeGroupMembershipEntry).seed).mapError .tlsCodec

end Encode

section Legacy

variable (extensions : Extensions)

def legacyMutableMetadata : Except GroupMutableMetadataError GroupMutableMetadata := do
  let bytes ← okOr (extensions.findUnknownExtension mutableMetadataExtensionId) .missingExtension
  let proto ← okOr (host.codec.decodeGroupMutableMetadata bytes) .deserialization
  GroupMutableMetadata.tryFrom proto

def legacyGroupMetadata : Except GroupMetadataError LegacyGroupMetadata := do
  let data ← okOr extensions.immutableMetadata .missingExtension
  let proto ← okOr (host.codec.decodeGroupMetadata data) .deserialization
  let metadata ← GroupMetadata.tryFrom proto
  return ⟨metadata, host.oneshotMessage data⟩

def legacyPolicySet : Except MigrationError Proto.PolicySet := do
  let bytes ← okOr (extensions.findUnknownExtension groupPermissionsExtensionId)
    (.missingPolicyField "group_permissions extension")
  let permissions ← okOr (host.codec.decodeGroupMutablePermissions bytes) .groupPermissionsDecode
  okOr permissions.policies (.missingPolicyField "policies")

def synthesizeRegistryFromExtensions : Except MigrationError ComponentRegistry := do
  let policySet ← legacyPolicySet host extensions
  let metadata ← (legacyGroupMetadata host extensions).mapError .groupMetadataDecode
  buildRegistry host.toWire policySet metadata.dmMembers.isSome metadata.oneshotMessage.isSome

def extractLegacyGroupMembership : Except MigrationError Groups.Proto.GroupMembership := do
  let bytes ← okOr (extensions.findUnknownExtension groupMembershipExtensionId)
    .missingGroupMembershipExtension
  okOr (host.codec.decodeGroupMembership bytes) .groupMembershipDecode

end Legacy

/-- The components that are compared byte by byte, in the order they are encoded in. A component
the group does without has no bytes. -/
def strictSeeds (gmm : GroupMutableMetadata) (metadata : LegacyGroupMetadata) :
    List (UInt16 × Except MigrationError (Option Bytes)) :=
  metadataFieldRegistryMapping.map (fun (field, id, _) =>
    (id, (gmm.attributes.get field.asStr).mapM (encodeMetadataAttributeValue id))) ++
  [(ComponentId.commitLogSigner, (gmm.attributes.get MetadataField.commitLogSigner.asStr).mapM
      (decodeCommitLogSigner host)),
    (ComponentId.adminList, some <$> encodeInboxIdSet host gmm.adminList),
    (ComponentId.superAdminList, some <$> encodeInboxIdSet host gmm.superAdminList),
    (ComponentId.conversationType,
      .ok (some (encodeConversationType metadata.conversationType.toProto))),
    (ComponentId.creatorInboxId, some <$> encodeCreatorInboxId host metadata.creatorInboxId),
    (ComponentId.dmMembers, metadata.dmMembers.mapM (encodeDmMembers host)),
    (ComponentId.oneshotMessage, .ok (metadata.oneshotMessage.map host.encodeOneshotMessage))]

def insertSeed (strict : TlsMap UInt16 (AppDataUpdateOperationType × Bytes))
    (seed : UInt16 × Except MigrationError (Option Bytes)) :
    Except MigrationError (TlsMap UInt16 (AppDataUpdateOperationType × Bytes)) := do
  let (id, value) := seed
  match ← value with
  | some bytes => return strict.set id (.update, bytes)
  | none => return strict

def sequenceIdEntry (member : String × UInt64) : Except MigrationError (InboxId × UInt64) := do
  let id ← inboxIdFromHex host member.1
  return (id, member.2)

def installationKey (raw : Bytes) : Except MigrationError Bytes := do
  rejectIf (raw.length ≠ 32) (.invalidFailedInstallationLength raw.length)
  return raw

def synthesizeCanonicalSubsetFromExtensions (order : MembersOrder) (extensions : Extensions) :
    Except MigrationError CanonicalBootstrapExpectation := do
  let gmm ← (legacyMutableMetadata host extensions).mapError .mutableMetadataDecode
  let registry ← synthesizeRegistryFromExtensions host extensions
  let legacyMembership ← extractLegacyGroupMembership host extensions
  let legacyMetadata ← (legacyGroupMetadata host extensions).mapError .groupMetadataDecode
  let strict ← (strictSeeds host gmm legacyMetadata).foldlM insertSeed TlsMap.new
  -- two spellings of one inbox id leave the sequence id of the one that comes last
  let sequenceIds ← (order.iterate legacyMembership.members).mapM (sequenceIdEntry host)
  let allowed ← legacyMembership.failedInstallations.mapM installationKey
  return {
    strict
    expectedRegistry := TlsMap.ofPairs (registry.iter host.toWire)
    membershipSequenceIds := TlsMap.ofPairs sequenceIds
    allowedFailedInstallations := allowed.toFinset }

end Canonical

inductive BootstrapSynthesisError
  | common (error : MigrationError)
  | identityUpdateLookup (inboxId : String) (source : ClientError)
  | legacyMembershipDecode
  | registryReEncode (error : ComponentRegistryError)
  | sequenceIdOverflow (inboxId : String) (sequenceId : UInt64)
  | tlsCodec (error : TlsCodecError)

/-- The installations of an inbox, as its association state up to a sequence id has them. -/
abbrev InstallationLookup := String → Int64 → Except ClientError (List Bytes)

section Sender

variable (host : BootstrapHost)

def insertOwners (lookup : InstallationLookup) (owners : HashMap Bytes InboxId)
    (member : InboxId × UInt64) : Except BootstrapSynthesisError (HashMap Bytes InboxId) := do
  let (inboxId, sequenceId) := member
  let inboxIdHex := inboxId.toHex host.hex
  rejectIf (2 ^ 63 ≤ sequenceId.toNat) (.sequenceIdOverflow inboxIdHex sequenceId)
  let installationIds ← (lookup inboxIdHex sequenceId.toInt64).mapError
    (.identityUpdateLookup inboxIdHex)
  return installationIds.foldl (fun owners installationId => owners.insert installationId inboxId)
    owners

def bucketFailed (owners : HashMap Bytes InboxId) (failed : TlsMap InboxId (List Bytes))
    (installation : Bytes) : TlsMap InboxId (List Bytes) :=
  match owners.get installation with
  | some owner => failed.set owner ((failed.get owner).getD [] ++ [installation])
  | none => failed

def partitionedEntry (failed : TlsMap InboxId (List Bytes)) (member : InboxId × UInt64) :
    InboxId × Groups.Proto.GroupMembershipEntryV1 :=
  (member.1, ⟨member.2, (failed.get member.1).getD []⟩)

def buildPartitionedGroupMembership (lookup : InstallationLookup) (extensions : Extensions)
    (sequenceIds : TlsMap InboxId UInt64) : Except BootstrapSynthesisError Bytes := do
  let legacyBytes ← okOr (extensions.findUnknownExtension groupMembershipExtensionId)
    (.common .missingGroupMembershipExtension)
  let legacy ← okOr (host.codec.decodeGroupMembership legacyBytes) .legacyMembershipDecode
  let owners ← sequenceIds.iter.foldlM (insertOwners host lookup) HashMap.empty
  let failed := legacy.failedInstallations.foldl (bucketFailed owners) TlsMap.new
  let entries := TlsMap.ofPairs (sequenceIds.iter.map (partitionedEntry failed))
  (encodeGroupMembershipDelta host entries).mapError .common

def reEncodeEntry (registry : ComponentRegistry) (entry : UInt16 × Proto.ComponentMetadata) :
    Except ComponentRegistryError ComponentRegistry :=
  registry.set host.toWire entry.1 entry.2

def synthesizeInitialComponentValuesFromExtensions (order : MembersOrder)
    (lookup : InstallationLookup) (extensions : Extensions) :
    Except BootstrapSynthesisError (TlsMap UInt16 Bytes) := do
  let canonical ←
    (synthesizeCanonicalSubsetFromExtensions host order extensions).mapError .common
  let out := canonical.strict.mapValues Prod.snd
  -- the entries are only checked by setting them: the payload is built from the metadata
  let _ ← (canonical.expectedRegistry.iter.foldlM (reEncodeEntry host)
    ComponentRegistry.new).mapError .registryReEncode
  let registryDelta := (canonical.expectedRegistry.mapValues host.encodeMetadata).seed
  let registryBytes ← ((TlsMapDelta.codec host.vlen (componentIdCodec host.vlen)
    host.vlen.bytes).serialize registryDelta).mapError .tlsCodec
  let membershipBytes ← buildPartitionedGroupMembership host lookup extensions
    canonical.membershipSequenceIds
  return (out.set ComponentId.componentRegistry registryBytes).set ComponentId.groupMembership
    membershipBytes

end Sender

inductive BootstrapValidationError
  | protocolVersionTooLow (minVersion : String)
  | missingSeed (id : UInt16)
  | mismatch (id : UInt16)
  | unexpectedProposal (id : UInt16)
  | duplicateProposal (id : UInt16)
  | extraMember (inboxId : Bytes)
  | missingMember (inboxId : Bytes)
  | sequenceIdMismatch (inboxId : Bytes) (expected actual : UInt64)
  | gceMismatch (reason : String)
  | payloadDecode (id : UInt16) (reason : String)
  | proposerNotSuperAdmin
  | registryEntryMismatch (id : UInt16)
  | unauthorizedFailedInstallation (installation : Bytes)
  | synthesis (error : MigrationError)
  | disallowedProposalType (name : String)

def Proto.ComponentPermissions.eq (a b : Proto.ComponentPermissions) : Bool :=
  policyEq a.insertPolicy b.insertPolicy && policyEq a.updatePolicy b.updatePolicy &&
    policyEq a.deletePolicy b.deletePolicy
where
  policyEq : Option Proto.Policy → Option Proto.Policy → Bool
    | some a, some b => a.eq b
    | none, none => true
    | _, _ => false

def Proto.ComponentMetadata.eq (a b : Proto.ComponentMetadata) : Bool :=
  a.componentType == b.componentType &&
    match a.permissions, b.permissions with
    | some a, some b => a.eq b
    | none, none => true
    | _, _ => false

section Receiver

variable (host : BootstrapHost)

def operationType : AppDataUpdateOperation → AppDataUpdateOperationType × Bytes
  | .update payload => (.update, payload)
  | .remove => (.remove, [])

def collectAppDataUpdates (commit : StagedCommit) :
    Except BootstrapValidationError (TlsMap UInt16 (AppDataUpdateOperationType × Bytes)) :=
  (appDataUpdateProposals commit).foldlM (fun out (id, operation) =>
    (out.insert id (operationType operation)).mapError fun _ => .duplicateProposal id) TlsMap.new

def registryDecodeError (reason : String) : BootstrapValidationError :=
  .payloadDecode ComponentId.componentRegistry reason

def registryMutation :
    TlsMapMutation UInt16 Bytes → Except BootstrapValidationError (UInt16 × Bytes)
  | .insert key value => .ok (key, value)
  | _ => .error (registryDecodeError
      "COMPONENT_REGISTRY bootstrap delta carried a non-Insert mutation")

def collectRegistryEntry (entries : TlsMap UInt16 Proto.ComponentMetadata)
    (mutation : TlsMapMutation UInt16 Bytes) :
    Except BootstrapValidationError (TlsMap UInt16 Proto.ComponentMetadata) := do
  let (id, raw) ← registryMutation mutation
  (ComponentRegistry.validateEntry host.toWire id raw).mapError fun e =>
    registryDecodeError s!"ComponentRegistry entry validate: {e.display}"
  let metadata ← (host.decodeMetadata raw).mapError fun e =>
    registryDecodeError s!"ComponentMetadata decode for {displayId id}: {e}"
  (entries.insert id metadata).mapError fun _ => registryDecodeError
    s!"COMPONENT_REGISTRY bootstrap delta has duplicate Insert for {displayId id}"

def compareRegistryEntry (actual : TlsMap UInt16 Proto.ComponentMetadata)
    (expected : UInt16 × Proto.ComponentMetadata) : Except BootstrapValidationError Unit := do
  let metadata ← okOr (actual.get expected.1) (.registryEntryMismatch expected.1)
  rejectIf (!metadata.eq expected.2) (.registryEntryMismatch expected.1)

def validateComponentRegistryPayload
    (actual : Option (AppDataUpdateOperationType × Bytes))
    (expectedRegistry : TlsMap UInt16 Proto.ComponentMetadata) :
    Except BootstrapValidationError Unit :=
  match actual with
  | none => rejectIf (!expectedRegistry.isEmpty) (.missingSeed ComponentId.componentRegistry)
  | some (op, bytes) => do
    rejectIf (op ≠ .update) (.mismatch ComponentId.componentRegistry)
    let delta ← ((TlsMapDelta.codec host.vlen (componentIdCodec host.vlen)
      host.vlen.bytes).deserializeExact bytes).mapError fun e =>
        registryDecodeError s!"TlsMapDelta decode: {e.text}"
    let actualEntries ← delta.mutations.foldlM (collectRegistryEntry host) TlsMap.new
    expectedRegistry.iter.forM (compareRegistryEntry actualEntries)
    actualEntries.keys.forM fun id =>
      rejectIf (!expectedRegistry.containsKey id) (.registryEntryMismatch id)
    rejectIf (actualEntries.len ≠ expectedRegistry.len) (registryDecodeError
      (s!"COMPONENT_REGISTRY entry cardinality mismatch: payload has {actualEntries.len} entries, " ++
        s!"expected {expectedRegistry.len}"))

def membershipDecodeError (reason : String) : BootstrapValidationError :=
  .payloadDecode ComponentId.groupMembership reason

def membershipMutation :
    TlsMapMutation InboxId Bytes → Except BootstrapValidationError (InboxId × Bytes)
  | .insert key value => .ok (key, value)
  | _ => .error (membershipDecodeError
      "GROUP_MEMBERSHIP bootstrap delta carried a non-Insert mutation")

def checkFailedInstallation (inboxId : InboxId) (allowed : Finset Bytes) (installation : Bytes) :
    Except BootstrapValidationError Unit := do
  rejectIf (installation.length ≠ 32) (membershipDecodeError
    (s!"failed_installation for inbox {inboxId.toHex host.hex} is {installation.length} bytes, " ++
      "expected 32"))
  rejectIf (installation ∉ allowed) (.unauthorizedFailedInstallation installation)

def checkMember (expectedSequenceIds : TlsMap InboxId UInt64) (allowed : Finset Bytes)
    (seen : TlsMap InboxId Unit) (mutation : TlsMapMutation InboxId Bytes) :
    Except BootstrapValidationError (TlsMap InboxId Unit) := do
  let (inboxId, rawEntry) ← membershipMutation mutation
  let seen ← (seen.insert inboxId ()).mapError fun _ => membershipDecodeError
    s!"GROUP_MEMBERSHIP bootstrap delta has duplicate Insert for inbox {inboxId.toHex host.hex}"
  let expected ← okOr (expectedSequenceIds.get inboxId) (.extraMember inboxId.bytes)
  let envelope ← okOr (host.decodeGroupMembershipEntry rawEntry) (membershipDecodeError
    s!"GroupMembershipEntry decode for inbox {inboxId.toHex host.hex}")
  let entry ← okOr envelope (membershipDecodeError
    s!"GroupMembershipEntry envelope for inbox {inboxId.toHex host.hex} has unknown version")
  rejectIf (entry.sequenceId ≠ expected)
    (.sequenceIdMismatch inboxId.bytes expected entry.sequenceId)
  entry.failedInstallations.forM (checkFailedInstallation host inboxId allowed)
  return seen

def validateGroupMembershipPayload
    (actual : Option (AppDataUpdateOperationType × Bytes))
    (expectedSequenceIds : TlsMap InboxId UInt64) (allowed : Finset Bytes) :
    Except BootstrapValidationError Unit :=
  match actual with
  | none =>
    match expectedSequenceIds.keys with
    | missing :: _ => .error (.missingMember missing.bytes)
    | [] => .ok ()
  | some (op, bytes) => do
    rejectIf (op ≠ .update) (.mismatch ComponentId.groupMembership)
    let delta ← ((TlsMapDelta.codec host.vlen (InboxId.codec host.vlen)
      host.vlen.bytes).deserializeExact bytes).mapError fun e =>
        membershipDecodeError s!"TlsMapDelta decode: {e.text}"
    let seen ← delta.mutations.foldlM (checkMember host expectedSequenceIds allowed) TlsMap.new
    expectedSequenceIds.keys.forM fun inboxId =>
      rejectIf (!seen.containsKey inboxId) (.missingMember inboxId.bytes)

def compareStrict (actual : TlsMap UInt16 (AppDataUpdateOperationType × Bytes))
    (expected : UInt16 × AppDataUpdateOperationType × Bytes) :
    Except BootstrapValidationError Unit := do
  let found ← okOr (actual.get expected.1) (.missingSeed expected.1)
  rejectIf (found ≠ expected.2) (.mismatch expected.1)

def validateAgainstCanonicalSubset (expected : CanonicalBootstrapExpectation)
    (actual : TlsMap UInt16 (AppDataUpdateOperationType × Bytes)) :
    Except BootstrapValidationError Unit := do
  expected.strict.iter.forM (compareStrict actual)
  actual.keys.forM fun id =>
    rejectIf (id ≠ ComponentId.groupMembership && id ≠ ComponentId.componentRegistry &&
      !expected.strict.containsKey id) (.unexpectedProposal id)
  validateComponentRegistryPayload host (actual.get ComponentId.componentRegistry)
    expected.expectedRegistry
  validateGroupMembershipPayload host (actual.get ComponentId.groupMembership)
    expected.membershipSequenceIds expected.allowedFailedInstallations

end Receiver

end LibXmtp.AppData
