import LibXmtp.Groups.Permissions
import LibXmtp.Mls.InstallationDiff

namespace LibXmtp.Groups

open LibXmtp.Data LibXmtp.Associations LibXmtp.Db LibXmtp.Mls
open Associations.Proto (ConversionError)

structure Proto.GroupMembership where
  members : HashMap String UInt64
  failedInstallations : List Bytes

/-- What is used of the `semver` crate: versions are parsed from text, and compared. -/
structure Semver (Version : Type) where
  parse : String → Option Version
  lt : Version → Version → Bool

/-- `prost`'s decoding of the messages a group context and the credentials hold. -/
structure GroupCodec where
  decodeInboxId : Bytes → Option String
  decodeGroupMetadata : Bytes → Option Proto.GroupMetadataV1
  decodeGroupMutableMetadata : Bytes → Option Proto.GroupMutableMetadataV1
  decodeGroupMutablePermissions : Bytes → Option Proto.GroupMutablePermissionsV1
  decodeGroupMembership : Bytes → Option Proto.GroupMembership

inductive CommitValidationError
  | inboxValidationFailed (inboxId : String)
  | insufficientPermissions
  | invalidVersionFormat (version : String)
  | protocolVersionTooLow (version : String)
  | actorNotMember
  | subjectDoesNotExist
  | missingGroupMembership
  | missingMutableMetadata
  | unexpectedInstallationAdded (installations : Finset Bytes)
  | sequenceIdDecreased
  | unexpectedInstallationsRemoved (installations : Finset Bytes)
  | groupMetadata (error : GroupMetadataError)
  | mlsCredential
  | groupMutableMetadata (error : GroupMutableMetadataError)
  | protoDecode
  | installationDiff (error : ClientError)
  | groupMutablePermissions (error : GroupMutablePermissionsError)
  | noPSKSupport
  | unsupportedProposalType (proposalType : ProposalType)
  | tooManyCharacters (length : Nat)
  | proposerNotFound
  | minVersionDowngrade (requested current : String)
  | minVersionRemoveOnExistingFloor (current : String)
  | componentSource (error : GroupMutableMetadataError)
  | bootstrap (reason : String)
  | conversion (error : ConversionError)

/-- The reads of the AppData dictionary a migrated group keeps its state in, and the checks of the
updates to it. The validation of a commit only passes their results on. -/
structure AppData (Registry : Type) where
  loadComponentRegistry : Extensions → Except GroupMutableMetadataError Registry
  readGroupMetadataFromDict :
    Extensions → Except GroupMutableMetadataError (Option Proto.GroupMetadataV1)
  mergeAppDataIntoMutableMetadata :
    GroupMutableMetadata → Extensions → Except GroupMutableMetadataError GroupMutableMetadata
  readGroupMembershipFromDict :
    Extensions → Except GroupMutableMetadataError (Option Proto.GroupMembership)
  membershipPolicySetFromRegistry :
    Extensions → Except GroupMutableMetadataError GroupMutablePermissions
  readPostCommitComponentBytes : UInt16 → Extensions → StagedCommit → Registry →
    Except GroupMutableMetadataError (Option Bytes)
  validateOneAppDataUpdate : UInt16 → AppDataUpdateOperation → CommitParticipant → Registry →
    Extensions → Except CommitValidationError Unit
  validateBootstrapCommit :
    StagedCommit → OpenMlsGroup → CommitParticipant → Except CommitValidationError Unit

structure Context (Key Version Registry : Type) where
  env : Env Key
  api : ApiClient
  codec : GroupCodec
  semver : Semver Version
  pkgSemver : Version
  appData : AppData Registry

def utf8 (bytes : Bytes) : Option String := String.fromUTF8? ⟨bytes.toArray⟩

def isPskProposal : Proposal → Bool
  | .preSharedKey => true
  | _ => false

def rejectPskProposals (commit : StagedCommit) : Except CommitValidationError Unit :=
  rejectIf (commit.queuedProposals.any fun queued => isPskProposal queued.proposal) .noPSKSupport

def OpenMlsGroup.installations (group : OpenMlsGroup) : Finset Bytes :=
  (group.members.map fun member => member.leafNode.signatureKey).toFinset

section

variable {Key Version Registry : Type} (ctx : Context Key Version Registry)

section Extensions

variable (extensions : Extensions)

def committedFloorExceeding : Option String := do
  let dictionary ← extensions.appDataDictionary
  let bytes ← dictionary.get ComponentId.minSupportedProtocolVersion
  let floor ← utf8 bytes
  let floorVersion ← ctx.semver.parse floor
  if ctx.semver.lt ctx.pkgSemver floorVersion then some floor else none

def extractGroupMetadata : Except CommitValidationError GroupMetadata :=
  if extensions.isMigrated then do
    let seed ← (ctx.appData.readGroupMetadataFromDict extensions).mapError .groupMutableMetadata
    let proto ← okOr seed (.groupMetadata .missingExtension)
    (GroupMetadata.tryFrom proto).mapError .groupMetadata
  else do
    let data ← okOr extensions.immutableMetadata (.groupMetadata .missingExtension)
    let proto ← okOr (ctx.codec.decodeGroupMetadata data) (.groupMetadata .deserialization)
    (GroupMetadata.tryFrom proto).mapError .groupMetadata

def decodeGroupMutableMetadata (bytes : Bytes) :
    Except CommitValidationError GroupMutableMetadata := do
  let proto ← okOr (ctx.codec.decodeGroupMutableMetadata bytes)
    (.groupMutableMetadata .deserialization)
  (GroupMutableMetadata.tryFrom proto).mapError .groupMutableMetadata

def findMutableMetadataExtension : Option Bytes :=
  extensions.findUnknownExtension mutableMetadataExtensionId

def extractGroupMutableMetadata : Except CommitValidationError GroupMutableMetadata :=
  if extensions.isMigrated then
    (ctx.appData.mergeAppDataIntoMutableMetadata ⟨.empty, [], []⟩ extensions).mapError
      .groupMutableMetadata
  else do
    let bytes ← okOr (findMutableMetadataExtension extensions)
      (.groupMutableMetadata .missingExtension)
    decodeGroupMutableMetadata ctx bytes

def decodeGroupMutablePermissions : Except GroupMutablePermissionsError GroupMutablePermissions := do
  let bytes ← okOr (extensions.findUnknownExtension groupPermissionsExtensionId) .missingExtension
  let proto ← okOr (ctx.codec.decodeGroupMutablePermissions bytes) .deserialization
  GroupMutablePermissions.fromProto proto

def extractGroupPermissions : Except CommitValidationError GroupMutablePermissions :=
  if extensions.isMigrated then
    (ctx.appData.membershipPolicySetFromRegistry extensions).mapError .componentSource
  else (decodeGroupMutablePermissions ctx extensions).mapError .groupMutablePermissions

def extractGroupMembership : Except CommitValidationError GroupMembership := do
  let fromDict ←
    if extensions.isMigrated then
      (ctx.appData.readGroupMembershipFromDict extensions).mapError .groupMutableMetadata
    else pure none
  match fromDict with
  | some proto => return ⟨proto.members, proto.failedInstallations⟩
  | none => do
    let bytes ← okOr (extensions.findUnknownExtension groupMembershipExtensionId)
      .missingGroupMembership
    let proto ← okOr (ctx.codec.decodeGroupMembership bytes) .protoDecode
    return ⟨proto.members, proto.failedInstallations⟩

end Extensions

/-- The group context extensions of the first proposal that replaces them, else those the commit
leads to. -/
def getLatestGroupMembership (commit : StagedCommit) : Except CommitValidationError GroupMembership :=
  let proposed := commit.queuedProposals.findSome? fun queued =>
    match queued.proposal with
    | .groupContextExtensions extensions => some extensions
    | _ => none
  extractGroupMembership ctx (proposed.getD commit.groupContextExtensions)

def extractMetadataChanges (immutableMetadata : GroupMetadata)
    (oldMutableMetadata : GroupMutableMetadata) (oldGroupExtensions newGroupExtensions : Extensions) :
    Except CommitValidationError MutableMetadataValidationInfo := do
  let oldExt ← okOr (findMutableMetadataExtension oldGroupExtensions) .missingMutableMetadata
  let newExt ← okOr (findMutableMetadataExtension newGroupExtensions) .missingMutableMetadata
  let versionField := MetadataField.minimumSupportedProtocolVersion.asStr
  if oldExt = newExt then
    return { minimumSupportedProtocolVersion := oldMutableMetadata.attributes.get versionField }
  else do
    let newMutableMetadata ← decodeGroupMutableMetadata ctx newExt
    return {
      metadataFieldChanges := mutableMetadataFieldChanges oldMutableMetadata newMutableMetadata
      adminsAdded := getAddedMembers immutableMetadata oldMutableMetadata
        oldMutableMetadata.adminList newMutableMetadata.adminList
      adminsRemoved := getRemovedMembers immutableMetadata oldMutableMetadata
        oldMutableMetadata.adminList newMutableMetadata.adminList
      superAdminsAdded := getAddedMembers immutableMetadata oldMutableMetadata
        oldMutableMetadata.superAdminList newMutableMetadata.superAdminList
      superAdminsRemoved := getRemovedMembers immutableMetadata oldMutableMetadata
        oldMutableMetadata.superAdminList newMutableMetadata.superAdminList
      numSuperAdmins := .ofNat newMutableMetadata.superAdminList.length
      minimumSupportedProtocolVersion := newMutableMetadata.attributes.get versionField }

def extractPermissionsChanged (oldGroupPermissions : GroupMutablePermissions)
    (newGroupExtensions : Extensions) : Except CommitValidationError Bool := do
  let newGroupPermissions ←
    (decodeGroupMutablePermissions ctx newGroupExtensions).mapError .groupMutablePermissions
  return !oldGroupPermissions.policies.eq newGroupPermissions.policies

def maxLength (fieldName : String) : Option Nat :=
  if fieldName = MetadataField.description.asStr then some 1000
  else if fieldName = MetadataField.groupName.asStr then some 100
  else if fieldName = MetadataField.groupImageUrlSquare.asStr then some 2048
  else if fieldName = MetadataField.appData.asStr then some 8192
  else none

def checkCharacterLimit (change : MetadataFieldChange) : Except CommitValidationError Unit :=
  match change.newValue, maxLength change.fieldName with
  | some newValue, some length =>
    rejectIf (newValue.utf8ByteSize > length) (.tooManyCharacters length)
  | _, _ => .ok ()

def inboxIdFromCredential : Credential → Except CommitValidationError String
  | .basic identity => okOr (ctx.codec.decodeInboxId identity) .protoDecode
  | .other => .error .mlsCredential

section Participants

variable (group : OpenMlsGroup) (immutableMetadata : GroupMetadata)
  (mutableMetadata : GroupMutableMetadata)

def CommitParticipant.fromLeafNode (leafNode : LeafNode) :
    Except CommitValidationError CommitParticipant := do
  let inboxId ← inboxIdFromCredential ctx leafNode.credential
  return .build inboxId leafNode.signatureKey immutableMetadata mutableMetadata

def extractCommitParticipant (leafIndex : LeafNodeIndex) :
    Except CommitValidationError CommitParticipant := do
  let leafNode ← okOr (group.memberAt leafIndex) .actorNotMember
  CommitParticipant.fromLeafNode ctx immutableMetadata mutableMetadata leafNode

def proposerLeaf : Sender → Except CommitValidationError LeafNodeIndex
  | .member leafIndex => .ok leafIndex
  | _ => .error .actorNotMember

def extractProposer (queued : QueuedProposal) : Except CommitValidationError CommitParticipant := do
  let leafIndex ← proposerLeaf queued.sender
  extractCommitParticipant ctx group immutableMetadata mutableMetadata leafIndex

def extractCommitterAndProposers (commit : StagedCommit) (committerLeafIndex : LeafNodeIndex) :
    Except CommitValidationError (CommitParticipant × List CommitParticipant) := do
  let leafIndices ← commit.queuedProposals.mapM fun queued => proposerLeaf queued.sender
  let proposers ← leafIndices.reverse.dedup.reverse.mapM
    (extractCommitParticipant ctx group immutableMetadata mutableMetadata)
  let committer ←
    extractCommitParticipant ctx group immutableMetadata mutableMetadata committerLeafIndex
  return (committer, proposers)

/-- A bootstrap commit drops the legacy extensions, requires the dictionary, and writes the
component registry. -/
def matchesBootstrapShape (extensions : Extensions) : Bool :=
  (extensions.findUnknownExtension mutableMetadataExtensionId).isNone &&
    (extensions.findUnknownExtension groupPermissionsExtensionId).isNone &&
    (extensions.findUnknownExtension groupMembershipExtensionId).isNone &&
    extensions.immutableMetadata.isNone &&
    (extensions.requiredCapabilities.map (·.contains .appDataDictionary)).getD false

def writesComponentRegistry (queued : QueuedProposal) : Bool :=
  match queued.proposal with
  | .appDataUpdate componentId _ => componentId == ComponentId.componentRegistry
  | _ => false

def isBootstrapCommit (commit : StagedCommit) (existingExtensions : Extensions) : Bool :=
  let gceMatches := commit.queuedProposals.foldl (fun gceMatches queued =>
    match queued.proposal with
    | .groupContextExtensions extensions => matchesBootstrapShape extensions
    | _ => gceMatches) false
  !existingExtensions.isMigrated && gceMatches && commit.queuedProposals.any writesComponentRegistry

def extractGceProposer (commit : StagedCommit) :
    Except CommitValidationError (Option CommitParticipant) :=
  let gce := commit.queuedProposals.find? fun queued =>
    match queued.proposal with
    | .groupContextExtensions _ => true
    | _ => false
  gce.mapM (extractProposer ctx group immutableMetadata mutableMetadata)

def validateBootstrapAndBuild (commit : StagedCommit) (committerLeafIndex : LeafNodeIndex) :
    Except CommitValidationError ValidatedCommit := do
  rejectPskProposals commit
  let (actor, proposers) ← extractCommitterAndProposers ctx group immutableMetadata mutableMetadata
    commit committerLeafIndex
  let gceProposer ← extractGceProposer ctx group immutableMetadata mutableMetadata commit
  let gceProposer ← okOr gceProposer .proposerNotFound
  ctx.appData.validateBootstrapCommit commit group gceProposer
  return ⟨actor, proposers, [], [], ∅, {}, false, false, immutableMetadata.dmMembers⟩

def validateAppDataUpdateProposalsInCommit (commit : StagedCommit)
    (preloadedRegistry : Option Registry) : Except CommitValidationError Unit := do
  let updates := commit.queuedProposals.filterMap fun queued =>
    match queued.proposal with
    | .appDataUpdate componentId operation => some (queued, componentId, operation)
    | _ => none
  if updates.isEmpty then return ()
  let registry ←
    match preloadedRegistry with
    | some registry => pure registry
    | none => (ctx.appData.loadComponentRegistry group.extensions).mapError .componentSource
  updates.forM fun (queued, componentId, operation) => do
    let proposer ← extractProposer ctx group immutableMetadata mutableMetadata queued
    ctx.appData.validateOneAppDataUpdate componentId operation proposer registry group.extensions

structure ProposalChanges where
  addedInstallations : Finset Bytes
  removedInstallations : Finset Bytes
  credentialsToVerify : List CommitParticipant
  addedInboxProposers : HashMap String CommitParticipant
  removedInboxProposers : HashMap String CommitParticipant
  gceProposer : Option CommitParticipant

def ProposalChanges.apply (changes : ProposalChanges) (queued : QueuedProposal) :
    Except CommitValidationError ProposalChanges := do
  let proposer ← extractProposer ctx group immutableMetadata mutableMetadata queued
  match queued.proposal with
  | .update leafNode => do
    let participant ←
      CommitParticipant.fromLeafNode ctx immutableMetadata mutableMetadata leafNode
    return { changes with credentialsToVerify := changes.credentialsToVerify ++ [participant] }
  | .add leafNode => do
    let inboxId ← inboxIdFromCredential ctx leafNode.credential
    return { changes with
      addedInstallations := insert leafNode.signatureKey changes.addedInstallations
      addedInboxProposers := changes.addedInboxProposers.insert inboxId proposer }
  | .remove removed => do
    let leafNode ← okOr (group.memberAt removed) .subjectDoesNotExist
    let inboxId ← inboxIdFromCredential ctx leafNode.credential
    return { changes with
      removedInstallations := insert leafNode.signatureKey changes.removedInstallations
      removedInboxProposers := changes.removedInboxProposers.insert inboxId proposer }
  | .groupContextExtensions _ => return { changes with gceProposer := some proposer }
  | _ => return changes

def getProposalChanges (commit : StagedCommit) : Except CommitValidationError ProposalChanges :=
  commit.queuedProposals.foldlM
    (ProposalChanges.apply ctx group immutableMetadata mutableMetadata)
    ⟨∅, ∅, [], .empty, .empty, none⟩

end Participants

def validateMembershipDiff (oldMembership newMembership : GroupMembership) (diff : MembershipDiff) :
    Except CommitValidationError Unit :=
  diff.updatedInboxes.forM fun inboxId => do
    let oldSequenceId ← okOr (oldMembership.get inboxId) .subjectDoesNotExist
    let newSequenceId ← okOr (newMembership.get inboxId) .subjectDoesNotExist
    rejectIf (newSequenceId < oldSequenceId) .sequenceIdDecreased

structure ExpectedDiff where
  oldGroupMembership : GroupMembership
  newGroupMembership : GroupMembership
  expectedInstallationDiff : InstallationDiff
  addedInboxes : List Inbox
  removedInboxes : List Inbox

/-- The inboxes of a membership diff with who proposed them: who proposed adding or removing an
installation of theirs, else who proposed the new extensions. -/
def attributeInboxes (immutableMetadata : GroupMetadata) (mutableMetadata : GroupMutableMetadata)
    (proposalsEnabled : Bool) (gceProposer : Option CommitParticipant)
    (inboxProposers : HashMap String CommitParticipant) (inboxIds : List String) :
    Except CommitValidationError (List Inbox) :=
  inboxIds.mapM fun inboxId =>
    match (inboxProposers.get inboxId).or gceProposer with
    | some proposer => .ok (buildInboxWithProposer inboxId immutableMetadata mutableMetadata proposer)
    | none =>
      if proposalsEnabled then .error .proposerNotFound
      else .ok (buildInbox inboxId immutableMetadata mutableMetadata)

def ExpectedDiff.extractExpectedDiffWithProposers (order : IterOrder) (commit : StagedCommit)
    (existingGroupExtensions : Extensions) (immutableMetadata : GroupMetadata)
    (mutableMetadata : GroupMutableMetadata) (changes : ProposalChanges) :
    Session Database CommitValidationError ExpectedDiff := do
  let proposalsEnabled := existingGroupExtensions.isMigrated
  let oldGroupMembership ← .ofExcept (extractGroupMembership ctx existingGroupExtensions)
  let newGroupMembership ← .ofExcept (getLatestGroupMembership ctx commit)
  let membershipDiff := oldGroupMembership.diff newGroupMembership
  .ofExcept (validateMembershipDiff oldGroupMembership newGroupMembership membershipDiff)
  let addedInboxes ← .ofExcept (attributeInboxes immutableMetadata mutableMetadata proposalsEnabled
    changes.gceProposer changes.addedInboxProposers membershipDiff.addedInboxes)
  let removedInboxes ← .ofExcept (attributeInboxes immutableMetadata mutableMetadata
    proposalsEnabled changes.gceProposer changes.removedInboxProposers
    membershipDiff.removedInboxes)
  let expectedInstallationDiff ← (getInstallationDiff ctx.env ctx.api order oldGroupMembership
    newGroupMembership membershipDiff).mapError .installationDiff
  return ⟨oldGroupMembership, newGroupMembership, expectedInstallationDiff, addedInboxes,
    removedInboxes⟩

def checkGroupId (groupId : Bytes) : Except CommitValidationError Unit :=
  rejectIf (groupId.length ≠ 16) (.conversion .slice)

def ExpectedDiff.fromStagedCommitWithProposers (order : IterOrder) (commit : StagedCommit)
    (group : OpenMlsGroup) (changes : ProposalChanges) :
    Session Database CommitValidationError ExpectedDiff := do
  let immutableMetadata ← .ofExcept (extractGroupMetadata ctx group.extensions)
  let mutableMetadata ← .ofExcept (extractGroupMutableMetadata ctx group.extensions)
  .ofExcept (rejectPskProposals commit)
  .ofExcept (checkGroupId group.groupId)
  ExpectedDiff.extractExpectedDiffWithProposers ctx order commit group.extensions
    immutableMetadata mutableMetadata changes

structure InstallationChanges where
  added : Finset Bytes
  removed : Finset Bytes
  failed : Finset Bytes

/-- Super admins may re-add installations: these are taken out of the lists that are validated. -/
def extractReaddedInstallations (actor : CommitParticipant) (changes : InstallationChanges) :
    Finset Bytes × InstallationChanges :=
  if !actor.isSuperAdmin then (∅, changes)
  else
    let successfullyReadded := changes.added ∩ changes.removed
    let added := changes.added \ successfullyReadded
    let removed := changes.removed \ successfullyReadded
    let unsuccessfullyReadded := changes.failed ∩ removed
    (successfullyReadded ∪ unsuccessfullyReadded,
      ⟨added, removed \ unsuccessfullyReadded, changes.failed \ unsuccessfullyReadded⟩)

def expectedDiffMatchesCommit (expectedDiff : InstallationDiff) (changes : InstallationChanges)
    (existingInstallationIds : Finset Bytes) : Except CommitValidationError Unit := do
  let unknownAdds :=
    changes.added \ (expectedDiff.addedInstallations ∪ existingInstallationIds)
  rejectIf (unknownAdds ≠ ∅) (.unexpectedInstallationAdded unknownAdds)
  let filteredExpected := expectedDiff.removedInstallations \ changes.failed
  rejectIf (changes.removed ≠ filteredExpected)
    (.unexpectedInstallationsRemoved (changes.removed \ expectedDiff.removedInstallations))

/-- The state of a participant's inbox must hold the participant's installation. The sequence id
`0` stands for the latest state only where it was there before the commit. -/
def verifyCredential (order : IterOrder) (oldGroupMembership newGroupMembership : GroupMembership)
    (participant : CommitParticipant) : Session Database CommitValidationError Unit := do
  let sequenceId ← .ofExcept (okOr (newGroupMembership.get participant.inboxId)
    .subjectDoesNotExist)
  let toSequenceId :=
    if sequenceId = 0 ∧ oldGroupMembership.get participant.inboxId = some 0 then none
    else some (asI64 sequenceId)
  let inboxState ← (getAssociationStateWithVerifier ctx.env order participant.inboxId
    toSequenceId).mapError .installationDiff
  .ofExcept (rejectIf (inboxState.get (.installation participant.installationId)).isNone
    (.inboxValidationFailed participant.inboxId))

def checkMinimumVersion (minVersion : Option String) : Except CommitValidationError Unit :=
  match minVersion with
  | none => .ok ()
  | some minVersion => do
    let minSupportedVersion ← okOr (ctx.semver.parse minVersion) (.invalidVersionFormat minVersion)
    rejectIf (ctx.semver.lt ctx.pkgSemver minSupportedVersion) (.protocolVersionTooLow minVersion)

/-- The changes of the metadata, and the registry of a migrated group, whose metadata only shows
the version floor the commit leads to. -/
def metadataValidation (commit : StagedCommit) (group : OpenMlsGroup)
    (immutableMetadata : GroupMetadata) (mutableMetadata : GroupMutableMetadata) :
    Except CommitValidationError (MutableMetadataValidationInfo × Option Registry) :=
  if group.extensions.isMigrated then do
    let registry ←
      (ctx.appData.loadComponentRegistry group.extensions).mapError .groupMutableMetadata
    let bytes ← (ctx.appData.readPostCommitComponentBytes ComponentId.minSupportedProtocolVersion
      group.extensions commit registry).mapError .groupMutableMetadata
    let floor ← bytes.mapM fun bytes => okOr (utf8 bytes) (.groupMutableMetadata
      (.malformedComponent (some ComponentId.minSupportedProtocolVersion) "invalid utf-8"))
    return ({ minimumSupportedProtocolVersion := floor }, some registry)
  else do
    let info ← extractMetadataChanges ctx immutableMetadata mutableMetadata group.extensions
      commit.groupContextExtensions
    return (info, none)

def validateSteadyState (order : IterOrder) (commit : StagedCommit)
    (committerLeafIndex : LeafNodeIndex) (group : OpenMlsGroup) (immutableMetadata : GroupMetadata)
    (mutableMetadata : GroupMutableMetadata) :
    Session Database CommitValidationError ValidatedCommit := do
  let groupPermissions ← .ofExcept (extractGroupPermissions ctx group.extensions)
  let (info, migratedRegistry) ← .ofExcept
    (metadataValidation ctx commit group immutableMetadata mutableMetadata)
  .ofExcept (info.metadataFieldChanges.forM checkCharacterLimit)
  let permissionsChanged ← .ofExcept
    (if group.extensions.isMigrated then .ok false
      else extractPermissionsChanged ctx groupPermissions commit.groupContextExtensions)
  let (actor, proposers) ← .ofExcept (extractCommitterAndProposers ctx group immutableMetadata
    mutableMetadata commit committerLeafIndex)
  .ofExcept (rejectPskProposals commit)
  .ofExcept (validateAppDataUpdateProposalsInCommit ctx group immutableMetadata mutableMetadata
    commit migratedRegistry)
  let changes ← .ofExcept
    (getProposalChanges ctx group immutableMetadata mutableMetadata commit)
  let expected ← ExpectedDiff.fromStagedCommitWithProposers ctx order commit group changes
  let (readdedInstallations, remaining) := extractReaddedInstallations actor
    ⟨changes.addedInstallations, changes.removedInstallations,
      expected.newGroupMembership.failedInstallations.toFinset⟩
  .ofExcept (expectedDiffMatchesCommit expected.expectedInstallationDiff remaining
    group.installations)
  (changes.credentialsToVerify ++ [actor]).forM
    (verifyCredential ctx order expected.oldGroupMembership expected.newGroupMembership)
  let verifiedCommit : ValidatedCommit := {
    actor, proposers, readdedInstallations, permissionsChanged
    addedInboxes := expected.addedInboxes
    removedInboxes := expected.removedInboxes
    metadataValidationInfo := info
    installationsChanged := changes.addedInstallations ≠ ∅ || changes.removedInstallations ≠ ∅
    dmMembers := immutableMetadata.dmMembers }
  let policySet ← .ofExcept (if group.extensions.isMigrated then .ok groupPermissions
    else extractGroupPermissions ctx group.extensions)
  .ofExcept (rejectIf (!policySet.policies.evaluateCommit verifiedCommit)
    .insufficientPermissions)
  .ofExcept (checkMinimumVersion ctx info.minimumSupportedProtocolVersion)
  return verifiedCommit

def ValidatedCommit.fromStagedCommit (order : IterOrder) (commit : StagedCommit)
    (committerLeafIndex : LeafNodeIndex) (group : OpenMlsGroup) :
    Session Database CommitValidationError ValidatedCommit := do
  let floor := if group.extensions.isMigrated then committedFloorExceeding ctx group.extensions
    else none
  .ofExcept (match floor with
    | some minVersion => .error (.protocolVersionTooLow minVersion)
    | none => .ok ())
  let immutableMetadata ← .ofExcept (extractGroupMetadata ctx group.extensions)
  let mutableMetadata ← .ofExcept (extractGroupMutableMetadata ctx group.extensions)
  if isBootstrapCommit commit group.extensions then
    .ofExcept (validateBootstrapAndBuild ctx group immutableMetadata mutableMetadata commit
      committerLeafIndex)
  else
    validateSteadyState ctx order commit committerLeafIndex group immutableMetadata mutableMetadata

end

end LibXmtp.Groups
