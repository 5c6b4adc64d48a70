import LibXmtp.Data.FirstByKey
import LibXmtp.Groups.MembershipChanges

namespace LibXmtp.Groups

open LibXmtp.Data LibXmtp.Associations LibXmtp.Db LibXmtp.Mls LibXmtp.AppData

def Extension.sameType : Extension → Extension → Bool
  | .immutableMetadata _, .immutableMetadata _ => true
  | .appDataDictionary _, .appDataDictionary _ => true
  | .requiredCapabilities _, .requiredCapabilities _ => true
  | .unknown id _, .unknown id' _ => id = id'
  | .other extensionType _, .other extensionType' _ => extensionType = extensionType'
  | _, _ => false

namespace Extensions

def addOrReplace (extensions : Extensions) (extension : Extension) : Extensions :=
  extensions.filter (!extension.sameType ·) ++ [extension]

def removeAppDataDictionary (extensions : Extensions) : Extensions :=
  extensions.filter fun
    | .appDataDictionary _ => false
    | _ => true

/-- `update_required_capabilities_for_proposals`, where it disables them. -/
def disableProposals (extensions : Extensions) : Extensions :=
  match extensions.requiredCapabilities with
  | some extensionTypes =>
    if .appDataDictionary ∈ extensionTypes then
      extensions.addOrReplace
        (.requiredCapabilities (extensionTypes.filter (· ≠ .appDataDictionary)))
    else extensions
  | none => extensions

end Extensions

structure CommitMessageBundle where
  commit : Bytes
  welcome : Option Bytes
  stagedCommit : Option StagedCommit

/-- What is used of `openmls`: a proposal goes to the proposal store, and a commit takes from the
store what the filter keeps, along with the updates of the dictionary. -/
structure OpenMls where
  proposeGroupContextExtensions :
    OpenMlsGroup → Extensions → Except GroupError (Bytes × QueuedProposal)
  buildCommit : OpenMlsGroup → List QueuedProposal → Option AppDataUpdates →
    (QueuedProposal → Bool) → Except GroupError CommitMessageBundle

structure Committer (Key Version Registry : Type) where
  ctx : Context Key Version Registry
  host : Host
  wire : MembershipWire
  fromComponentSource : ComponentSourceError → GroupMutableMetadataError
  readGroupMembershipFromDict : ∀ extensions, ctx.appData.readGroupMembershipFromDict extensions =
    (LibXmtp.AppData.readGroupMembershipFromDict wire extensions).mapError fromComponentSource
  encodeGroupMembership : Proto.GroupMembership → Bytes
  decode_encode : ∀ membership, ∃ decoded,
    ctx.codec.decodeGroupMembership (encodeGroupMembership membership) = some decoded ∧
      decoded.members.Equiv membership.members ∧
      decoded.failedInstallations = membership.failedInstallations
  decodeCommitPendingProposalsData : Bytes → Option Bool
  store : KeyPackageStore
  keyPackage : LeafNode → KeyPackage
  keyPackage_leafNode : ∀ leafNode, (keyPackage leafNode).leafNode = leafNode
  openMls : OpenMls

inductive PostCommitAction
  | sendWelcomes (installations : List Installation) (welcomeMessage : Bytes)

def PostCommitAction.installations : PostCommitAction → List Installation
  | .sendWelcomes installations _ => installations

structure PublishIntentData where
  payloadsToPublish : List Bytes
  stagedCommit : StagedCommit
  postCommitAction : Option PostCommitAction
  groupEpoch : Nat

structure PendingChanges where
  inboxIdsToAdd : List String := []
  inboxIdsToRemove : List String := []
  installationsToWelcome : List Installation := []
  keyPackagesToAdd : List KeyPackage := []

section

variable {Key Version Registry : Type} (c : Committer Key Version Registry) (group : OpenMlsGroup)
  (epoch : Nat) (pendingProposals : List QueuedProposal)

def installationOf (leafNode : LeafNode) : Option Installation := do
  let _ ← (inboxIdFromCredential c.ctx leafNode.credential).toOption
  (Installation.fromVerifiedKeyPackage (c.keyPackage leafNode)).toOption

def pendingInboxId (leafNode : LeafNode) : Except GroupError String :=
  (inboxIdFromCredential c.ctx leafNode.credential).mapError .commitValidation

def PendingChanges.apply (currentMembership : GroupMembership) (changes : PendingChanges)
    (queued : QueuedProposal) : Except GroupError PendingChanges :=
  match queued.proposal with
  | .add leafNode => do
    let inboxId ← pendingInboxId c leafNode
    if inboxId ∉ changes.inboxIdsToAdd ∧ (currentMembership.get inboxId).isNone then
      return { changes with
        inboxIdsToAdd := changes.inboxIdsToAdd ++ [inboxId]
        keyPackagesToAdd := changes.keyPackagesToAdd ++ [c.keyPackage leafNode]
        installationsToWelcome :=
          changes.installationsToWelcome ++ (installationOf c leafNode).toList }
    else return changes
  | .remove removed =>
    match group.memberAt removed with
    | some leafNode => do
      let inboxId ← pendingInboxId c leafNode
      if inboxId ∉ changes.inboxIdsToRemove then
        return { changes with inboxIdsToRemove := changes.inboxIdsToRemove ++ [inboxId] }
      else return changes
    | none => .ok changes
  | _ => .ok changes

def addLatest (updates : IdentityUpdates) (membership : GroupMembership) (inboxId : String) :
    Except GroupError GroupMembership := do
  let sequenceId ← okOr (latestSequenceId updates inboxId) .missingSequenceId
  return membership.add inboxId (.ofInt sequenceId)

def updatedMembership (order : IterOrder) (currentMembership : GroupMembership)
    (changes : PendingChanges) : Session Database GroupError GroupMembership := do
  let added ←
    if changes.inboxIdsToAdd.isEmpty then pure currentMembership
    else do
      (loadIdentityUpdates c.ctx.api changes.inboxIdsToAdd).mapError .client
      let db ← get
      .ofExcept (changes.inboxIdsToAdd.foldlM (addLatest db.identityUpdates) currentMembership)
  let newMembership := changes.inboxIdsToRemove.foldl GroupMembership.remove added
  if changes.inboxIdsToAdd.isEmpty then return newMembership
  else do
    let withKps ← calculateMembershipChangesWithKeypackages c.ctx order c.store newMembership
      currentMembership
    return { newMembership with failedInstallations := withKps.failedInstallations }

def buildGroupMembershipExtension (membership : GroupMembership) : Extension :=
  .unknown groupMembershipExtensionId
    (c.encodeGroupMembership ⟨membership.members, membership.failedInstallations⟩)

/-- Only the inboxes are compared: which installations failed depends on the network. -/
def hasMembership (membership : GroupMembership) (queued : QueuedProposal) : Bool :=
  match queued.proposal with
  | .groupContextExtensions extensions =>
    ((extractGroupMembership c.ctx extensions).toOption.map
      (·.members.eq membership.members)).getD false
  | _ => false

def Proposal.isGroupContextExtensions : Proposal → Bool
  | .groupContextExtensions _ => true
  | _ => false

/-- A proposal of other extensions is only kept if it has the membership that is due. -/
def keepsMembership (membership : GroupMembership) (queued : QueuedProposal) : Bool :=
  !queued.proposal.isGroupContextExtensions || hasMembership c membership queued

def proposedExtensions (pendingProposals : List QueuedProposal) : Option Extensions :=
  pendingProposals.findSome? fun queued =>
    match queued.proposal with
    | .groupContextExtensions extensions => some extensions
    | _ => none

def supportsProposals (keyPackages : List KeyPackage) : Bool :=
  keyPackages.all fun keyPackage => .appDataDictionary ∈ keyPackage.extensionCapabilities

def newExtensions (changes : PendingChanges) (newMembership : GroupMembership) : Extensions :=
  let base := (proposedExtensions pendingProposals).getD group.extensions
  let extensions := base.addOrReplace (buildGroupMembershipExtension c newMembership)
  if group.extensions.isMigrated && !changes.keyPackagesToAdd.isEmpty &&
      !supportsProposals changes.keyPackagesToAdd then
    extensions.removeAppDataDictionary.disableProposals
  else extensions

def buildCommitWithPendingAppDataUpdates (pendingProposals : List QueuedProposal)
    (filter : QueuedProposal → Bool) : Except GroupError CommitMessageBundle := do
  let updates ← (pendingAppDataUpdates c.host group.extensions pendingProposals).mapError
    .componentSource
  c.openMls.buildCommit group pendingProposals updates filter

def publishData (changes : PendingChanges) (proposals : List Bytes)
    (bundle : CommitMessageBundle) : Except GroupError PublishIntentData := do
  let stagedCommit ← okOr bundle.stagedCommit .missingPendingCommit
  return {
    payloadsToPublish := proposals ++ [bundle.commit]
    stagedCommit
    postCommitAction := bundle.welcome.map (.sendWelcomes changes.installationsToWelcome)
    groupEpoch := epoch }

/-- The commit, after a proposal of the membership where the legacy extension holds it. -/
def commitWithMembership (changes : PendingChanges) (newMembership : GroupMembership) :
    Except GroupError PublishIntentData :=
  let membershipChanged := !changes.inboxIdsToAdd.isEmpty || !changes.inboxIdsToRemove.isEmpty
  let hasPendingGceWithMembership :=
    membershipChanged && pendingProposals.any (hasMembership c newMembership)
  if membershipChanged && !hasPendingGceWithMembership && !group.extensions.isMigrated then do
    let (gcePayload, queued) ← c.openMls.proposeGroupContextExtensions group
      (newExtensions c group pendingProposals changes newMembership)
    let bundle ← buildCommitWithPendingAppDataUpdates c group (pendingProposals ++ [queued])
      (keepsMembership c newMembership)
    publishData epoch changes [gcePayload] bundle
  else do
    let bundle ← buildCommitWithPendingAppDataUpdates c group pendingProposals fun queued =>
      !membershipChanged || keepsMembership c newMembership queued
    publishData epoch changes [] bundle

def checkIntentData (data : Bytes) : Except GroupError Unit :=
  if data.isEmpty then .ok ()
  else
    match c.decodeCommitPendingProposalsData data with
    | some true => .ok ()
    | some false => .error (.intent .missingPayload)
    | none => .error (.intent .conversion)

def commitPendingProposals (order : IterOrder) (data : Bytes) :
    Session Database GroupError (Option PublishIntentData) := do
  .ofExcept (checkIntentData c data)
  if pendingProposals.isEmpty then return none
  else do
    let currentMembership ← .ofExcept
      ((extractGroupMembership c.ctx group.extensions).mapError .commitValidation)
    let changes ← .ofExcept
      (pendingProposals.foldlM (PendingChanges.apply c group currentMembership) {})
    let newMembership ← updatedMembership c order currentMembership changes
    let published ← .ofExcept
      (commitWithMembership c group epoch pendingProposals changes newMembership)
    return some published

end

end LibXmtp.Groups
