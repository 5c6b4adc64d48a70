import LibXmtp.AppData.Bootstrap
import LibXmtp.Groups.CommitPendingProposals

namespace LibXmtp.AppData

open LibXmtp.Data LibXmtp.Groups

def isAllowedBootstrapProposal : Proposal → Bool
  | .groupContextExtensions _ => true
  | .appDataUpdate _ _ => true
  | _ => false

def proposalTypeName : Proposal → String
  | .add _ => "Add"
  | .update _ => "Update"
  | .remove _ => "Remove"
  | .preSharedKey => "PreSharedKey"
  | .reInit => "ReInit"
  | .externalInit => "ExternalInit"
  | .groupContextExtensions _ => "GroupContextExtensions"
  | .appDataUpdate _ _ => "AppDataUpdate"
  | .selfRemove => "SelfRemove"
  | .appEphemeral => "AppEphemeral"
  | .custom => "Custom"

def validateOnlyAllowedProposalTypes (commit : StagedCommit) :
    Except BootstrapValidationError Unit :=
  commit.queuedProposals.forM fun queued =>
    rejectIf (!isAllowedBootstrapProposal queued.proposal)
      (.disallowedProposalType (proposalTypeName queued.proposal))

def floorSeed : UInt16 × AppDataUpdateOperation → Option Bytes
  | (id, .update payload) =>
    if id = ComponentId.minSupportedProtocolVersion then some payload else none
  | (_, .remove) => none

def bootstrapFloorExceeding {Version : Type} (semver : Semver Version) (commit : StagedCommit)
    (ownVersion : String) : Option String := do
  let floorBytes ← (appDataUpdateProposals commit).findSome? floorSeed
  let floor ← utf8 floorBytes
  let own ← semver.parse ownVersion
  let floorVersion ← semver.parse floor
  if semver.lt own floorVersion then some floor else none

def gceMatchesBootstrapShape (newExtensions : Extensions) : Bool :=
  (newExtensions.findUnknownExtension mutableMetadataExtensionId).isNone &&
    (newExtensions.findUnknownExtension groupPermissionsExtensionId).isNone &&
    (newExtensions.findUnknownExtension groupMembershipExtensionId).isNone &&
    newExtensions.immutableMetadata.isNone

def bannedExtensionTypes : List ExtensionType :=
  [.other mutableMetadataExtensionId, .other groupPermissionsExtensionId,
    .other groupMembershipExtensionId, .immutableMetadata]

def validateGceExtensionSet (newExtensions : Extensions) : Except BootstrapValidationError Unit := do
  rejectIf (!gceMatchesBootstrapShape newExtensions) (.gceMismatch
    ("GCE extension set does not match bootstrap shape (needs " ++
      "-MUTABLE_METADATA, -GROUP_PERMISSIONS, -GROUP_MEMBERSHIP, -ImmutableMetadata)"))
  let extTypes ← okOr newExtensions.requiredCapabilities (.gceMismatch
    ("RequiredCapabilities extension is missing — bootstrap requires it to enforce " ++
      "AppDataDictionary support and ban the four legacy extension types"))
  let requiresAppDataDictionary := extTypes.contains .appDataDictionary
  let bansLegacy := !bannedExtensionTypes.any extTypes.contains
  rejectIf (!requiresAppDataDictionary || !bansLegacy)
    (.gceMismatch "RequiredCapabilities doesn't match bootstrap shape")

/-- The extensions that the proposals of a commit put in place of those of the group. -/
def gceProposals (commit : StagedCommit) : List Extensions :=
  commit.queuedProposals.filterMap fun queued =>
    match queued.proposal with
    | .groupContextExtensions extensions => some extensions
    | _ => none

def validateGceShape (commit : StagedCommit) : Except BootstrapValidationError Unit :=
  match gceProposals commit with
  | [] => .error (.gceMismatch "no GCE proposal in bootstrap commit")
  | [newExtensions] => validateGceExtensionSet newExtensions
  | _ :: _ :: _ => .error (.gceMismatch "multiple GCE proposals in bootstrap commit")

def validateBootstrapCommit {Version : Type} (semver : Semver Version) (host : BootstrapHost)
    (order : MembersOrder) (commit : StagedCommit) (extensions : Extensions)
    (proposer : CommitParticipant) (ownVersion : String) : Except BootstrapValidationError Unit := do
  rejectIf (!proposer.isSuperAdmin) .proposerNotSuperAdmin
  validateOnlyAllowedProposalTypes commit
  match bootstrapFloorExceeding semver commit ownVersion with
  | some minVersion => .error (.protocolVersionTooLow minVersion)
  | none => do
    let expected ←
      (synthesizeCanonicalSubsetFromExtensions host order extensions).mapError .synthesis
    let actual ← collectAppDataUpdates commit
    validateAgainstCanonicalSubset host expected actual
    validateGceShape commit

end LibXmtp.AppData
