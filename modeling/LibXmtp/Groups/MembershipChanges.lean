import LibXmtp.AppData.GroupMembershipDict

namespace LibXmtp.Groups

open LibXmtp.Data LibXmtp.Associations LibXmtp.Db LibXmtp.Mls

inductive WrapperAlgorithm
  | curve25519
  | xWingMLKEM768Draft6

structure WrapperEncryptionExtension where
  algorithm : WrapperAlgorithm
  pubKeyBytes : Bytes

structure WelcomePointersExtension where
  supportedAeadTypes : List Int32

def WelcomePointersExtension.empty : WelcomePointersExtension := ⟨[]⟩

inductive IntentError
  | conversion
  | keyPackageVerification
  | missingPayload

structure KeyPackage where
  leafNode : LeafNode
  hpkeInitKey : Bytes
  wrapperEncryption : Except IntentError (Option WrapperEncryptionExtension)
  welcomePointeeEncryptionAeadTypes : Except IntentError (Option WelcomePointersExtension)
  extensionCapabilities : List ExtensionType

structure Installation where
  installationKey : Bytes
  hpkePublicKey : Bytes
  welcomeWrapperAlgorithm : WrapperAlgorithm
  welcomePointeeEncryptionAeadTypes : WelcomePointersExtension

def Installation.fromVerifiedKeyPackage (keyPackage : KeyPackage) :
    Except IntentError Installation := do
  let wrapperEncryption ← keyPackage.wrapperEncryption
  let wrapperEncryption := wrapperEncryption.getD ⟨.curve25519, keyPackage.hpkeInitKey⟩
  let aeadTypes ← keyPackage.welcomePointeeEncryptionAeadTypes
  return ⟨keyPackage.leafNode.signatureKey, wrapperEncryption.pubKeyBytes,
    wrapperEncryption.algorithm, aeadTypes.getD .empty⟩

theorem Installation.installationKey_of_eq_ok {keyPackage : KeyPackage}
    {installation : Installation} (h : fromVerifiedKeyPackage keyPackage = .ok installation) :
    installation.installationKey = keyPackage.leafNode.signatureKey := by
  simp only [fromVerifiedKeyPackage, bind_eq_ok, pure_eq_ok] at h
  obtain ⟨_, _, _, _, rfl⟩ := h
  rfl

structure MembershipDiffWithKeyPackages where
  newInstallations : List Installation
  newKeyPackages : List KeyPackage
  removedInstallations : Finset Bytes
  failedInstallations : List Bytes

/-- The key packages the network returns for some installations, each with whether it verifies. -/
structure KeyPackageStore where
  myInstallationId : Bytes
  getKeyPackagesForInstallationIds : Finset Bytes → Option (List (Bytes × Option KeyPackage))

inductive GroupError
  | client (error : ClientError)
  | intent (error : IntentError)
  | commitValidation (error : CommitValidationError)
  | componentSource (error : AppData.ComponentSourceError)
  | missingSequenceId
  | missingPendingCommit
  | proposal
  | commitToPendingProposals
  | api

structure FetchedKeyPackages where
  installations : List Installation := []
  keyPackages : List KeyPackage := []
  failedInstallations : List Bytes := []

def getKeypackagesForInstallationIds (store : KeyPackageStore) (requested : Finset Bytes) :
    Except GroupError FetchedKeyPackages := do
  let keyPackages ← okOr
    (store.getKeyPackagesForInstallationIds (requested.filter (store.myInstallationId ≠ ·))) .api
  keyPackages.foldlM (fun fetched (installationId, result) =>
    match result with
    | some keyPackage => do
      let installation ← (Installation.fromVerifiedKeyPackage keyPackage).mapError .intent
      return { fetched with
        installations := fetched.installations ++ [installation]
        keyPackages := fetched.keyPackages ++ [keyPackage] }
    | none => .ok { fetched with
        failedInstallations := fetched.failedInstallations ++ [installationId] }) {}

variable {Key Version Registry : Type} (ctx : Context Key Version Registry)

def calculateMembershipChangesWithKeypackages (order : IterOrder) (store : KeyPackageStore)
    (new old : GroupMembership) :
    Session Database GroupError MembershipDiffWithKeyPackages := do
  let diff ← (getInstallationDiff ctx.env ctx.api order old new (old.diff new)).mapError .client
  let fetched ←
    if diff.addedInstallations = ∅ then pure {}
    else .ofExcept (getKeypackagesForInstallationIds store diff.addedInstallations)
  let failed := (old.failedInstallations ++ fetched.failedInstallations).dedup
  let common := (failed.filter (· ∈ diff.removedInstallations)).toFinset
  return {
    newInstallations := fetched.installations
    newKeyPackages := fetched.keyPackages
    removedInstallations := diff.removedInstallations \ common
    failedInstallations := (failed.filter (· ∉ common)).mergeSort (fun a b => decide (a ≤ b)) }

end LibXmtp.Groups
