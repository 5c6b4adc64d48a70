import LibXmtp.Associations.AssociationLog
import LibXmtp.Associations.UnsignedActions
import LibXmtp.Associations.Proto

namespace LibXmtp.Associations

open LibXmtp.Data

structure AccountId where
  chainId : String
  accountAddress : String
  deriving DecidableEq

inductive SignatureError
  | malformedLegacyKey (message : String)
  | verifierError
  | ed25519Error
  | tryFromSliceError
  | invalid
  | addressValidationError
  | decodeError
  | accountIdError
  | invalidPublicKey
  | invalidClientData
  | signerError
  | signature
  deriving DecidableEq

/-- The five kinds of signature, over the type of the keys installations verify with. -/
inductive UnverifiedSignature (Key : Type)
  | installationKey (signatureBytes : Bytes) (verifyingKey : Key)
  | recoverableEcdsa (signatureBytes : Bytes)
  | smartContractWallet (signatureBytes : Bytes) (accountId : AccountId) (blockNumber : UInt64)
  | legacyDelegated (legacyKeySignature : Bytes) (signedPublicKeyProto : Proto.SignedPublicKey)
  | passkey (publicKey signature authenticatorData clientDataJson : Bytes)

structure UnverifiedCreateInbox (Key : Type) where
  unsignedAction : UnsignedCreateInbox
  initialIdentifierSignature : UnverifiedSignature Key

structure UnverifiedAddAssociation (Key : Type) where
  unsignedAction : UnsignedAddAssociation
  newMemberSignature : UnverifiedSignature Key
  existingMemberSignature : UnverifiedSignature Key

structure UnverifiedRevokeAssociation (Key : Type) where
  recoveryIdentifierSignature : UnverifiedSignature Key
  unsignedAction : UnsignedRevokeAssociation

structure UnverifiedChangeRecoveryAddress (Key : Type) where
  recoveryIdentifierSignature : UnverifiedSignature Key
  unsignedAction : UnsignedChangeRecoveryAddress

inductive UnverifiedAction (Key : Type)
  | createInbox (action : UnverifiedCreateInbox Key)
  | addAssociation (action : UnverifiedAddAssociation Key)
  | revokeAssociation (action : UnverifiedRevokeAssociation Key)
  | changeRecoveryAddress (action : UnverifiedChangeRecoveryAddress Key)

structure UnverifiedIdentityUpdate (Key : Type) where
  inboxId : String
  clientTimestampNs : UInt64
  actions : List (UnverifiedAction Key)

section Verification

variable {Key : Type}

def UnverifiedAction.unsignedAction : UnverifiedAction Key → UnsignedAction
  | .createInbox action => .createInbox action.unsignedAction
  | .addAssociation action => .addAssociation action.unsignedAction
  | .revokeAssociation action => .revokeAssociation action.unsignedAction
  | .changeRecoveryAddress action => .changeRecoveryAddress action.unsignedAction

def UnverifiedAction.signatures : UnverifiedAction Key → List (UnverifiedSignature Key)
  | .createInbox action => [action.initialIdentifierSignature]
  | .addAssociation action => [action.existingMemberSignature, action.newMemberSignature]
  | .revokeAssociation action => [action.recoveryIdentifierSignature]
  | .changeRecoveryAddress action => [action.recoveryIdentifierSignature]

def UnverifiedIdentityUpdate.signatures (u : UnverifiedIdentityUpdate Key) :
    List (UnverifiedSignature Key) := u.actions.flatMap UnverifiedAction.signatures

def UnverifiedIdentityUpdate.unsigned (u : UnverifiedIdentityUpdate Key) :
    UnsignedIdentityUpdate :=
  ⟨u.inboxId, u.clientTimestampNs, u.actions.map UnverifiedAction.unsignedAction⟩

def UnverifiedIdentityUpdate.signatureText (crates : Crates) (chrono : Chrono)
    (u : UnverifiedIdentityUpdate Key) : String := u.unsigned.signatureText crates chrono

structure SignatureVerifiers (Key : Type) where
  fromInstallationKey : String → Bytes → Key → Except SignatureError VerifiedSignature
  fromRecoverableEcdsa : String → Bytes → Except SignatureError VerifiedSignature
  fromSmartContractWallet :
    String → Bytes → AccountId → UInt64 → Except SignatureError VerifiedSignature
  fromLegacyDelegated :
    String → Bytes → Proto.SignedPublicKey → Except SignatureError VerifiedSignature
  fromPasskey : String → Bytes → Bytes → Bytes → Bytes → Except SignatureError VerifiedSignature

variable (verifiers : SignatureVerifiers Key)

def UnverifiedSignature.toVerified (signatureText : String) :
    UnverifiedSignature Key → Except SignatureError VerifiedSignature
  | .installationKey bytes key => verifiers.fromInstallationKey signatureText bytes key
  | .recoverableEcdsa bytes => verifiers.fromRecoverableEcdsa signatureText bytes
  | .smartContractWallet bytes accountId blockNumber =>
    verifiers.fromSmartContractWallet signatureText bytes accountId blockNumber
  | .legacyDelegated bytes key => verifiers.fromLegacyDelegated signatureText bytes key
  | .passkey publicKey signature authenticatorData clientDataJson =>
    verifiers.fromPasskey signatureText publicKey signature authenticatorData clientDataJson

def UnverifiedAction.toVerified (signatureText : String) :
    UnverifiedAction Key → Except SignatureError Action
  | .createInbox a => do
    let signature ← a.initialIdentifierSignature.toVerified verifiers signatureText
    return .createInbox ⟨a.unsignedAction.nonce, a.unsignedAction.accountIdentifier, signature⟩
  | .addAssociation a => do
    let newMemberSignature ← a.newMemberSignature.toVerified verifiers signatureText
    let existingMemberSignature ← a.existingMemberSignature.toVerified verifiers signatureText
    return .addAssociation
      ⟨newMemberSignature, a.unsignedAction.newMemberIdentifier, existingMemberSignature⟩
  | .revokeAssociation a => do
    let signature ← a.recoveryIdentifierSignature.toVerified verifiers signatureText
    return .revokeAssociation ⟨signature, a.unsignedAction.revokedMember⟩
  | .changeRecoveryAddress a => do
    let signature ← a.recoveryIdentifierSignature.toVerified verifiers signatureText
    return .changeRecoveryIdentity ⟨signature, a.unsignedAction.newRecoveryIdentifier⟩

def UnverifiedIdentityUpdate.toVerified (crates : Crates) (chrono : Chrono)
    (u : UnverifiedIdentityUpdate Key) : Except SignatureError IdentityUpdate := do
  let signatureText := u.signatureText crates chrono
  let actions ← u.actions.mapM fun action => action.toVerified verifiers signatureText
  return ⟨u.inboxId, u.clientTimestampNs, actions⟩

end Verification

end LibXmtp.Associations
