import LibXmtp.Data.Hex

namespace LibXmtp.Associations.Proto

open LibXmtp.Data

structure RecoverableEcdsaSignature where
  bytes : Bytes

structure RecoverableEd25519Signature where
  bytes : Bytes
  publicKey : Bytes

structure SmartContractWalletSignature where
  accountId : String
  blockNumber : UInt64
  signature : Bytes

structure RecoverablePasskeySignature where
  publicKey : Bytes
  signature : Bytes
  authenticatorData : Bytes
  clientDataJson : Bytes

inductive LegacyUnion
  | ecdsaCompact (bytes : Bytes) (recovery : UInt32)
  | walletEcdsaCompact (bytes : Bytes) (recovery : UInt32)

structure SignedPublicKeySignature where
  union : Option LegacyUnion

structure SignedPublicKey where
  keyBytes : Bytes
  signature : Option SignedPublicKeySignature

structure LegacyDelegatedSignature where
  delegatedKey : Option SignedPublicKey
  signature : Option RecoverableEcdsaSignature

inductive SignatureKind
  | erc191 (signature : RecoverableEcdsaSignature)
  | erc6492 (signature : SmartContractWalletSignature)
  | installationKey (signature : RecoverableEd25519Signature)
  | delegatedErc191 (signature : LegacyDelegatedSignature)
  | passkey (signature : RecoverablePasskeySignature)

structure Signature where
  signature : Option SignatureKind

structure Passkey where
  key : Bytes
  relyingParty : Option String

inductive MemberIdentifierKind
  | ethereumAddress (address : String)
  | installationPublicKey (publicKey : Bytes)
  | passkey (passkey : Passkey)

structure MemberIdentifier where
  kind : Option MemberIdentifierKind

structure Member where
  identifier : Option MemberIdentifier
  addedByEntity : Option MemberIdentifier
  clientTimestampNs : Option UInt64
  addedOnChainId : Option UInt64

inductive IdentifierKind
  | unspecified
  | ethereum
  | passkey

def IdentifierKind.toI32 : IdentifierKind → Int32
  | .unspecified => 0
  | .ethereum => 1
  | .passkey => 2

/-- The accessor of an enumeration field: a number without a name reads as the default. -/
def IdentifierKind.ofI32 (n : Int32) : IdentifierKind :=
  if n = 1 then .ethereum else if n = 2 then .passkey else .unspecified

@[simp] theorem IdentifierKind.ofI32_toI32 (k : IdentifierKind) : ofI32 k.toI32 = k := by
  cases k <;> rfl

structure CreateInbox where
  initialIdentifier : String
  nonce : UInt64
  initialIdentifierSignature : Option Signature
  initialIdentifierKind : Int32
  relyingParty : Option String

structure AddAssociation where
  newMemberIdentifier : Option MemberIdentifier
  existingMemberSignature : Option Signature
  newMemberSignature : Option Signature
  relyingParty : Option String

structure RevokeAssociation where
  memberToRevoke : Option MemberIdentifier
  recoveryIdentifierSignature : Option Signature

structure ChangeRecoveryAddress where
  newRecoveryIdentifier : String
  existingRecoveryIdentifierSignature : Option Signature
  newRecoveryIdentifierKind : Int32
  relyingParty : Option String

inductive IdentityActionKind
  | createInbox (action : CreateInbox)
  | add (action : AddAssociation)
  | revoke (action : RevokeAssociation)
  | changeRecoveryAddress (action : ChangeRecoveryAddress)

structure IdentityAction where
  kind : Option IdentityActionKind

structure IdentityUpdate where
  actions : List IdentityAction
  clientTimestampNs : UInt64
  inboxId : String

structure MemberMap where
  key : Option MemberIdentifier
  value : Option Member

structure AssociationState where
  inboxId : String
  members : List MemberMap
  recoveryIdentifier : String
  seenSignatures : List Bytes
  recoveryIdentifierKind : Int32
  relyingParty : Option String

inductive ConversionError
  | missing (item type : String)
  | invalidLength (item : String) (expected got : Nat)
  | invalidValue (item expected got : String)
  | invalidPublicKey (description : String) (value : Option String)
  | edSignature
  | decode
  | slice
  deriving DecidableEq

end LibXmtp.Associations.Proto
