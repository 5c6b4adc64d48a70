import LibXmtp.Associations.State

namespace LibXmtp.Associations

open LibXmtp.Data

inductive SignatureKind
  | erc191
  | erc1271
  | installationKey
  | legacyDelegated
  | p256
  deriving DecidableEq

def SignatureKind.display : SignatureKind → String
  | .erc191 => "erc-191"
  | .erc1271 => "erc-1271"
  | .installationKey => "installation-key"
  | .legacyDelegated => "legacy-delegated"
  | .p256 => "p256"

structure VerifiedSignature where
  signer : MemberIdentifier
  kind : SignatureKind
  rawBytes : Bytes
  chainId : Option UInt64
  deriving DecidableEq

def isLegacySignature (signature : VerifiedSignature) : Bool :=
  signature.kind == .legacyDelegated

def allowedAssociation (existingMemberKind newMemberKind : MemberKind) :
    Except AssociationError Unit :=
  rejectIf (existingMemberKind == .installation && newMemberKind == .installation)
    (.memberNotAllowed existingMemberKind newMemberKind)

def isAllowedSignature : MemberKind → SignatureKind → Bool
  | .ethereum, .erc191 | .ethereum, .erc1271 | .ethereum, .legacyDelegated => true
  | .installation, .installationKey => true
  | .passkey, .p256 => true
  | _, _ => false

def allowedSignatureForKind (role : MemberKind) (signatureKind : SignatureKind) :
    Except AssociationError Unit :=
  rejectIf (!isAllowedSignature role signatureKind)
    (.signatureNotAllowed role.display signatureKind.display)

def verifyChainIdMatches (member : Member) (signature : VerifiedSignature) :
    Except AssociationError Unit :=
  rejectIf (member.addedOnChainId != signature.chainId)
    (.chainIdMismatch (member.addedOnChainId.getD 0) (signature.chainId.getD 0))

/-- `verify_chain_id_matches` where the signer is a member. -/
def verifyMemberChainId (s : AssociationState) (signature : VerifiedSignature) :
    Except AssociationError Unit :=
  match s.get signature.signer with
  | some member => verifyChainIdMatches member signature
  | none => .ok ()

def replayCheck (signatures : List Bytes) (state : AssociationState) :
    Except AssociationError Unit :=
  rejectIf (signatures.any state.hasSeen) .replay

structure CreateInbox where
  nonce : UInt64
  accountIdentifier : Identifier
  initialIdentifierSignature : VerifiedSignature
  deriving DecidableEq

namespace CreateInbox

def updateState (crates : Crates) (a : CreateInbox) (existingState : Option AssociationState) :
    Except AssociationError AssociationState := do
  rejectIf existingState.isSome .multipleCreate
  rejectIf (!a.accountIdentifier.eqMember a.initialIdentifierSignature.signer)
    .missingExistingMember
  allowedSignatureForKind a.accountIdentifier.kind a.initialIdentifierSignature.kind
  rejectIf (a.initialIdentifierSignature.kind == .legacyDelegated && a.nonce != 0)
    .legacySignatureReuse
  AssociationState.new crates a.accountIdentifier a.nonce a.initialIdentifierSignature.chainId

def signatures (a : CreateInbox) : List Bytes := [a.initialIdentifierSignature.rawBytes]

def initialState (a : CreateInbox) (inboxId : String) : AssociationState where
  inboxId
  members := HashMap.ofList [(a.accountIdentifier.toMember,
    ⟨a.accountIdentifier.toMember, none, none, a.initialIdentifierSignature.chainId⟩)]
  recoveryIdentifier := a.accountIdentifier
  seenSignatures := ∅

structure Accepted (crates : Crates) (a : CreateInbox) (inboxId : String) : Prop where
  signer : (a.accountIdentifier.toMember == a.initialIdentifierSignature.signer) = true
  signature : isAllowedSignature a.accountIdentifier.kind a.initialIdentifierSignature.kind = true
  legacy : a.initialIdentifierSignature.kind = .legacyDelegated → a.nonce = 0
  inboxId : a.accountIdentifier.inboxId crates a.nonce = .ok inboxId

theorem updateState_eq_ok {crates : Crates} {a : CreateInbox} {st : Option AssociationState}
    {s : AssociationState} :
    a.updateState crates st = .ok s ↔
      st = none ∧ ∃ inboxId, Accepted crates a inboxId ∧ s = a.initialState inboxId := by
  simp only [updateState, bind_eq_ok, rejectIf_eq_ok, allowedSignatureForKind,
    AssociationState.new, pure_eq_ok, Identifier.eqMember_eq]
  constructor
  · rintro ⟨_, hst, _, hsigner, _, hkind, _, hlegacy, inboxId, hid, rfl⟩
    refine ⟨by simpa using hst, inboxId, ⟨by simpa using hsigner, by simpa using hkind, ?_, hid⟩, rfl⟩
    intro hl
    simpa [hl] using hlegacy
  · rintro ⟨rfl, inboxId, ⟨hsigner, hkind, hlegacy, hid⟩, rfl⟩
    refine ⟨⟨⟩, rfl, ⟨⟩, by simp [hsigner], ⟨⟩, by simp [hkind], ⟨⟩, ?_, inboxId, hid, rfl⟩
    cases hl : a.initialIdentifierSignature.kind == SignatureKind.legacyDelegated
    · rfl
    · simp [hlegacy (by simpa using hl)]

end CreateInbox

structure AddAssociation where
  newMemberSignature : VerifiedSignature
  newMemberIdentifier : MemberIdentifier
  existingMemberSignature : VerifiedSignature
  deriving DecidableEq

namespace AddAssociation

def signatures (a : AddAssociation) : List Bytes :=
  [a.existingMemberSignature.rawBytes, a.newMemberSignature.rawBytes]

/-- Only allow legacy delegated signatures on inboxes with a nonce of 0, as far as the existing
signer has an inbox id to compare with. -/
def legacyCheck (crates : Crates) (a : AddAssociation) (s : AssociationState) :
    Except AssociationError Unit :=
  match a.existingMemberSignature.signer.toIdentifier with
  | some identifier =>
    if isLegacySignature a.newMemberSignature || isLegacySignature a.existingMemberSignature then do
      let inboxId ← identifier.inboxId crates 0
      rejectIf (s.inboxId != inboxId) .legacySignatureReuse
    else .ok ()
  | none => .ok ()

def existingEntityId (a : AddAssociation) (s : AssociationState) :
    Except AssociationError MemberIdentifier :=
  match s.get a.existingMemberSignature.signer with
  | some member => .ok member.identifier
  | none => do
    let recoveryIdentifier := s.recoveryIdentifier.toMember
    rejectIf (a.existingMemberSignature.signer != recoveryIdentifier) .missingExistingMember
    rejectIf (isLegacySignature a.existingMemberSignature) .legacySignatureReuse
    return recoveryIdentifier

def newMember (a : AddAssociation) (entity : MemberIdentifier) (clientTimestampNs : UInt64) :
    Member :=
  ⟨a.newMemberSignature.signer, some entity, some clientTimestampNs,
    a.newMemberSignature.chainId⟩

def updateState (crates : Crates) (a : AddAssociation) (existingState : Option AssociationState)
    (clientTimestampNs : UInt64) : Except AssociationError AssociationState := do
  let s ← okOr existingState .notCreated
  replayCheck a.signatures s
  rejectIf (a.newMemberSignature.signer != a.newMemberIdentifier) .newMemberIdSignatureMismatch
  rejectIf (a.newMemberSignature.signer == a.existingMemberSignature.signer)
    (.generic "tried to add self")
  a.legacyCheck crates s
  allowedSignatureForKind a.newMemberIdentifier.kind a.newMemberSignature.kind
  verifyMemberChainId s a.existingMemberSignature
  let entity ← a.existingEntityId s
  allowedSignatureForKind entity.kind a.existingMemberSignature.kind
  allowedAssociation a.existingMemberSignature.signer.kind a.newMemberIdentifier.kind
  return s.add (a.newMember entity clientTimestampNs)

structure Accepted (crates : Crates) (a : AddAssociation) (s : AssociationState)
    (entity : MemberIdentifier) : Prop where
  fresh : a.signatures.any s.hasSeen = false
  signer : (a.newMemberSignature.signer == a.newMemberIdentifier) = true
  other : (a.newMemberSignature.signer == a.existingMemberSignature.signer) = false
  legacy : a.legacyCheck crates s = .ok ()
  newSignature : isAllowedSignature a.newMemberIdentifier.kind a.newMemberSignature.kind = true
  chainId : verifyMemberChainId s a.existingMemberSignature = .ok ()
  authority : a.existingEntityId s = .ok entity
  existingSignature : isAllowedSignature entity.kind a.existingMemberSignature.kind = true
  association :
    ¬(a.existingMemberSignature.signer.kind = .installation ∧
      a.newMemberIdentifier.kind = .installation)

theorem updateState_eq_ok {crates : Crates} {a : AddAssociation} {st : Option AssociationState}
    {ts : UInt64} {s' : AssociationState} :
    a.updateState crates st ts = .ok s' ↔
      ∃ s entity, st = some s ∧ Accepted crates a s entity ∧
        s' = s.add (a.newMember entity ts) := by
  simp only [updateState, bind_eq_ok, okOr_eq_ok, replayCheck, rejectIf_eq_ok,
    allowedSignatureForKind, allowedAssociation, pure_eq_ok]
  constructor
  · rintro ⟨s, rfl, _, hfresh, _, hsigner, _, hother, _, hlegacy, _, hnew, _, hchain, entity,
      hentity, _, hexisting, _, hassoc, rfl⟩
    refine ⟨s, entity, rfl, ?_, rfl⟩
    exact {
      fresh := hfresh
      signer := by simpa [bne] using hsigner
      other := hother
      legacy := hlegacy
      newSignature := by simpa using hnew
      chainId := hchain
      authority := hentity
      existingSignature := by simpa using hexisting
      association := by simpa using hassoc }
  · rintro ⟨s, entity, rfl, h, rfl⟩
    exact ⟨s, rfl, ⟨⟩, h.fresh, ⟨⟩, by simp [bne, h.signer], ⟨⟩, h.other, ⟨⟩, h.legacy, ⟨⟩,
      by simp [h.newSignature], ⟨⟩, h.chainId, entity, h.authority, ⟨⟩,
      by simp [h.existingSignature], ⟨⟩, by simpa using h.association, rfl⟩

theorem existingEntityId_eq_ok {a : AddAssociation} {s : AssociationState}
    {entity : MemberIdentifier} :
    a.existingEntityId s = .ok entity ↔
      (∃ m, s.get a.existingMemberSignature.signer = some m ∧ entity = m.identifier) ∨
      (s.get a.existingMemberSignature.signer = none ∧
        (a.existingMemberSignature.signer == s.recoveryIdentifier.toMember) = true ∧
        isLegacySignature a.existingMemberSignature = false ∧
        entity = s.recoveryIdentifier.toMember) := by
  unfold existingEntityId
  cases hm : s.get a.existingMemberSignature.signer with
  | some m =>
    constructor
    · rintro ⟨⟩
      exact .inl ⟨m, rfl, rfl⟩
    · rintro (⟨_, ⟨⟩, rfl⟩ | ⟨⟨⟩, _⟩)
      rfl
  | none =>
    simp only [bind_eq_ok, rejectIf_eq_ok, pure_eq_ok]
    constructor
    · rintro ⟨_, hsigner, _, hlegacy, rfl⟩
      exact .inr ⟨trivial, by simpa [bne] using hsigner, hlegacy, rfl⟩
    · rintro (⟨_, ⟨⟩, _⟩ | ⟨_, hsigner, hlegacy, rfl⟩)
      exact ⟨⟨⟩, by simp [bne, hsigner], ⟨⟩, hlegacy, rfl⟩

end AddAssociation

structure RecoveryAccepted (signature : VerifiedSignature) (s : AssociationState) : Prop where
  fresh : s.hasSeen signature.rawBytes = false
  chainId : verifyMemberChainId s signature = .ok ()
  notLegacy : signature.kind ≠ .legacyDelegated
  signer : (signature.signer == s.recoveryIdentifier.toMember) = true

def legacyNotAllowed : AssociationError :=
  .signatureNotAllowed MemberKind.ethereum.display SignatureKind.legacyDelegated.display

structure RevokeAssociation where
  recoveryIdentifierSignature : VerifiedSignature
  revokedMember : MemberIdentifier
  deriving DecidableEq

namespace RevokeAssociation

def signatures (a : RevokeAssociation) : List Bytes := [a.recoveryIdentifierSignature.rawBytes]

def installationsToRemove (a : RevokeAssociation) (s : AssociationState) : List Member :=
  (s.membersByParent a.revokedMember).filter fun child => child.kind == .installation

def updateState (a : RevokeAssociation) (existingState : Option AssociationState) :
    Except AssociationError AssociationState := do
  let s ← okOr existingState .notCreated
  replayCheck a.signatures s
  verifyMemberChainId s a.recoveryIdentifierSignature
  rejectIf (isLegacySignature a.recoveryIdentifierSignature) legacyNotAllowed
  rejectIf (a.recoveryIdentifierSignature.signer != s.recoveryIdentifier.toMember)
    .missingExistingMember
  return (s.remove a.revokedMember).removeAll (a.installationsToRemove s)

theorem updateState_eq_ok {a : RevokeAssociation} {st : Option AssociationState}
    {s' : AssociationState} :
    a.updateState st = .ok s' ↔
      ∃ s, st = some s ∧ RecoveryAccepted a.recoveryIdentifierSignature s ∧
        s' = (s.remove a.revokedMember).removeAll (a.installationsToRemove s) := by
  simp only [updateState, bind_eq_ok, okOr_eq_ok, replayCheck, rejectIf_eq_ok, pure_eq_ok,
    signatures, List.any_cons, List.any_nil, Bool.or_false]
  constructor
  · rintro ⟨s, rfl, _, hfresh, _, hchain, _, hlegacy, _, hsigner, rfl⟩
    exact ⟨s, rfl, ⟨hfresh, hchain, by simpa [isLegacySignature] using hlegacy,
      by simpa [bne] using hsigner⟩, rfl⟩
  · rintro ⟨s, rfl, ⟨hfresh, hchain, hlegacy, hsigner⟩, rfl⟩
    exact ⟨s, rfl, ⟨⟩, hfresh, ⟨⟩, hchain, ⟨⟩, by simpa [isLegacySignature] using hlegacy, ⟨⟩,
      by simp [bne, hsigner], rfl⟩

end RevokeAssociation

structure ChangeRecoveryIdentity where
  recoveryIdentifierSignature : VerifiedSignature
  newRecoveryIdentifier : Identifier
  deriving DecidableEq

namespace ChangeRecoveryIdentity

def signatures (a : ChangeRecoveryIdentity) : List Bytes :=
  [a.recoveryIdentifierSignature.rawBytes]

def updateState (a : ChangeRecoveryIdentity) (existingState : Option AssociationState) :
    Except AssociationError AssociationState := do
  let s ← okOr existingState .notCreated
  replayCheck a.signatures s
  verifyMemberChainId s a.recoveryIdentifierSignature
  rejectIf (isLegacySignature a.recoveryIdentifierSignature) legacyNotAllowed
  rejectIf (!s.recoveryIdentifier.eqMember a.recoveryIdentifierSignature.signer)
    .missingExistingMember
  return s.setRecoveryIdentifier a.newRecoveryIdentifier

theorem updateState_eq_ok {a : ChangeRecoveryIdentity} {st : Option AssociationState}
    {s' : AssociationState} :
    a.updateState st = .ok s' ↔
      ∃ s, st = some s ∧ RecoveryAccepted a.recoveryIdentifierSignature s ∧
        s' = s.setRecoveryIdentifier a.newRecoveryIdentifier := by
  simp only [updateState, bind_eq_ok, okOr_eq_ok, replayCheck, rejectIf_eq_ok, pure_eq_ok,
    signatures, List.any_cons, List.any_nil, Bool.or_false, Identifier.eqMember_eq]
  constructor
  · rintro ⟨s, rfl, _, hfresh, _, hchain, _, hlegacy, _, hsigner, rfl⟩
    exact ⟨s, rfl, ⟨hfresh, hchain, by simpa [isLegacySignature] using hlegacy,
      by rw [BEq.comm]; simpa using hsigner⟩, rfl⟩
  · rintro ⟨s, rfl, ⟨hfresh, hchain, hlegacy, hsigner⟩, rfl⟩
    exact ⟨s, rfl, ⟨⟩, hfresh, ⟨⟩, hchain, ⟨⟩, by simpa [isLegacySignature] using hlegacy, ⟨⟩,
      by rw [BEq.comm] at hsigner; simp [hsigner], rfl⟩

end ChangeRecoveryIdentity

inductive Action
  | createInbox (event : CreateInbox)
  | addAssociation (event : AddAssociation)
  | revokeAssociation (event : RevokeAssociation)
  | changeRecoveryIdentity (event : ChangeRecoveryIdentity)
  deriving DecidableEq

namespace Action

def updateState (crates : Crates) (existingState : Option AssociationState)
    (clientTimestampNs : UInt64) : Action → Except AssociationError AssociationState
  | .createInbox event => event.updateState crates existingState
  | .addAssociation event => event.updateState crates existingState clientTimestampNs
  | .revokeAssociation event => event.updateState existingState
  | .changeRecoveryIdentity event => event.updateState existingState

def signatures : Action → List Bytes
  | .createInbox event => event.signatures
  | .addAssociation event => event.signatures
  | .revokeAssociation event => event.signatures
  | .changeRecoveryIdentity event => event.signatures

end Action

structure IdentityUpdate where
  inboxId : String
  clientTimestampNs : UInt64
  actions : List Action
  deriving DecidableEq

namespace IdentityUpdate

def signatures (u : IdentityUpdate) : List Bytes := u.actions.flatMap Action.signatures

def updateState (crates : Crates) (u : IdentityUpdate) (existingState : Option AssociationState) :
    Except AssociationError AssociationState := do
  let state ← u.actions.foldlM
    (fun state action => some <$> action.updateState crates state u.clientTimestampNs)
    existingState
  let newState ← okOr state .notCreated
  rejectIf (newState.inboxId != u.inboxId) .wrongInboxId
  -- the signatures can not be re-used in subsequent updates
  return newState.addSeenSignatures u.signatures

end IdentityUpdate

def applyUpdate (crates : Crates) (initialState : AssociationState) (update : IdentityUpdate) :
    Except AssociationError AssociationState :=
  update.updateState crates (some initialState)

def getState (crates : Crates) (updates : List IdentityUpdate) :
    Except AssociationError AssociationState := do
  let state ← updates.foldlM (fun state update => some <$> update.updateState crates state) none
  okOr state .notCreated

end LibXmtp.Associations
