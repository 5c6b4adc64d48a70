import LibXmtp.Associations.Unverified
import LibXmtp.Data.ParseInt

/-! Signature requests: the actions of an identity update, the signatures that are collected for
them in whatever order, and the update that they make. Those of smart contract wallets are verified
on the chains the wallets are on. -/

namespace LibXmtp.Associations

open LibXmtp.Data

def parseU64 (text : List Char) : Option UInt64 := do
  let digits := match text with
    | '+' :: digits => digits
    | digits => digits
  if digits.isEmpty then none
  else do
    let value ← digits.foldlM (fun value c => do
      let digit ← decimalDigit c
      if 10 * value + digit < UInt64.size then some (10 * value + digit) else none) 0
    return UInt64.ofNat value

example : parseU64 "8453".toList = some 8453 := by decide
example : parseU64 "18446744073709551616".toList = none := by decide

def AccountId.getChainIdU64 (accountId : AccountId) : Except SignatureError UInt64 := do
  let stripped ← okOr ("eip155:".toList.isPrefixOf? accountId.chainId.toList) .accountIdError
  okOr (parseU64 stripped) .accountIdError

structure ValidationResponse where
  isValid : Bool
  blockNumber : Option UInt64

/-- A node of a chain: what the validation contract answers for an account's address, the hash of a
text and a signature, with the state that the chain has at a block. -/
structure RpcSmartContractWalletVerifier where
  call : String → String → Bytes → UInt64 → Option Bytes

def RpcSmartContractWalletVerifier.isValidSignature (verifier : RpcSmartContractWalletVerifier)
    (latest : Option UInt64) (accountId : AccountId) (signatureText : String)
    (signatureBytes : Bytes) (blockNumber : Option UInt64) :
    Except SignatureError ValidationResponse := do
  let blockNumber ← okOr (blockNumber.or latest) .verifierError
  let result ← okOr
    (verifier.call accountId.accountAddress signatureText signatureBytes blockNumber) .verifierError
  return ⟨result == [1], some blockNumber⟩

structure MultiSmartContractSignatureVerifier where
  verifiers : HashMap String RpcSmartContractWalletVerifier

def MultiSmartContractSignatureVerifier.isValidSignature
    (scwVerifier : MultiSmartContractSignatureVerifier) (latest : String → Option UInt64)
    (accountId : AccountId) (signatureText : String) (signatureBytes : Bytes)
    (blockNumber : Option UInt64) : Except SignatureError ValidationResponse := do
  let verifier ← okOr (scwVerifier.verifiers.get accountId.chainId) .verifierError
  verifier.isValidSignature (latest accountId.chainId) accountId signatureText signatureBytes
    blockNumber

def fromSmartContractWallet (scwVerifier : MultiSmartContractSignatureVerifier)
    (latest : String → Option UInt64) (signatureText : String) (signatureBytes : Bytes)
    (accountId : AccountId) (blockNumber : Option UInt64) :
    Except SignatureError (VerifiedSignature × Option UInt64) := do
  let response ← scwVerifier.isValidSignature latest accountId signatureText signatureBytes
    blockNumber
  if response.isValid then do
    let signer ← (Identifier.eth accountId.accountAddress).mapError fun _ =>
      .addressValidationError
    let chainId ← accountId.getChainIdU64
    return (⟨signer.toMember, .erc1271, signatureBytes, some chainId⟩, response.blockNumber)
  else .error .invalid

/-- Verifying with the wallets' contracts, when the chains have these latest blocks. -/
def SignatureVerifiers.withWallets {Key : Type} (verifiers : SignatureVerifiers Key)
    (scwVerifier : MultiSmartContractSignatureVerifier) (latest : String → Option UInt64) :
    SignatureVerifiers Key :=
  { verifiers with
    fromSmartContractWallet := fun signatureText signatureBytes accountId blockNumber =>
      Prod.fst <$> Associations.fromSmartContractWallet scwVerifier latest signatureText
        signatureBytes accountId (some blockNumber) }

section Wallets

variable {scwVerifier : MultiSmartContractSignatureVerifier} {latest : String → Option UInt64}
  {accountId : AccountId} {signatureText : String} {signatureBytes : Bytes}
  {blockNumber : Option UInt64}

theorem MultiSmartContractSignatureVerifier.isValidSignature_named {response : ValidationResponse}
    (h : scwVerifier.isValidSignature latest accountId signatureText signatureBytes blockNumber =
      .ok response) :
    ∃ n, response.blockNumber = some n ∧ ∀ latest', scwVerifier.isValidSignature latest' accountId
      signatureText signatureBytes (some n) = .ok response := by
  simp only [isValidSignature, RpcSmartContractWalletVerifier.isValidSignature, bind_eq_ok,
    okOr_eq_ok, pure_eq_ok] at h
  obtain ⟨verifier, hverifier, n, _, result, hresult, rfl⟩ := h
  refine ⟨n, rfl, fun latest' => ?_⟩
  simp only [isValidSignature, RpcSmartContractWalletVerifier.isValidSignature, hverifier, hresult,
    okOr_some, ok_bind, Option.some_or]
  rfl

theorem fromSmartContractWallet_named {verified : VerifiedSignature} {verifiedAt : Option UInt64}
    (h : fromSmartContractWallet scwVerifier latest signatureText signatureBytes accountId
      blockNumber = .ok (verified, verifiedAt)) :
    ∃ n, verifiedAt = some n ∧ ∀ latest', fromSmartContractWallet scwVerifier latest' signatureText
      signatureBytes accountId (some n) = .ok (verified, some n) := by
  simp only [fromSmartContractWallet, bind_eq_ok] at h
  obtain ⟨response, hresponse, h⟩ := h
  obtain ⟨n, hn, hnamed⟩ := scwVerifier.isValidSignature_named hresponse
  split at h
  next hvalid =>
    simp only [bind_eq_ok, pure_eq_ok, Prod.mk.injEq] at h
    obtain ⟨signer, hsigner, chainId, hchainId, rfl, rfl⟩ := h
    refine ⟨n, hn, fun latest' => ?_⟩
    simp only [fromSmartContractWallet, hnamed, ok_bind, hvalid, if_pos, hsigner, hchainId, hn]
    rfl
  next => cases h

theorem UnverifiedSignature.toVerified_withWallets {Key : Type}
    {verifiers : SignatureVerifiers Key} {signature : UnverifiedSignature Key}
    {verified : VerifiedSignature} (h : signature.toVerified
      (verifiers.withWallets scwVerifier latest) signatureText = .ok verified)
    (latest' : String → Option UInt64) :
    signature.toVerified (verifiers.withWallets scwVerifier latest') signatureText =
      .ok verified := by
  cases signature with
  | smartContractWallet signatureBytes accountId blockNumber =>
    simp only [toVerified, SignatureVerifiers.withWallets, map_eq_ok, Prod.exists,
      exists_and_right, exists_eq_right] at h ⊢
    obtain ⟨verifiedAt, h⟩ := h
    have hasked : verifiedAt = some blockNumber := by
      simp only [fromSmartContractWallet, MultiSmartContractSignatureVerifier.isValidSignature,
        RpcSmartContractWalletVerifier.isValidSignature, bind_eq_ok, okOr_eq_ok, pure_eq_ok,
        Option.some_or, Option.some.injEq] at h
      obtain ⟨response, ⟨_, _, _, rfl, _, _, rfl⟩, h⟩ := h
      split at h
      · simp only [bind_eq_ok, pure_eq_ok, Prod.mk.injEq] at h
        obtain ⟨_, _, _, _, _, rfl⟩ := h
        rfl
      · cases h
    subst hasked
    obtain ⟨n, hn, hnamed⟩ := fromSmartContractWallet_named h
    cases hn
    exact ⟨some blockNumber, hnamed latest'⟩
  | installationKey | recoverableEcdsa | legacyDelegated | passkey => exact h

end Wallets

inductive SignatureField
  | initialAddress
  | existingMember
  | newMember
  | recoveryAddress
  deriving DecidableEq

structure PendingIdentityAction where
  unsignedAction : UnsignedAction
  pendingSignatures : HashMap SignatureField MemberIdentifier

structure SignatureRequestBuilder where
  inboxId : String
  clientTimestampNs : UInt64
  actions : List PendingIdentityAction

inductive SignatureRequestError
  | unknownSigner
  | missingSigner
  | signature (error : SignatureError)
  | blockNumber

structure SignatureRequest (Key : Type) where
  pendingActions : List PendingIdentityAction
  signatureText : String
  signatures : HashMap MemberIdentifier (UnverifiedSignature Key)
  clientTimestampNs : UInt64
  inboxId : String

structure NewUnverifiedSmartContractWalletSignature where
  signatureBytes : Bytes
  accountId : AccountId
  blockNumber : Option UInt64

section Request

variable {Key : Type}

namespace SignatureRequestBuilder

def new (inboxId : String) (nowNs : Int64) : SignatureRequestBuilder :=
  ⟨inboxId, nowNs.toUInt64, []⟩

variable (builder : SignatureRequestBuilder)

def createInbox (signerIdentity : Identifier) (nonce : UInt64) : SignatureRequestBuilder :=
  { builder with actions := builder.actions ++ [{
      unsignedAction := .createInbox ⟨nonce, signerIdentity⟩
      pendingSignatures := .ofList [(.initialAddress, signerIdentity.toMember)] }] }

def addAssociation (newMemberIdentifier existingMemberIdentifier : MemberIdentifier) :
    SignatureRequestBuilder :=
  { builder with actions := builder.actions ++ [{
      unsignedAction := .addAssociation ⟨newMemberIdentifier⟩
      pendingSignatures := .ofList [(.existingMember, existingMemberIdentifier),
        (.newMember, newMemberIdentifier)] }] }

def revokeAssociation (recoveryAddressSigner revokedMember : MemberIdentifier) :
    SignatureRequestBuilder :=
  { builder with actions := builder.actions ++ [{
      unsignedAction := .revokeAssociation ⟨revokedMember⟩
      pendingSignatures := .ofList [(.recoveryAddress, recoveryAddressSigner)] }] }

def changeRecoveryAddress (recoveryAddressSigner : MemberIdentifier)
    (newRecoveryIdentifier : Identifier) : SignatureRequestBuilder :=
  { builder with actions := builder.actions ++ [{
      unsignedAction := .changeRecoveryAddress ⟨newRecoveryIdentifier⟩
      pendingSignatures := .ofList [(.recoveryAddress, recoveryAddressSigner)] }] }

def build (crates : Crates) (chrono : Chrono) : SignatureRequest Key where
  pendingActions := builder.actions
  signatureText := UnsignedIdentityUpdate.signatureText crates chrono
    ⟨builder.inboxId, builder.clientTimestampNs, builder.actions.map (·.unsignedAction)⟩
  signatures := .empty
  clientTimestampNs := builder.clientTimestampNs
  inboxId := builder.inboxId

end SignatureRequestBuilder

namespace SignatureRequest

variable (verifiers : SignatureVerifiers Key) (scwVerifier : MultiSmartContractSignatureVerifier)
  (latest : String → Option UInt64) (request : SignatureRequest Key)

def missingSignatures : List MemberIdentifier :=
  (request.pendingActions.flatMap fun pendingAction => pendingAction.pendingSignatures.values).filter
    fun identifier => !request.signatures.containsKey identifier

def isReady : Bool := request.missingSignatures.isEmpty

def addVerifiedSignature (signature : UnverifiedSignature Key) (verified : VerifiedSignature) :
    Except SignatureRequestError (SignatureRequest Key) := do
  rejectIf (!request.missingSignatures.contains verified.signer) .unknownSigner
  return { request with signatures := request.signatures.insert verified.signer signature }

def addSignature (signature : UnverifiedSignature Key) :
    Except SignatureRequestError (SignatureRequest Key) := do
  let verified ← (signature.toVerified (verifiers.withWallets scwVerifier latest)
    request.signatureText).mapError .signature
  request.addVerifiedSignature signature verified

def addNewUnverifiedSmartContractSignature (signature : NewUnverifiedSmartContractWalletSignature) :
    Except SignatureRequestError (SignatureRequest Key) := do
  let (verified, blockNumber) ← (fromSmartContractWallet scwVerifier latest request.signatureText
    signature.signatureBytes signature.accountId signature.blockNumber).mapError .signature
  let blockNumber ← okOr blockNumber .blockNumber
  request.addVerifiedSignature
    (.smartContractWallet signature.signatureBytes signature.accountId blockNumber) verified

end SignatureRequest

def signatureOf (pendingAction : PendingIdentityAction)
    (signatures : HashMap MemberIdentifier (UnverifiedSignature Key)) (field : SignatureField) :
    Except SignatureRequestError (UnverifiedSignature Key) := do
  let signerIdentity ← okOr (pendingAction.pendingSignatures.get field) .missingSigner
  okOr (signatures.get signerIdentity) .missingSigner

def buildAction (pendingAction : PendingIdentityAction)
    (signatures : HashMap MemberIdentifier (UnverifiedSignature Key)) :
    Except SignatureRequestError (UnverifiedAction Key) :=
  match pendingAction.unsignedAction with
  | .createInbox unsignedAction => do
    let signature ← signatureOf pendingAction signatures .initialAddress
    return .createInbox ⟨unsignedAction, signature⟩
  | .addAssociation unsignedAction => do
    let existingMemberSignature ← signatureOf pendingAction signatures .existingMember
    let newMemberSignature ← signatureOf pendingAction signatures .newMember
    return .addAssociation ⟨unsignedAction, newMemberSignature, existingMemberSignature⟩
  | .revokeAssociation unsignedAction => do
    let signature ← signatureOf pendingAction signatures .recoveryAddress
    return .revokeAssociation ⟨signature, unsignedAction⟩
  | .changeRecoveryAddress unsignedAction => do
    let signature ← signatureOf pendingAction signatures .recoveryAddress
    return .changeRecoveryAddress ⟨signature, unsignedAction⟩

def SignatureRequest.buildIdentityUpdate (request : SignatureRequest Key) :
    Except SignatureRequestError (UnverifiedIdentityUpdate Key) := do
  rejectIf (!request.isReady) .missingSigner
  let actions ← request.pendingActions.mapM fun pendingAction =>
    buildAction pendingAction request.signatures
  return ⟨request.inboxId, request.clientTimestampNs, actions⟩

inductive BuilderCall
  | createInbox (signerIdentity : Identifier) (nonce : UInt64)
  | addAssociation (newMemberIdentifier existingMemberIdentifier : MemberIdentifier)
  | revokeAssociation (recoveryAddressSigner revokedMember : MemberIdentifier)
  | changeRecoveryAddress (recoveryAddressSigner : MemberIdentifier)
      (newRecoveryIdentifier : Identifier)

namespace BuilderCall

def call (builder : SignatureRequestBuilder) : BuilderCall → SignatureRequestBuilder
  | .createInbox signerIdentity nonce => builder.createInbox signerIdentity nonce
  | .addAssociation newMember existingMember => builder.addAssociation newMember existingMember
  | .revokeAssociation signer revokedMember => builder.revokeAssociation signer revokedMember
  | .changeRecoveryAddress signer newRecovery => builder.changeRecoveryAddress signer newRecovery

def signers : BuilderCall → List MemberIdentifier
  | .createInbox signerIdentity _ => [signerIdentity.toMember]
  | .addAssociation newMember existingMember => [existingMember, newMember]
  | .revokeAssociation signer _ => [signer]
  | .changeRecoveryAddress signer _ => [signer]

/-- The action is what the call has asked for, signed by those who have to. -/
def AskedFor : BuilderCall → Action → Prop
  | .createInbox signerIdentity nonce, .createInbox action =>
    action.nonce = nonce ∧ action.accountIdentifier = signerIdentity ∧
      (action.initialIdentifierSignature.signer == signerIdentity.toMember) = true
  | .addAssociation newMember existingMember, .addAssociation action =>
    action.newMemberIdentifier = newMember ∧ (action.newMemberSignature.signer == newMember) = true ∧
      (action.existingMemberSignature.signer == existingMember) = true
  | .revokeAssociation signer revokedMember, .revokeAssociation action =>
    action.revokedMember = revokedMember ∧
      (action.recoveryIdentifierSignature.signer == signer) = true
  | .changeRecoveryAddress signer newRecovery, .changeRecoveryIdentity action =>
    action.newRecoveryIdentifier = newRecovery ∧
      (action.recoveryIdentifierSignature.signer == signer) = true
  | _, _ => False

def pending : BuilderCall → PendingIdentityAction
  | .createInbox signerIdentity nonce => {
      unsignedAction := .createInbox ⟨nonce, signerIdentity⟩
      pendingSignatures := .ofList [(.initialAddress, signerIdentity.toMember)] }
  | .addAssociation newMember existingMember => {
      unsignedAction := .addAssociation ⟨newMember⟩
      pendingSignatures := .ofList [(.existingMember, existingMember), (.newMember, newMember)] }
  | .revokeAssociation signer revokedMember => {
      unsignedAction := .revokeAssociation ⟨revokedMember⟩
      pendingSignatures := .ofList [(.recoveryAddress, signer)] }
  | .changeRecoveryAddress signer newRecovery => {
      unsignedAction := .changeRecoveryAddress ⟨newRecovery⟩
      pendingSignatures := .ofList [(.recoveryAddress, signer)] }

theorem call_eq (builder : SignatureRequestBuilder) (asked : BuilderCall) :
    asked.call builder = { builder with actions := builder.actions ++ [asked.pending] } := by
  cases asked <;> rfl

theorem foldl_call (calls : List BuilderCall) (builder : SignatureRequestBuilder) :
    calls.foldl call builder = { builder with actions := builder.actions ++ calls.map pending } := by
  induction calls generalizing builder with
  | nil => simp
  | cons asked calls ih => simp [List.foldl_cons, ih, call_eq]

theorem values_pending (asked : BuilderCall) :
    asked.pending.pendingSignatures.values = asked.signers := by
  cases asked <;> rfl

end BuilderCall

/-- A signature that is submitted to the request, when the chains have these latest blocks. -/
inductive Submission (Key : Type)
  | unverified (latest : String → Option UInt64) (signature : UnverifiedSignature Key)
  | newSmartContract (latest : String → Option UInt64)
      (signature : NewUnverifiedSmartContractWalletSignature)

namespace Submission

variable (verifiers : SignatureVerifiers Key) (scwVerifier : MultiSmartContractSignatureVerifier)

def addTo (request : SignatureRequest Key) :
    Submission Key → Except SignatureRequestError (SignatureRequest Key)
  | .unverified latest signature => request.addSignature verifiers scwVerifier latest signature
  | .newSmartContract latest signature =>
    request.addNewUnverifiedSmartContractSignature scwVerifier latest signature

def verify (signatureText : String) : Submission Key →
    Except SignatureRequestError (UnverifiedSignature Key × VerifiedSignature)
  | .unverified latest signature => do
    let verified ← (signature.toVerified (verifiers.withWallets scwVerifier latest)
      signatureText).mapError .signature
    return (signature, verified)
  | .newSmartContract latest signature => do
    let (verified, blockNumber) ← (fromSmartContractWallet scwVerifier latest signatureText
      signature.signatureBytes signature.accountId signature.blockNumber).mapError .signature
    let blockNumber ← okOr blockNumber .blockNumber
    return (.smartContractWallet signature.signatureBytes signature.accountId blockNumber, verified)

/-- The submission is the signer's valid signature of the text. -/
def SignedBy (signatureText : String) (submission : Submission Key) (signer : MemberIdentifier) :
    Prop :=
  ∃ signature verified, submission.verify verifiers scwVerifier signatureText =
    .ok (signature, verified) ∧ (verified.signer == signer) = true

def submitTo (request : SignatureRequest Key) (submission : Submission Key) :
    SignatureRequest Key :=
  match submission.addTo verifiers scwVerifier request with
  | .ok request' => request'
  | .error _ => request

variable {verifiers} {scwVerifier} {submission : Submission Key} {request : SignatureRequest Key}

theorem addTo_eq : submission.addTo verifiers scwVerifier request =
    submission.verify verifiers scwVerifier request.signatureText >>= fun kept =>
      request.addVerifiedSignature kept.1 kept.2 := by
  cases submission with
  | unverified latest signature =>
    simp only [addTo, SignatureRequest.addSignature, verify, bind_assoc, pure_bind]
  | newSmartContract latest signature =>
    simp only [addTo, SignatureRequest.addNewUnverifiedSmartContractSignature, verify, bind_assoc,
      pure_bind]

theorem toVerified_of_verify {signatureText : String} {signature : UnverifiedSignature Key}
    {verified : VerifiedSignature}
    (h : submission.verify verifiers scwVerifier signatureText = .ok (signature, verified))
    (latest : String → Option UInt64) :
    signature.toVerified (verifiers.withWallets scwVerifier latest) signatureText =
      .ok verified := by
  cases submission with
  | unverified latest signature =>
    simp only [verify, bind_eq_ok, mapError_eq_ok, pure_eq_ok, Prod.mk.injEq] at h
    obtain ⟨_, h, rfl, rfl⟩ := h
    exact signature.toVerified_withWallets h _
  | newSmartContract latest signature =>
    simp only [verify, bind_eq_ok, mapError_eq_ok, okOr_eq_ok, pure_eq_ok, Prod.mk.injEq] at h
    obtain ⟨⟨_, verifiedAt⟩, h, blockNumber, rfl, rfl, rfl⟩ := h
    obtain ⟨n, hn, hnamed⟩ := fromSmartContractWallet_named h
    cases hn
    simp only [UnverifiedSignature.toVerified, SignatureVerifiers.withWallets, hnamed]
    rfl

end Submission

section Run

variable {verifiers : SignatureVerifiers Key} {scwVerifier : MultiSmartContractSignatureVerifier}
  {start request : SignatureRequest Key} {submitted : List (Submission Key)}

namespace SignatureRequest

def asked (request : SignatureRequest Key) : List MemberIdentifier :=
  request.pendingActions.flatMap fun pendingAction => pendingAction.pendingSignatures.values

theorem isReady_iff : request.isReady = true ↔
    ∀ signer ∈ request.asked, request.signatures.containsKey signer = true := by
  simp [isReady, missingSignatures, asked, List.isEmpty_iff, List.filter_eq_nil_iff]

theorem contains_missingSignatures {member : MemberIdentifier} :
    request.missingSignatures.contains member = true ↔ ∃ signer ∈ request.asked,
      (member == signer) = true ∧ request.signatures.containsKey signer = false := by
  simp only [missingSignatures, List.contains_iff_exists_mem_beq, List.mem_filter, asked,
    Bool.not_eq_true', and_assoc, and_comm (a := (member == _) = true)]

/-- The signature that is kept for a signer is the signer's, whenever it is verified. -/
def KeptFor (verifiers : SignatureVerifiers Key) (scwVerifier : MultiSmartContractSignatureVerifier)
    (signatureText : String) (signature : UnverifiedSignature Key) (signer : MemberIdentifier) :
    Prop :=
  ∃ verified, (verified.signer == signer) = true ∧ ∀ latest, signature.toVerified
    (verifiers.withWallets scwVerifier latest) signatureText = .ok verified

/-- What is so once these have been submitted: the request still asks for the same, and has a
signature of all who have signed and are asked to. -/
structure Collected (verifiers : SignatureVerifiers Key)
    (scwVerifier : MultiSmartContractSignatureVerifier) (start : SignatureRequest Key)
    (submitted : List (Submission Key)) (request : SignatureRequest Key) : Prop where
  unchanged : request = { start with signatures := request.signatures }
  kept : ∀ signer signature, request.signatures.get signer = some signature →
    KeptFor verifiers scwVerifier start.signatureText signature signer
  containsKey_iff : ∀ signer ∈ start.asked, request.signatures.containsKey signer = true ↔
    ∃ submission ∈ submitted, submission.SignedBy verifiers scwVerifier start.signatureText signer

namespace Collected

variable (h : Collected verifiers scwVerifier start submitted request)

include h

theorem asked_eq : request.asked = start.asked := by rw [h.unchanged]; rfl

theorem signatureText_eq : request.signatureText = start.signatureText := by rw [h.unchanged]

theorem refused {submission : Submission Key}
    (hsigned : ∀ signer ∈ start.asked,
      submission.SignedBy verifiers scwVerifier start.signatureText signer →
        request.signatures.containsKey signer = true) :
    Collected verifiers scwVerifier start (submitted ++ [submission]) request where
  unchanged := h.unchanged
  kept := h.kept
  containsKey_iff signer hsigner := by
    simp only [List.mem_append, List.mem_singleton, or_and_right, exists_or, exists_eq_left]
    constructor
    · intro hkey
      exact .inl ((h.containsKey_iff signer hsigner).mp hkey)
    · rintro (hbefore | hnow)
      · exact (h.containsKey_iff signer hsigner).mpr hbefore
      · exact hsigned signer hsigner hnow

theorem added {submission : Submission Key} {signature : UnverifiedSignature Key}
    {verified : VerifiedSignature} (hverify : submission.verify verifiers scwVerifier
      start.signatureText = .ok (signature, verified)) :
    Collected verifiers scwVerifier start (submitted ++ [submission])
      { request with signatures := request.signatures.insert verified.signer signature } where
  unchanged := by
    rw [h.unchanged]
  kept signer signature' hget := by
    simp only [HashMap.get_insert] at hget
    split at hget
    next hsigner =>
      cases hget
      exact ⟨verified, hsigner, submission.toVerified_of_verify hverify⟩
    next => exact h.kept signer signature' hget
  containsKey_iff signer hsigner := by
    simp only [HashMap.containsKey_insert, Bool.or_eq_true, h.containsKey_iff signer hsigner,
      List.mem_append, List.mem_singleton, or_and_right, exists_or, exists_eq_left]
    have hsigned : submission.SignedBy verifiers scwVerifier start.signatureText signer ↔
        (verified.signer == signer) = true := by
      constructor
      · rintro ⟨_, _, hverify', heq⟩
        cases hverify.symm.trans hverify'
        exact heq
      · exact fun heq => ⟨signature, verified, hverify, heq⟩
    rw [hsigned, or_comm]

theorem submitTo (submission : Submission Key) :
    Collected verifiers scwVerifier start (submitted ++ [submission])
      (submission.submitTo verifiers scwVerifier request) := by
  unfold Submission.submitTo
  rw [Submission.addTo_eq, h.signatureText_eq]
  cases hverify : submission.verify verifiers scwVerifier start.signatureText with
  | error e =>
    refine h.refused fun signer _ hsigned => ?_
    obtain ⟨_, _, hverify', _⟩ := hsigned
    cases hverify.symm.trans hverify'
  | ok kept =>
    obtain ⟨signature, verified⟩ := kept
    simp only [ok_bind, addVerifiedSignature]
    cases hmissing : request.missingSignatures.contains verified.signer with
    | true => exact h.added hverify
    | false =>
      refine h.refused fun signer hsigner hsigned => ?_
      obtain ⟨_, _, hverify', heq⟩ := hsigned
      cases hverify.symm.trans hverify'
      by_contra hkey
      have hcontains : request.missingSignatures.contains verified.signer = true :=
        contains_missingSignatures.mpr
          ⟨signer, h.asked_eq ▸ hsigner, heq, Bool.not_eq_true _ ▸ hkey⟩
      rw [hmissing] at hcontains
      cases hcontains

theorem run (submissions : List (Submission Key)) :
    Collected verifiers scwVerifier start (submitted ++ submissions)
      (submissions.foldl (Submission.submitTo verifiers scwVerifier) request) := by
  induction submissions generalizing submitted request with
  | nil => simpa using h
  | cons submission submissions ih => simpa using ih (h.submitTo submission)

end Collected

end SignatureRequest

section Build

variable {signatureText : String} {signatures : HashMap MemberIdentifier (UnverifiedSignature Key)}

theorem exists_signatureOf (pendingAction : PendingIdentityAction) (field : SignatureField)
    {signer : MemberIdentifier} (hfield : pendingAction.pendingSignatures.get field = some signer)
    (hkept : ∃ signature, signatures.get signer = some signature ∧
      SignatureRequest.KeptFor verifiers scwVerifier signatureText signature signer) :
    ∃ signature, signatureOf pendingAction signatures field = .ok signature ∧
      SignatureRequest.KeptFor verifiers scwVerifier signatureText signature signer := by
  obtain ⟨signature, hget, hkept⟩ := hkept
  exact ⟨signature, by simp [signatureOf, hfield, hget], hkept⟩

theorem exists_buildAction (asked : BuilderCall)
    (hkept : ∀ signer ∈ asked.signers, ∃ signature, signatures.get signer = some signature ∧
      SignatureRequest.KeptFor verifiers scwVerifier signatureText signature signer) :
    ∃ action, buildAction asked.pending signatures = .ok action ∧
      action.unsignedAction = asked.pending.unsignedAction ∧
      ∃ verified, asked.AskedFor verified ∧ ∀ latest, action.toVerified
        (verifiers.withWallets scwVerifier latest) signatureText = .ok verified := by
  cases asked with
  | createInbox signerIdentity nonce =>
    obtain ⟨signature, hsignature, verified, hsigner, hverified⟩ := exists_signatureOf
      (BuilderCall.createInbox signerIdentity nonce).pending .initialAddress rfl
      (hkept _ List.mem_cons_self)
    refine ⟨.createInbox ⟨⟨nonce, signerIdentity⟩, signature⟩, ?_, rfl,
      .createInbox ⟨nonce, signerIdentity, verified⟩, ⟨rfl, rfl, hsigner⟩, fun latest => ?_⟩
    · simp only [buildAction, BuilderCall.pending] at hsignature ⊢
      rw [hsignature]; rfl
    · simp only [UnverifiedAction.toVerified, hverified latest]; rfl
  | addAssociation newMember existingMember =>
    obtain ⟨existing, hexisting, verified, hsigner, hverified⟩ := exists_signatureOf
      (BuilderCall.addAssociation newMember existingMember).pending .existingMember rfl
      (hkept _ List.mem_cons_self)
    obtain ⟨added, hadded, verified', hsigner', hverified'⟩ := exists_signatureOf
      (BuilderCall.addAssociation newMember existingMember).pending .newMember rfl
      (hkept _ (List.mem_cons_of_mem _ List.mem_cons_self))
    refine ⟨.addAssociation ⟨⟨newMember⟩, added, existing⟩, ?_, rfl,
      .addAssociation ⟨verified', newMember, verified⟩, ⟨rfl, hsigner', hsigner⟩, fun latest => ?_⟩
    · simp only [buildAction, BuilderCall.pending] at hexisting hadded ⊢
      rw [hexisting, hadded]; rfl
    · simp only [UnverifiedAction.toVerified, hverified latest, hverified' latest]; rfl
  | revokeAssociation signer revokedMember =>
    obtain ⟨signature, hsignature, verified, hsigner, hverified⟩ := exists_signatureOf
      (BuilderCall.revokeAssociation signer revokedMember).pending .recoveryAddress rfl
      (hkept _ List.mem_cons_self)
    refine ⟨.revokeAssociation ⟨signature, ⟨revokedMember⟩⟩, ?_, rfl,
      .revokeAssociation ⟨verified, revokedMember⟩, ⟨rfl, hsigner⟩, fun latest => ?_⟩
    · simp only [buildAction, BuilderCall.pending] at hsignature ⊢
      rw [hsignature]; rfl
    · simp only [UnverifiedAction.toVerified, hverified latest]; rfl
  | changeRecoveryAddress signer newRecovery =>
    obtain ⟨signature, hsignature, verified, hsigner, hverified⟩ := exists_signatureOf
      (BuilderCall.changeRecoveryAddress signer newRecovery).pending .recoveryAddress rfl
      (hkept _ List.mem_cons_self)
    refine ⟨.changeRecoveryAddress ⟨signature, ⟨newRecovery⟩⟩, ?_, rfl,
      .changeRecoveryIdentity ⟨verified, newRecovery⟩, ⟨rfl, hsigner⟩, fun latest => ?_⟩
    · simp only [buildAction, BuilderCall.pending] at hsignature ⊢
      rw [hsignature]; rfl
    · simp only [UnverifiedAction.toVerified, hverified latest]; rfl

theorem exists_buildActions (calls : List BuilderCall)
    (hkept : ∀ asked ∈ calls, ∀ signer ∈ asked.signers, ∃ signature,
      signatures.get signer = some signature ∧
        SignatureRequest.KeptFor verifiers scwVerifier signatureText signature signer) :
    ∃ actions, ((calls.map BuilderCall.pending).mapM fun pendingAction =>
        buildAction pendingAction signatures) = .ok actions ∧
      actions.map UnverifiedAction.unsignedAction =
        calls.map (fun asked => asked.pending.unsignedAction) ∧
      ∃ verified, List.Forall₂ BuilderCall.AskedFor calls verified ∧ ∀ latest,
        (actions.mapM fun action => action.toVerified (verifiers.withWallets scwVerifier latest)
          signatureText) = .ok verified := by
  induction calls with
  | nil => exact ⟨[], rfl, rfl, [], .nil, fun _ => rfl⟩
  | cons asked calls ih =>
    obtain ⟨action, haction, hunsigned, verified, hasked, hverified⟩ :=
      exists_buildAction asked (hkept asked List.mem_cons_self)
    obtain ⟨actions, hactions, hunsigneds, verifieds, hforall, hverifieds⟩ :=
      ih fun asked' hmem => hkept asked' (List.mem_cons_of_mem _ hmem)
    refine ⟨action :: actions, ?_, ?_, verified :: verifieds, .cons hasked hforall,
      fun latest => ?_⟩
    · simp only [List.map_cons, List.mapM_cons, haction, ok_bind, hactions]; rfl
    · simp only [List.map_cons, hunsigned, hunsigneds]
    · simp only [List.mapM_cons, hverified latest, ok_bind, hverifieds latest]; rfl

end Build

def SignatureRequestBuilder.requestOf (crates : Crates) (chrono : Chrono) (inboxId : String)
    (nowNs : Int64) (calls : List BuilderCall) : SignatureRequest Key :=
  (calls.foldl BuilderCall.call (.new inboxId nowNs)).build crates chrono

theorem SignatureRequestBuilder.requestOf_eq (crates : Crates) (chrono : Chrono) (inboxId : String)
    (nowNs : Int64) (calls : List BuilderCall) :
    (requestOf crates chrono inboxId nowNs calls : SignatureRequest Key) = {
      pendingActions := calls.map BuilderCall.pending
      signatureText := UnsignedIdentityUpdate.signatureText crates chrono ⟨inboxId, nowNs.toUInt64,
        calls.map fun asked => asked.pending.unsignedAction⟩
      signatures := .empty
      clientTimestampNs := nowNs.toUInt64
      inboxId := inboxId } := by
  simp [requestOf, BuilderCall.foldl_call, new, build, Function.comp_def]

theorem SignatureRequestBuilder.asked_requestOf (crates : Crates) (chrono : Chrono)
    (inboxId : String) (nowNs : Int64) (calls : List BuilderCall) :
    (requestOf crates chrono inboxId nowNs calls : SignatureRequest Key).asked =
      calls.flatMap BuilderCall.signers := by
  simp [requestOf_eq, SignatureRequest.asked, List.flatMap_map, BuilderCall.values_pending]

theorem SignatureRequest.collected_start (start : SignatureRequest Key)
    (hempty : start.signatures = .empty) : Collected verifiers scwVerifier start [] start where
  unchanged := rfl
  kept signer signature hget := by
    rw [hempty] at hget
    cases hget
  containsKey_iff signer _ := by
    rw [hempty]
    simp [HashMap.containsKey]

theorem SignatureRequest.Collected.exists_update {crates : Crates} {chrono : Chrono}
    {inboxId : String} {nowNs : Int64} {calls : List BuilderCall} (h : Collected verifiers scwVerifier
      (SignatureRequestBuilder.requestOf crates chrono inboxId nowNs calls) submitted request)
    (hready : request.isReady = true) :
    ∃ update, request.buildIdentityUpdate = .ok update ∧
      update.signatureText crates chrono = request.signatureText ∧
      ∃ actions, List.Forall₂ BuilderCall.AskedFor calls actions ∧ ∀ latest,
        update.toVerified (verifiers.withWallets scwVerifier latest) crates chrono =
          .ok ⟨inboxId, nowNs.toUInt64, actions⟩ := by
  have hkept : ∀ asked ∈ calls, ∀ signer ∈ asked.signers, ∃ signature,
      request.signatures.get signer = some signature ∧
        KeptFor verifiers scwVerifier request.signatureText signature signer := by
    intro asked hcall signer hsigner
    have hmem : signer ∈ request.asked := by
      rw [h.asked_eq, SignatureRequestBuilder.asked_requestOf]
      exact List.mem_flatMap.mpr ⟨asked, hcall, hsigner⟩
    have hkey := isReady_iff.mp hready signer hmem
    rw [HashMap.containsKey_eq_isSome_get] at hkey
    obtain ⟨signature, hget⟩ := Option.isSome_iff_exists.mp hkey
    exact ⟨signature, hget, h.signatureText_eq ▸ h.kept signer signature hget⟩
  obtain ⟨actions, hactions, hunsigned, verified, hforall, hverified⟩ :=
    exists_buildActions calls hkept
  have hpending : request.pendingActions = calls.map BuilderCall.pending := by
    rw [h.unchanged, SignatureRequestBuilder.requestOf_eq]
  have hinbox : request.inboxId = inboxId := by
    rw [h.unchanged, SignatureRequestBuilder.requestOf_eq]
  have htime : request.clientTimestampNs = nowNs.toUInt64 := by
    rw [h.unchanged, SignatureRequestBuilder.requestOf_eq]
  have htext : UnverifiedIdentityUpdate.signatureText crates chrono
      ⟨inboxId, nowNs.toUInt64, actions⟩ = request.signatureText := by
    rw [h.signatureText_eq, SignatureRequestBuilder.requestOf_eq]
    simp only [UnverifiedIdentityUpdate.signatureText, UnverifiedIdentityUpdate.unsigned, hunsigned]
  refine ⟨⟨inboxId, nowNs.toUInt64, actions⟩, ?_, htext, verified, hforall, fun latest => ?_⟩
  · simp only [buildIdentityUpdate, hready, Bool.not_true, rejectIf_false, ok_bind, hpending,
      hactions, hinbox, htime]
    rfl
  · simp only [UnverifiedIdentityUpdate.toVerified, htext, hverified latest, ok_bind]
    rfl

/-- Whatever a builder is called for, and whatever signatures are then submitted, in whatever order
and whichever blocks are the latest in between: the request is ready once all who have to sign are
among the signers of valid signatures of its text, and exactly then it makes an identity update. The
update's actions are what the calls have asked for, in their order, its signature text is the
request's, and it is verified whenever it is read. -/
theorem SignatureRequest.isReady_iff_signed (crates : Crates) (chrono : Chrono)
    (verifiers : SignatureVerifiers Key) (scwVerifier : MultiSmartContractSignatureVerifier)
    (inboxId : String) (nowNs : Int64) (calls : List BuilderCall)
    (submissions : List (Submission Key)) :
    let request := submissions.foldl (Submission.submitTo verifiers scwVerifier)
      (SignatureRequestBuilder.requestOf crates chrono inboxId nowNs calls)
    (request.isReady = true ↔ ∀ asked ∈ calls, ∀ signer ∈ asked.signers,
      ∃ submission ∈ submissions,
        submission.SignedBy verifiers scwVerifier request.signatureText signer) ∧
    (request.isReady = true ↔ ∃ update, request.buildIdentityUpdate = .ok update) ∧
    ∀ update, request.buildIdentityUpdate = .ok update →
      update.signatureText crates chrono = request.signatureText ∧
      ∃ actions, List.Forall₂ BuilderCall.AskedFor calls actions ∧ ∀ latest,
        update.toVerified (verifiers.withWallets scwVerifier latest) crates chrono =
          .ok ⟨inboxId, nowNs.toUInt64, actions⟩ := by
  intro request
  have hcollected : Collected verifiers scwVerifier
      (SignatureRequestBuilder.requestOf crates chrono inboxId nowNs calls) submissions request :=
    (collected_start _ (by rw [SignatureRequestBuilder.requestOf_eq])).run submissions
  have hasked : (SignatureRequestBuilder.requestOf crates chrono inboxId nowNs calls :
      SignatureRequest Key).asked = calls.flatMap BuilderCall.signers :=
    SignatureRequestBuilder.asked_requestOf ..
  have hsigned : request.isReady = true ↔ ∀ asked ∈ calls, ∀ signer ∈ asked.signers,
      ∃ submission ∈ submissions,
        submission.SignedBy verifiers scwVerifier request.signatureText signer := by
    rw [isReady_iff, hcollected.asked_eq, hcollected.signatureText_eq]
    simp only [hasked, List.mem_flatMap]
    constructor
    · intro hkeys asked hcall signer hsigner
      have hmem := List.mem_flatMap.mpr ⟨asked, hcall, hsigner⟩
      rw [← hasked] at hmem
      exact (hcollected.containsKey_iff signer hmem).mp (hkeys signer ⟨asked, hcall, hsigner⟩)
    · rintro hsigned signer ⟨asked, hcall, hsigner⟩
      have hmem := List.mem_flatMap.mpr ⟨asked, hcall, hsigner⟩
      rw [← hasked] at hmem
      exact (hcollected.containsKey_iff signer hmem).mpr (hsigned asked hcall signer hsigner)
  have hready : ∀ update, request.buildIdentityUpdate = .ok update → request.isReady = true := by
    intro update hupdate
    simp only [buildIdentityUpdate, bind_eq_ok, rejectIf_eq_ok] at hupdate
    obtain ⟨_, hready, _⟩ := hupdate
    simpa using hready
  refine ⟨hsigned, ⟨fun h => ?_, ?_⟩, fun update hupdate => ?_⟩
  · obtain ⟨update, hupdate, _⟩ := hcollected.exists_update h
    exact ⟨update, hupdate⟩
  · rintro ⟨update, h⟩
    exact hready update h
  · obtain ⟨update', hupdate', htext⟩ := hcollected.exists_update (hready update hupdate)
    cases hupdate.symm.trans hupdate'
    exact htext

end Run

end Request

end LibXmtp.Associations
