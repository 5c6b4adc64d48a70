import LibXmtp.Associations.Replay
import LibXmtp.Associations.Unverified

namespace LibXmtp.Associations

open LibXmtp.Data
open Proto (ConversionError IdentifierKind)

/-- What is used of ed25519 verifying keys: their bytes, and the keys bytes are. -/
structure VerifyingKeys (Key : Type) where
  asBytes : Key → Bytes
  tryFrom : Bytes → Option Key
  tryFrom_asBytes : ∀ key, tryFrom (asBytes key) = some key

namespace AccountId

/-- A piece of text of between `least` and `most` characters of a class. -/
def isPiece (cls : Char → Bool) (least most : Nat) (piece : List Char) : Bool :=
  decide (least ≤ piece.length) && decide (piece.length ≤ most) && piece.all cls

def isLowerOrDigit (c : Char) : Bool := ('a' ≤ c && c ≤ 'z') || ('0' ≤ c && c ≤ '9')

def isUpper (c : Char) : Bool := 'A' ≤ c && c ≤ 'Z'

def isNamespaceChar (c : Char) : Bool := c == '-' || isLowerOrDigit c

def isReferenceChar (c : Char) : Bool := c == '-' || c == '_' || isLowerOrDigit c || isUpper c

def isAddressChar (c : Char) : Bool :=
  c == '-' || c == '.' || c == '%' || isLowerOrDigit c || isUpper c

/-- `TryFrom<String>`: three pieces between colons, each as long and of the characters that the
chain id and the address may have. -/
def tryFrom (s : String) : Except ConversionError AccountId :=
  match s.toList.splitOn ':' with
  | [«namespace», reference, address] => do
    let chainIdMatches := isPiece isNamespaceChar 3 8 «namespace» && isPiece isReferenceChar 1 32 reference
    let addressMatches := isPiece isAddressChar 1 128 address
    rejectIf (!chainIdMatches || !addressMatches)
      (.invalidValue "eth account_id" "well-formed chain_id & address" s)
    return ⟨String.ofList («namespace» ++ ':' :: reference), String.ofList address⟩
  | parts => .error (.invalidLength "account_id" 3 parts.length)

def display (id : AccountId) : String := id.chainId ++ ":" ++ id.accountAddress

def Parsed (id : AccountId) : Prop := ∃ s, tryFrom s = .ok id

theorem display_of_tryFrom {s : String} {id : AccountId} (h : tryFrom s = .ok id) :
    id.display = s := by
  unfold tryFrom at h
  split at h
  · rename_i «namespace» reference address hsplit
    simp only [bind_eq_ok, pure_eq_ok] at h
    obtain ⟨_, _, rfl⟩ := h
    have hjoin : [':'].intercalate (s.toList.splitOn ':') = s.toList :=
      List.intercalate_splitOn _
    rw [hsplit] at hjoin
    apply String.toList_inj.mp
    rw [← hjoin]
    simp [display, List.intercalate]
  · cases h

theorem tryFrom_display {id : AccountId} (h : id.Parsed) : tryFrom id.display = .ok id := by
  obtain ⟨s, hs⟩ := h
  rw [display_of_tryFrom hs, hs]

end AccountId

namespace Identifier

def protoKind : Identifier → IdentifierKind
  | .ethereum _ => .ethereum
  | .passkey _ => .passkey

def relyingParty : Identifier → Option String
  | .passkey p => p.relyingParty
  | .ethereum _ => none

def fromProto (crates : Crates) (ident : String) (kind : IdentifierKind)
    (relyingParty : Option String) : Except ConversionError Identifier :=
  match kind with
  | .unspecified | .ethereum => .ok (.ethereum ident)
  | .passkey => do
    let key ← okOr (crates.hex.decode ident) (.invalidPublicKey "passkey" none)
    return .passkey ⟨key, relyingParty⟩

def normalizeKind : IdentifierKind → IdentifierKind
  | .unspecified => .ethereum
  | kind => kind

theorem fromProto_display (crates : Crates) (i : Identifier) :
    fromProto crates (i.toMember.display crates) (normalizeKind i.protoKind) i.relyingParty =
      .ok i := by
  cases i with
  | ethereum address => rfl
  | passkey p =>
    simp only [fromProto, normalizeKind, protoKind, toMember, MemberIdentifier.display,
      crates.hex.decode_encode, okOr_some, ok_bind]
    rfl

end Identifier

namespace MemberIdentifier

def toProto : MemberIdentifier → Proto.MemberIdentifier
  | .ethereum address => ⟨some (.ethereumAddress address)⟩
  | .installation key => ⟨some (.installationPublicKey key)⟩
  | .passkey p => ⟨some (.passkey ⟨p.key, p.relyingParty⟩)⟩

def tryFrom (proto : Proto.MemberIdentifier) : Except ConversionError MemberIdentifier :=
  match proto.kind with
  | some (.ethereumAddress address) => .ok (.ethereum address)
  | some (.installationPublicKey publicKey) => .ok (.installation publicKey)
  | some (.passkey p) => .ok (.passkey ⟨p.key, p.relyingParty⟩)
  | none => .error (.missing "member_identifier" "member_identifier::Kind")

@[simp] theorem tryFrom_toProto (m : MemberIdentifier) : tryFrom m.toProto = .ok m := by
  cases m <;> rfl

end MemberIdentifier

section Updates

variable {Key : Type} (keys : VerifyingKeys Key) (crates : Crates)

namespace UnverifiedSignature

def toProto : UnverifiedSignature Key → Proto.Signature
  | .smartContractWallet bytes accountId blockNumber =>
    ⟨some (.erc6492 ⟨accountId.display, blockNumber, bytes⟩)⟩
  | .installationKey bytes key => ⟨some (.installationKey ⟨bytes, keys.asBytes key⟩)⟩
  | .legacyDelegated bytes key => ⟨some (.delegatedErc191 ⟨some key, some ⟨bytes⟩⟩)⟩
  | .recoverableEcdsa bytes => ⟨some (.erc191 ⟨bytes⟩)⟩
  | .passkey publicKey signature authenticatorData clientDataJson =>
    ⟨some (.passkey ⟨publicKey, signature, authenticatorData, clientDataJson⟩)⟩

def unwrapProtoSignature (value : Proto.Signature) : Except ConversionError Proto.SignatureKind :=
  okOr value.signature (.missing "signature" "signature::Signature")

def tryFromSome (proto : Proto.Signature) : Except ConversionError (UnverifiedSignature Key) := do
  match ← unwrapProtoSignature proto with
  | .erc191 sig => return .recoverableEcdsa sig.bytes
  | .delegatedErc191 sig => do
    let signature ← okOr sig.signature (.missing "signature" "RecoverableEcdsaSignature")
    let delegatedKey ← okOr sig.delegatedKey (.missing "delegated_key" "SignedPublicKey")
    return .legacyDelegated signature.bytes delegatedKey
  | .installationKey sig => do
    let key ← okOr (keys.tryFrom sig.publicKey) .edSignature
    return .installationKey sig.bytes key
  | .erc6492 sig => do
    let accountId ← AccountId.tryFrom sig.accountId
    return .smartContractWallet sig.signature accountId sig.blockNumber
  | .passkey sig =>
    return .passkey sig.publicKey sig.signature sig.authenticatorData sig.clientDataJson

def tryFrom (value : Option Proto.Signature) :
    Except ConversionError (UnverifiedSignature Key) := do
  let proto ← okOr value (.missing "signature" "Signature")
  tryFromSome keys proto

def accountIds : UnverifiedSignature Key → List AccountId
  | .smartContractWallet _ accountId _ => [accountId]
  | _ => []

variable {keys}

theorem tryFrom_toProto {s : UnverifiedSignature Key} (h : ∀ id ∈ s.accountIds, id.Parsed) :
    tryFrom keys (some (s.toProto keys)) = .ok s := by
  cases s with
  | installationKey bytes key =>
    simp only [tryFrom, tryFromSome, unwrapProtoSignature, toProto, okOr_some, ok_bind,
      keys.tryFrom_asBytes]
    rfl
  | smartContractWallet bytes accountId blockNumber =>
    simp only [tryFrom, tryFromSome, unwrapProtoSignature, toProto, okOr_some, ok_bind,
      AccountId.tryFrom_display (h accountId List.mem_cons_self)]
    rfl
  | recoverableEcdsa bytes => rfl
  | legacyDelegated bytes key => rfl
  | passkey publicKey signature authenticatorData clientDataJson => rfl

theorem parsed_of_tryFrom {p : Option Proto.Signature} {s : UnverifiedSignature Key}
    (h : tryFrom keys p = .ok s) : ∀ id ∈ s.accountIds, id.Parsed := by
  simp only [tryFrom, tryFromSome, bind_eq_ok] at h
  obtain ⟨_, _, kind, _, hkind⟩ := h
  cases kind with
  | erc6492 sig =>
    simp only [bind_eq_ok, pure_eq_ok] at hkind
    obtain ⟨accountId, hid, rfl⟩ := hkind
    intro id hmem
    rw [List.mem_singleton.mp hmem]
    exact ⟨_, hid⟩
  | erc191 sig =>
    cases hkind
    exact fun id hmem => absurd hmem (List.not_mem_nil)
  | delegatedErc191 sig =>
    simp only [bind_eq_ok, pure_eq_ok] at hkind
    obtain ⟨_, _, _, _, rfl⟩ := hkind
    exact fun id hmem => absurd hmem (List.not_mem_nil)
  | installationKey sig =>
    simp only [bind_eq_ok, pure_eq_ok] at hkind
    obtain ⟨_, _, rfl⟩ := hkind
    exact fun id hmem => absurd hmem (List.not_mem_nil)
  | passkey sig =>
    cases hkind
    exact fun id hmem => absurd hmem (List.not_mem_nil)

end UnverifiedSignature

namespace UnverifiedAction

def toProto : UnverifiedAction Key → Proto.IdentityAction
  | .createInbox action =>
    let accountIdentifier := action.unsignedAction.accountIdentifier
    ⟨some (.createInbox {
      nonce := action.unsignedAction.nonce
      initialIdentifier := accountIdentifier.toMember.display crates
      initialIdentifierKind := accountIdentifier.protoKind.toI32
      initialIdentifierSignature := some (action.initialIdentifierSignature.toProto keys)
      relyingParty := accountIdentifier.relyingParty })⟩
  | .addAssociation action =>
    ⟨some (.add {
      newMemberIdentifier := some action.unsignedAction.newMemberIdentifier.toProto
      existingMemberSignature := some (action.existingMemberSignature.toProto keys)
      newMemberSignature := some (action.newMemberSignature.toProto keys)
      relyingParty := action.unsignedAction.newMemberIdentifier.toIdentifier.bind
        Identifier.relyingParty })⟩
  | .changeRecoveryAddress action =>
    let newRecoveryIdentifier := action.unsignedAction.newRecoveryIdentifier
    ⟨some (.changeRecoveryAddress {
      newRecoveryIdentifier := newRecoveryIdentifier.toMember.display crates
      newRecoveryIdentifierKind := newRecoveryIdentifier.protoKind.toI32
      existingRecoveryIdentifierSignature := some (action.recoveryIdentifierSignature.toProto keys)
      relyingParty := newRecoveryIdentifier.relyingParty })⟩
  | .revokeAssociation action =>
    ⟨some (.revoke {
      recoveryIdentifierSignature := some (action.recoveryIdentifierSignature.toProto keys)
      memberToRevoke := some action.unsignedAction.revokedMember.toProto })⟩

def tryFrom : Proto.IdentityActionKind → Except ConversionError (UnverifiedAction Key)
  | .add action => do
    let newMemberSignature ← UnverifiedSignature.tryFrom keys action.newMemberSignature
    let existingMemberSignature ← UnverifiedSignature.tryFrom keys action.existingMemberSignature
    let identifier ← okOr action.newMemberIdentifier
      (.missing "member_identifier" "MemberIdentifier")
    let newMemberIdentifier ← MemberIdentifier.tryFrom identifier
    return .addAssociation ⟨⟨newMemberIdentifier⟩, newMemberSignature, existingMemberSignature⟩
  | .createInbox action => do
    let kind := Identifier.normalizeKind (.ofI32 action.initialIdentifierKind)
    let accountIdentifier ←
      Identifier.fromProto crates action.initialIdentifier kind action.relyingParty
    let signature ← UnverifiedSignature.tryFrom keys action.initialIdentifierSignature
    return .createInbox ⟨⟨action.nonce, accountIdentifier⟩, signature⟩
  | .changeRecoveryAddress action => do
    let kind := Identifier.normalizeKind (.ofI32 action.newRecoveryIdentifierKind)
    let newRecoveryIdentifier ←
      Identifier.fromProto crates action.newRecoveryIdentifier kind action.relyingParty
    let signature ← UnverifiedSignature.tryFrom keys action.existingRecoveryIdentifierSignature
    return .changeRecoveryAddress ⟨signature, ⟨newRecoveryIdentifier⟩⟩
  | .revoke action => do
    let signature ← UnverifiedSignature.tryFrom keys action.recoveryIdentifierSignature
    let identifier ← okOr action.memberToRevoke (.missing "member_to_revoke" "MemberIdentifier")
    let revokedMember ← MemberIdentifier.tryFrom identifier
    return .revokeAssociation ⟨signature, ⟨revokedMember⟩⟩

theorem exists_tryFrom_toProto {a : UnverifiedAction Key}
    (h : ∀ s ∈ a.signatures, ∀ id ∈ s.accountIds, id.Parsed) :
    ∃ kind, (a.toProto keys crates).kind = some kind ∧ tryFrom keys crates kind = .ok a := by
  cases a with
  | createInbox action =>
    refine ⟨_, rfl, ?_⟩
    have hsig := h action.initialIdentifierSignature List.mem_cons_self
    simp only [tryFrom, IdentifierKind.ofI32_toI32, Identifier.fromProto_display, ok_bind,
      UnverifiedSignature.tryFrom_toProto hsig]
    rfl
  | addAssociation action =>
    refine ⟨_, rfl, ?_⟩
    have hexisting := h action.existingMemberSignature List.mem_cons_self
    have hnew := h action.newMemberSignature (List.mem_cons_of_mem _ List.mem_cons_self)
    simp only [tryFrom, okOr_some, ok_bind, MemberIdentifier.tryFrom_toProto,
      UnverifiedSignature.tryFrom_toProto hexisting, UnverifiedSignature.tryFrom_toProto hnew]
    rfl
  | revokeAssociation action =>
    refine ⟨_, rfl, ?_⟩
    have hsig := h action.recoveryIdentifierSignature List.mem_cons_self
    simp only [tryFrom, okOr_some, ok_bind, MemberIdentifier.tryFrom_toProto,
      UnverifiedSignature.tryFrom_toProto hsig]
    rfl
  | changeRecoveryAddress action =>
    refine ⟨_, rfl, ?_⟩
    have hsig := h action.recoveryIdentifierSignature List.mem_cons_self
    simp only [tryFrom, IdentifierKind.ofI32_toI32, Identifier.fromProto_display, ok_bind,
      UnverifiedSignature.tryFrom_toProto hsig]
    rfl

theorem exists_mapM_tryFrom (as : List (UnverifiedAction Key))
    (h : ∀ a ∈ as, ∀ s ∈ a.signatures, ∀ id ∈ s.accountIds, id.Parsed) :
    ∃ kinds, ((as.map (toProto keys crates)).mapM fun action =>
        okOr action.kind (ConversionError.missing "action" "identity_action::Kind")) = .ok kinds ∧
      kinds.mapM (tryFrom keys crates) = .ok as := by
  induction as with
  | nil => exact ⟨[], rfl, rfl⟩
  | cons a as ih =>
    obtain ⟨kind, hkind, ha⟩ := exists_tryFrom_toProto keys crates (h a List.mem_cons_self)
    obtain ⟨kinds, hkinds, has⟩ := ih fun b hb => h b (List.mem_cons_of_mem _ hb)
    refine ⟨kind :: kinds, ?_, ?_⟩
    · simp only [List.map_cons, List.mapM_cons, hkind, okOr_some, ok_bind, hkinds]
      rfl
    · simp only [List.mapM_cons, ha, ok_bind, has]
      rfl

variable {keys crates}

theorem parsed_of_tryFrom {kind : Proto.IdentityActionKind} {a : UnverifiedAction Key}
    (h : tryFrom keys crates kind = .ok a) :
    ∀ s ∈ a.signatures, ∀ id ∈ s.accountIds, id.Parsed := by
  cases kind with
  | add action =>
    simp only [tryFrom, bind_eq_ok, pure_eq_ok] at h
    obtain ⟨new, hnew, existing, hexisting, _, _, _, _, rfl⟩ := h
    intro s hs
    simp only [signatures, List.mem_cons, List.not_mem_nil, or_false] at hs
    rcases hs with rfl | rfl
    · exact UnverifiedSignature.parsed_of_tryFrom hexisting
    · exact UnverifiedSignature.parsed_of_tryFrom hnew
  | createInbox action =>
    simp only [tryFrom, bind_eq_ok, pure_eq_ok] at h
    obtain ⟨_, _, signature, hsig, rfl⟩ := h
    intro s hs
    rw [List.mem_singleton.mp hs]
    exact UnverifiedSignature.parsed_of_tryFrom hsig
  | changeRecoveryAddress action =>
    simp only [tryFrom, bind_eq_ok, pure_eq_ok] at h
    obtain ⟨_, _, signature, hsig, rfl⟩ := h
    intro s hs
    rw [List.mem_singleton.mp hs]
    exact UnverifiedSignature.parsed_of_tryFrom hsig
  | revoke action =>
    simp only [tryFrom, bind_eq_ok, pure_eq_ok] at h
    obtain ⟨signature, hsig, _, _, _, _, rfl⟩ := h
    intro s hs
    rw [List.mem_singleton.mp hs]
    exact UnverifiedSignature.parsed_of_tryFrom hsig

end UnverifiedAction

namespace UnverifiedIdentityUpdate

def toProto (u : UnverifiedIdentityUpdate Key) : Proto.IdentityUpdate where
  inboxId := u.inboxId
  clientTimestampNs := u.clientTimestampNs
  actions := u.actions.map (UnverifiedAction.toProto keys crates)

def tryFrom (proto : Proto.IdentityUpdate) :
    Except ConversionError (UnverifiedIdentityUpdate Key) := do
  let allActions ← proto.actions.mapM fun action =>
    okOr action.kind (.missing "action" "identity_action::Kind")
  let processedActions ← allActions.mapM (UnverifiedAction.tryFrom keys crates)
  return ⟨proto.inboxId, proto.clientTimestampNs, processedActions⟩

variable {keys crates}

theorem tryFrom_toProto {u : UnverifiedIdentityUpdate Key}
    (h : ∀ s ∈ u.signatures, ∀ id ∈ s.accountIds, id.Parsed) :
    tryFrom keys crates (u.toProto keys crates) = .ok u := by
  obtain ⟨kinds, hkinds, has⟩ := UnverifiedAction.exists_mapM_tryFrom keys crates u.actions
    fun a ha s hs => h s (List.mem_flatMap.mpr ⟨a, ha, hs⟩)
  simp only [tryFrom, toProto, hkinds, ok_bind, has]
  rfl

theorem parsed_of_tryFrom {p : Proto.IdentityUpdate} {u : UnverifiedIdentityUpdate Key}
    (h : tryFrom keys crates p = .ok u) :
    ∀ s ∈ u.signatures, ∀ id ∈ s.accountIds, id.Parsed := by
  simp only [tryFrom, bind_eq_ok, pure_eq_ok] at h
  obtain ⟨kinds, _, actions, hactions, rfl⟩ := h
  intro s hs
  obtain ⟨a, ha, hsa⟩ := List.mem_flatMap.mp hs
  obtain ⟨kind, _, hkind⟩ := exists_of_mem_mapM hactions ha
  exact UnverifiedAction.parsed_of_tryFrom hkind s hsa

/-- Writing an update and reading it gives it back, for all updates whose account ids were read
from texts, in particular for all updates that were read themselves. -/
theorem round_trip (keys : VerifyingKeys Key) (crates : Crates) :
    (∀ u : UnverifiedIdentityUpdate Key,
      (∀ s ∈ u.signatures, ∀ id ∈ s.accountIds, id.Parsed) →
      tryFrom keys crates (u.toProto keys crates) = .ok u) ∧
    ∀ p u, tryFrom keys crates p = .ok u → tryFrom keys crates (u.toProto keys crates) = .ok u :=
  ⟨fun _ h => tryFrom_toProto h, fun _ _ h => tryFrom_toProto (parsed_of_tryFrom h)⟩

end UnverifiedIdentityUpdate

end Updates

namespace Sample

def keys : VerifyingKeys Bytes := ⟨id, some, fun _ => rfl⟩

def passkey : Passkey := ⟨[0x02, 0xab], some "https://xmtp.org"⟩

def unverified : UnverifiedIdentityUpdate Bytes :=
  ⟨inboxId, 7,
    [.createInbox ⟨⟨0, .passkey passkey⟩, .passkey passkey.key [1] [2] [3]⟩,
      .addAssociation ⟨⟨.ethereum "0xfb6916095ca1df60bb79ce92ce3ea74c37c5d359"⟩,
        .smartContractWallet [4]
          ⟨"eip155:1", "0xfb6916095ca1df60bb79ce92ce3ea74c37c5d359"⟩ 20,
        .passkey passkey.key [5] [6] [7]⟩]⟩

end Sample

theorem UnverifiedIdentityUpdate.round_trip_sample :
    tryFrom Sample.keys Sample.crates (Sample.unverified.toProto Sample.keys Sample.crates) =
      .ok Sample.unverified := by
  apply (round_trip Sample.keys Sample.crates).1
  intro s hs id hid
  refine ⟨"eip155:1:0xfb6916095ca1df60bb79ce92ce3ea74c37c5d359", ?_⟩
  simp only [Sample.unverified, signatures, List.flatMap_cons, List.flatMap_nil,
    UnverifiedAction.signatures, List.cons_append, List.nil_append, List.mem_cons,
    List.not_mem_nil, or_false] at hs
  rcases hs with rfl | rfl | rfl
  · cases hid
  · cases hid
  · rw [List.mem_singleton.mp hid]
    decide

end LibXmtp.Associations
