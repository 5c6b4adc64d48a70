import LibXmtp.Db.IdentityUpdates
import LibXmtp.Associations.Increment
import Mathlib.Data.Nat.Digits.Defs
import Mathlib.Logic.Equiv.List
import Mathlib.Tactic.DeriveEncodable

/-! The association state of an inbox, and the changes to it between two of its updates, as a
client computes them from its database. -/

namespace LibXmtp.Mls

open LibXmtp.Data LibXmtp.Associations LibXmtp.Db

inductive ClientError
  | association (error : AssociationError)
  | signatureValidation (error : SignatureError)
  | storage (error : StorageError)
  | api

/-- The functions of other crates the client calls. They are deterministic. -/
structure Env (Key : Type) where
  crates : Crates
  chrono : Chrono
  keys : VerifyingKeys Key
  verifiers : SignatureVerifiers Key
  codec : Codec

def missingIdentityUpdate : ClientError := .association .missingIdentityUpdate

section

variable {Key : Type} (env : Env Key)

def toUnverified (u : StoredIdentityUpdate) :
    Except AssociationError (UnverifiedIdentityUpdate Key) := do
  let proto ← okOr (env.codec.decodeUpdate u.payload) (.convert .decode)
  (UnverifiedIdentityUpdate.tryFrom env.keys env.crates proto).mapError .convert

def verifyUpdates (updates : List (UnverifiedIdentityUpdate Key)) :
    Except SignatureError (List IdentityUpdate) :=
  updates.mapM fun update => update.toVerified env.verifiers env.crates env.chrono

def loadUpdates (stored : List StoredIdentityUpdate) : Except ClientError (List IdentityUpdate) := do
  let unverifiedUpdates ← (stored.mapM (toUnverified env)).mapError .association
  (verifyUpdates env unverifiedUpdates).mapError .signatureValidation

def getAssociationStateWithVerifier (order : IterOrder) (inboxId : String)
    (toSequenceId : Option Int) : Session Database ClientError AssociationState := do
  let db ← get
  let updates := getIdentityUpdates db.identityUpdates inboxId none toSequenceId
  let last ← .ofExcept (okOr updates.getLast? missingIdentityUpdate)
  .ofExcept (rejectIf (toSequenceId.any (· != last.sequenceId)) missingIdentityUpdate)
  let cached ← .ofExcept ((db.readFromCache env.codec inboxId last.sequenceId).mapError .storage)
  match cached with
  | some proto =>
    .ofExcept ((AssociationState.tryFrom env.crates proto).mapError (.storage ∘ .conversion))
  | none => do
    let updates ← .ofExcept (loadUpdates env updates)
    let associationState ← .ofExcept ((getState env.crates updates).mapError .association)
    modify (Database.writeToCache env.codec inboxId last.sequenceId
      (associationState.toProto env.crates order))
    return associationState

def getAssociationStateDiff (order : IterOrder) (inboxId : String)
    (startingSequenceId endingSequenceId : Option Int) :
    Session Database ClientError AssociationStateDiff :=
  if startingSequenceId.isNone then do
    let state ← getAssociationStateWithVerifier env order inboxId endingSequenceId
    return state.asDiff
  else do
    let initialState ← getAssociationStateWithVerifier env order inboxId startingSequenceId
    let db ← get
    let incrementalUpdates :=
      getIdentityUpdates db.identityUpdates inboxId startingSequenceId endingSequenceId
    let lastSequenceId := incrementalUpdates.getLast?.map StoredIdentityUpdate.sequenceId
    .ofExcept (rejectIf (endingSequenceId.isSome && lastSequenceId.isSome &&
      lastSequenceId != endingSequenceId) missingIdentityUpdate)
    let incrementalUpdates ← .ofExcept (loadUpdates env incrementalUpdates)
    let finalState ← .ofExcept
      ((incrementalUpdates.foldlM (applyUpdate env.crates) initialState).mapError .association)
    if let some lastSequenceId := lastSequenceId then
      modify (Database.writeToCache env.codec inboxId lastSequenceId
        (finalState.toProto env.crates order))
    return initialState.diff finalState

/-- The state of an inbox at one of its updates: the replay of the stored updates up to it. -/
def stateAt (updates : IdentityUpdates) (inboxId : String) (sequenceId : Int) :
    Except ClientError AssociationState := do
  let updates ← loadUpdates env (getIdentityUpdates updates inboxId none (some sequenceId))
  (getState env.crates updates).mapError .association

end

/-! A client that knows of two inboxes, each of a wallet that an installation joins. -/

namespace Sample

open Associations.Sample

instance encodableUInt8 : Encodable UInt8 := .ofLeftInverse UInt8.toNat UInt8.ofNat fun _ => UInt8.ofNat_toNat

instance encodableUInt64 : Encodable UInt64 := .ofLeftInverse UInt64.toNat UInt64.ofNat fun _ => UInt64.ofNat_toNat

instance encodableInt32 : Encodable Int32 := .ofLeftInverse Int32.toInt Int32.ofInt Int32.ofInt_toInt

instance encodableChar : Encodable Char := .ofLeftInverse Char.toNat Char.ofNat Char.ofNat_toNat

instance encodableString : Encodable String :=
  .ofLeftInverse String.toList String.ofList fun _ => String.ofList_toList

deriving instance Encodable for Proto.Passkey

deriving instance Encodable for Proto.MemberIdentifierKind

deriving instance Encodable for Proto.MemberIdentifier

deriving instance Encodable for Proto.Member

deriving instance Encodable for Proto.MemberMap

deriving instance Encodable for Proto.AssociationState

def encodeState (proto : Proto.AssociationState) : Bytes :=
  (Nat.digits 256 (Encodable.encode proto)).map UInt8.ofNat

def decodeState (bytes : Bytes) : Option Proto.AssociationState :=
  Encodable.decode (Nat.ofDigits 256 (bytes.map UInt8.toNat))

theorem decodeState_encodeState (proto : Proto.AssociationState) :
    decodeState (encodeState proto) = some proto := by
  have hdigits : ((Nat.digits 256 (Encodable.encode proto)).map UInt8.ofNat).map UInt8.toNat =
      Nat.digits 256 (Encodable.encode proto) := by
    rw [List.map_map]
    refine (List.map_congr_left fun digit hdigit => ?_).trans (List.map_id _)
    simp only [Function.comp_apply, UInt8.toNat_ofNat']
    exact Nat.mod_eq_of_lt (Nat.digits_lt_base (by decide) hdigit)
  rw [decodeState, encodeState, hdigits, Nat.ofDigits_digits, Encodable.encodek]

def created : UnverifiedIdentityUpdate Bytes :=
  ⟨inboxId, 1, [.createInbox ⟨⟨0, wallet⟩, .recoverableEcdsa [1]⟩]⟩

def joined : UnverifiedIdentityUpdate Bytes :=
  ⟨inboxId, 2, [.addAssociation ⟨⟨installation⟩, .installationKey [2] [7], .recoverableEcdsa [3]⟩]⟩

def otherInboxId : String := "79c97aeb22a76eab14f5882a247dcbac637ce7a052a4d13f359382bb0416e713"

def otherInstallation : MemberIdentifier := .installation [8]

def otherInbox : UnverifiedIdentityUpdate Bytes :=
  ⟨otherInboxId, 3, [.createInbox ⟨⟨0, otherWallet⟩, .recoverableEcdsa [4]⟩,
    .addAssociation ⟨⟨otherInstallation⟩, .installationKey [5] [8], .recoverableEcdsa [6]⟩]⟩

def decodeUpdate (payload : Bytes) : Option Proto.IdentityUpdate :=
  if payload = [1] then some (created.toProto keys crates)
  else if payload = [2] then some (joined.toProto keys crates)
  else if payload = [3] then some (otherInbox.toProto keys crates)
  else none

def codec : Codec := ⟨decodeUpdate, encodeState, decodeState, decodeState_encodeState⟩

/-- The verification where the wallets made the signatures `[1]` and `[3]`, and `[4]` and `[6]`,
and their installations `[2]` and `[5]`. -/
def verifiers : SignatureVerifiers Bytes where
  fromInstallationKey _ bytes key :=
    if bytes = [2] ∧ key = [7] then .ok (signed installation .installationKey 2)
    else if bytes = [5] ∧ key = [8] then .ok (signed otherInstallation .installationKey 5)
    else .error .ed25519Error
  fromRecoverableEcdsa _ bytes :=
    if bytes = [1] then .ok (signed wallet.toMember .erc191 1)
    else if bytes = [3] then .ok (signed wallet.toMember .erc191 3)
    else if bytes = [4] then .ok (signed otherWallet.toMember .erc191 4)
    else if bytes = [6] then .ok (signed otherWallet.toMember .erc191 6)
    else .error .signature
  fromSmartContractWallet _ _ _ _ := .error .verifierError
  fromLegacyDelegated _ _ _ := .error .signature
  fromPasskey _ _ _ _ _ := .error .signature

def env : Env Bytes := ⟨crates, chrono, keys, verifiers, codec⟩

noncomputable def order : IterOrder where
  members m := m.entries
  members_perm _ := .refl _
  signatures s := s.toList
  signatures_toFinset := Finset.toList_toFinset

def row (sequenceId : UInt8) : StoredIdentityUpdate :=
  ⟨inboxId, sequenceId.toNat, [sequenceId]⟩

def creation : IdentityUpdates := ⟨[row 1], List.nodup_singleton _⟩

def creationAndJoining : IdentityUpdates := ⟨[row 2, row 1], by decide⟩

end Sample

end LibXmtp.Mls
