import LibXmtp.Data.Bincode
import LibXmtp.Data.HashMap
import LibXmtp.Data.TlsCodec

namespace LibXmtp.Db

open LibXmtp.Data

/-- The errors of the store, and of the keys that are made for it. -/
inductive SqlKeyStoreError
  | unsupportedMethod
  | serializationError
  | notFound
  | connection (error : String)
  | tlsError
  deriving DecidableEq

abbrev KeyValueRows := HashMap (UInt16 × Bytes) Bytes

/-- The table `openmls_key_value`, whose primary key is `(version, key_bytes)`, and how the queries
that come next fail, if they do. -/
structure SqlKeyStore where
  rows : KeyValueRows
  faults : List (Option String)

def KeyStoreM (α : Type) := SqlKeyStore → Except SqlKeyStoreError α × SqlKeyStore

instance : Monad KeyStoreM where
  pure a := fun store => (.ok a, store)
  bind call next := fun store =>
    match call store with
    | (.ok a, between) => next a between
    | (.error e, between) => (.error e, between)

def KeyStoreM.ofExcept {α : Type} (result : Except SqlKeyStoreError α) : KeyStoreM α :=
  fun store => (result, store)

def KeyStoreM.ignoreError (call : KeyStoreM Unit) : KeyStoreM Unit :=
  fun store => (.ok (), (call store).2)

def currentVersion : UInt16 := 1

def labelBytes (label : String) : Bytes := label.toList.map fun c => UInt8.ofNat c.toNat

def keyPackageLabel : Bytes := labelBytes "KeyPackage"
def encryptionKeyPairLabel : Bytes := labelBytes "EncryptionKeyPair"
def signatureKeyPairLabel : Bytes := labelBytes "SignatureKeyPair"
def epochKeyPairsLabel : Bytes := labelBytes "EpochKeyPairs"
def keyPackageReferences : Bytes := labelBytes "KeyPackageReferences"
def keyPackageWrapperPrivateKey : Bytes := labelBytes "KeyPackageWrapperPrivateKey"
def commitLogSignerPrivateKey : Bytes := labelBytes "CommitLogSignerPrivateKey"
def treeLabel : Bytes := labelBytes "Tree"
def groupContextLabel : Bytes := labelBytes "GroupContext"
def interimTranscriptHashLabel : Bytes := labelBytes "InterimTranscriptHash"
def confirmationTagLabel : Bytes := labelBytes "ConfirmationTag"
def ownLeafNodeIndexLabel : Bytes := labelBytes "OwnLeafNodeIndex"
def epochSecretsLabel : Bytes := labelBytes "EpochSecrets"
def messageSecretsLabel : Bytes := labelBytes "MessageSecrets"
def joinConfigLabel : Bytes := labelBytes "MlsGroupJoinConfig"
def ownLeafNodesLabel : Bytes := labelBytes "OwnLeafNodes"
def groupStateLabel : Bytes := labelBytes "GroupState"
def queuedProposalLabel : Bytes := labelBytes "QueuedProposal"
def proposalQueueRefsLabel : Bytes := labelBytes "ProposalQueueRefs"
def resumptionPskStoreLabel : Bytes := labelBytes "ResumptionPskStore"
def applicationExportTreeLabel : Bytes := labelBytes "ApplicationExportTree"

def versionBytes : Bytes := toBigEndian 2 currentVersion.toNat

def buildKeyFromVec (label key : Bytes) : Bytes := label ++ key ++ versionBytes

def serializeBincode {α : Type} [Bincode α] (a : α) : KeyStoreM Bytes :=
  .ofExcept (okOr (Bincode.serialize a) .serializationError)

def deserializeBincode {α : Type} [Bincode α] (bytes : Bytes) : KeyStoreM α :=
  .ofExcept (okOr (Bincode.deserialize bytes) .serializationError)

def buildKey {α : Type} [Bincode α] (label : Bytes) (key : α) : KeyStoreM Bytes := do
  let keyVec ← serializeBincode key
  return buildKeyFromVec label keyVec

namespace SqlKeyStore

def empty (faults : List (Option String)) : SqlKeyStore := ⟨.empty, faults⟩

def fault (store : SqlKeyStore) : Option String := store.faults.head?.join

def next (store : SqlKeyStore) : SqlKeyStore := ⟨store.rows, store.faults.tail⟩

def value (store : SqlKeyStore) (storageKey : Bytes) : Option Bytes :=
  store.rows.get (currentVersion, storageKey)

def rawQuery {α : Type} (query : KeyValueRows → α × KeyValueRows) : KeyStoreM α := fun store =>
  match store.fault with
  | some error => (.error (.connection error), store.next)
  | none => (.ok (query store.rows).1, ⟨(query store.rows).2, store.next.faults⟩)

def selectQuery (storageKey : Bytes) : KeyStoreM (Option Bytes) :=
  rawQuery fun rows => (rows.get (currentVersion, storageKey), rows)

def replaceQuery (storageKey value : Bytes) : KeyStoreM Unit :=
  rawQuery fun rows => ((), rows.insert (currentVersion, storageKey) value)

def updateQuery (storageKey modifiedData : Bytes) : KeyStoreM Unit :=
  rawQuery fun rows => ((),
    if rows.containsKey (currentVersion, storageKey) then
      rows.insert (currentVersion, storageKey) modifiedData
    else rows)

def deleteQuery (storageKey : Bytes) : KeyStoreM Unit :=
  rawQuery fun rows => ((), rows.remove (currentVersion, storageKey))

def write (label key value : Bytes) : KeyStoreM Unit :=
  replaceQuery (buildKeyFromVec label key) value

section Lists

variable [format : BincodeFormat]

def append (label key value : Bytes) : KeyStoreM Unit := do
  let storageKey := buildKeyFromVec label key
  match ← selectQuery storageKey with
  | some valueBytes => do
    -- the value in the storage is an array of array of bytes
    let deserialized ← deserializeBincode (α := List Bytes) valueBytes
    let modifiedData ← serializeBincode (deserialized ++ [value])
    updateQuery storageKey modifiedData
  | none => do
    let valueBytes ← serializeBincode [value]
    replaceQuery storageKey valueBytes

def removeItem (label key value : Bytes) : KeyStoreM Unit := do
  let storageKey := buildKeyFromVec label key
  match ← selectQuery storageKey with
  | some valueBytes => do
    let deserialized ← deserializeBincode (α := List Bytes) valueBytes
    let modifiedData ← serializeBincode (deserialized.erase value)
    updateQuery storageKey modifiedData
  | none => do
    -- an array of the one value, not a vector
    let valueBytes ← .ofExcept
      (okOr (format.serializeArray inferInstance [value]) .serializationError)
    replaceQuery storageKey valueBytes

end Lists

def read (α : Type) [Bincode α] (label key : Bytes) : KeyStoreM (Option α) := do
  match ← selectQuery (buildKeyFromVec label key) with
  | some valueBytes => do
    let deserialized ← deserializeBincode valueBytes
    return some deserialized
  | none => return none

def readList (α : Type) [BincodeFormat] [Bincode α] (label key : Bytes) : KeyStoreM (List α) := do
  match ← selectQuery (buildKeyFromVec label key) with
  | some valueBytes => do
    let list ← deserializeBincode (α := List Bytes) valueBytes
    list.mapM fun bytes => deserializeBincode bytes
  | none => return []

def delete (label key : Bytes) : KeyStoreM Unit := deleteQuery (buildKeyFromVec label key)

section Entities

variable {Key Value : Type} [Bincode Key] [Bincode Value]

def writeEntity (label : Bytes) (entityKey : Key) (entity : Value) : KeyStoreM Unit := do
  let key ← buildKey label entityKey
  let value ← serializeBincode entity
  write label key value

def readEntity (label : Bytes) (entityKey : Key) : KeyStoreM (Option Value) := do
  let key ← buildKey label entityKey
  read Value label key

def deleteEntity (label : Bytes) (entityKey : Key) : KeyStoreM Unit := do
  let key ← buildKey label entityKey
  delete label key

end Entities

section StorageProvider

variable [BincodeFormat] {Key Value GroupId ProposalRef QueuedProposal EpochKey HpkeKeyPair LeafNode : Type}
  [Bincode Key] [Bincode Value] [Bincode GroupId] [Bincode ProposalRef] [Bincode QueuedProposal]
  [Bincode EpochKey] [Bincode HpkeKeyPair] [Bincode LeafNode]

def writeTree (groupId : Key) (tree : Value) : KeyStoreM Unit := writeEntity treeLabel groupId tree
def tree (groupId : Key) : KeyStoreM (Option Value) := readEntity treeLabel groupId
def deleteTree (groupId : Key) : KeyStoreM Unit := deleteEntity treeLabel groupId

def writeInterimTranscriptHash (groupId : Key) (interimTranscriptHash : Value) : KeyStoreM Unit := do
  let key ← buildKey interimTranscriptHashLabel groupId
  let value ← serializeBincode interimTranscriptHash
  -- the error of the write, if it has one, is not returned
  (write interimTranscriptHashLabel key value).ignoreError
def interimTranscriptHash (groupId : Key) : KeyStoreM (Option Value) :=
  readEntity interimTranscriptHashLabel groupId
def deleteInterimTranscriptHash (groupId : Key) : KeyStoreM Unit :=
  deleteEntity interimTranscriptHashLabel groupId

def writeContext (groupId : Key) (groupContext : Value) : KeyStoreM Unit :=
  writeEntity groupContextLabel groupId groupContext
def groupContext (groupId : Key) : KeyStoreM (Option Value) := readEntity groupContextLabel groupId
def deleteContext (groupId : Key) : KeyStoreM Unit := deleteEntity groupContextLabel groupId

def writeConfirmationTag (groupId : Key) (confirmationTag : Value) : KeyStoreM Unit :=
  writeEntity confirmationTagLabel groupId confirmationTag
def confirmationTag (groupId : Key) : KeyStoreM (Option Value) :=
  readEntity confirmationTagLabel groupId
def deleteConfirmationTag (groupId : Key) : KeyStoreM Unit :=
  deleteEntity confirmationTagLabel groupId

def writeSignatureKeyPair (publicKey : Key) (signatureKeyPair : Value) : KeyStoreM Unit :=
  writeEntity signatureKeyPairLabel publicKey signatureKeyPair
def signatureKeyPair (publicKey : Key) : KeyStoreM (Option Value) :=
  readEntity signatureKeyPairLabel publicKey
def deleteSignatureKeyPair (publicKey : Key) : KeyStoreM Unit :=
  deleteEntity signatureKeyPairLabel publicKey

def writeKeyPackage (hashRef : Key) (keyPackage : Value) : KeyStoreM Unit :=
  writeEntity keyPackageLabel hashRef keyPackage
def keyPackage (hashRef : Key) : KeyStoreM (Option Value) := readEntity keyPackageLabel hashRef
def deleteKeyPackage (hashRef : Key) : KeyStoreM Unit := deleteEntity keyPackageLabel hashRef

def writePsk {PskId PskBundle : Type} (_ : PskId) (_ : PskBundle) : KeyStoreM Unit := return ()
def psk {PskId : Type} (PskBundle : Type) (_ : PskId) : KeyStoreM (Option PskBundle) := return none
def deletePsk {PskId : Type} (_ : PskId) : KeyStoreM Unit := .ofExcept (.error .unsupportedMethod)

def writeEncryptionKeyPair (publicKey : Key) (keyPair : Value) : KeyStoreM Unit :=
  writeEntity encryptionKeyPairLabel publicKey keyPair
def encryptionKeyPair (publicKey : Key) : KeyStoreM (Option Value) :=
  readEntity encryptionKeyPairLabel publicKey
def deleteEncryptionKeyPair (publicKey : Key) : KeyStoreM Unit :=
  deleteEntity encryptionKeyPairLabel publicKey

def writeGroupState (groupId : Key) (groupState : Value) : KeyStoreM Unit :=
  writeEntity groupStateLabel groupId groupState
def groupState (groupId : Key) : KeyStoreM (Option Value) := readEntity groupStateLabel groupId
def deleteGroupState (groupId : Key) : KeyStoreM Unit := deleteEntity groupStateLabel groupId

def writeMessageSecrets (groupId : Key) (messageSecrets : Value) : KeyStoreM Unit :=
  writeEntity messageSecretsLabel groupId messageSecrets
def messageSecrets (groupId : Key) : KeyStoreM (Option Value) :=
  readEntity messageSecretsLabel groupId
def deleteMessageSecrets (groupId : Key) : KeyStoreM Unit := deleteEntity messageSecretsLabel groupId

def writeOwnLeafIndex (groupId : Key) (ownLeafIndex : Value) : KeyStoreM Unit :=
  writeEntity ownLeafNodeIndexLabel groupId ownLeafIndex
def ownLeafIndex (groupId : Key) : KeyStoreM (Option Value) :=
  readEntity ownLeafNodeIndexLabel groupId
def deleteOwnLeafIndex (groupId : Key) : KeyStoreM Unit := deleteEntity ownLeafNodeIndexLabel groupId

def writeGroupEpochSecrets (groupId : Key) (groupEpochSecrets : Value) : KeyStoreM Unit :=
  writeEntity epochSecretsLabel groupId groupEpochSecrets
def groupEpochSecrets (groupId : Key) : KeyStoreM (Option Value) :=
  readEntity epochSecretsLabel groupId
def deleteGroupEpochSecrets (groupId : Key) : KeyStoreM Unit :=
  deleteEntity epochSecretsLabel groupId

def writeMlsJoinConfig (groupId : Key) (config : Value) : KeyStoreM Unit :=
  writeEntity joinConfigLabel groupId config
def mlsGroupJoinConfig (groupId : Key) : KeyStoreM (Option Value) :=
  readEntity joinConfigLabel groupId
def deleteGroupConfig (groupId : Key) : KeyStoreM Unit := deleteEntity joinConfigLabel groupId

def writeApplicationExportTree (groupId : Key) (applicationExportTree : Value) : KeyStoreM Unit :=
  writeEntity applicationExportTreeLabel groupId applicationExportTree
def applicationExportTree (groupId : Key) : KeyStoreM (Option Value) :=
  readEntity applicationExportTreeLabel groupId
def deleteApplicationExportTree (groupId : Key) : KeyStoreM Unit :=
  deleteEntity applicationExportTreeLabel groupId

def writeResumptionPskStore (groupId : GroupId) (resumptionPskStore : Value) : KeyStoreM Unit := do
  let key ← serializeBincode groupId
  let value ← serializeBincode resumptionPskStore
  write resumptionPskStoreLabel key value

def resumptionPskStore (groupId : GroupId) : KeyStoreM (Option Value) := do
  let key ← serializeBincode groupId
  read Value resumptionPskStoreLabel key

def deleteAllResumptionPskSecrets (groupId : GroupId) : KeyStoreM Unit := do
  let key ← serializeBincode groupId
  delete resumptionPskStoreLabel key

def epochKeyPairsId (groupId : GroupId) (epoch : EpochKey) (leafIndex : UInt32) :
    KeyStoreM Bytes := do
  let key ← serializeBincode groupId
  let epochBytes ← serializeBincode epoch
  let leafIndexBytes ← serializeBincode leafIndex
  return key ++ epochBytes ++ leafIndexBytes

def writeEncryptionEpochKeyPairs (groupId : GroupId) (epoch : EpochKey) (leafIndex : UInt32)
    (keyPairs : List HpkeKeyPair) : KeyStoreM Unit := do
  let key ← epochKeyPairsId groupId epoch leafIndex
  let value ← serializeBincode keyPairs
  write epochKeyPairsLabel key value

def encryptionEpochKeyPairs (groupId : GroupId) (epoch : EpochKey) (leafIndex : UInt32) :
    KeyStoreM (List HpkeKeyPair) := do
  let key ← epochKeyPairsId groupId epoch leafIndex
  match ← selectQuery (buildKeyFromVec epochKeyPairsLabel key) with
  | some valueBytes => deserializeBincode valueBytes
  | none => return []

def deleteEncryptionEpochKeyPairs (groupId : GroupId) (epoch : EpochKey) (leafIndex : UInt32) :
    KeyStoreM Unit := do
  let key ← epochKeyPairsId groupId epoch leafIndex
  delete epochKeyPairsLabel key

def appendOwnLeafNode (groupId : GroupId) (leafNode : LeafNode) : KeyStoreM Unit := do
  let key ← buildKey ownLeafNodesLabel groupId
  let value ← serializeBincode leafNode
  append ownLeafNodesLabel key value

def ownLeafNodes (groupId : GroupId) : KeyStoreM (List LeafNode) := do
  let key ← buildKey ownLeafNodesLabel groupId
  readList LeafNode ownLeafNodesLabel key

def deleteOwnLeafNodes (groupId : GroupId) : KeyStoreM Unit := deleteEntity ownLeafNodesLabel groupId

def queueProposal (groupId : GroupId) (proposalRef : ProposalRef) (proposal : QueuedProposal) :
    KeyStoreM Unit := do
  -- write proposal to key (group_id, proposal_ref)
  let key ← serializeBincode (groupId, proposalRef)
  let value ← serializeBincode proposal
  write queuedProposalLabel key value
  -- update proposal list for group_id
  let key ← buildKey proposalQueueRefsLabel groupId
  let value ← serializeBincode proposalRef
  append proposalQueueRefsLabel key value

def queuedProposalRefs (groupId : GroupId) : KeyStoreM (List ProposalRef) := do
  let key ← buildKey proposalQueueRefsLabel groupId
  readList ProposalRef proposalQueueRefsLabel key

def queuedProposal (groupId : GroupId) (proposalRef : ProposalRef) :
    KeyStoreM (ProposalRef × QueuedProposal) := do
  let key ← serializeBincode (groupId, proposalRef)
  let found ← read QueuedProposal queuedProposalLabel key
  let proposal ← .ofExcept (okOr found .notFound)
  return (proposalRef, proposal)

def queuedProposals (groupId : GroupId) : KeyStoreM (List (ProposalRef × QueuedProposal)) := do
  let key ← buildKey proposalQueueRefsLabel groupId
  let refs ← readList ProposalRef proposalQueueRefsLabel key
  refs.mapM (queuedProposal groupId)

def removeProposal (groupId : GroupId) (proposalRef : ProposalRef) : KeyStoreM Unit := do
  -- delete the proposal ref
  let key ← buildKey proposalQueueRefsLabel groupId
  let value ← serializeBincode proposalRef
  removeItem proposalQueueRefsLabel key value
  -- delete the proposal
  let key ← serializeBincode (groupId, proposalRef)
  delete queuedProposalLabel key

def clearProposalQueue (ProposalRef : Type) [Bincode ProposalRef] (groupId : GroupId) :
    KeyStoreM Unit := do
  let key ← buildKey proposalQueueRefsLabel groupId
  let proposalRefs ← readList ProposalRef proposalQueueRefsLabel key
  proposalRefs.forM fun proposalRef => do
    let key ← serializeBincode (groupId, proposalRef)
    delete queuedProposalLabel key
  let key ← buildKey proposalQueueRefsLabel groupId
  delete proposalQueueRefsLabel key

end StorageProvider

section DirectUse

variable [BincodeFormat] {HashReference KeyPackage : Type} [Bincode HashReference] [Bincode KeyPackage] (vlen : Vlen)

/-- `tls_serialize_detached` of a public key, also `pq_key_package_references_key`. -/
def keyPackageReferencesKey (publicKey : Bytes) : KeyStoreM Bytes :=
  .ofExcept ((vlen.bytes.serialize publicKey).mapError fun _ => .tlsError)

structure HpkeKeyPair where
  privateKey : Bytes
  publicKey : Bytes

/-- Store the hash reference, keyed with both the public init key and the post quantum init key, and
the post quantum private key by the hash reference. -/
def storeKeyPackageReferences (hpkeInitKey : Bytes) (keyPackageHashRef : HashReference)
    (postQuantumKeypair : Option HpkeKeyPair) : KeyStoreM Unit := do
  let publicInitKey ← keyPackageReferencesKey vlen hpkeInitKey
  let hashRef ← serializeBincode keyPackageHashRef
  write keyPackageReferences publicInitKey hashRef
  match postQuantumKeypair with
  | some postQuantumKeypair => do
    let postQuantumPublicKey ← keyPackageReferencesKey vlen postQuantumKeypair.publicKey
    let postQuantumPrivateKey ← serializeBincode postQuantumKeypair.privateKey
    write keyPackageReferences postQuantumPublicKey hashRef
    write keyPackageWrapperPrivateKey hashRef postQuantumPrivateKey
  | none => return ()

/-- `delete_key_package` of the maintenance of the key packages. -/
def deleteKeyPackageMaterial (HashReference : Type) [Bincode HashReference] (hashRef : Bytes)
    (pqPubKey : Option Bytes) : KeyStoreM Unit := do
  let openmlsHashRef ← deserializeBincode (α := HashReference) hashRef
  deleteKeyPackage openmlsHashRef
  match pqPubKey with
  | some pqPubKey => do
    let postQuantumPublicKey ← keyPackageReferencesKey vlen pqPubKey
    delete keyPackageReferences postQuantumPublicKey
    delete keyPackageWrapperPrivateKey hashRef
  | none => return ()

inductive WrapperAlgorithm
  | curve25519
  | xWingMlkem768Draft6

inductive FindKeyError (HashReference : Type)
  | store (error : SqlKeyStoreError)
  | keyPackageReference (serializedHpkePublicKey : Bytes)
  | keyPackage (hashRef : HashReference)
  | postQuantumPrivateKey

def answer {α : Type} (store : SqlKeyStore) (call : KeyStoreM α) : Except SqlKeyStoreError α :=
  (call store).1

def findKeyPackageHashRef (store : SqlKeyStore) (hpkePublicKey : Bytes) :
    Except (FindKeyError HashReference) HashReference := do
  let serializedHpkePublicKey ←
    (store.answer (keyPackageReferencesKey vlen hpkePublicKey)).mapError .store
  let found ← (store.answer
    (read HashReference keyPackageReferences serializedHpkePublicKey)).mapError .store
  okOr found (.keyPackageReference serializedHpkePublicKey)

def findPrivateKey (store : SqlKeyStore) (initPrivateKey : KeyPackage → Bytes)
    (hashRef : HashReference) : WrapperAlgorithm → Except (FindKeyError HashReference) Bytes
  | .curve25519 => do
    let keyPackage ← (store.answer
      (keyPackage hashRef : KeyStoreM (Option KeyPackage))).mapError .store
    okOr (keyPackage.map initPrivateKey) (.keyPackage hashRef)
  | .xWingMlkem768Draft6 => do
    let serializedHashRef ← (store.answer (serializeBincode hashRef)).mapError fun _ =>
      .postQuantumPrivateKey
    let privateKey ← (store.answer
      (read Bytes keyPackageWrapperPrivateKey serializedHashRef)).mapError .store
    okOr privateKey .postQuantumPrivateKey

def readCommitLogKey (groupId : Bytes) : KeyStoreM (Option Bytes) := do
  let key ← serializeBincode groupId
  read Bytes commitLogSignerPrivateKey key

def writeCommitLogKey (groupId secret : Bytes) : KeyStoreM Unit := do
  let key ← serializeBincode groupId
  let value ← serializeBincode secret
  write commitLogSignerPrivateKey key value

end DirectUse

end SqlKeyStore

instance : LawfulMonad KeyStoreM := .mk' KeyStoreM
  (fun call => by
    funext store
    simp only [Functor.map]
    rcases call store with ⟨_ | _, _⟩ <;> rfl)
  (fun _ _ => rfl)
  (fun call next next' => by
    funext store
    simp only [bind]
    rcases call store with ⟨_ | _, _⟩ <;> rfl)

namespace SqlKeyStore

variable {α β : Type} {store store' : SqlKeyStore}

def put (store : SqlKeyStore) (storageKey bytes : Bytes) : SqlKeyStore :=
  ⟨store.rows.insert (currentVersion, storageKey) bytes, store.faults⟩

def drop (store : SqlKeyStore) (storageKey : Bytes) : SqlKeyStore :=
  ⟨store.rows.remove (currentVersion, storageKey), store.faults⟩

theorem value_put (store : SqlKeyStore) (storageKey other bytes : Bytes) :
    (store.put storageKey bytes).value other =
      if storageKey = other then some bytes else store.value other := by
  simp [value, put, Prod.ext_iff]

theorem value_drop (store : SqlKeyStore) (storageKey other : Bytes) :
    (store.drop storageKey).value other =
      if storageKey = other then none else store.value other := by
  simp [value, drop, Prod.ext_iff]

theorem value_next (store : SqlKeyStore) (storageKey : Bytes) :
    store.next.value storageKey = store.value storageKey := rfl

def Returns (store : SqlKeyStore) (call : KeyStoreM α) (result : Except SqlKeyStoreError α) : Prop :=
  store.answer call = result ∨ ∃ error, store.answer call = .error (.connection error)

theorem Returns.bind {call : KeyStoreM α} {next : α → KeyStoreM β} {a : α}
    {result : Except SqlKeyStoreError β} (h : store.Returns call (.ok a))
    (hnext : ∀ between, call store = (.ok a, between) → between.Returns (next a) result) :
    store.Returns (call >>= next) result := by
  rcases hcall : call store with ⟨answer, between⟩
  have hbind : (call >>= next) store = match (answer, between) with
      | (.ok a, between) => next a between
      | (.error e, between) => (.error e, between) := by
    rw [← hcall]
    rfl
  rw [Returns, SqlKeyStore.answer, hcall] at h
  rw [Returns, SqlKeyStore.answer, hbind]
  obtain rfl | ⟨error, rfl⟩ := h
  · exact hnext between hcall
  · exact .inr ⟨error, rfl⟩

theorem Returns.rawQuery (query : KeyValueRows → α × KeyValueRows) :
    store.Returns (rawQuery query) (.ok (query store.rows).1) := by
  rw [Returns, answer, SqlKeyStore.rawQuery]
  cases store.fault with
  | none => exact .inl rfl
  | some error => exact .inr ⟨error, rfl⟩

end SqlKeyStore

namespace KeyStoreM

variable {α β : Type} {store store' : SqlKeyStore}

@[simp] theorem bind_eq_ok {call : KeyStoreM α} {next : α → KeyStoreM β} {b : β} :
    (call >>= next) store = (.ok b, store') ↔
      ∃ a between, call store = (.ok a, between) ∧ next a between = (.ok b, store') := by
  simp only [bind]
  rcases call store with ⟨_ | a, between⟩
  · constructor
    · intro h
      cases h
    · rintro ⟨_, _, h, _⟩
      cases h
  · constructor
    · exact fun h => ⟨a, between, rfl, h⟩
    · rintro ⟨_, _, h, h'⟩
      cases h
      exact h'

@[simp] theorem pure_eq_ok {a b : α} :
    (pure a : KeyStoreM α) store = (.ok b, store') ↔ a = b ∧ store = store' := by
  constructor
  · intro h
    cases h
    exact ⟨rfl, rfl⟩
  · rintro ⟨rfl, rfl⟩
    rfl

@[simp] theorem ofExcept_eq_ok {result : Except SqlKeyStoreError α} {a : α} :
    KeyStoreM.ofExcept result store = (.ok a, store') ↔ result = .ok a ∧ store = store' := by
  simp only [KeyStoreM.ofExcept, Prod.mk.injEq]

structure Gives (call : KeyStoreM α) (store : SqlKeyStore) (result : Except SqlKeyStoreError α) :
    Prop where
  returns : store.Returns call result
  rows : (call store).2.rows = store.rows

namespace Gives

theorem ofExcept (result : Except SqlKeyStoreError α) (store : SqlKeyStore) :
    Gives (.ofExcept result) store result := ⟨.inl rfl, rfl⟩

theorem pure (a : α) (store : SqlKeyStore) : Gives (Pure.pure a) store (.ok a) := ⟨.inl rfl, rfl⟩

theorem select (storageKey : Bytes) (store : SqlKeyStore) :
    Gives (SqlKeyStore.selectQuery storageKey) store (.ok (store.value storageKey)) where
  returns := .rawQuery _
  rows := by
    rw [SqlKeyStore.selectQuery, SqlKeyStore.rawQuery]
    cases store.fault <;> rfl

theorem bind {call : KeyStoreM α} {next : α → KeyStoreM β} {a : α}
    {result : Except SqlKeyStoreError β} (h : Gives call store (.ok a))
    (hnext : ∀ between : SqlKeyStore, between.rows = store.rows → Gives (next a) between result) :
    Gives (call >>= next) store result := by
  obtain ⟨hreturns, hrows⟩ := h
  refine ⟨hreturns.bind fun between hcall => ?_, ?_⟩
  · rw [hcall] at hrows
    exact (hnext between hrows).returns
  · rcases hcall : call store with ⟨answer, between⟩
    rw [SqlKeyStore.Returns, SqlKeyStore.answer, hcall] at hreturns
    rw [hcall] at hrows
    simp only [Bind.bind, hcall]
    obtain rfl | ⟨error, rfl⟩ := hreturns
    · exact (hnext between hrows).rows.trans hrows
    · exact hrows

theorem bind_error {call : KeyStoreM α} {next : α → KeyStoreM β} {e : SqlKeyStoreError}
    (h : Gives call store (.error e)) : Gives (call >>= next) store (.error e) := by
  obtain ⟨hreturns, hrows⟩ := h
  rcases hcall : call store with ⟨answer, between⟩
  rw [SqlKeyStore.Returns, SqlKeyStore.answer, hcall] at hreturns
  rw [hcall] at hrows
  have hbind (e : SqlKeyStoreError) (hanswer : answer = .error e) :
      (call >>= next) store = (.error e, between) := by
    simp only [Bind.bind, hcall, hanswer]
  obtain hanswer | ⟨error, hanswer⟩ := hreturns
  · exact ⟨.inl (by rw [SqlKeyStore.answer, hbind _ hanswer]), by rw [hbind _ hanswer]; exact hrows⟩
  · exact ⟨.inr ⟨error, by rw [SqlKeyStore.answer, hbind _ hanswer]⟩,
      by rw [hbind _ hanswer]; exact hrows⟩

theorem serialize [Bincode α] {a : α} {bytes : Bytes} (h : Bincode.serialize a = some bytes)
    (store : SqlKeyStore) : Gives (serializeBincode a) store (.ok bytes) := by
  rw [serializeBincode, h]
  exact .ofExcept _ _

theorem deserialize [Bincode α] {a : α} {bytes : Bytes} (h : Bincode.deserialize bytes = some a)
    (store : SqlKeyStore) : Gives (deserializeBincode bytes) store (.ok a) := by
  rw [deserializeBincode, h]
  exact .ofExcept _ _

theorem buildKey [Bincode α] {label body : Bytes} {a : α} (h : Bincode.serialize a = some body)
    (store : SqlKeyStore) :
    Gives (Db.buildKey label a) store (.ok (buildKeyFromVec label body)) :=
  (serialize h store).bind fun between _ => .pure _ between

end Gives

end KeyStoreM

namespace SqlKeyStore

variable {α : Type} {store store' : SqlKeyStore} {storageKey label key bytes : Bytes}

theorem rawQuery_eq_ok {query : KeyValueRows → α × KeyValueRows} {a : α} :
    rawQuery query store = (.ok a, store') ↔ store.fault = none ∧ (query store.rows).1 = a ∧
      store' = ⟨(query store.rows).2, store.next.faults⟩ := by
  rw [rawQuery]
  cases store.fault with
  | none => simp [eq_comm]
  | some error => simp

theorem selectQuery_eq_ok {found : Option Bytes} :
    selectQuery storageKey store = (.ok found, store') ↔
      store.fault = none ∧ store.value storageKey = found ∧ store' = store.next := rawQuery_eq_ok

theorem replaceQuery_eq_ok {u : Unit} : replaceQuery storageKey bytes store = (.ok u, store') ↔
    store.fault = none ∧ store' = store.next.put storageKey bytes := by
  rw [replaceQuery, rawQuery_eq_ok]
  exact and_congr_right fun _ => and_iff_right rfl

theorem deleteQuery_eq_ok {u : Unit} : deleteQuery storageKey store = (.ok u, store') ↔
    store.fault = none ∧ store' = store.next.drop storageKey := by
  rw [deleteQuery, rawQuery_eq_ok]
  exact and_congr_right fun _ => and_iff_right rfl

theorem updateQuery_eq_ok {before : Bytes} (h : store.value storageKey = some before) :
    updateQuery storageKey bytes store = (.ok (), store') ↔
      store.fault = none ∧ store' = store.next.put storageKey bytes := by
  have hcontains : store.rows.containsKey (currentVersion, storageKey) = true := by
    rw [HashMap.containsKey_eq_isSome_get, ← value, h]
    rfl
  rw [updateQuery, rawQuery_eq_ok, if_pos hcontains]
  exact and_congr_right fun _ => and_iff_right rfl

theorem write_eq_ok {u : Unit} : write label key bytes store = (.ok u, store') ↔
    store.fault = none ∧ store' = store.next.put (buildKeyFromVec label key) bytes :=
  replaceQuery_eq_ok

theorem delete_eq_ok {u : Unit} : delete label key store = (.ok u, store') ↔
    store.fault = none ∧ store' = store.next.drop (buildKeyFromVec label key) :=
  deleteQuery_eq_ok

theorem ignoreError_write (label key bytes : Bytes) (store : SqlKeyStore) :
    (write label key bytes).ignoreError store = (.ok (),
      if store.fault.isSome then store.next
      else store.next.put (buildKeyFromVec label key) bytes) := by
  cases hfault : store.fault with
  | none =>
    have hwrite : write label key bytes store = (.ok (), _) := write_eq_ok.mpr ⟨hfault, rfl⟩
    rw [KeyStoreM.ignoreError, hwrite]
    rfl
  | some error =>
    have hwrite : write label key bytes store = (.error (.connection error), store.next) := by
      rw [write, replaceQuery, rawQuery, hfault]
    rw [KeyStoreM.ignoreError, hwrite]
    rfl

section Lists

variable [format : BincodeFormat] {valueBytes : Bytes} {parts : List Bytes}

theorem append_of_none (h : store.value (buildKeyFromVec label key) = none)
    (hrun : append label key bytes store = (.ok (), store')) :
    ∃ valueBytes, Bincode.serialize [bytes] = some valueBytes ∧
      store' = store.next.next.put (buildKeyFromVec label key) valueBytes := by
  simp only [append, KeyStoreM.bind_eq_ok, selectQuery_eq_ok, h] at hrun
  obtain ⟨_, _, ⟨_, rfl, rfl⟩, hrun⟩ := hrun
  simp only [serializeBincode, KeyStoreM.bind_eq_ok, KeyStoreM.ofExcept_eq_ok, okOr_eq_ok,
    replaceQuery_eq_ok] at hrun
  obtain ⟨valueBytes, _, ⟨hvalue, rfl⟩, _, rfl⟩ := hrun
  exact ⟨valueBytes, hvalue, rfl⟩

theorem append_of_some (h : store.value (buildKeyFromVec label key) = some valueBytes)
    (hread : Bincode.deserialize valueBytes = some parts)
    (hrun : append label key bytes store = (.ok (), store')) :
    ∃ modifiedData, Bincode.serialize (parts ++ [bytes]) = some modifiedData ∧
      store' = store.next.next.put (buildKeyFromVec label key) modifiedData := by
  simp only [append, KeyStoreM.bind_eq_ok, selectQuery_eq_ok, h] at hrun
  obtain ⟨_, _, ⟨_, rfl, rfl⟩, hrun⟩ := hrun
  simp only [serializeBincode, deserializeBincode, hread, KeyStoreM.bind_eq_ok,
    KeyStoreM.ofExcept_eq_ok, okOr_eq_ok, Option.some.injEq] at hrun
  obtain ⟨_, _, ⟨rfl, rfl⟩, modifiedData, _, ⟨hmodified, rfl⟩, hrun⟩ := hrun
  have hnext : store.next.value (buildKeyFromVec label key) = some valueBytes := h
  obtain ⟨_, rfl⟩ := (updateQuery_eq_ok hnext).mp hrun
  exact ⟨modifiedData, hmodified, rfl⟩

theorem removeItem_of_none (h : store.value (buildKeyFromVec label key) = none)
    (hrun : removeItem label key bytes store = (.ok (), store')) :
    ∃ valueBytes, format.serializeArray inferInstance [bytes] = some valueBytes ∧
      store' = store.next.next.put (buildKeyFromVec label key) valueBytes := by
  simp only [removeItem, KeyStoreM.bind_eq_ok, selectQuery_eq_ok, h] at hrun
  obtain ⟨_, _, ⟨_, rfl, rfl⟩, hrun⟩ := hrun
  simp only [KeyStoreM.bind_eq_ok, KeyStoreM.ofExcept_eq_ok, okOr_eq_ok,
    replaceQuery_eq_ok] at hrun
  obtain ⟨valueBytes, _, ⟨hvalue, rfl⟩, _, rfl⟩ := hrun
  exact ⟨valueBytes, hvalue, rfl⟩

theorem returns_removeItem_of_none (h : store.value (buildKeyFromVec label key) = none)
    (harray : format.serializeArray inferInstance [bytes] = some valueBytes) :
    store.Returns (removeItem label key bytes) (.ok ()) := by
  refine (KeyStoreM.Gives.select _ store).returns.bind fun between _ => ?_
  rw [h]
  refine .bind (a := valueBytes) ?_ fun between' _ => .rawQuery _
  rw [harray]
  exact .inl rfl

theorem removeItem_of_some (h : store.value (buildKeyFromVec label key) = some valueBytes)
    (hread : Bincode.deserialize valueBytes = some parts)
    (hrun : removeItem label key bytes store = (.ok (), store')) :
    ∃ modifiedData, Bincode.serialize (parts.erase bytes) = some modifiedData ∧
      store' = store.next.next.put (buildKeyFromVec label key) modifiedData := by
  simp only [removeItem, KeyStoreM.bind_eq_ok, selectQuery_eq_ok, h] at hrun
  obtain ⟨_, _, ⟨_, rfl, rfl⟩, hrun⟩ := hrun
  simp only [serializeBincode, deserializeBincode, hread, KeyStoreM.bind_eq_ok,
    KeyStoreM.ofExcept_eq_ok, okOr_eq_ok, Option.some.injEq] at hrun
  obtain ⟨_, _, ⟨rfl, rfl⟩, modifiedData, _, ⟨hmodified, rfl⟩, hrun⟩ := hrun
  have hnext : store.next.value (buildKeyFromVec label key) = some valueBytes := h
  obtain ⟨_, rfl⟩ := (updateQuery_eq_ok hnext).mp hrun
  exact ⟨modifiedData, hmodified, rfl⟩

theorem fails_of_unreadable (bytes : Bytes)
    (h : store.value (buildKeyFromVec label key) = some valueBytes)
    (hread : (Bincode.deserialize valueBytes : Option (List Bytes)) = none) :
    (append label key bytes).Gives store (.error .serializationError) ∧
      (removeItem label key bytes).Gives store (.error .serializationError) ∧
      ∀ (α : Type) [Bincode α], (readList α label key).Gives store (.error .serializationError) := by
  have hfails (between : SqlKeyStore) : (deserializeBincode (α := List Bytes) valueBytes).Gives
      between (.error .serializationError) := by
    rw [deserializeBincode, hread]
    exact .ofExcept _ _
  refine ⟨?_, ?_, fun α _ => ?_⟩
  all_goals
    refine .bind (.select _ store) fun between _ => ?_
    rw [h]
    exact (hfails between).bind_error

variable {Value : Type} [Bincode Value]

omit format in
theorem gives_read {o : Option Value}
    (habsent : o = none → store.value (buildKeyFromVec label key) = none)
    (hpresent : ∀ {a}, o = some a → ∃ valueBytes,
      store.value (buildKeyFromVec label key) = some valueBytes ∧
        Bincode.serialize a = some valueBytes) :
    (read Value label key).Gives store (.ok o) := by
  refine .bind (.select _ store) fun between _ => ?_
  cases o with
  | none =>
    rw [habsent rfl]
    exact .pure none between
  | some a =>
    obtain ⟨valueBytes, hvalue, ha⟩ := hpresent rfl
    rw [hvalue]
    exact .bind (.deserialize (Bincode.deserialize_serialize ha) between) fun between _ =>
      .pure (some a) between

theorem gives_readList_of_none (h : store.value (buildKeyFromVec label key) = none) :
    (readList Value label key).Gives store (.ok []) := by
  refine .bind (.select _ store) fun between _ => ?_
  rw [h]
  exact .pure [] between

omit format in
theorem gives_deserializeAll {as : List Value} (has : as.mapM Bincode.serialize = some parts)
    (store : SqlKeyStore) :
    (parts.mapM fun bytes => deserializeBincode bytes : KeyStoreM (List Value)).Gives store
      (.ok as) := by
  induction as generalizing parts store with
  | nil =>
    cases has
    exact .pure [] store
  | cons a as ih =>
    simp only [List.mapM_cons, bind, Option.bind_eq_some_iff, pure, Option.some.injEq] at has
    obtain ⟨bytes, ha, parts, hparts, rfl⟩ := has
    rw [List.mapM_cons]
    exact .bind (.deserialize (Bincode.deserialize_serialize ha) store) fun between _ =>
      .bind (ih hparts between) fun between _ => .pure (a :: as) between

theorem gives_readList_of_some {as : List Value}
    (h : store.value (buildKeyFromVec label key) = some valueBytes)
    (has : as.mapM Bincode.serialize = some parts)
    (hparts : Bincode.serialize parts = some valueBytes) :
    (readList Value label key).Gives store (.ok as) := by
  refine .bind (.select _ store) fun between _ => ?_
  rw [h]
  exact .bind (.deserialize (Bincode.deserialize_serialize hparts) between) fun between _ =>
    gives_deserializeAll has between

end Lists

section Entities

variable {Key Value : Type} [Bincode Key] [Bincode Value] {entityKey : Key} {entity : Value}

theorem writeEntity_eq_ok : writeEntity label entityKey entity store = (.ok (), store') ↔
    ∃ key value, Bincode.serialize entityKey = some key ∧ Bincode.serialize entity = some value ∧
      store.fault = none ∧
      store' = store.next.put (buildKeyFromVec label (buildKeyFromVec label key)) value := by
  simp only [writeEntity, buildKey, serializeBincode, KeyStoreM.bind_eq_ok,
    KeyStoreM.ofExcept_eq_ok, okOr_eq_ok, KeyStoreM.pure_eq_ok, write_eq_ok]
  constructor
  · rintro ⟨_, _, ⟨key, _, ⟨hkey, rfl⟩, rfl, rfl⟩, value, _, ⟨hvalue, rfl⟩, hfault, rfl⟩
    exact ⟨key, value, hkey, hvalue, hfault, rfl⟩
  · rintro ⟨key, value, hkey, hvalue, hfault, rfl⟩
    exact ⟨_, _, ⟨key, _, ⟨hkey, rfl⟩, rfl, rfl⟩, value, _, ⟨hvalue, rfl⟩, hfault, rfl⟩

theorem gives_readEntity {key : Bytes} {o : Option Value}
    (h : Bincode.serialize entityKey = some key)
    (hread : ∀ between : SqlKeyStore, between.rows = store.rows →
      (read Value label (buildKeyFromVec label key)).Gives between (.ok o)) :
    (readEntity label entityKey : KeyStoreM (Option Value)).Gives store (.ok o) :=
  .bind (.buildKey h store) hread

theorem deleteEntity_eq_ok : deleteEntity label entityKey store = (.ok (), store') ↔
    ∃ key, Bincode.serialize entityKey = some key ∧ store.fault = none ∧
      store' = store.next.drop (buildKeyFromVec label (buildKeyFromVec label key)) := by
  simp only [deleteEntity, buildKey, serializeBincode, KeyStoreM.bind_eq_ok,
    KeyStoreM.ofExcept_eq_ok, okOr_eq_ok, KeyStoreM.pure_eq_ok, delete_eq_ok]
  constructor
  · rintro ⟨_, _, ⟨key, _, ⟨hkey, rfl⟩, rfl, rfl⟩, hfault, rfl⟩
    exact ⟨key, hkey, hfault, rfl⟩
  · rintro ⟨key, hkey, hfault, rfl⟩
    exact ⟨_, _, ⟨key, _, ⟨hkey, rfl⟩, rfl, rfl⟩, hfault, rfl⟩

end Entities

end SqlKeyStore

end LibXmtp.Db
