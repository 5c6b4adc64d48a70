import LibXmtp.Data.QuicVarint
import LibXmtp.Db.KeyStore
import Mathlib.Logic.Function.Basic

namespace LibXmtp.Db

open LibXmtp.Data

inductive MlsEntity
  | tree
  | interimTranscriptHash
  | groupContext
  | confirmationTag
  | signatureKeyPair
  | keyPackage
  | encryptionKeyPair
  | groupState
  | messageSecrets
  | ownLeafIndex
  | groupEpochSecrets
  | mlsJoinConfig
  | applicationExportTree
  deriving DecidableEq

inductive KeyType
  | groupId
  | hashReference
  | signaturePublicKey
  | encryptionKey
  | epochKey
  | proposalRef
  | pskId

def MlsEntity.keyType : MlsEntity → KeyType
  | .signatureKeyPair => .signaturePublicKey
  | .keyPackage => .hashReference
  | .encryptionKeyPair => .encryptionKey
  | _ => .groupId

inductive ValueType
  | entity (kind : MlsEntity)
  | resumptionPskStore
  | hpkeKeyPair
  | leafNode
  | queuedProposal
  | pskBundle

inductive Kind
  | entity (kind : MlsEntity)
  | resumptionPskStore
  | epochKeyPairs
  | ownLeafNodes
  | queuedProposal
  | proposalQueueRefs
  | keyPackageReference
  | wrapperPrivateKey
  | commitLogSigner
  deriving DecidableEq

namespace Kind

def label : Kind → Bytes
  | .entity .tree => treeLabel
  | .entity .interimTranscriptHash => interimTranscriptHashLabel
  | .entity .groupContext => groupContextLabel
  | .entity .confirmationTag => confirmationTagLabel
  | .entity .signatureKeyPair => signatureKeyPairLabel
  | .entity .keyPackage => keyPackageLabel
  | .entity .encryptionKeyPair => encryptionKeyPairLabel
  | .entity .groupState => groupStateLabel
  | .entity .messageSecrets => messageSecretsLabel
  | .entity .ownLeafIndex => ownLeafNodeIndexLabel
  | .entity .groupEpochSecrets => epochSecretsLabel
  | .entity .mlsJoinConfig => joinConfigLabel
  | .entity .applicationExportTree => applicationExportTreeLabel
  | .resumptionPskStore => resumptionPskStoreLabel
  | .epochKeyPairs => epochKeyPairsLabel
  | .ownLeafNodes => ownLeafNodesLabel
  | .queuedProposal => queuedProposalLabel
  | .proposalQueueRefs => proposalQueueRefsLabel
  | .keyPackageReference => keyPackageReferences
  | .wrapperPrivateKey => keyPackageWrapperPrivateKey
  | .commitLogSigner => commitLogSignerPrivateKey

def builtTwice : Kind → Bool
  | .entity _ | .ownLeafNodes | .proposalQueueRefs => true
  | _ => false

def start (kind : Kind) : Bytes := if kind.builtTwice then kind.label ++ kind.label else kind.label

def ending (kind : Kind) : Bytes :=
  if kind.builtTwice then versionBytes ++ versionBytes else versionBytes

def all : List Kind :=
  [.entity .tree, .entity .interimTranscriptHash, .entity .groupContext, .entity .confirmationTag,
    .entity .signatureKeyPair, .entity .keyPackage, .entity .encryptionKeyPair,
    .entity .groupState, .entity .messageSecrets, .entity .ownLeafIndex,
    .entity .groupEpochSecrets, .entity .mlsJoinConfig, .entity .applicationExportTree,
    .resumptionPskStore, .epochKeyPairs, .ownLeafNodes, .queuedProposal, .proposalQueueRefs,
    .keyPackageReference, .wrapperPrivateKey, .commitLogSigner]

theorem mem_all (kind : Kind) : kind ∈ all := by
  cases kind with
  | entity kind => cases kind <;> decide
  | _ => decide

theorem eq_of_start_isPrefix_start {kind kind' : Kind} (h : kind.start <+: kind'.start) : kind = kind' := by
  have hall : ∀ kind ∈ all, ∀ kind' ∈ all, kind.start.isPrefixOf kind'.start = true →
      kind = kind' := by decide +kernel
  exact hall kind kind.mem_all kind' kind'.mem_all (List.isPrefixOf_iff_prefix.mpr h)

theorem eq_of_start_append {kind kind' : Kind} {rest rest' : Bytes}
    (h : kind.start ++ rest = kind'.start ++ rest') : kind = kind' := by
  have hprefix : kind.start <+: kind'.start ++ rest' := h ▸ List.prefix_append ..
  rcases List.prefix_or_prefix_of_prefix hprefix (List.prefix_append ..) with hprefix | hprefix
  · exact eq_of_start_isPrefix_start hprefix
  · exact (eq_of_start_isPrefix_start hprefix).symm

end Kind

section Slots

variable (Keys : KeyType → Type) (Values : ValueType → Type)

abbrev Kind.Key : Kind → Type
  | .entity kind => Keys kind.keyType
  | .epochKeyPairs => Keys .groupId × Keys .epochKey × UInt32
  | .queuedProposal => Keys .groupId × Keys .proposalRef
  | .resumptionPskStore | .ownLeafNodes | .proposalQueueRefs => Keys .groupId
  | .wrapperPrivateKey => Keys .hashReference
  | .keyPackageReference | .commitLogSigner => Bytes

/-- The references of a group's queued proposals may be stored so that they cannot be read. -/
abbrev Kind.Content : Kind → Type
  | .entity kind => Values (.entity kind)
  | .resumptionPskStore => Values .resumptionPskStore
  | .epochKeyPairs => List (Values .hpkeKeyPair)
  | .ownLeafNodes => List (Values .leafNode)
  | .queuedProposal => Values .queuedProposal
  | .proposalQueueRefs => Option (List (Keys .proposalRef))
  | .keyPackageReference => Keys .hashReference
  | .wrapperPrivateKey | .commitLogSigner => Bytes

structure Slot where
  kind : Kind
  key : kind.Key Keys

def TypedKeyStore := (slot : Slot Keys) → Option (slot.kind.Content Keys Values)

variable {Keys Values}

namespace TypedKeyStore

def empty : TypedKeyStore Keys Values := fun _ => none

open Classical in
noncomputable def set (typed : TypedKeyStore Keys Values) (slot : Slot Keys)
    (content : Option (slot.kind.Content Keys Values)) : TypedKeyStore Keys Values :=
  Function.update typed slot content

theorem set_self (typed : TypedKeyStore Keys Values) (slot : Slot Keys)
    (content : Option (slot.kind.Content Keys Values)) : typed.set slot content slot = content := by
  classical
  exact Function.update_self slot content typed

theorem set_of_ne (typed : TypedKeyStore Keys Values) {slot other : Slot Keys}
    (content : Option (slot.kind.Content Keys Values)) (h : other ≠ slot) :
    typed.set slot content other = typed other := by
  classical
  exact Function.update_of_ne h content typed

end TypedKeyStore

variable [BincodeFormat] [∀ keyType, Bincode (Keys keyType)]
  [∀ valueType, Bincode (Values valueType)] (vlen : Vlen)

def Kind.body : (kind : Kind) → kind.Key Keys → Option Bytes
  | .entity kind, key => Bincode.serialize (α := Keys kind.keyType) key
  | .epochKeyPairs, (groupId, epoch, leafIndex) => do
    let groupIdBytes ← Bincode.serialize groupId
    let epochBytes ← Bincode.serialize epoch
    let leafIndexBytes ← Bincode.serialize leafIndex
    return groupIdBytes ++ epochBytes ++ leafIndexBytes
  | .queuedProposal, key => Bincode.serialize (α := Keys .groupId × Keys .proposalRef) key
  | .resumptionPskStore, key | .ownLeafNodes, key | .proposalQueueRefs, key =>
    Bincode.serialize (α := Keys .groupId) key
  | .wrapperPrivateKey, key => Bincode.serialize (α := Keys .hashReference) key
  | .keyPackageReference, key => (vlen.bytes.serialize key).toOption
  | .commitLogSigner, key => Bincode.serialize (α := Bytes) key

def Slot.storageKey (slot : Slot Keys) : Option Bytes :=
  (slot.kind.body vlen slot.key).map fun body => slot.kind.start ++ body ++ slot.kind.ending

variable {vlen}

theorem Kind.body_inj {kind : Kind} {key key' : kind.Key Keys} {body : Bytes}
    (h : kind.body vlen key = some body) (h' : kind.body vlen key' = some body) : key = key' := by
  cases kind with
  | entity kind => exact Bincode.serialize_inj (α := Keys kind.keyType) h h'
  | queuedProposal => exact Bincode.serialize_inj (α := Keys .groupId × Keys .proposalRef) h h'
  | resumptionPskStore | ownLeafNodes | proposalQueueRefs =>
    exact Bincode.serialize_inj (α := Keys .groupId) h h'
  | wrapperPrivateKey => exact Bincode.serialize_inj (α := Keys .hashReference) h h'
  | commitLogSigner => exact Bincode.serialize_inj (α := Bytes) h h'
  | keyPackageReference =>
    have hread {key : Bytes} (h : (vlen.bytes.serialize key).toOption = some body) :
        vlen.bytes.deserializeExact body = .ok key := by
      cases hkey : vlen.bytes.serialize key with
      | ok bytes =>
        rw [hkey] at h
        cases h
        exact Vlen.bytes_lawful.deserializeExact_serialize hkey
      | error e =>
        rw [hkey] at h
        cases h
    cases (hread h).symm.trans (hread h')
    rfl
  | epochKeyPairs =>
    obtain ⟨groupId, epoch, leafIndex⟩ := key
    obtain ⟨groupId', epoch', leafIndex'⟩ := key'
    simp only [Kind.body, bind, Option.bind_eq_some_iff, pure, Option.some.injEq] at h h'
    obtain ⟨groupBytes, hgroup, epochBytes, hepoch, leafBytes, hleaf, hbody⟩ := h
    obtain ⟨groupBytes', hgroup', epochBytes', hepoch', leafBytes', hleaf', hbody'⟩ := h'
    have heq := hbody.trans hbody'.symm
    simp only [List.append_assoc] at heq
    obtain ⟨rfl, heq⟩ := Bincode.append_inj hgroup hgroup' heq
    obtain ⟨rfl, heq⟩ := Bincode.append_inj hepoch hepoch' heq
    subst heq
    rw [Bincode.serialize_inj hleaf hleaf']

theorem Slot.storageKey_builtTwice (kind : Kind) (htwice : kind.builtTwice = true)
    {key : kind.Key Keys} {body : Bytes} (h : kind.body vlen key = some body) :
    (⟨kind, key⟩ : Slot Keys).storageKey vlen =
      some (buildKeyFromVec kind.label (buildKeyFromVec kind.label body)) := by
  simp [Slot.storageKey, h, Kind.start, Kind.ending, htwice, buildKeyFromVec]

theorem Slot.storageKey_builtOnce (kind : Kind) (honce : kind.builtTwice = false)
    {key : kind.Key Keys} {body : Bytes} (h : kind.body vlen key = some body) :
    (⟨kind, key⟩ : Slot Keys).storageKey vlen = some (buildKeyFromVec kind.label body) := by
  simp [Slot.storageKey, h, Kind.start, Kind.ending, honce, buildKeyFromVec]

theorem Slot.storageKey_inj {slot slot' : Slot Keys} {storageKey : Bytes}
    (h : slot.storageKey vlen = some storageKey) (h' : slot'.storageKey vlen = some storageKey) :
    slot = slot' := by
  obtain ⟨kind, key⟩ := slot
  obtain ⟨kind', key'⟩ := slot'
  simp only [Slot.storageKey, Option.map_eq_some_iff] at h h'
  obtain ⟨body, hbody, hbytes⟩ := h
  obtain ⟨body', hbody', hbytes'⟩ := h'
  have heq := hbytes.trans hbytes'.symm
  simp only [List.append_assoc] at heq
  have hkind := Kind.eq_of_start_append heq
  subst hkind
  have hrest := List.append_cancel_left heq
  have hsame := List.append_cancel_right hrest
  subst hsame
  rw [Kind.body_inj hbody hbody']

def EncodesList {α : Type} [Bincode α] (as : List α) (bytes : Bytes) : Prop :=
  ∃ parts, as.mapM Bincode.serialize = some parts ∧ Bincode.serialize parts = some bytes

omit [BincodeFormat] in
theorem EncodesList.append {α : Type} [Bincode α] (as : List α) {a : α} {parts : List Bytes}
    {bytes : Bytes} (has : as.mapM Bincode.serialize = some parts)
    (ha : Bincode.serialize a = some bytes) :
    (as ++ [a]).mapM Bincode.serialize = some (parts ++ [bytes]) := by
  simp [List.mapM_append, has, ha]

omit [BincodeFormat] in
theorem EncodesList.erase {α : Type} [Bincode α] [BEq α] [LawfulBEq α] {as : List α} {a : α}
    {parts : List Bytes} {bytes : Bytes} (has : as.mapM Bincode.serialize = some parts)
    (ha : Bincode.serialize a = some bytes) :
    (as.erase a).mapM Bincode.serialize = some (parts.erase bytes) := by
  induction as generalizing parts with
  | nil =>
    cases has
    rfl
  | cons b as ih =>
    simp only [List.mapM_cons, bind, Option.bind_eq_some_iff, pure, Option.some.injEq] at has
    obtain ⟨bytes', hb, parts, hparts, rfl⟩ := has
    by_cases hsame : b = a
    · subst hsame
      cases ha.symm.trans hb
      simpa using hparts
    · have hne : bytes' ≠ bytes := by
        rintro rfl
        exact hsame (Bincode.serialize_inj hb ha)
      rw [List.erase_cons_tail (by simpa using hsame), List.erase_cons_tail (by simpa using hne)]
      simp [List.mapM_cons, hb, ih hparts]

section

variable {α : Type} [Bincode α] {label key bytes : Bytes} {a : α} {store store' : SqlKeyStore}
  (ha : Bincode.serialize a = some bytes)

include ha

theorem SqlKeyStore.append_encodes (as : Option (List α))
    (habsent : as = none → store.value (buildKeyFromVec label key) = none)
    (hpresent : ∀ list, as = some list → ∃ valueBytes,
      store.value (buildKeyFromVec label key) = some valueBytes ∧ EncodesList list valueBytes)
    (h : append label key bytes store = (.ok (), store')) :
    ∃ modifiedData, EncodesList (as.getD [] ++ [a]) modifiedData ∧
      store' = store.next.next.put (buildKeyFromVec label key) modifiedData := by
  cases as with
  | none =>
    obtain ⟨valueBytes, hvalue, hstore⟩ := append_of_none (habsent rfl) h
    exact ⟨valueBytes, ⟨[bytes], EncodesList.append [] rfl ha, hvalue⟩, hstore⟩
  | some list =>
    obtain ⟨valueBytes, hvalue, parts, hparts, hserialized⟩ := hpresent list rfl
    obtain ⟨modifiedData, hmodified, hstore⟩ :=
      append_of_some hvalue (Bincode.deserialize_serialize hserialized) h
    exact ⟨modifiedData, ⟨parts ++ [bytes], EncodesList.append list hparts ha, hmodified⟩, hstore⟩

theorem SqlKeyStore.removeItem_encodes [BEq α] [LawfulBEq α] {list : List α} {valueBytes : Bytes}
    (hvalue : store.value (buildKeyFromVec label key) = some valueBytes)
    (hlist : EncodesList list valueBytes)
    (h : removeItem label key bytes store = (.ok (), store')) :
    ∃ modifiedData, EncodesList (list.erase a) modifiedData ∧
      store' = store.next.next.put (buildKeyFromVec label key) modifiedData := by
  obtain ⟨parts, hparts, hserialized⟩ := hlist
  obtain ⟨modifiedData, hmodified, hstore⟩ :=
    removeItem_of_some hvalue (Bincode.deserialize_serialize hserialized) h
  exact ⟨modifiedData, ⟨parts.erase bytes, EncodesList.erase hparts ha, hmodified⟩, hstore⟩

end

def Slot.Encodes : (slot : Slot Keys) → slot.kind.Content Keys Values → Bytes → Prop
  | ⟨.entity kind, _⟩, value, bytes =>
    Bincode.serialize (α := Values (.entity kind)) value = some bytes
  | ⟨.resumptionPskStore, _⟩, value, bytes =>
    Bincode.serialize (α := Values .resumptionPskStore) value = some bytes
  | ⟨.epochKeyPairs, _⟩, keyPairs, bytes =>
    Bincode.serialize (α := List (Values .hpkeKeyPair)) keyPairs = some bytes
  | ⟨.ownLeafNodes, _⟩, leafNodes, bytes => EncodesList (α := Values .leafNode) leafNodes bytes
  | ⟨.queuedProposal, _⟩, proposal, bytes =>
    Bincode.serialize (α := Values .queuedProposal) proposal = some bytes
  | ⟨.proposalQueueRefs, groupId⟩, some refs, bytes =>
    EncodesList (α := Keys .proposalRef) refs bytes ∧ ∀ proposalRef ∈ refs,
      (Bincode.serialize (α := Keys .groupId × Keys .proposalRef) (groupId, proposalRef)).isSome
  | ⟨.proposalQueueRefs, _⟩, none, bytes =>
    (Bincode.deserialize bytes : Option (List Bytes)) = none
  | ⟨.keyPackageReference, _⟩, hashRef, bytes =>
    Bincode.serialize (α := Keys .hashReference) hashRef = some bytes
  | ⟨.wrapperPrivateKey, _⟩, key, bytes => Bincode.serialize (α := Bytes) key = some bytes
  | ⟨.commitLogSigner, _⟩, secret, bytes => Bincode.serialize (α := Bytes) secret = some bytes

variable (vlen) in
/-- The table of bytes is the typed store: what a slot has is in the table at the slot's key, and
nothing where the slot has nothing. -/
structure Represents (typed : TypedKeyStore Keys Values) (store : SqlKeyStore) : Prop where
  absent {slot : Slot Keys} {storageKey : Bytes} (hkey : slot.storageKey vlen = some storageKey)
    (h : typed slot = none) : store.value storageKey = none
  present {slot : Slot Keys} {storageKey : Bytes} (hkey : slot.storageKey vlen = some storageKey)
    {content : slot.kind.Content Keys Values} (h : typed slot = some content) :
    ∃ bytes, store.value storageKey = some bytes ∧ slot.Encodes content bytes

theorem Represents.of_rows {typed : TypedKeyStore Keys Values} {store store' : SqlKeyStore}
    (h : Represents vlen typed store) (hrows : store'.rows = store.rows) :
    Represents vlen typed store' := by
  have hvalue : store'.value = store.value := by
    funext storageKey
    rw [SqlKeyStore.value, hrows, SqlKeyStore.value]
  obtain ⟨habsent, hpresent⟩ := h
  exact ⟨hvalue ▸ habsent, hvalue ▸ hpresent⟩

theorem Represents.next {typed : TypedKeyStore Keys Values} {store : SqlKeyStore}
    (h : Represents vlen typed store) : Represents vlen typed store.next := h.of_rows rfl

namespace Represents

variable {typed : TypedKeyStore Keys Values} {store : SqlKeyStore} (h : Represents vlen typed store)
  {slot : Slot Keys} {storageKey : Bytes} (hkey : slot.storageKey vlen = some storageKey)

include h hkey

theorem put (content : slot.kind.Content Keys Values) {bytes : Bytes}
    (hbytes : slot.Encodes content bytes) :
    Represents vlen (typed.set slot (some content)) (store.put storageKey bytes) where
  absent {other otherKey} hother habsent := by
    by_cases hsame : other = slot
    · subst hsame
      rw [TypedKeyStore.set_self] at habsent
      cases habsent
    · rw [TypedKeyStore.set_of_ne _ _ hsame] at habsent
      have hne : storageKey ≠ otherKey := fun heq => hsame (Slot.storageKey_inj (heq ▸ hother) hkey)
      rw [SqlKeyStore.value_put, if_neg hne]
      exact h.absent hother habsent
  present {other otherKey} hother content' hcontent := by
    by_cases hsame : other = slot
    · subst hsame
      rw [TypedKeyStore.set_self] at hcontent
      cases hcontent
      cases hkey.symm.trans hother
      exact ⟨bytes, by rw [SqlKeyStore.value_put, if_pos rfl], hbytes⟩
    · rw [TypedKeyStore.set_of_ne _ _ hsame] at hcontent
      have hne : storageKey ≠ otherKey := fun heq => hsame (Slot.storageKey_inj (heq ▸ hother) hkey)
      rw [SqlKeyStore.value_put, if_neg hne]
      exact h.present hother hcontent

theorem drop : Represents vlen (typed.set slot none) (store.drop storageKey) where
  absent {other otherKey} hother habsent := by
    rw [SqlKeyStore.value_drop]
    split
    · rfl
    next hne =>
      have hsame : other ≠ slot := by
        rintro rfl
        cases hkey.symm.trans hother
        exact hne rfl
      rw [TypedKeyStore.set_of_ne _ _ hsame] at habsent
      exact h.absent hother habsent
  present {other otherKey} hother content' hcontent := by
    have hsame : other ≠ slot := by
      rintro rfl
      rw [TypedKeyStore.set_self] at hcontent
      cases hcontent
    rw [TypedKeyStore.set_of_ne _ _ hsame] at hcontent
    have hne : storageKey ≠ otherKey := fun heq => hsame (Slot.storageKey_inj (heq ▸ hother) hkey)
    rw [SqlKeyStore.value_drop, if_neg hne]
    exact h.present hother hcontent

end Represents

section Calls

def MlsEntity.write : (kind : MlsEntity) → Keys kind.keyType → Values (.entity kind) →
    KeyStoreM Unit
  | .tree, key, value => SqlKeyStore.writeTree key value
  | .interimTranscriptHash, key, value => SqlKeyStore.writeInterimTranscriptHash key value
  | .groupContext, key, value => SqlKeyStore.writeContext key value
  | .confirmationTag, key, value => SqlKeyStore.writeConfirmationTag key value
  | .signatureKeyPair, key, value => SqlKeyStore.writeSignatureKeyPair key value
  | .keyPackage, key, value => SqlKeyStore.writeKeyPackage key value
  | .encryptionKeyPair, key, value => SqlKeyStore.writeEncryptionKeyPair key value
  | .groupState, key, value => SqlKeyStore.writeGroupState key value
  | .messageSecrets, key, value => SqlKeyStore.writeMessageSecrets key value
  | .ownLeafIndex, key, value => SqlKeyStore.writeOwnLeafIndex key value
  | .groupEpochSecrets, key, value => SqlKeyStore.writeGroupEpochSecrets key value
  | .mlsJoinConfig, key, value => SqlKeyStore.writeMlsJoinConfig key value
  | .applicationExportTree, key, value => SqlKeyStore.writeApplicationExportTree key value

variable (Values) in
def MlsEntity.read : (kind : MlsEntity) → Keys kind.keyType →
    KeyStoreM (Option (Values (.entity kind)))
  | .tree, key => SqlKeyStore.tree key
  | .interimTranscriptHash, key => SqlKeyStore.interimTranscriptHash key
  | .groupContext, key => SqlKeyStore.groupContext key
  | .confirmationTag, key => SqlKeyStore.confirmationTag key
  | .signatureKeyPair, key => SqlKeyStore.signatureKeyPair key
  | .keyPackage, key => SqlKeyStore.keyPackage key
  | .encryptionKeyPair, key => SqlKeyStore.encryptionKeyPair key
  | .groupState, key => SqlKeyStore.groupState key
  | .messageSecrets, key => SqlKeyStore.messageSecrets key
  | .ownLeafIndex, key => SqlKeyStore.ownLeafIndex key
  | .groupEpochSecrets, key => SqlKeyStore.groupEpochSecrets key
  | .mlsJoinConfig, key => SqlKeyStore.mlsGroupJoinConfig key
  | .applicationExportTree, key => SqlKeyStore.applicationExportTree key

def MlsEntity.delete : (kind : MlsEntity) → Keys kind.keyType → KeyStoreM Unit
  | .tree, key => SqlKeyStore.deleteTree key
  | .interimTranscriptHash, key => SqlKeyStore.deleteInterimTranscriptHash key
  | .groupContext, key => SqlKeyStore.deleteContext key
  | .confirmationTag, key => SqlKeyStore.deleteConfirmationTag key
  | .signatureKeyPair, key => SqlKeyStore.deleteSignatureKeyPair key
  | .keyPackage, key => SqlKeyStore.deleteKeyPackage key
  | .encryptionKeyPair, key => SqlKeyStore.deleteEncryptionKeyPair key
  | .groupState, key => SqlKeyStore.deleteGroupState key
  | .messageSecrets, key => SqlKeyStore.deleteMessageSecrets key
  | .ownLeafIndex, key => SqlKeyStore.deleteOwnLeafIndex key
  | .groupEpochSecrets, key => SqlKeyStore.deleteGroupEpochSecrets key
  | .mlsJoinConfig, key => SqlKeyStore.deleteGroupConfig key
  | .applicationExportTree, key => SqlKeyStore.deleteApplicationExportTree key

variable (Keys Values) in
/-- A call that writes. A key package's material is deleted by the hash reference it has been stored
with. -/
inductive KeyStoreCall
  | write (kind : MlsEntity) (key : Keys kind.keyType) (value : Values (.entity kind))
  | delete (kind : MlsEntity) (key : Keys kind.keyType)
  | writeResumptionPskStore (groupId : Keys .groupId)
      (resumptionPskStore : Values .resumptionPskStore)
  | deleteAllResumptionPskSecrets (groupId : Keys .groupId)
  | writeEncryptionEpochKeyPairs (groupId : Keys .groupId) (epoch : Keys .epochKey)
      (leafIndex : UInt32) (keyPairs : List (Values .hpkeKeyPair))
  | deleteEncryptionEpochKeyPairs (groupId : Keys .groupId) (epoch : Keys .epochKey)
      (leafIndex : UInt32)
  | appendOwnLeafNode (groupId : Keys .groupId) (leafNode : Values .leafNode)
  | deleteOwnLeafNodes (groupId : Keys .groupId)
  | writePsk (pskId : Keys .pskId) (psk : Values .pskBundle)
  | deletePsk (pskId : Keys .pskId)
  | queueProposal (groupId : Keys .groupId) (proposalRef : Keys .proposalRef)
      (proposal : Values .queuedProposal)
  | removeProposal (groupId : Keys .groupId) (proposalRef : Keys .proposalRef)
  | clearProposalQueue (groupId : Keys .groupId)
  | storeKeyPackageReferences (hpkeInitKey : Bytes) (hashRef : Keys .hashReference)
      (postQuantumKeypair : Option SqlKeyStore.HpkeKeyPair)
  | deleteKeyPackageMaterial (hashRef : Keys .hashReference) (pqPubKey : Option Bytes)
  | writeCommitLogKey (groupId secret : Bytes)

variable (vlen) in
def KeyStoreCall.run : KeyStoreCall Keys Values → KeyStoreM Unit
  | .write kind key value => kind.write key value
  | .delete kind key => kind.delete key
  | .writeResumptionPskStore groupId pskStore => SqlKeyStore.writeResumptionPskStore groupId pskStore
  | .deleteAllResumptionPskSecrets groupId => SqlKeyStore.deleteAllResumptionPskSecrets groupId
  | .writeEncryptionEpochKeyPairs groupId epoch leafIndex keyPairs =>
    SqlKeyStore.writeEncryptionEpochKeyPairs groupId epoch leafIndex keyPairs
  | .deleteEncryptionEpochKeyPairs groupId epoch leafIndex =>
    SqlKeyStore.deleteEncryptionEpochKeyPairs groupId epoch leafIndex
  | .appendOwnLeafNode groupId leafNode => SqlKeyStore.appendOwnLeafNode groupId leafNode
  | .deleteOwnLeafNodes groupId => SqlKeyStore.deleteOwnLeafNodes groupId
  | .writePsk pskId psk => SqlKeyStore.writePsk pskId psk
  | .deletePsk pskId => SqlKeyStore.deletePsk pskId
  | .queueProposal groupId proposalRef proposal =>
    SqlKeyStore.queueProposal groupId proposalRef proposal
  | .removeProposal groupId proposalRef => SqlKeyStore.removeProposal groupId proposalRef
  | .clearProposalQueue groupId => SqlKeyStore.clearProposalQueue (Keys .proposalRef) groupId
  | .storeKeyPackageReferences hpkeInitKey hashRef postQuantumKeypair =>
    SqlKeyStore.storeKeyPackageReferences vlen hpkeInitKey hashRef postQuantumKeypair
  | .deleteKeyPackageMaterial hashRef pqPubKey => do
    let hashRefBytes ← serializeBincode hashRef
    SqlKeyStore.deleteKeyPackageMaterial vlen (Keys .hashReference) hashRefBytes pqPubKey
  | .writeCommitLogKey groupId secret => SqlKeyStore.writeCommitLogKey groupId secret

namespace TypedKeyStore

variable (typed : TypedKeyStore Keys Values)

def queuedRefs (groupId : Keys .groupId) : Option (List (Keys .proposalRef)) :=
  (typed ⟨.proposalQueueRefs, groupId⟩).getD (some [])

open Classical in
noncomputable def step : KeyStoreCall Keys Values → TypedKeyStore Keys Values
  | .write kind key value => typed.set ⟨.entity kind, key⟩ (some value)
  | .delete kind key => typed.set ⟨.entity kind, key⟩ none
  | .writeResumptionPskStore groupId pskStore =>
    typed.set ⟨.resumptionPskStore, groupId⟩ (some pskStore)
  | .deleteAllResumptionPskSecrets groupId => typed.set ⟨.resumptionPskStore, groupId⟩ none
  | .writeEncryptionEpochKeyPairs groupId epoch leafIndex keyPairs =>
    typed.set ⟨.epochKeyPairs, (groupId, epoch, leafIndex)⟩ (some keyPairs)
  | .deleteEncryptionEpochKeyPairs groupId epoch leafIndex =>
    typed.set ⟨.epochKeyPairs, (groupId, epoch, leafIndex)⟩ none
  | .appendOwnLeafNode groupId leafNode =>
    typed.set ⟨.ownLeafNodes, groupId⟩
      (some ((typed ⟨.ownLeafNodes, groupId⟩).getD [] ++ [leafNode]))
  | .deleteOwnLeafNodes groupId => typed.set ⟨.ownLeafNodes, groupId⟩ none
  -- a pre-shared key is not kept
  | .writePsk _ _ | .deletePsk _ => typed
  | .queueProposal groupId proposalRef proposal =>
    (typed.set ⟨.queuedProposal, (groupId, proposalRef)⟩ (some proposal)).set
      ⟨.proposalQueueRefs, groupId⟩
      (some ((typed.queuedRefs groupId).map fun refs => refs ++ [proposalRef]))
  | .removeProposal groupId proposalRef =>
    (typed.set ⟨.proposalQueueRefs, groupId⟩
      (some ((typed ⟨.proposalQueueRefs, groupId⟩).bind fun refs =>
        refs.map fun refs => refs.erase proposalRef))).set
      ⟨.queuedProposal, (groupId, proposalRef)⟩ none
  | .clearProposalQueue groupId =>
    (((typed.queuedRefs groupId).getD []).foldl (fun typed proposalRef =>
      typed.set ⟨.queuedProposal, (groupId, proposalRef)⟩ none) typed).set
      ⟨.proposalQueueRefs, groupId⟩ none
  | .storeKeyPackageReferences hpkeInitKey hashRef none =>
    typed.set ⟨.keyPackageReference, hpkeInitKey⟩ (some hashRef)
  | .storeKeyPackageReferences hpkeInitKey hashRef (some keypair) =>
    ((typed.set ⟨.keyPackageReference, hpkeInitKey⟩ (some hashRef)).set
      ⟨.keyPackageReference, keypair.publicKey⟩ (some hashRef)).set
      ⟨.wrapperPrivateKey, hashRef⟩ (some keypair.privateKey)
  | .deleteKeyPackageMaterial hashRef none => typed.set ⟨.entity .keyPackage, hashRef⟩ none
  | .deleteKeyPackageMaterial hashRef (some pqPubKey) =>
    ((typed.set ⟨.entity .keyPackage, hashRef⟩ none).set ⟨.keyPackageReference, pqPubKey⟩ none).set
      ⟨.wrapperPrivateKey, hashRef⟩ none
  | .writeCommitLogKey groupId secret => typed.set ⟨.commitLogSigner, groupId⟩ (some secret)

end TypedKeyStore

/-- The write of an interim transcript hash whose query fails: nothing is written, and no error
returned. -/
def KeyStoreCall.isLost (store : SqlKeyStore) : KeyStoreCall Keys Values → Bool
  | .write .interimTranscriptHash _ _ => store.fault.isSome
  | _ => false

omit [BincodeFormat] in
theorem MlsEntity.write_eq_ok {kind : MlsEntity} {key : Keys kind.keyType}
    {value : Values (.entity kind)} {store store' : SqlKeyStore}
    (h : kind.write key value store = (.ok (), store')) :
    ∃ keyBytes bytes, Bincode.serialize key = some keyBytes ∧
      Bincode.serialize value = some bytes ∧
      store' = if (KeyStoreCall.write kind key value).isLost store then store.next else
        store.next.put (buildKeyFromVec (Kind.entity kind).label
          (buildKeyFromVec (Kind.entity kind).label keyBytes)) bytes := by
  cases kind with
  | interimTranscriptHash =>
    simp only [MlsEntity.write, SqlKeyStore.writeInterimTranscriptHash, buildKey, serializeBincode,
      KeyStoreM.bind_eq_ok, KeyStoreM.ofExcept_eq_ok, okOr_eq_ok, KeyStoreM.pure_eq_ok,
      SqlKeyStore.ignoreError_write, Prod.mk.injEq, true_and] at h
    obtain ⟨_, _, ⟨keyBytes, _, ⟨hkey, rfl⟩, rfl, rfl⟩, bytes, _, ⟨hbytes, rfl⟩, rfl⟩ := h
    exact ⟨keyBytes, bytes, hkey, hbytes, rfl⟩
  | _ =>
    obtain ⟨keyBytes, bytes, hkey, hbytes, _, rfl⟩ := SqlKeyStore.writeEntity_eq_ok.mp h
    exact ⟨keyBytes, bytes, hkey, hbytes, rfl⟩

omit [BincodeFormat] in
theorem MlsEntity.delete_eq_ok {kind : MlsEntity} {key : Keys kind.keyType}
    {store store' : SqlKeyStore} :
    kind.delete key store = (.ok (), store') ↔
      ∃ keyBytes, Bincode.serialize key = some keyBytes ∧ store.fault = none ∧
        store' = store.next.drop (buildKeyFromVec (Kind.entity kind).label
          (buildKeyFromVec (Kind.entity kind).label keyBytes)) := by
  cases kind <;> exact SqlKeyStore.deleteEntity_eq_ok

omit [BincodeFormat] in
theorem keyPackageReferencesKey_eq_ok {publicKey key : Bytes} {store store' : SqlKeyStore} :
    SqlKeyStore.keyPackageReferencesKey vlen publicKey store = (.ok key, store') ↔
      (vlen.bytes.serialize publicKey).toOption = some key ∧ store = store' := by
  simp only [SqlKeyStore.keyPackageReferencesKey, KeyStoreM.ofExcept_eq_ok, mapError_eq_ok]
  cases vlen.bytes.serialize publicKey <;> simp [Except.toOption]

variable (vlen) in
theorem epochKeyPairsId_eq_ok {groupId : Keys .groupId} {epoch : Keys .epochKey} {leafIndex : UInt32}
    {key : Bytes} {store store' : SqlKeyStore} :
    SqlKeyStore.epochKeyPairsId groupId epoch leafIndex store = (.ok key, store') ↔
      Kind.body vlen .epochKeyPairs (groupId, epoch, leafIndex) = some key ∧ store = store' := by
  simp only [SqlKeyStore.epochKeyPairsId, serializeBincode, KeyStoreM.bind_eq_ok,
    KeyStoreM.ofExcept_eq_ok, KeyStoreM.pure_eq_ok, okOr_eq_ok]
  simp only [Kind.body, bind, Option.bind_eq_some_iff, pure, Option.some.injEq]
  constructor
  · rintro ⟨group, _, ⟨hgroup, rfl⟩, epochBytes, _, ⟨hepoch, rfl⟩, leaf, _, ⟨hleaf, rfl⟩, rfl, rfl⟩
    exact ⟨⟨group, hgroup, epochBytes, hepoch, leaf, hleaf, rfl⟩, rfl⟩
  · rintro ⟨⟨group, hgroup, epochBytes, hepoch, leaf, hleaf, rfl⟩, rfl⟩
    exact ⟨group, _, ⟨hgroup, rfl⟩, epochBytes, _, ⟨hepoch, rfl⟩, leaf, _, ⟨hleaf, rfl⟩, rfl, rfl⟩

section Step

variable {typed : TypedKeyStore Keys Values} {store store' : SqlKeyStore}

namespace Represents

variable (h : Represents vlen typed store)

include h

theorem appendOwnLeafNode {groupId : Keys .groupId} {leafNode : Values .leafNode}
    (hrun : SqlKeyStore.appendOwnLeafNode groupId leafNode store = (.ok (), store')) :
    Represents vlen (typed.step (.appendOwnLeafNode groupId leafNode)) store' := by
  simp only [SqlKeyStore.appendOwnLeafNode, buildKey, serializeBincode, KeyStoreM.bind_eq_ok,
    KeyStoreM.ofExcept_eq_ok, KeyStoreM.pure_eq_ok, okOr_eq_ok] at hrun
  obtain ⟨_, _, ⟨body, _, ⟨hbody, rfl⟩, rfl, rfl⟩, bytes, _, ⟨hbytes, rfl⟩, hrun⟩ := hrun
  have hkey : (⟨.ownLeafNodes, groupId⟩ : Slot Keys).storageKey vlen = some _ :=
    Slot.storageKey_builtTwice .ownLeafNodes rfl hbody
  obtain ⟨modifiedData, hmodified, hstore⟩ := SqlKeyStore.append_encodes hbytes _ (h.absent hkey)
    (fun list hlist => h.present hkey hlist) hrun
  subst hstore
  exact h.next.next.put hkey _ hmodified

theorem appendRef {groupId : Keys .groupId} {proposalRef : Keys .proposalRef} {body bytes : Bytes}
    (hbody : Bincode.serialize groupId = some body)
    (hbytes : Bincode.serialize proposalRef = some bytes)
    (hboth : (Bincode.serialize (groupId, proposalRef)).isSome)
    (hrun : SqlKeyStore.append proposalQueueRefsLabel (buildKeyFromVec proposalQueueRefsLabel body)
      bytes store = (.ok (), store')) :
    Represents vlen (typed.set ⟨.proposalQueueRefs, groupId⟩
      (some ((typed.queuedRefs groupId).map fun refs => refs ++ [proposalRef]))) store' := by
  have hkey : (⟨.proposalQueueRefs, groupId⟩ : Slot Keys).storageKey vlen = some _ :=
    Slot.storageKey_builtTwice .proposalQueueRefs rfl hbody
  cases hqueue : typed ⟨.proposalQueueRefs, groupId⟩ with
  | none =>
    obtain ⟨modifiedData, hmodified, hstore⟩ := SqlKeyStore.append_encodes hbytes none
      (fun _ => h.absent hkey hqueue) (fun _ hlist => by cases hlist) hrun
    subst hstore
    simp only [TypedKeyStore.queuedRefs, hqueue, Option.getD_none, Option.map_some]
    exact h.next.next.put hkey _ ⟨hmodified, fun ref href => by
      rw [List.mem_singleton.mp href]
      exact hboth⟩
  | some content =>
    obtain ⟨valueBytes, hvalue, hencodes⟩ := h.present hkey hqueue
    cases content with
    | none =>
      have hfails := (SqlKeyStore.fails_of_unreadable bytes hvalue hencodes).1.returns
      rcases hfails with heq | ⟨_, heq⟩ <;> cases (congrArg Prod.fst hrun).symm.trans heq
    | some refs =>
      obtain ⟨modifiedData, hmodified, hstore⟩ := SqlKeyStore.append_encodes hbytes (some refs)
        (fun hnone => by cases hnone)
        (fun list hlist => by cases hlist; exact ⟨valueBytes, hvalue, hencodes.1⟩) hrun
      subst hstore
      simp only [TypedKeyStore.queuedRefs, hqueue, Option.getD_some, Option.map_some]
      refine h.next.next.put hkey _ ⟨hmodified, fun ref href => ?_⟩
      rcases List.mem_append.mp href with href | href
      · exact hencodes.2 ref href
      · rw [List.mem_singleton.mp href]
        exact hboth

open Classical in
theorem removeRef {groupId : Keys .groupId} {proposalRef : Keys .proposalRef} {body bytes : Bytes}
    (hne : bytes ≠ []) (hbody : Bincode.serialize groupId = some body)
    (hbytes : Bincode.serialize proposalRef = some bytes)
    (hrun : SqlKeyStore.removeItem proposalQueueRefsLabel
      (buildKeyFromVec proposalQueueRefsLabel body) bytes store = (.ok (), store')) :
    Represents vlen (typed.set ⟨.proposalQueueRefs, groupId⟩
      (some ((typed ⟨.proposalQueueRefs, groupId⟩).bind fun refs =>
        refs.map fun refs => refs.erase proposalRef))) store' := by
  have hkey : (⟨.proposalQueueRefs, groupId⟩ : Slot Keys).storageKey vlen = some _ :=
    Slot.storageKey_builtTwice .proposalQueueRefs rfl hbody
  cases hqueue : typed ⟨.proposalQueueRefs, groupId⟩ with
  | none =>
    obtain ⟨valueBytes, hvalue, hstore⟩ :=
      SqlKeyStore.removeItem_of_none (h.absent hkey hqueue) hrun
    subst hstore
    exact h.next.next.put hkey none
      (Bincode.deserialize_array_eq_none hne (Bincode.array_eq_some.mp hvalue))
  | some content =>
    obtain ⟨valueBytes, hvalue, hencodes⟩ := h.present hkey hqueue
    cases content with
    | none =>
      have hfails := (SqlKeyStore.fails_of_unreadable bytes hvalue hencodes).2.1.returns
      rcases hfails with heq | ⟨_, heq⟩ <;> cases (congrArg Prod.fst hrun).symm.trans heq
    | some refs =>
      obtain ⟨modifiedData, hmodified, hstore⟩ :=
        SqlKeyStore.removeItem_encodes hbytes hvalue hencodes.1 hrun
      subst hstore
      exact h.next.next.put hkey _
        ⟨hmodified, fun ref href => hencodes.2 ref (List.mem_of_mem_erase href)⟩

theorem readQueue {groupId : Keys .groupId} {body : Bytes}
    (hbody : Bincode.serialize groupId = some body) :
    (SqlKeyStore.readList (Keys .proposalRef) proposalQueueRefsLabel
      (buildKeyFromVec proposalQueueRefsLabel body)).Gives store
        (okOr (typed.queuedRefs groupId) .serializationError) := by
  have hslot : (⟨.proposalQueueRefs, groupId⟩ : Slot Keys).storageKey vlen = some _ :=
    Slot.storageKey_builtTwice .proposalQueueRefs rfl hbody
  cases hqueue : typed ⟨.proposalQueueRefs, groupId⟩ with
  | none =>
    simp only [TypedKeyStore.queuedRefs, hqueue, Option.getD_none, okOr_some]
    exact SqlKeyStore.gives_readList_of_none (h.absent hslot hqueue)
  | some content =>
    obtain ⟨valueBytes, hvalue, hencodes⟩ := h.present hslot hqueue
    cases content with
    | none =>
      simp only [TypedKeyStore.queuedRefs, hqueue, Option.getD_some, okOr_none]
      exact (SqlKeyStore.fails_of_unreadable [] hvalue hencodes).2.2 _
    | some refs =>
      obtain ⟨⟨parts, hparts, hbytes⟩, _⟩ := hencodes
      simp only [TypedKeyStore.queuedRefs, hqueue, Option.getD_some, okOr_some]
      exact SqlKeyStore.gives_readList_of_some hvalue hparts hbytes

theorem isSome_of_mem_queuedRefs {groupId : Keys .groupId} {body : Bytes}
    (hbody : Bincode.serialize groupId = some body) {refs : List (Keys .proposalRef)}
    (hrefs : typed.queuedRefs groupId = some refs) :
    ∀ proposalRef ∈ refs, (Bincode.serialize (groupId, proposalRef)).isSome := by
  have hslot : (⟨.proposalQueueRefs, groupId⟩ : Slot Keys).storageKey vlen = some _ :=
    Slot.storageKey_builtTwice .proposalQueueRefs rfl hbody
  unfold TypedKeyStore.queuedRefs at hrefs
  cases hqueue : typed ⟨.proposalQueueRefs, groupId⟩ with
  | none =>
    rw [hqueue] at hrefs
    cases hrefs
    intro proposalRef href
    cases href
  | some content =>
    rw [hqueue] at hrefs
    subst hrefs
    obtain ⟨_, _, _, hboth⟩ := h.present hslot hqueue
    exact hboth

theorem dropProposals {groupId : Keys .groupId} {refs : List (Keys .proposalRef)}
    (hrun : (refs.forM fun proposalRef => do
      let key ← serializeBincode (groupId, proposalRef)
      SqlKeyStore.delete queuedProposalLabel key) store = (.ok (), store')) :
    Represents vlen (refs.foldl (fun typed proposalRef =>
      typed.set ⟨.queuedProposal, (groupId, proposalRef)⟩ none) typed) store' := by
  induction refs generalizing typed store with
  | nil =>
    cases hrun
    exact h
  | cons proposalRef refs ih =>
    simp only [List.forM_eq_forM, List.forM_cons, serializeBincode, KeyStoreM.bind_eq_ok,
      KeyStoreM.ofExcept_eq_ok, okOr_eq_ok, SqlKeyStore.delete_eq_ok] at hrun
    obtain ⟨_, _, ⟨body, _, ⟨hbody, rfl⟩, _, rfl⟩, hrun⟩ := hrun
    have hkey : (⟨.queuedProposal, (groupId, proposalRef)⟩ : Slot Keys).storageKey vlen = some _ :=
      Slot.storageKey_builtOnce .queuedProposal rfl hbody
    exact ih (h.next.drop hkey) hrun

theorem queueProposal {groupId : Keys .groupId} {proposalRef : Keys .proposalRef}
    {proposal : Values .queuedProposal}
    (hrun : SqlKeyStore.queueProposal groupId proposalRef proposal store = (.ok (), store')) :
    Represents vlen (typed.step (.queueProposal groupId proposalRef proposal)) store' := by
  simp only [SqlKeyStore.queueProposal, buildKey, serializeBincode, KeyStoreM.bind_eq_ok,
    KeyStoreM.ofExcept_eq_ok, KeyStoreM.pure_eq_ok, okOr_eq_ok, SqlKeyStore.write_eq_ok] at hrun
  obtain ⟨both, _, ⟨hboth, rfl⟩, value, _, ⟨hvalue, rfl⟩, _, _, ⟨_, rfl⟩, _, _, ⟨body, _,
    ⟨hbody, rfl⟩, rfl, rfl⟩, bytes, _, ⟨hbytes, rfl⟩, hrun⟩ := hrun
  have hkey : (⟨.queuedProposal, (groupId, proposalRef)⟩ : Slot Keys).storageKey vlen = some _ :=
    Slot.storageKey_builtOnce .queuedProposal rfl hboth
  have hqueued := (h.next.put hkey proposal hvalue).appendRef hbody hbytes
    (Option.isSome_of_eq_some hboth) hrun
  have hrefs : (typed.set ⟨.queuedProposal, (groupId, proposalRef)⟩ (some proposal)).queuedRefs
      groupId = typed.queuedRefs groupId := by
    unfold TypedKeyStore.queuedRefs
    rw [TypedKeyStore.set_of_ne]
    intro heq
    cases congrArg Slot.kind heq
  rw [hrefs] at hqueued
  exact hqueued

theorem removeProposal {groupId : Keys .groupId} {proposalRef : Keys .proposalRef}
    (hne : Bincode.serialize proposalRef ≠ some [])
    (hrun : SqlKeyStore.removeProposal groupId proposalRef store = (.ok (), store')) :
    Represents vlen (typed.step (.removeProposal groupId proposalRef)) store' := by
  simp only [SqlKeyStore.removeProposal, buildKey, serializeBincode, KeyStoreM.bind_eq_ok,
    KeyStoreM.ofExcept_eq_ok, KeyStoreM.pure_eq_ok, okOr_eq_ok, SqlKeyStore.delete_eq_ok] at hrun
  obtain ⟨_, _, ⟨body, _, ⟨hbody, rfl⟩, rfl, rfl⟩, bytes, _, ⟨hbytes, rfl⟩, _, between, hremove, both,
    _, ⟨hboth, rfl⟩, _, rfl⟩ := hrun
  have hkey : (⟨.queuedProposal, (groupId, proposalRef)⟩ : Slot Keys).storageKey vlen = some _ :=
    Slot.storageKey_builtOnce .queuedProposal rfl hboth
  have hnil : bytes ≠ [] := by
    rintro rfl
    exact hne hbytes
  exact (h.removeRef hnil hbody hbytes hremove).next.drop hkey

theorem clearProposalQueue {groupId : Keys .groupId}
    (hrun : SqlKeyStore.clearProposalQueue (Keys .proposalRef) groupId store = (.ok (), store')) :
    Represents vlen (typed.step (.clearProposalQueue groupId)) store' := by
  simp only [SqlKeyStore.clearProposalQueue, KeyStoreM.bind_eq_ok] at hrun
  obtain ⟨_, _, hkey, refs, between, hread, _, cleared, hclear, _, _, hkey', hdelete⟩ := hrun
  simp only [buildKey, serializeBincode, KeyStoreM.bind_eq_ok, KeyStoreM.ofExcept_eq_ok,
    KeyStoreM.pure_eq_ok, okOr_eq_ok] at hkey hkey'
  obtain ⟨body, _, ⟨hbody, rfl⟩, rfl, rfl⟩ := hkey
  obtain ⟨body', _, ⟨hbody', rfl⟩, rfl, rfl⟩ := hkey'
  cases hbody.symm.trans hbody'
  obtain ⟨hreturns, hrows⟩ := h.readQueue hbody
  simp only [SqlKeyStore.Returns, SqlKeyStore.answer, hread, reduceCtorEq, exists_false,
    or_false, @eq_comm _ (Except.ok refs), okOr_eq_ok] at hreturns hrows
  have hslot : (⟨.proposalQueueRefs, groupId⟩ : Slot Keys).storageKey vlen = some _ :=
    Slot.storageKey_builtTwice .proposalQueueRefs rfl hbody
  obtain ⟨_, rfl⟩ := SqlKeyStore.delete_eq_ok.mp hdelete
  have hdropped := ((h.of_rows hrows).dropProposals hclear).next.drop hslot
  rw [← Option.getD_some (a := refs) (b := []), ← hreturns] at hdropped
  exact hdropped

theorem storeKeyPackageReferences {hpkeInitKey : Bytes} {hashRef : Keys .hashReference}
    {postQuantumKeypair : Option SqlKeyStore.HpkeKeyPair}
    (hrun : SqlKeyStore.storeKeyPackageReferences vlen hpkeInitKey hashRef postQuantumKeypair store =
      (.ok (), store')) :
    Represents vlen (typed.step (.storeKeyPackageReferences hpkeInitKey hashRef postQuantumKeypair))
      store' := by
  simp only [SqlKeyStore.storeKeyPackageReferences, serializeBincode, KeyStoreM.bind_eq_ok,
    KeyStoreM.ofExcept_eq_ok, okOr_eq_ok, keyPackageReferencesKey_eq_ok,
    SqlKeyStore.write_eq_ok] at hrun
  obtain ⟨initKey, _, ⟨hinit, rfl⟩, hashBytes, _, ⟨hhash, rfl⟩, _, _, ⟨_, rfl⟩, hrun⟩ := hrun
  have hreference := h.next.put (Slot.storageKey_builtOnce .keyPackageReference rfl hinit) hashRef hhash
  cases postQuantumKeypair with
  | none =>
    cases hrun
    exact hreference
  | some keypair =>
    simp only [KeyStoreM.bind_eq_ok, KeyStoreM.ofExcept_eq_ok, okOr_eq_ok,
      keyPackageReferencesKey_eq_ok, SqlKeyStore.write_eq_ok] at hrun
    obtain ⟨pqKey, _, ⟨hpq, rfl⟩, privateBytes, _, ⟨hprivate, rfl⟩, _, _, ⟨_, rfl⟩, _, rfl⟩ := hrun
    have hpqReference := hreference.next.put (Slot.storageKey_builtOnce .keyPackageReference rfl hpq)
      hashRef hhash
    exact hpqReference.next.put (Slot.storageKey_builtOnce .wrapperPrivateKey rfl hhash)
      keypair.privateKey hprivate

theorem deleteKeyPackageMaterial {hashRef : Keys .hashReference} {pqPubKey : Option Bytes}
    (hrun : (.deleteKeyPackageMaterial hashRef pqPubKey : KeyStoreCall Keys Values).run vlen store =
      (.ok (), store')) :
    Represents vlen (typed.step (.deleteKeyPackageMaterial hashRef pqPubKey)) store' := by
  simp only [KeyStoreCall.run, SqlKeyStore.deleteKeyPackageMaterial, serializeBincode,
    deserializeBincode, KeyStoreM.bind_eq_ok, KeyStoreM.ofExcept_eq_ok, okOr_eq_ok] at hrun
  obtain ⟨hashBytes, _, ⟨hhash, rfl⟩, read, _, ⟨hread, rfl⟩, _, _, hdelete, hrun⟩ := hrun
  cases (Bincode.deserialize_serialize hhash).symm.trans hread
  obtain ⟨keyBytes, hkey, _, rfl⟩ := SqlKeyStore.deleteEntity_eq_ok.mp hdelete
  have hpackage := h.next.drop (Slot.storageKey_builtTwice (.entity .keyPackage) rfl hkey)
  cases pqPubKey with
  | none =>
    cases hrun
    exact hpackage
  | some pqPubKey =>
    simp only [KeyStoreM.bind_eq_ok, keyPackageReferencesKey_eq_ok, SqlKeyStore.delete_eq_ok] at hrun
    obtain ⟨pqKey, _, ⟨hpq, rfl⟩, _, _, ⟨_, rfl⟩, _, rfl⟩ := hrun
    have hreference :=
      hpackage.next.drop (Slot.storageKey_builtOnce .keyPackageReference rfl hpq)
    exact hreference.next.drop (Slot.storageKey_builtOnce .wrapperPrivateKey rfl hhash)

theorem step {call : KeyStoreCall Keys Values}
    (hne : ∀ proposalRef : Keys .proposalRef, Bincode.serialize proposalRef ≠ some [])
    (hrun : call.run vlen store = (.ok (), store')) :
    Represents vlen (if call.isLost store then typed else typed.step call) store' := by
  cases call with
  | write kind key value =>
    obtain ⟨keyBytes, bytes, hkey, hbytes, rfl⟩ := MlsEntity.write_eq_ok hrun
    split
    · exact h.next
    · exact h.next.put (Slot.storageKey_builtTwice (.entity kind) rfl hkey) _ hbytes
  | delete kind key =>
    obtain ⟨keyBytes, hkey, _, rfl⟩ := MlsEntity.delete_eq_ok.mp hrun
    exact h.next.drop (Slot.storageKey_builtTwice (.entity kind) rfl hkey)
  | writeResumptionPskStore groupId pskStore =>
    simp only [KeyStoreCall.run, SqlKeyStore.writeResumptionPskStore, serializeBincode,
      KeyStoreM.bind_eq_ok, KeyStoreM.ofExcept_eq_ok, okOr_eq_ok, SqlKeyStore.write_eq_ok] at hrun
    obtain ⟨body, _, ⟨hbody, rfl⟩, bytes, _, ⟨hbytes, rfl⟩, _, rfl⟩ := hrun
    exact h.next.put (Slot.storageKey_builtOnce .resumptionPskStore rfl hbody) _ hbytes
  | deleteAllResumptionPskSecrets groupId =>
    simp only [KeyStoreCall.run, SqlKeyStore.deleteAllResumptionPskSecrets, serializeBincode,
      KeyStoreM.bind_eq_ok, KeyStoreM.ofExcept_eq_ok, okOr_eq_ok, SqlKeyStore.delete_eq_ok] at hrun
    obtain ⟨body, _, ⟨hbody, rfl⟩, _, rfl⟩ := hrun
    exact h.next.drop (Slot.storageKey_builtOnce .resumptionPskStore rfl hbody)
  | writeEncryptionEpochKeyPairs groupId epoch leafIndex keyPairs =>
    simp only [KeyStoreCall.run, SqlKeyStore.writeEncryptionEpochKeyPairs, serializeBincode,
      KeyStoreM.bind_eq_ok, epochKeyPairsId_eq_ok vlen, KeyStoreM.ofExcept_eq_ok,
      okOr_eq_ok, SqlKeyStore.write_eq_ok] at hrun
    obtain ⟨body, _, ⟨hbody, rfl⟩, bytes, _, ⟨hbytes, rfl⟩, _, rfl⟩ := hrun
    exact h.next.put (Slot.storageKey_builtOnce .epochKeyPairs rfl hbody) _ hbytes
  | deleteEncryptionEpochKeyPairs groupId epoch leafIndex =>
    simp only [KeyStoreCall.run, SqlKeyStore.deleteEncryptionEpochKeyPairs, KeyStoreM.bind_eq_ok,
      epochKeyPairsId_eq_ok vlen, SqlKeyStore.delete_eq_ok] at hrun
    obtain ⟨body, _, ⟨hbody, rfl⟩, _, rfl⟩ := hrun
    exact h.next.drop (Slot.storageKey_builtOnce .epochKeyPairs rfl hbody)
  | appendOwnLeafNode groupId leafNode => exact h.appendOwnLeafNode hrun
  | deleteOwnLeafNodes groupId =>
    obtain ⟨keyBytes, hkey, _, rfl⟩ := SqlKeyStore.deleteEntity_eq_ok.mp hrun
    exact h.next.drop (Slot.storageKey_builtTwice .ownLeafNodes rfl hkey)
  | writePsk pskId psk =>
    cases hrun
    exact h
  | deletePsk pskId => cases hrun
  | queueProposal groupId proposalRef proposal => exact h.queueProposal hrun
  | removeProposal groupId proposalRef => exact h.removeProposal (hne proposalRef) hrun
  | clearProposalQueue groupId => exact h.clearProposalQueue hrun
  | storeKeyPackageReferences hpkeInitKey hashRef postQuantumKeypair =>
    exact h.storeKeyPackageReferences hrun
  | deleteKeyPackageMaterial hashRef pqPubKey => exact h.deleteKeyPackageMaterial hrun
  | writeCommitLogKey groupId secret =>
    simp only [KeyStoreCall.run, SqlKeyStore.writeCommitLogKey, serializeBincode,
      KeyStoreM.bind_eq_ok, KeyStoreM.ofExcept_eq_ok, okOr_eq_ok, SqlKeyStore.write_eq_ok] at hrun
    obtain ⟨body, _, ⟨hbody, rfl⟩, bytes, _, ⟨hbytes, rfl⟩, _, rfl⟩ := hrun
    exact h.next.put (Slot.storageKey_builtOnce .commitLogSigner rfl hbody) _ hbytes

end Represents

theorem represents_empty (faults : List (Option String)) :
    Represents vlen (TypedKeyStore.empty : TypedKeyStore Keys Values) (.empty faults) where
  absent _ _ := rfl
  present _ _ h := by cases h

namespace KeyStoreCall

variable (vlen) in
def runAll (calls : List (KeyStoreCall Keys Values)) : KeyStoreM Unit :=
  calls.forM fun call => call.run vlen

variable (vlen) in
def kept : List (KeyStoreCall Keys Values) → SqlKeyStore → List (KeyStoreCall Keys Values)
  | [], _ => []
  | call :: calls, store =>
    if call.isLost store then kept calls (call.run vlen store).2
    else call :: kept calls (call.run vlen store).2

end KeyStoreCall

theorem Represents.run (h : Represents vlen typed store) {calls : List (KeyStoreCall Keys Values)}
    (hne : ∀ proposalRef : Keys .proposalRef, Bincode.serialize proposalRef ≠ some [])
    (hrun : KeyStoreCall.runAll vlen calls store = (.ok (), store')) :
    Represents vlen ((KeyStoreCall.kept vlen calls store).foldl TypedKeyStore.step typed) store' := by
  induction calls generalizing typed store with
  | nil =>
    cases hrun
    exact h
  | cons call calls ih =>
    simp only [KeyStoreCall.runAll, List.forM_eq_forM, List.forM_cons, KeyStoreM.bind_eq_ok] at hrun
    obtain ⟨_, between, hcall, hrun⟩ := hrun
    have hothers := ih (h.step hne hcall) hrun
    simp only [KeyStoreCall.kept, hcall]
    split at hothers
    next hlost => rwa [if_pos hlost]
    next hlost => rwa [if_neg hlost]

section Reads

variable (vlen) in
/-- Every call that reads answers what the typed store has, unless its query fails. -/
structure Answers (typed : TypedKeyStore Keys Values) (store : SqlKeyStore) : Prop where
  read (kind : MlsEntity) (key : Keys kind.keyType) (hkey : (Bincode.serialize key).isSome) :
    store.Returns (kind.read Values key) (.ok (typed ⟨.entity kind, key⟩))
  resumptionPskStore (groupId : Keys .groupId) (hkey : (Bincode.serialize groupId).isSome) :
    store.Returns (SqlKeyStore.resumptionPskStore groupId)
      (.ok (typed ⟨.resumptionPskStore, groupId⟩))
  encryptionEpochKeyPairs (groupId : Keys .groupId) (epoch : Keys .epochKey) (leafIndex : UInt32)
    (hkey : (Kind.body vlen .epochKeyPairs (groupId, epoch, leafIndex)).isSome) :
    store.Returns (SqlKeyStore.encryptionEpochKeyPairs groupId epoch leafIndex)
      (.ok ((typed ⟨.epochKeyPairs, (groupId, epoch, leafIndex)⟩).getD []))
  ownLeafNodes (groupId : Keys .groupId) (hkey : (Bincode.serialize groupId).isSome) :
    store.Returns (SqlKeyStore.ownLeafNodes groupId) (.ok ((typed ⟨.ownLeafNodes, groupId⟩).getD []))
  psk (pskId : Keys .pskId) : store.Returns (SqlKeyStore.psk (Values .pskBundle) pskId) (.ok none)
  queuedProposalRefs (groupId : Keys .groupId) (hkey : (Bincode.serialize groupId).isSome) :
    store.Returns (SqlKeyStore.queuedProposalRefs groupId)
      (okOr (typed.queuedRefs groupId) .serializationError)
  queuedProposals (groupId : Keys .groupId) (hkey : (Bincode.serialize groupId).isSome) :
    store.Returns (SqlKeyStore.queuedProposals groupId) (do
      let refs ← okOr (typed.queuedRefs groupId) .serializationError
      refs.mapM fun proposalRef =>
        (okOr (typed ⟨.queuedProposal, (groupId, proposalRef)⟩) .notFound).map fun proposal =>
          (proposalRef, proposal))
  findKeyPackageHashRef (hpkePublicKey key : Bytes)
    (hkey : vlen.bytes.serialize hpkePublicKey = .ok key) :
    store.findKeyPackageHashRef vlen hpkePublicKey =
        okOr (typed ⟨.keyPackageReference, hpkePublicKey⟩) (.keyPackageReference key) ∨
      ∃ error, (store.findKeyPackageHashRef vlen hpkePublicKey :
        Except (SqlKeyStore.FindKeyError (Keys .hashReference)) (Keys .hashReference)) =
          .error (.store (.connection error))
  findPrivateKey (algorithm : SqlKeyStore.WrapperAlgorithm)
    (initPrivateKey : Values (.entity .keyPackage) → Bytes) (hashRef : Keys .hashReference)
    (hkey : (Bincode.serialize hashRef).isSome) :
    (store.findPrivateKey initPrivateKey hashRef algorithm = match algorithm with
      | .curve25519 =>
        okOr ((typed ⟨.entity .keyPackage, hashRef⟩).map initPrivateKey) (.keyPackage hashRef)
      | .xWingMlkem768Draft6 =>
        okOr (typed ⟨.wrapperPrivateKey, hashRef⟩) .postQuantumPrivateKey) ∨
      ∃ error, store.findPrivateKey initPrivateKey hashRef algorithm =
        .error (.store (.connection error))
  readCommitLogKey (groupId : Bytes) (hkey : (Bincode.serialize groupId).isSome) :
    store.Returns (SqlKeyStore.readCommitLogKey groupId) (.ok (typed ⟨.commitLogSigner, groupId⟩))

namespace Represents

variable (h : Represents vlen typed store)

include h

theorem gives_readEntity (kind : MlsEntity) {key : Keys kind.keyType}
    (hkey : (Bincode.serialize key).isSome) :
    (kind.read Values key).Gives store (.ok (typed ⟨.entity kind, key⟩)) := by
  obtain ⟨keyBytes, hbytes⟩ := Option.isSome_iff_exists.mp hkey
  have hslot : (⟨.entity kind, key⟩ : Slot Keys).storageKey vlen = some _ :=
    Slot.storageKey_builtTwice (.entity kind) rfl hbytes
  have hread (between : SqlKeyStore) (hrows : between.rows = store.rows) :
      (SqlKeyStore.read (Values (.entity kind)) (Kind.entity kind).label
        (buildKeyFromVec (Kind.entity kind).label keyBytes)).Gives between
          (.ok (typed ⟨.entity kind, key⟩)) :=
    SqlKeyStore.gives_read ((h.of_rows hrows).absent hslot) ((h.of_rows hrows).present hslot)
  cases kind <;> exact SqlKeyStore.gives_readEntity hbytes hread

theorem gives_readResumptionPskStore {groupId : Keys .groupId}
    (hkey : (Bincode.serialize groupId).isSome) :
    (SqlKeyStore.resumptionPskStore groupId).Gives store
      (.ok (typed ⟨.resumptionPskStore, groupId⟩)) := by
  obtain ⟨body, hbody⟩ := Option.isSome_iff_exists.mp hkey
  have hslot : (⟨.resumptionPskStore, groupId⟩ : Slot Keys).storageKey vlen = some _ :=
    Slot.storageKey_builtOnce .resumptionPskStore rfl hbody
  refine .bind (.serialize hbody store) fun between hrows => ?_
  exact SqlKeyStore.gives_read ((h.of_rows hrows).absent hslot) ((h.of_rows hrows).present hslot)

theorem gives_epochKeyPairs {groupId : Keys .groupId} {epoch : Keys .epochKey} {leafIndex : UInt32}
    (hkey : (Kind.body vlen .epochKeyPairs (groupId, epoch, leafIndex)).isSome) :
    (SqlKeyStore.encryptionEpochKeyPairs groupId epoch leafIndex).Gives store
      (.ok ((typed ⟨.epochKeyPairs, (groupId, epoch, leafIndex)⟩).getD [])) := by
  obtain ⟨body, hbody⟩ := Option.isSome_iff_exists.mp hkey
  have hslot : (⟨.epochKeyPairs, (groupId, epoch, leafIndex)⟩ : Slot Keys).storageKey vlen = some _ :=
    Slot.storageKey_builtOnce .epochKeyPairs rfl hbody
  have hid : (SqlKeyStore.epochKeyPairsId groupId epoch leafIndex).Gives store (.ok body) := by
    have hrun := (epochKeyPairsId_eq_ok vlen).mpr ⟨hbody, Eq.refl store⟩
    exact ⟨.inl (congrArg Prod.fst hrun), by rw [hrun]⟩
  refine hid.bind fun between hrows => .bind (.select _ between) fun between' _ => ?_
  have hbetween := h.of_rows hrows
  cases hpairs : typed ⟨.epochKeyPairs, (groupId, epoch, leafIndex)⟩ with
  | none =>
    have hvalue : between.value (buildKeyFromVec epochKeyPairsLabel body) = none :=
      hbetween.absent hslot hpairs
    rw [hvalue]
    exact .pure [] between'
  | some keyPairs =>
    obtain ⟨bytes, hvalue, hbytes⟩ := hbetween.present hslot hpairs
    have hvalue : between.value (buildKeyFromVec epochKeyPairsLabel body) = some bytes := hvalue
    rw [hvalue]
    exact .deserialize (Bincode.deserialize_serialize hbytes) between'

theorem gives_ownLeafNodes {groupId : Keys .groupId} (hkey : (Bincode.serialize groupId).isSome) :
    (SqlKeyStore.ownLeafNodes groupId).Gives store
      (.ok ((typed ⟨.ownLeafNodes, groupId⟩).getD [])) := by
  obtain ⟨body, hbody⟩ := Option.isSome_iff_exists.mp hkey
  have hslot : (⟨.ownLeafNodes, groupId⟩ : Slot Keys).storageKey vlen = some _ :=
    Slot.storageKey_builtTwice .ownLeafNodes rfl hbody
  refine .bind (.buildKey hbody store) fun between hrows => ?_
  have hbetween := h.of_rows hrows
  cases hleaves : typed ⟨.ownLeafNodes, groupId⟩ with
  | none => exact SqlKeyStore.gives_readList_of_none (hbetween.absent hslot hleaves)
  | some leafNodes =>
    obtain ⟨bytes, hvalue, parts, hparts, hbytes⟩ := hbetween.present hslot hleaves
    exact SqlKeyStore.gives_readList_of_some hvalue hparts hbytes

theorem gives_queuedProposalRefs {groupId : Keys .groupId}
    (hkey : (Bincode.serialize groupId).isSome) :
    (SqlKeyStore.queuedProposalRefs groupId).Gives store
      (okOr (typed.queuedRefs groupId) .serializationError) := by
  obtain ⟨body, hbody⟩ := Option.isSome_iff_exists.mp hkey
  exact .bind (.buildKey hbody store) fun between hrows => (h.of_rows hrows).readQueue hbody

theorem gives_queuedProposal {groupId : Keys .groupId} {proposalRef : Keys .proposalRef}
    (hkey : (Bincode.serialize (groupId, proposalRef)).isSome) :
    (SqlKeyStore.queuedProposal groupId proposalRef).Gives store
      ((okOr (typed ⟨.queuedProposal, (groupId, proposalRef)⟩) .notFound).map fun proposal =>
        (proposalRef, proposal)) := by
  obtain ⟨body, hbody⟩ := Option.isSome_iff_exists.mp hkey
  have hslot : (⟨.queuedProposal, (groupId, proposalRef)⟩ : Slot Keys).storageKey vlen = some _ :=
    Slot.storageKey_builtOnce .queuedProposal rfl hbody
  refine .bind (.serialize hbody store) fun between hrows => ?_
  have hread : (SqlKeyStore.read (Values .queuedProposal) queuedProposalLabel body).Gives between
      (.ok (typed ⟨.queuedProposal, (groupId, proposalRef)⟩)) :=
    SqlKeyStore.gives_read ((h.of_rows hrows).absent hslot) ((h.of_rows hrows).present hslot)
  refine hread.bind fun between _ => ?_
  cases typed ⟨.queuedProposal, (groupId, proposalRef)⟩ with
  | none => exact KeyStoreM.Gives.bind_error (.ofExcept _ between)
  | some proposal =>
    exact .bind (.ofExcept (.ok proposal) between) fun between _ => .pure (proposalRef, proposal) between

theorem gives_mapM_queuedProposal {groupId : Keys .groupId} {refs : List (Keys .proposalRef)}
    (hrefs : ∀ proposalRef ∈ refs, (Bincode.serialize (groupId, proposalRef)).isSome) :
    (refs.mapM (SqlKeyStore.queuedProposal groupId)).Gives store
      (refs.mapM fun proposalRef =>
        (okOr (typed ⟨.queuedProposal, (groupId, proposalRef)⟩) .notFound).map fun proposal =>
          (proposalRef, proposal)) := by
  induction refs generalizing store with
  | nil => exact .pure [] store
  | cons proposalRef refs ih =>
    have hfirst := h.gives_queuedProposal (hrefs proposalRef List.mem_cons_self)
    rw [List.mapM_cons, List.mapM_cons]
    cases hproposal : typed ⟨.queuedProposal, (groupId, proposalRef)⟩ with
    | none =>
      rw [hproposal] at hfirst
      exact hfirst.bind_error
    | some proposal =>
      rw [hproposal] at hfirst
      refine hfirst.bind fun between hrows => ?_
      have hothers := ih (h.of_rows hrows) fun ref href => hrefs ref (List.mem_cons_of_mem _ href)
      generalize (refs.mapM fun proposalRef =>
        (okOr (typed ⟨.queuedProposal, (groupId, proposalRef)⟩) SqlKeyStoreError.notFound).map
          fun proposal => (proposalRef, proposal)) = others at hothers ⊢
      cases others with
      | error e => exact hothers.bind_error
      | ok others => exact hothers.bind fun between _ => .pure (_ :: others) between

theorem gives_queuedProposals {groupId : Keys .groupId}
    (hkey : (Bincode.serialize groupId).isSome) :
    (SqlKeyStore.queuedProposals groupId).Gives store (do
      let refs ← okOr (typed.queuedRefs groupId) .serializationError
      refs.mapM fun proposalRef =>
        (okOr (typed ⟨.queuedProposal, (groupId, proposalRef)⟩) .notFound).map fun proposal =>
          (proposalRef, proposal)) := by
  obtain ⟨body, hbody⟩ := Option.isSome_iff_exists.mp hkey
  refine .bind (.buildKey hbody store) fun between hrows => ?_
  have hbetween := h.of_rows hrows
  have hread := hbetween.readQueue hbody
  cases hrefs : typed.queuedRefs groupId with
  | none =>
    rw [hrefs] at hread
    exact hread.bind_error
  | some refs =>
    rw [hrefs] at hread
    exact hread.bind fun between' hrows' => (hbetween.of_rows hrows').gives_mapM_queuedProposal
      (hbetween.isSome_of_mem_queuedRefs hbody hrefs)

theorem findKeyPackageHashRef {hpkePublicKey key : Bytes}
    (hkey : vlen.bytes.serialize hpkePublicKey = .ok key) :
    store.findKeyPackageHashRef vlen hpkePublicKey =
        okOr (typed ⟨.keyPackageReference, hpkePublicKey⟩) (.keyPackageReference key) ∨
      ∃ error, (store.findKeyPackageHashRef vlen hpkePublicKey :
        Except (SqlKeyStore.FindKeyError (Keys .hashReference)) (Keys .hashReference)) =
          .error (.store (.connection error)) := by
  have hbody : @Kind.body Keys _ _ vlen .keyPackageReference hpkePublicKey = some key := by
    simp only [Kind.body, hkey, toOption_ok]
  have hslot : (⟨.keyPackageReference, hpkePublicKey⟩ : Slot Keys).storageKey vlen = some _ :=
    Slot.storageKey_builtOnce .keyPackageReference rfl hbody
  have hread : (SqlKeyStore.read (Keys .hashReference) keyPackageReferences key).Gives store
      (.ok (typed ⟨.keyPackageReference, hpkePublicKey⟩)) :=
    SqlKeyStore.gives_read (h.absent hslot) (h.present hslot)
  have hserialize : store.answer (SqlKeyStore.keyPackageReferencesKey vlen hpkePublicKey) =
      .ok key := by
    simp only [SqlKeyStore.answer, SqlKeyStore.keyPackageReferencesKey, KeyStoreM.ofExcept, hkey,
      Except.mapError]
  rcases hread.returns with heq | ⟨error, heq⟩
  · left
    simp only [SqlKeyStore.findKeyPackageHashRef, hserialize, heq, Except.mapError, ok_bind]
  · right
    exact ⟨error, by
      simp only [SqlKeyStore.findKeyPackageHashRef, hserialize, heq, Except.mapError, ok_bind]
      rfl⟩

theorem findPrivateKey (algorithm : SqlKeyStore.WrapperAlgorithm)
    (initPrivateKey : Values (.entity .keyPackage) → Bytes) {hashRef : Keys .hashReference}
    (hkey : (Bincode.serialize hashRef).isSome) :
    (store.findPrivateKey initPrivateKey hashRef algorithm = match algorithm with
      | .curve25519 =>
        okOr ((typed ⟨.entity .keyPackage, hashRef⟩).map initPrivateKey) (.keyPackage hashRef)
      | .xWingMlkem768Draft6 =>
        okOr (typed ⟨.wrapperPrivateKey, hashRef⟩) .postQuantumPrivateKey) ∨
      ∃ error, store.findPrivateKey initPrivateKey hashRef algorithm =
        .error (.store (.connection error)) := by
  cases algorithm with
  | curve25519 =>
    have hread : (SqlKeyStore.keyPackage hashRef :
        KeyStoreM (Option (Values (.entity .keyPackage)))).Gives store
          (.ok (typed ⟨.entity .keyPackage, hashRef⟩)) := h.gives_readEntity .keyPackage hkey
    rcases hread.returns with heq | ⟨error, heq⟩
    · left
      simp only [SqlKeyStore.findPrivateKey, heq, Except.mapError, ok_bind]
    · right
      exact ⟨error, by
        simp only [SqlKeyStore.findPrivateKey, heq, Except.mapError]
        rfl⟩
  | xWingMlkem768Draft6 =>
    obtain ⟨body, hbody⟩ := Option.isSome_iff_exists.mp hkey
    have hslot : (⟨.wrapperPrivateKey, hashRef⟩ : Slot Keys).storageKey vlen = some _ :=
      Slot.storageKey_builtOnce .wrapperPrivateKey rfl hbody
    have hread : (SqlKeyStore.read Bytes keyPackageWrapperPrivateKey body).Gives store
        (.ok (typed ⟨.wrapperPrivateKey, hashRef⟩)) :=
      SqlKeyStore.gives_read (h.absent hslot) (h.present hslot)
    have hserialize : store.answer (serializeBincode hashRef) = .ok body := by
      simp only [SqlKeyStore.answer, serializeBincode, KeyStoreM.ofExcept, hbody, okOr_some]
    rcases hread.returns with heq | ⟨error, heq⟩
    · left
      simp only [SqlKeyStore.findPrivateKey, hserialize, heq, Except.mapError, ok_bind]
    · right
      exact ⟨error, by
        simp only [SqlKeyStore.findPrivateKey, hserialize, heq, Except.mapError, ok_bind]
        rfl⟩

theorem gives_readCommitLogKey {groupId : Bytes} (hkey : (Bincode.serialize groupId).isSome) :
    (SqlKeyStore.readCommitLogKey groupId).Gives store (.ok (typed ⟨.commitLogSigner, groupId⟩)) := by
  obtain ⟨body, hbody⟩ := Option.isSome_iff_exists.mp hkey
  have hslot : (⟨.commitLogSigner, groupId⟩ : Slot Keys).storageKey vlen = some _ :=
    Slot.storageKey_builtOnce .commitLogSigner rfl hbody
  refine .bind (.serialize hbody store) fun between hrows => ?_
  exact SqlKeyStore.gives_read ((h.of_rows hrows).absent hslot) ((h.of_rows hrows).present hslot)

theorem answers : Answers vlen typed store where
  read kind _ hkey := (h.gives_readEntity kind hkey).returns
  resumptionPskStore _ hkey := (h.gives_readResumptionPskStore hkey).returns
  encryptionEpochKeyPairs _ _ _ hkey := (h.gives_epochKeyPairs hkey).returns
  ownLeafNodes _ hkey := (h.gives_ownLeafNodes hkey).returns
  psk _ := .inl rfl
  queuedProposalRefs _ hkey := (h.gives_queuedProposalRefs hkey).returns
  queuedProposals _ hkey := (h.gives_queuedProposals hkey).returns
  findKeyPackageHashRef _ _ hkey := h.findKeyPackageHashRef hkey
  findPrivateKey algorithm initPrivateKey _ hkey := h.findPrivateKey algorithm initPrivateKey hkey
  readCommitLogKey _ hkey := (h.gives_readCommitLogKey hkey).returns

end Represents

/-- Whatever has been written, appended, queued, removed and deleted, of whichever kinds and under
whichever keys: the table of bytes answers every call that reads as the typed store does, apart from
the interim transcript hashes whose write fails without a word. No two slots share a row. -/
theorem KeyStoreCall.answers_runAll {calls : List (KeyStoreCall Keys Values)}
    {faults : List (Option String)}
    (hne : ∀ proposalRef : Keys .proposalRef, Bincode.serialize proposalRef ≠ some [])
    (hrun : KeyStoreCall.runAll vlen calls (.empty faults) = (.ok (), store)) :
    Answers vlen ((kept vlen calls (.empty faults)).foldl TypedKeyStore.step TypedKeyStore.empty)
        store ∧
      ∀ (slot slot' : Slot Keys) (storageKey : Bytes), slot.storageKey vlen = some storageKey →
        slot'.storageKey vlen = some storageKey → slot = slot' :=
  ⟨((represents_empty faults).run hne hrun).answers, fun _ _ _ => Slot.storageKey_inj⟩

end Reads

end Step

end Calls

end Slots

section Numbers

local instance : BincodeFormat := .fixint

abbrev NumberKeys : KeyType → Type := fun _ => UInt32

abbrev NumberValues : ValueType → Type := fun _ => UInt32

theorem serialize_number_ne (n : UInt32) : Bincode.serialize n ≠ some [] := by
  intro h
  have hlength := congrArg List.length (Option.some.inj h)
  simp at hlength

def proposalCalls : List (KeyStoreCall NumberKeys NumberValues) :=
  [.write .tree 7 1, .write .interimTranscriptHash 7 2, .write .interimTranscriptHash 7 3,
    .queueProposal 7 1 5, .queueProposal 7 2 6, .removeProposal 7 1, .writePsk 4 4,
    .storeKeyPackageReferences [3] 9 (some ⟨[4], [5]⟩), .writeCommitLogKey [7] [8]]

theorem KeyStoreCall.answers_proposalCalls : ∃ store,
    KeyStoreCall.runAll .quic proposalCalls (.empty [none, none, some "locked"]) = (.ok (), store) ∧
      Answers .quic ((proposalCalls.eraseIdx 2).foldl TypedKeyStore.step TypedKeyStore.empty)
        store := by
  have hok : (KeyStoreCall.runAll .quic proposalCalls (.empty [none, none, some "locked"])).1 =
      .ok () := by decide +kernel
  refine ⟨_, Prod.ext hok rfl, ?_⟩
  exact (KeyStoreCall.answers_runAll serialize_number_ne (Prod.ext hok rfl)).1

end Numbers

end LibXmtp.Db
