import LibXmtp.Db.TypedKeyStore

namespace LibXmtp.Db

open LibXmtp.Data

section Format

def Jammed [BincodeFormat] (storageKey : Bytes) (store : SqlKeyStore) : Prop :=
  ∃ bytes, store.value storageKey = some bytes ∧
    (Bincode.deserialize bytes : Option (List Bytes)) = none

variable [format : BincodeFormat] {α β : Type} {storageKey label key bytes : Bytes}

/-- Whether it succeeds or not, the call leaves what is so. -/
def KeyStoreM.Preserves (P : SqlKeyStore → Prop) (call : KeyStoreM α) : Prop :=
  ∀ store, P store → P (call store).2

omit format in
theorem KeyStoreM.Preserves.bind {P : SqlKeyStore → Prop} {call : KeyStoreM α}
    {next : α → KeyStoreM β} (h : Preserves P call)
    (hnext : ∀ a store store', call store = (.ok a, store') → Preserves P (next a)) :
    Preserves P (call >>= next) := by
  intro store hstore
  have hbetween := h store hstore
  simp only [Bind.bind]
  cases hresult : call store with
  | mk result between =>
    rw [hresult] at hbetween
    cases result with
    | error e => exact hbetween
    | ok a => exact hnext a store between hresult between hbetween

omit format in
theorem KeyStoreM.Preserves.ofExcept {P : SqlKeyStore → Prop}
    (result : Except SqlKeyStoreError α) : Preserves P (.ofExcept result) := fun _ h => h

omit format in
theorem KeyStoreM.Preserves.pure {P : SqlKeyStore → Prop} (a : α) :
    Preserves P (Pure.pure a : KeyStoreM α) := fun _ h => h

theorem Jammed.of_rows {store store' : SqlKeyStore} (h : Jammed storageKey store)
    (hrows : store'.rows = store.rows) : Jammed storageKey store' := by
  obtain ⟨jam, hvalue, hread⟩ := h
  exact ⟨jam, by rw [SqlKeyStore.value, hrows, ← SqlKeyStore.value, hvalue], hread⟩

theorem jammed_put {store : SqlKeyStore} {other : Bytes} (h : Jammed storageKey store)
    (hne : other ≠ storageKey) (bytes : Bytes) : Jammed storageKey (store.put other bytes) := by
  obtain ⟨jam, hvalue, hread⟩ := h
  exact ⟨jam, by rw [SqlKeyStore.value_put, if_neg hne, hvalue], hread⟩

theorem jammed_drop {store : SqlKeyStore} {other : Bytes} (h : Jammed storageKey store)
    (hne : other ≠ storageKey) : Jammed storageKey (store.drop other) := by
  obtain ⟨jam, hvalue, hread⟩ := h
  exact ⟨jam, by rw [SqlKeyStore.value_drop, if_neg hne, hvalue], hread⟩

theorem Jammed.fails {store : SqlKeyStore} (h : Jammed (buildKeyFromVec label key) store)
    (bytes : Bytes) :
    (SqlKeyStore.append label key bytes).Gives store (.error .serializationError) ∧
      (SqlKeyStore.removeItem label key bytes).Gives store (.error .serializationError) ∧
      ∀ (α : Type) [Bincode α],
        (SqlKeyStore.readList α label key).Gives store (.error .serializationError) := by
  obtain ⟨_, hvalue, hread⟩ := h
  exact SqlKeyStore.fails_of_unreadable bytes hvalue hread

theorem preserves_rawQuery {query : KeyValueRows → α × KeyValueRows}
    (hquery : ∀ store : SqlKeyStore, Jammed storageKey store →
      Jammed storageKey ⟨(query store.rows).2, store.faults⟩) :
    KeyStoreM.Preserves (Jammed storageKey) (SqlKeyStore.rawQuery query) := by
  intro store h
  have hnext : Jammed storageKey store.next := h.of_rows rfl
  cases hfault : store.fault with
  | none =>
    simp only [SqlKeyStore.rawQuery, hfault]
    exact hquery store.next hnext
  | some error =>
    simp only [SqlKeyStore.rawQuery, hfault]
    exact hnext

theorem preserves_selectQuery :
    KeyStoreM.Preserves (Jammed storageKey) (SqlKeyStore.selectQuery key) :=
  preserves_rawQuery fun _ h => h

theorem preserves_write (hne : buildKeyFromVec label key ≠ storageKey) (bytes : Bytes) :
    KeyStoreM.Preserves (Jammed storageKey) (SqlKeyStore.write label key bytes) :=
  preserves_rawQuery fun _ h => jammed_put h hne bytes

theorem preserves_delete (hne : buildKeyFromVec label key ≠ storageKey) :
    KeyStoreM.Preserves (Jammed storageKey) (SqlKeyStore.delete label key) :=
  preserves_rawQuery fun _ h => jammed_drop h hne

theorem preserves_updateQuery (hne : key ≠ storageKey) (bytes : Bytes) :
    KeyStoreM.Preserves (Jammed storageKey) (SqlKeyStore.updateQuery key bytes) := by
  refine preserves_rawQuery fun store h => ?_
  split
  · exact jammed_put h hne bytes
  · exact h

theorem KeyStoreM.Gives.preserves {call : KeyStoreM α} {store : SqlKeyStore}
    {result : Except SqlKeyStoreError α} (h : call.Gives store result)
    (hjammed : Jammed storageKey store) : Jammed storageKey (call store).2 :=
  hjammed.of_rows h.rows

theorem preserves_append :
    KeyStoreM.Preserves (Jammed storageKey) (SqlKeyStore.append label key bytes) := by
  by_cases hsame : buildKeyFromVec label key = storageKey
  · subst hsame
    exact fun store h => (h.fails bytes).1.preserves h
  · refine .bind preserves_selectQuery fun found _ _ _ => ?_
    cases found with
    | none => exact .bind (.ofExcept _) fun _ _ _ _ => preserves_write hsame _
    | some valueBytes =>
      exact .bind (.ofExcept _) fun _ _ _ _ => .bind (.ofExcept _) fun _ _ _ _ =>
        preserves_updateQuery hsame _

theorem preserves_removeItem :
    KeyStoreM.Preserves (Jammed storageKey) (SqlKeyStore.removeItem label key bytes) := by
  by_cases hsame : buildKeyFromVec label key = storageKey
  · subst hsame
    exact fun store h => (h.fails bytes).2.1.preserves h
  · refine .bind preserves_selectQuery fun found _ _ _ => ?_
    cases found with
    | none => exact .bind (.ofExcept _) fun _ _ _ _ => preserves_write hsame _
    | some valueBytes =>
      exact .bind (.ofExcept _) fun _ _ _ _ => .bind (.ofExcept _) fun _ _ _ _ =>
        preserves_updateQuery hsame _

omit format in
theorem KeyStoreM.Preserves.mapM {P : SqlKeyStore → Prop} {call : α → KeyStoreM β} {as : List α}
    (h : ∀ a, Preserves P (call a)) : Preserves P (as.mapM call) := by
  induction as with
  | nil => exact .pure _
  | cons a as ih =>
    rw [List.mapM_cons]
    exact (h a).bind fun _ _ _ _ => ih.bind fun _ _ _ _ => .pure _

omit format in
theorem KeyStoreM.Preserves.forM {P : SqlKeyStore → Prop} {call : α → KeyStoreM Unit} {as : List α}
    (h : ∀ a, Preserves P (call a)) : Preserves P (as.forM call) := by
  induction as with
  | nil => exact .pure _
  | cons a as ih =>
    rw [List.forM_eq_forM, List.forM_cons]
    exact (h a).bind fun _ _ _ _ => ih

section Calls

variable {Key Value : Type} [Bincode Key] [Bincode Value] {entityKey : Key} {entity : Value}

omit format in
theorem buildKey_eq_ok {store store' : SqlKeyStore} :
    buildKey label entityKey store = (.ok key, store') ↔
      ∃ body, Bincode.serialize entityKey = some body ∧ key = buildKeyFromVec label body ∧
        store = store' := by
  simp only [buildKey, serializeBincode, KeyStoreM.bind_eq_ok, KeyStoreM.ofExcept_eq_ok,
    KeyStoreM.pure_eq_ok, okOr_eq_ok]
  constructor
  · rintro ⟨body, _, ⟨hbody, rfl⟩, rfl, rfl⟩
    exact ⟨body, hbody, rfl, rfl⟩
  · rintro ⟨body, hbody, rfl, rfl⟩
    exact ⟨body, _, ⟨hbody, rfl⟩, rfl, rfl⟩

theorem preserves_buildKey : KeyStoreM.Preserves (Jammed storageKey) (buildKey label entityKey) :=
  .bind (.ofExcept _) fun _ _ _ _ => .pure _

theorem preserves_writeEntity (hne : ∀ body, Bincode.serialize entityKey = some body →
      buildKeyFromVec label (buildKeyFromVec label body) ≠ storageKey) :
    KeyStoreM.Preserves (Jammed storageKey) (SqlKeyStore.writeEntity label entityKey entity) := by
  refine preserves_buildKey.bind fun key _ _ hkey => .bind (.ofExcept _) fun _ _ _ _ => ?_
  obtain ⟨body, hbody, rfl, _⟩ := buildKey_eq_ok.mp hkey
  exact preserves_write (hne body hbody) _

theorem preserves_writeInterimTranscriptHash (hne : ∀ body, Bincode.serialize entityKey = some body →
      buildKeyFromVec interimTranscriptHashLabel (buildKeyFromVec interimTranscriptHashLabel body) ≠
        storageKey) :
    KeyStoreM.Preserves (Jammed storageKey)
      (SqlKeyStore.writeInterimTranscriptHash entityKey entity) := by
  refine preserves_buildKey.bind fun key _ _ hkey => .bind (.ofExcept _) fun value _ _ _ => ?_
  obtain ⟨body, hbody, rfl, _⟩ := buildKey_eq_ok.mp hkey
  exact fun store h => preserves_write (hne body hbody) value store h

theorem preserves_deleteEntity (hne : ∀ body, Bincode.serialize entityKey = some body →
      buildKeyFromVec label (buildKeyFromVec label body) ≠ storageKey) :
    KeyStoreM.Preserves (Jammed storageKey) (SqlKeyStore.deleteEntity label entityKey) := by
  refine preserves_buildKey.bind fun key _ _ hkey => ?_
  obtain ⟨body, hbody, rfl, _⟩ := buildKey_eq_ok.mp hkey
  exact preserves_delete (hne body hbody)

theorem preserves_readList : KeyStoreM.Preserves (Jammed storageKey)
    (SqlKeyStore.readList Value label key) := by
  refine .bind preserves_selectQuery fun found _ _ _ => ?_
  cases found with
  | none => exact .pure _
  | some valueBytes =>
    exact .bind (.ofExcept _) fun _ _ _ _ => .mapM fun _ => .ofExcept _

omit format in
theorem serializeBincode_eq_ok {store store' : SqlKeyStore} :
    serializeBincode entityKey store = (.ok bytes, store') ↔
      Bincode.serialize entityKey = some bytes ∧ store = store' := by
  simp only [serializeBincode, KeyStoreM.ofExcept_eq_ok, okOr_eq_ok]

theorem preserves_epochKeyPairsId {GroupId EpochKey : Type} [Bincode GroupId] [Bincode EpochKey]
    {groupId : GroupId} {epoch : EpochKey} {leafIndex : UInt32} :
    KeyStoreM.Preserves (Jammed storageKey)
      (SqlKeyStore.epochKeyPairsId groupId epoch leafIndex) :=
  .bind (.ofExcept _) fun _ _ _ _ => .bind (.ofExcept _) fun _ _ _ _ => .bind (.ofExcept _)
    fun _ _ _ _ => .pure _

end Calls

section Queue

variable {Keys : KeyType → Type} {Values : ValueType → Type} [∀ keyType, Bincode (Keys keyType)]
  [∀ valueType, Bincode (Values valueType)] {vlen : Vlen} {groupId : Keys .groupId}
  (hqueue : (⟨.proposalQueueRefs, groupId⟩ : Slot Keys).storageKey vlen = some storageKey)

include hqueue

theorem ne_of_kind {slot : Slot Keys} {other : Bytes} (hother : slot.storageKey vlen = some other)
    (hkind : slot.kind ≠ .proposalQueueRefs) : other ≠ storageKey := by
  rintro rfl
  exact hkind (congrArg Slot.kind (Slot.storageKey_inj hother hqueue))

theorem ne_of_builtOnce (kind : Kind) (honce : kind.builtTwice = false) {key : kind.Key Keys}
    {body : Bytes} (hbody : kind.body vlen key = some body) :
    buildKeyFromVec kind.label body ≠ storageKey := by
  refine ne_of_kind hqueue (Slot.storageKey_builtOnce kind honce hbody) ?_
  rintro rfl
  cases honce

theorem ne_of_builtTwice (kind : Kind) (htwice : kind.builtTwice = true)
    (hkind : kind ≠ .proposalQueueRefs) {key : kind.Key Keys} {body : Bytes}
    (hbody : kind.body vlen key = some body) :
    buildKeyFromVec kind.label (buildKeyFromVec kind.label body) ≠ storageKey :=
  ne_of_kind hqueue (Slot.storageKey_builtTwice kind htwice hbody) hkind

theorem preserves_clearProposalQueue (other : Keys .groupId) :
    KeyStoreM.Preserves (Jammed storageKey)
      (SqlKeyStore.clearProposalQueue (Keys .proposalRef) other) := by
  refine preserves_buildKey.bind fun key _ _ hkey => ?_
  obtain ⟨body, hbody, rfl, _⟩ := buildKey_eq_ok.mp hkey
  by_cases hsame : buildKeyFromVec proposalQueueRefsLabel
      (buildKeyFromVec proposalQueueRefsLabel body) = storageKey
  · rintro store h
    rw [← hsame] at h ⊢
    exact ((h.fails []).2.2 (Keys .proposalRef)).bind_error.preserves h
  · refine preserves_readList.bind fun refs _ _ _ => .bind (.forM fun proposalRef => ?_)
      fun _ _ _ _ => preserves_buildKey.bind fun key' _ _ hkey' => ?_
    · refine .bind (.ofExcept _) fun both _ _ hboth => ?_
      obtain ⟨hboth, _⟩ := serializeBincode_eq_ok.mp hboth
      exact preserves_delete (ne_of_builtOnce hqueue .queuedProposal rfl hboth)
    · obtain ⟨body', hbody', rfl, _⟩ := buildKey_eq_ok.mp hkey'
      cases hbody.symm.trans hbody'
      exact preserves_delete hsame

theorem preserves_queueProposal (other : Keys .groupId) (proposalRef : Keys .proposalRef)
    (proposal : Values .queuedProposal) : KeyStoreM.Preserves (Jammed storageKey)
      (SqlKeyStore.queueProposal other proposalRef proposal) := by
  refine .bind (.ofExcept _) fun both _ _ hboth => .bind (.ofExcept _) fun value _ _ _ => ?_
  obtain ⟨hboth, _⟩ := serializeBincode_eq_ok.mp hboth
  exact .bind (preserves_write (ne_of_builtOnce hqueue .queuedProposal rfl hboth) _) fun _ _ _ _ =>
    preserves_buildKey.bind fun _ _ _ _ => .bind (.ofExcept _) fun _ _ _ _ => preserves_append

theorem preserves_removeProposal (other : Keys .groupId) (proposalRef : Keys .proposalRef) :
    KeyStoreM.Preserves (Jammed storageKey) (SqlKeyStore.removeProposal other proposalRef) := by
  refine preserves_buildKey.bind fun _ _ _ _ => .bind (.ofExcept _) fun _ _ _ _ =>
    preserves_removeItem.bind fun _ _ _ _ => .bind (.ofExcept _) fun both _ _ hboth => ?_
  obtain ⟨hboth, _⟩ := serializeBincode_eq_ok.mp hboth
  exact preserves_delete (ne_of_builtOnce hqueue .queuedProposal rfl hboth)

theorem ne_reference {publicKey key : Bytes} {store store' : SqlKeyStore}
    (hkey : SqlKeyStore.keyPackageReferencesKey vlen publicKey store = (.ok key, store')) :
    buildKeyFromVec keyPackageReferences key ≠ storageKey := by
  obtain ⟨hkey, _⟩ := keyPackageReferencesKey_eq_ok.mp hkey
  exact ne_of_builtOnce hqueue .keyPackageReference rfl hkey

theorem ne_wrapperPrivateKey {hashRef : Keys .hashReference} {key : Bytes}
    (hkey : Bincode.serialize hashRef = some key) :
    buildKeyFromVec keyPackageWrapperPrivateKey key ≠ storageKey :=
  ne_of_builtOnce hqueue .wrapperPrivateKey rfl hkey

theorem preserves_storeKeyPackageReferences (hpkeInitKey : Bytes) (hashRef : Keys .hashReference)
    (postQuantumKeypair : Option SqlKeyStore.HpkeKeyPair) :
    KeyStoreM.Preserves (Jammed storageKey)
      (SqlKeyStore.storeKeyPackageReferences vlen hpkeInitKey hashRef postQuantumKeypair) := by
  refine .bind (.ofExcept _) fun initKey _ _ hinit => .bind (.ofExcept _) fun hashBytes _ _ hhash =>
    .bind (preserves_write (ne_reference hqueue hinit) _) fun _ _ _ _ => ?_
  cases postQuantumKeypair with
  | none => exact .pure _
  | some keypair =>
    obtain ⟨hhash, _⟩ := serializeBincode_eq_ok.mp hhash
    exact .bind (.ofExcept _) fun pqKey _ _ hpq => .bind (.ofExcept _) fun _ _ _ _ =>
      .bind (preserves_write (ne_reference hqueue hpq) _) fun _ _ _ _ =>
        preserves_write (ne_wrapperPrivateKey hqueue hhash) _

theorem preserves_deleteKeyPackageMaterial (hashRef : Keys .hashReference) (pqPubKey : Option Bytes) :
    KeyStoreM.Preserves (Jammed storageKey)
      ((.deleteKeyPackageMaterial hashRef pqPubKey : KeyStoreCall Keys Values).run vlen) := by
  refine .bind (.ofExcept _) fun hashBytes _ _ hhash => .bind (.ofExcept _) fun read _ _ _ => ?_
  obtain ⟨hhash, _⟩ := serializeBincode_eq_ok.mp hhash
  refine .bind (preserves_deleteEntity fun body hbody => ?_) fun _ _ _ _ => ?_
  · exact ne_of_builtTwice hqueue (.entity .keyPackage) rfl (by simp) hbody
  · cases pqPubKey with
    | none => exact .pure _
    | some pqPubKey =>
      exact .bind (.ofExcept _) fun pqKey _ _ hpq =>
        .bind (preserves_delete (ne_reference hqueue hpq)) fun _ _ _ _ =>
          preserves_delete (ne_wrapperPrivateKey hqueue hhash)

theorem preserves_run (call : KeyStoreCall Keys Values) :
    KeyStoreM.Preserves (Jammed storageKey) (call.run vlen) := by
  cases call with
  | write kind key value =>
    have hne : ∀ body, Bincode.serialize key = some body → buildKeyFromVec
        (Kind.entity kind).label (buildKeyFromVec (Kind.entity kind).label body) ≠ storageKey := by
      intro body hbody
      exact ne_of_builtTwice hqueue (.entity kind) rfl (by simp) hbody
    cases kind with
    | interimTranscriptHash => exact preserves_writeInterimTranscriptHash hne
    | _ => exact preserves_writeEntity hne
  | delete kind key =>
    have hne : ∀ body, Bincode.serialize key = some body → buildKeyFromVec
        (Kind.entity kind).label (buildKeyFromVec (Kind.entity kind).label body) ≠ storageKey := by
      intro body hbody
      exact ne_of_builtTwice hqueue (.entity kind) rfl (by simp) hbody
    cases kind <;> exact preserves_deleteEntity hne
  | writeResumptionPskStore other pskStore =>
    refine .bind (.ofExcept _) fun body _ _ hbody => .bind (.ofExcept _) fun _ _ _ _ => ?_
    obtain ⟨hbody, _⟩ := serializeBincode_eq_ok.mp hbody
    exact preserves_write (ne_of_builtOnce hqueue .resumptionPskStore rfl hbody) _
  | deleteAllResumptionPskSecrets other =>
    refine .bind (.ofExcept _) fun body _ _ hbody => ?_
    obtain ⟨hbody, _⟩ := serializeBincode_eq_ok.mp hbody
    exact preserves_delete (ne_of_builtOnce hqueue .resumptionPskStore rfl hbody)
  | writeEncryptionEpochKeyPairs other epoch leafIndex keyPairs =>
    refine .bind preserves_epochKeyPairsId fun body _ _ hbody => .bind (.ofExcept _) fun _ _ _ _ => ?_
    obtain ⟨hbody, _⟩ := (epochKeyPairsId_eq_ok vlen).mp hbody
    exact preserves_write (ne_of_builtOnce hqueue .epochKeyPairs rfl hbody) _
  | deleteEncryptionEpochKeyPairs other epoch leafIndex =>
    refine .bind preserves_epochKeyPairsId fun body _ _ hbody => ?_
    obtain ⟨hbody, _⟩ := (epochKeyPairsId_eq_ok vlen).mp hbody
    exact preserves_delete (ne_of_builtOnce hqueue .epochKeyPairs rfl hbody)
  | appendOwnLeafNode other leafNode =>
    exact preserves_buildKey.bind fun _ _ _ _ => .bind (.ofExcept _) fun _ _ _ _ => preserves_append
  | deleteOwnLeafNodes other =>
    refine preserves_deleteEntity fun body hbody => ?_
    exact ne_of_builtTwice hqueue .ownLeafNodes rfl (by simp) hbody
  | writePsk pskId psk => exact .pure _
  | deletePsk pskId => exact .ofExcept _
  | queueProposal other proposalRef proposal =>
    exact preserves_queueProposal hqueue other proposalRef proposal
  | removeProposal other proposalRef => exact preserves_removeProposal hqueue other proposalRef
  | clearProposalQueue other => exact preserves_clearProposalQueue hqueue other
  | storeKeyPackageReferences hpkeInitKey hashRef postQuantumKeypair =>
    exact preserves_storeKeyPackageReferences hqueue hpkeInitKey hashRef postQuantumKeypair
  | deleteKeyPackageMaterial hashRef pqPubKey =>
    exact preserves_deleteKeyPackageMaterial hqueue hashRef pqPubKey
  | writeCommitLogKey other secret =>
    refine .bind (.ofExcept _) fun body _ _ hbody => .bind (.ofExcept _) fun _ _ _ _ => ?_
    obtain ⟨hbody, _⟩ := serializeBincode_eq_ok.mp hbody
    exact preserves_write (ne_of_builtOnce hqueue .commitLogSigner rfl hbody) _

theorem jammed_foldl (calls : List (KeyStoreCall Keys Values)) {store : SqlKeyStore}
    (h : Jammed storageKey store) :
    Jammed storageKey (calls.foldl (fun store call => (call.run vlen store).2) store) := by
  induction calls generalizing store with
  | nil => exact h
  | cons call calls ih => exact ih (preserves_run hqueue call store h)

omit hqueue

variable (Values) in
/-- Every call on the group's queue fails, with this error or that of a query. -/
structure QueueFails (groupId : Keys .groupId) (store : SqlKeyStore) : Prop where
  queuedProposalRefs : store.Returns (SqlKeyStore.queuedProposalRefs groupId :
    KeyStoreM (List (Keys .proposalRef))) (.error .serializationError)
  queuedProposals : store.Returns (SqlKeyStore.queuedProposals groupId :
    KeyStoreM (List (Keys .proposalRef × Values .queuedProposal))) (.error .serializationError)
  queueProposal (proposalRef : Keys .proposalRef) (proposal : Values .queuedProposal) :
    store.Returns (SqlKeyStore.queueProposal groupId proposalRef proposal)
      (.error .serializationError)
  removeProposal (proposalRef : Keys .proposalRef) :
    store.Returns (SqlKeyStore.removeProposal groupId proposalRef) (.error .serializationError)
  clearProposalQueue : store.Returns (SqlKeyStore.clearProposalQueue (Keys .proposalRef) groupId)
    (.error .serializationError)

omit format in
theorem returns_of_serialize {Value : Type} [Bincode Value] {a : Value}
    {next : Bytes → KeyStoreM α} {store : SqlKeyStore}
    (hnext : ∀ bytes, Bincode.serialize a = some bytes →
      store.Returns (next bytes) (.error .serializationError)) :
    store.Returns (serializeBincode a >>= next) (.error .serializationError) := by
  cases ha : Bincode.serialize a with
  | none =>
    rw [serializeBincode, ha]
    exact .inl rfl
  | some bytes =>
    refine (KeyStoreM.Gives.serialize ha store).returns.bind fun between hrun => ?_
    obtain ⟨_, rfl⟩ := serializeBincode_eq_ok.mp hrun
    exact hnext bytes ha

omit format in
theorem returns_of_buildKey {Key : Type} [Bincode Key] {entityKey : Key} {body : Bytes}
    {next : Bytes → KeyStoreM α} {result : Except SqlKeyStoreError α} {store : SqlKeyStore}
    (hbody : Bincode.serialize entityKey = some body)
    (hnext : store.Returns (next (buildKeyFromVec label body)) result) :
    store.Returns (buildKey label entityKey >>= next) result := by
  refine (KeyStoreM.Gives.buildKey hbody store).returns.bind fun between hrun => ?_
  obtain ⟨_, _, _, rfl⟩ := buildKey_eq_ok.mp hrun
  exact hnext

theorem queueFails_of_jammed (vlen : Vlen) {store : SqlKeyStore} {body : Bytes}
    (hbody : Bincode.serialize groupId = some body)
    (h : Jammed (buildKeyFromVec proposalQueueRefsLabel
      (buildKeyFromVec proposalQueueRefsLabel body)) store) :
    QueueFails Values groupId store := by
  have hqueue : (⟨.proposalQueueRefs, groupId⟩ : Slot Keys).storageKey vlen = some _ :=
    Slot.storageKey_builtTwice .proposalQueueRefs rfl hbody
  have hlist := (h.fails []).2.2 (Keys .proposalRef)
  constructor
  · exact returns_of_buildKey hbody hlist.returns
  · exact returns_of_buildKey hbody hlist.bind_error.returns
  · intro proposalRef proposal
    refine returns_of_serialize fun both hboth => returns_of_serialize fun value _ => ?_
    refine SqlKeyStore.Returns.bind (.rawQuery _) fun written hrun => ?_
    -- The proposal has been written when its reference cannot be appended.
    obtain ⟨_, rfl⟩ := SqlKeyStore.write_eq_ok.mp hrun
    have hnext : Jammed _ store.next := h.of_rows rfl
    have hwritten := jammed_put hnext (ne_of_builtOnce hqueue .queuedProposal rfl hboth) value
    refine returns_of_buildKey hbody (returns_of_serialize fun bytes _ => ?_)
    exact (hwritten.fails bytes).1.returns
  · intro proposalRef
    refine returns_of_buildKey hbody (returns_of_serialize fun bytes _ => ?_)
    exact (h.fails bytes).2.1.bind_error.returns
  · exact returns_of_buildKey hbody hlist.bind_error.returns

/-- A proposal that is removed from a group without a queue leaves one that cannot be read, an array
without the count of a vector: whatever is called from then on, whether it succeeds or not, nothing is
read of the group's queue, nothing is queued or removed, and the queue is not cleared either. -/
theorem SqlKeyStore.queueFails_of_removeProposal {proposalRef : Keys .proposalRef}
    {store : SqlKeyStore}
    (hboth : (Bincode.serialize (groupId, proposalRef)).isSome)
    (hlength : ∀ bytes, Bincode.serialize proposalRef = some bytes →
      bytes ≠ [] ∧ bytes.length < 256 ^ 8)
    (habsent : ∀ storageKey, (⟨.proposalQueueRefs, groupId⟩ : Slot Keys).storageKey vlen =
      some storageKey → store.value storageKey = none) :
    store.Returns (SqlKeyStore.removeProposal groupId proposalRef) (.ok ()) ∧
      ∀ store', SqlKeyStore.removeProposal groupId proposalRef store = (.ok (), store') →
        (∃ storageKey refBytes,
          (⟨.proposalQueueRefs, groupId⟩ : Slot Keys).storageKey vlen = some storageKey ∧
            Bincode.serialize proposalRef = some refBytes ∧
            store'.value storageKey = some (toLittleEndian 8 refBytes.length ++ refBytes) ∧
            (Bincode.deserialize (toLittleEndian 8 refBytes.length ++ refBytes) :
              Option (List Bytes)) = none) ∧
          ∀ calls : List (KeyStoreCall Keys Values), QueueFails Values groupId
            (calls.foldl (fun store call => (call.run vlen store).2) store') := by
  obtain ⟨both, hboth⟩ := Option.isSome_iff_exists.mp hboth
  obtain ⟨body, refBytes, hbody, href, _⟩ := Bincode.pair_eq_some.mp hboth
  obtain ⟨hne, hlength⟩ := hlength refBytes href
  have hqueue : (⟨.proposalQueueRefs, groupId⟩ : Slot Keys).storageKey vlen = some _ :=
    Slot.storageKey_builtTwice .proposalQueueRefs rfl hbody
  have hencoded : Bincode.serialize refBytes =
      some (toLittleEndian 8 refBytes.length ++ refBytes) := Bincode.bytes_eq_some.mpr ⟨hlength, rfl⟩
  have habsent := habsent _ hqueue
  constructor
  · refine returns_of_buildKey hbody ?_
    refine (KeyStoreM.Gives.serialize href store).returns.bind fun between hrun => ?_
    obtain ⟨_, rfl⟩ := serializeBincode_eq_ok.mp hrun
    refine (SqlKeyStore.returns_removeItem_of_none habsent
      (Bincode.array_eq_some.mpr hencoded)).bind fun between _ => ?_
    exact (KeyStoreM.Gives.serialize hboth between).returns.bind fun _ _ => .rawQuery _
  · intro store' hremove
    simp only [SqlKeyStore.removeProposal, KeyStoreM.bind_eq_ok, buildKey_eq_ok,
      serializeBincode_eq_ok, SqlKeyStore.delete_eq_ok] at hremove
    obtain ⟨_, _, ⟨body', hbody', rfl, rfl⟩, bytes, _, ⟨hbytes, rfl⟩, _, between, hremove, both', _,
      ⟨hboth', rfl⟩, _, rfl⟩ := hremove
    cases hbody.symm.trans hbody'
    cases href.symm.trans hbytes
    obtain ⟨valueBytes, hvalue, rfl⟩ := SqlKeyStore.removeItem_of_none habsent hremove
    cases hencoded.symm.trans (Bincode.array_eq_some.mp hvalue)
    have hread := Bincode.deserialize_array_eq_none hne hencoded
    have hneKey : buildKeyFromVec queuedProposalLabel both' ≠ buildKeyFromVec proposalQueueRefsLabel
        (buildKeyFromVec proposalQueueRefsLabel body) :=
      ne_of_builtOnce hqueue .queuedProposal rfl hboth'
    have hstored : SqlKeyStore.value (SqlKeyStore.drop (SqlKeyStore.next (store.next.next.put
        (buildKeyFromVec proposalQueueRefsLabel (buildKeyFromVec proposalQueueRefsLabel body))
        (toLittleEndian 8 refBytes.length ++ refBytes))) (buildKeyFromVec queuedProposalLabel both'))
        (buildKeyFromVec proposalQueueRefsLabel (buildKeyFromVec proposalQueueRefsLabel body)) =
          some (toLittleEndian 8 refBytes.length ++ refBytes) := by
      rw [SqlKeyStore.value_drop, if_neg hneKey, SqlKeyStore.value_next, SqlKeyStore.value_put,
        if_pos rfl]
    exact ⟨⟨_, refBytes, hqueue, href, hstored, hread⟩, fun calls =>
      queueFails_of_jammed vlen hbody (jammed_foldl hqueue calls ⟨_, hstored, hread⟩)⟩

end Queue

end Format

local instance : BincodeFormat := .fixint

theorem SqlKeyStore.queueFails_removed : ∃ store,
    SqlKeyStore.removeProposal (7 : NumberKeys .groupId) (1 : NumberKeys .proposalRef) (.empty []) =
        (.ok (), store) ∧
      store.rows.entries.map Prod.snd = [[4, 0, 0, 0, 0, 0, 0, 0, 1, 0, 0, 0]] ∧
      QueueFails NumberValues (7 : NumberKeys .groupId)
        ([.queueProposal 7 1 5, .clearProposalQueue 7].foldl
          (fun store (call : KeyStoreCall NumberKeys NumberValues) => (call.run .quic store).2)
          store) := by
  have hok : (SqlKeyStore.removeProposal (7 : NumberKeys .groupId) (1 : NumberKeys .proposalRef)
      (.empty [])).1 = .ok () := by decide +kernel
  have hlength : ∀ bytes, Bincode.serialize (1 : NumberKeys .proposalRef) = some bytes →
      bytes ≠ [] ∧ bytes.length < 256 ^ 8 := by
    rintro _ ⟨⟩
    decide
  obtain ⟨_, hfails⟩ := @SqlKeyStore.queueFails_of_removeProposal _ NumberKeys NumberValues _ _ .quic
    7 1 (.empty []) rfl hlength fun _ _ => rfl
  exact ⟨_, Prod.ext hok rfl, by decide +kernel, (hfails _ (Prod.ext hok rfl)).2 _⟩

end LibXmtp.Db
