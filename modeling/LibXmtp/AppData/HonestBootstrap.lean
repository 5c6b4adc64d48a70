import LibXmtp.AppData.Bootstrap
import LibXmtp.AppData.PolicyTranslation
import LibXmtp.AppData.RegistryWrites
import LibXmtp.AppData.StoredCollections

namespace LibXmtp.AppData

open LibXmtp.Data LibXmtp.Groups

section Seeds

variable {K : Type} [LinearOrder K] {wire : Wire} {k : TlsCodec K} {payload : Bytes}

theorem applyDecodedMapDelta_seed (hvlen : wire.vlen.Downward) {m : TlsMap K Bytes}
    (h : (TlsMapDelta.codec wire.vlen k wire.vlen.bytes).serialize m.seed = .ok payload) :
    ∃ bytes, applyDecodedMapDelta wire k m.seed none = .ok bytes ∧
      (TlsMap.codec wire.vlen k wire.vlen.bytes).serialize m = .ok bytes := by
  obtain ⟨bytes, hbytes⟩ := TlsMap.exists_serialize_of_seed hvlen h
  exact ⟨bytes, applyDecodedMapDelta_eq_ok.mpr ⟨_, rfl, m, m.steps_seed, hbytes⟩, hbytes⟩

theorem decodeMapDelta_seed (hk : k.Lawful) {m : TlsMap K Bytes}
    (h : (TlsMapDelta.codec wire.vlen k wire.vlen.bytes).serialize m.seed = .ok payload) :
    decodeMapDelta wire k payload = .ok m.seed := by
  rw [decodeMapDelta, (TlsMapDelta.codec_roundTrips hk Vlen.bytes_lawful).deserializeExact_serialize h]
  rfl

theorem applySetDelta_seed (hk : k.Lawful) (hpos : k.Positive) (hvlen : wire.vlen.Downward)
    {s : TlsSet K} (h : (TlsSetDelta.codec wire.vlen k).serialize s.seed = .ok payload) :
    ∃ bytes, applySetDelta wire k payload none = .ok bytes ∧
      readSet wire k (some bytes) = .ok s := by
  obtain ⟨bytes, hbytes⟩ := TlsSet.exists_serialize_of_seed hvlen h
  exact ⟨bytes, applySetDelta_eq_ok.mpr ⟨_, TlsSet.deserializeExact_seed hk h, _, rfl, s,
    TlsSet.applyDelta_seed _ s, hbytes⟩, readSet_serialize hk hpos hbytes⟩

end Seeds

section Strict

variable {table : List (UInt16 × Except MigrationError (Option Bytes))}
  {m strict : TlsMap UInt16 (AppDataUpdateOperationType × Bytes)}

theorem get_foldlM_insertSeed (h : table.foldlM insertSeed m = .ok strict) {id : UInt16}
    (hid : id ∉ table.map Prod.fst) : strict.get id = m.get id := by
  induction table generalizing m with
  | nil =>
    cases h
    rfl
  | cons seed table ih =>
    obtain ⟨id', value⟩ := seed
    simp only [List.map_cons, List.mem_cons, not_or] at hid
    simp only [List.foldlM_cons, bind_eq_ok, insertSeed] at h
    obtain ⟨m', ⟨value, _, hstep⟩, hrest⟩ := h
    rw [ih hrest hid.2]
    cases value with
    | some bytes =>
      cases hstep
      rw [TlsMap.get_set, if_neg hid.1]
    | none =>
      cases hstep
      rfl

theorem get_of_mem_seeds (h : table.foldlM insertSeed m = .ok strict)
    (hnodup : (table.map Prod.fst).Nodup) (hfresh : ∀ seed ∈ table, m.get seed.1 = none)
    {id : UInt16} {value : Except MigrationError (Option Bytes)} (hmem : (id, value) ∈ table) :
    ∃ bytes, value = .ok bytes ∧ strict.get id = bytes.map (Prod.mk .update) := by
  induction table generalizing m with
  | nil => cases hmem
  | cons seed table ih =>
    obtain ⟨id', value'⟩ := seed
    simp only [List.map_cons, List.nodup_cons] at hnodup
    simp only [List.foldlM_cons, bind_eq_ok, insertSeed] at h
    obtain ⟨m', ⟨bytes, hvalue, hstep⟩, hrest⟩ := h
    have hm' : ∀ id, id ≠ id' → m'.get id = m.get id := by
      intro id hne
      cases bytes with
      | some bytes =>
        cases hstep
        rw [TlsMap.get_set, if_neg hne]
      | none =>
        cases hstep
        rfl
    rcases List.mem_cons.mp hmem with heq | hmem
    · cases heq
      refine ⟨bytes, hvalue, ?_⟩
      rw [get_foldlM_insertSeed hrest hnodup.1]
      cases bytes with
      | some bytes =>
        cases hstep
        rw [TlsMap.get_set, if_pos rfl]
        rfl
      | none =>
        cases hstep
        exact hfresh _ List.mem_cons_self
    · refine ih hrest hnodup.2 (fun seed hseed => ?_) hmem
      have hne : seed.1 ≠ id' := fun heq => hnodup.1 (heq ▸ List.mem_map_of_mem hseed)
      rw [hm' _ hne]
      exact hfresh seed (List.mem_cons_of_mem _ hseed)

theorem mem_seeds_of_get (h : table.foldlM insertSeed m = .ok strict)
    (hnodup : (table.map Prod.fst).Nodup) (hfresh : ∀ seed ∈ table, m.get seed.1 = none)
    {id : UInt16} {value : AppDataUpdateOperationType × Bytes} (hget : strict.get id = some value)
    (hnone : m.get id = none) : value.1 = .update ∧ (id, .ok (some value.2)) ∈ table := by
  by_cases hid : id ∈ table.map Prod.fst
  · obtain ⟨⟨id', encoded⟩, hmem, rfl⟩ := List.mem_map.mp hid
    obtain ⟨bytes, rfl, hbytes⟩ := get_of_mem_seeds h hnodup hfresh hmem
    rw [hget] at hbytes
    cases bytes with
    | none => cases hbytes
    | some bytes =>
      cases hbytes
      exact ⟨rfl, hmem⟩
  · rw [get_foldlM_insertSeed h hid, hnone] at hget
    cases hget

end Strict

section Canonical

variable {host : BootstrapHost} {extensions : Extensions} {order : MembersOrder}
  {gmm : GroupMutableMetadata} {metadata : LegacyGroupMetadata}

theorem nodup_strictSeeds (host : BootstrapHost) (gmm : GroupMutableMetadata)
    (metadata : LegacyGroupMetadata) : ((strictSeeds host gmm metadata).map Prod.fst).Nodup := by
  have hids : (strictSeeds host gmm metadata).map Prod.fst = [0x8004, 0x8005, 0x8006, 0x8007, 0x8008,
    0x8009, 0x800A, 0x800B, 0x8002, 0x8001, 0xBFFF, 0xBFFE, 0xBFFD, 0xBFFC] := rfl
  rw [hids]
  decide

def encodeAttribute (host : BootstrapHost) : MetadataField → String → Except MigrationError Bytes
  | .commitLogSigner => decodeCommitLogSigner host
  | field => encodeMetadataAttributeValue (metadataFieldComponentMap field)

theorem attribute_mem_strictSeeds (host : BootstrapHost) (gmm : GroupMutableMetadata)
    (metadata : LegacyGroupMetadata) (field : MetadataField) :
    (metadataFieldComponentMap field,
      (gmm.attributes.get field.asStr).mapM (encodeAttribute host field)) ∈
        strictSeeds host gmm metadata := by
  by_cases hsigner : field = .commitLogSigner
  · subst hsigner
    exact List.mem_append_right _ List.mem_cons_self
  · obtain ⟨componentType, hmem⟩ := exists_mem_metadataFieldRegistryMapping hsigner
    refine List.mem_append_left _ (List.mem_map.mpr ⟨_, hmem, ?_⟩)
    cases field with
    | commitLogSigner => exact absurd rfl hsigner
    | _ => rfl

structure Canonical (host : BootstrapHost) (extensions : Extensions)
    (expected : CanonicalBootstrapExpectation) (gmm : GroupMutableMetadata)
    (registry : ComponentRegistry) (legacy : Groups.Proto.GroupMembership)
    (metadata : LegacyGroupMetadata) (members : List (String × UInt64)) : Prop where
  readsMutable : legacyMutableMetadata host extensions = .ok gmm
  readsRegistry : synthesizeRegistryFromExtensions host extensions = .ok registry
  readsMembership : extractLegacyGroupMembership host extensions = .ok legacy
  readsMetadata : legacyGroupMetadata host extensions = .ok metadata
  strict : (strictSeeds host gmm metadata).foldlM insertSeed TlsMap.new = .ok expected.strict
  expectedRegistry : expected.expectedRegistry = TlsMap.ofPairs (registry.iter host.toWire)
  sequenceIds : ∃ pairs, members.mapM (sequenceIdEntry host) = .ok pairs ∧
    expected.membershipSequenceIds = TlsMap.ofPairs pairs
  allowed : ∃ keys, legacy.failedInstallations.mapM installationKey = .ok keys ∧
    expected.allowedFailedInstallations = keys.toFinset

theorem canonical_eq_ok {expected : CanonicalBootstrapExpectation} :
    synthesizeCanonicalSubsetFromExtensions host order extensions = .ok expected ↔
      ∃ gmm registry legacy metadata, Canonical host extensions expected gmm registry legacy metadata
        (order.iterate legacy.members) := by
  simp only [synthesizeCanonicalSubsetFromExtensions, bind_eq_ok, mapError_eq_ok, pure_eq_ok]
  constructor
  · rintro ⟨gmm, hgmm, registry, hregistry, legacy, hlegacy, metadata, hmetadata, strict, hstrict,
      pairs, hpairs, keys, hkeys, rfl⟩
    exact ⟨gmm, registry, legacy, metadata, hgmm, hregistry, hlegacy, hmetadata, hstrict, rfl,
      ⟨pairs, hpairs, rfl⟩, ⟨keys, hkeys, rfl⟩⟩
  · rintro ⟨gmm, registry, legacy, metadata, h⟩
    obtain ⟨pairs, hpairs, hsequenceIds⟩ := h.sequenceIds
    obtain ⟨keys, hkeys, hallowed⟩ := h.allowed
    refine ⟨gmm, h.readsMutable, registry, h.readsRegistry, legacy, h.readsMembership, metadata,
      h.readsMetadata, expected.strict, h.strict, pairs, hpairs, keys, hkeys, ?_⟩
    rw [← h.expectedRegistry, ← hsequenceIds, ← hallowed]

variable {expected : CanonicalBootstrapExpectation} {registry : ComponentRegistry}
  {legacy : Groups.Proto.GroupMembership} {members members' : List (String × UInt64)}

theorem Canonical.reorder
    (h : Canonical host extensions expected gmm registry legacy metadata members)
    (hperm : members.Perm members') : ∃ pairs', members'.mapM (sequenceIdEntry host) = .ok pairs' ∧
      Canonical host extensions { expected with membershipSequenceIds := TlsMap.ofPairs pairs' } gmm
        registry legacy metadata members' := by
  obtain ⟨pairs, hpairs, _⟩ := h.sequenceIds
  obtain ⟨pairs', hpairs', _⟩ := exists_mapM_of_perm hperm hpairs
  exact ⟨pairs', hpairs', h.readsMutable, h.readsRegistry, h.readsMembership, h.readsMetadata,
    h.strict, h.expectedRegistry, ⟨pairs', hpairs', rfl⟩, h.allowed⟩

theorem inboxIdFromHex_eq_ok {text : String} {id : InboxId} :
    inboxIdFromHex host text = .ok id ↔ InboxId.fromHex host.hex text = .ok id := by
  rw [inboxIdFromHex, mapError_eq_ok]

theorem sequenceIdEntry_eq_ok {member : String × UInt64} {entry : InboxId × UInt64} :
    sequenceIdEntry host member = .ok entry ↔
      InboxId.fromHex host.hex member.1 = .ok entry.1 ∧ member.2 = entry.2 := by
  obtain ⟨id, sequenceId⟩ := entry
  simp [sequenceIdEntry, inboxIdFromHex_eq_ok, and_comm]

theorem mem_of_sequenceIds {pairs : List (InboxId × UInt64)}
    (h : members.mapM (sequenceIdEntry host) = .ok pairs) {id : InboxId} {sequenceId : UInt64} :
    (id, sequenceId) ∈ pairs ↔ ∃ member ∈ members,
      InboxId.fromHex host.hex member.1 = .ok id ∧ member.2 = sequenceId := by
  constructor
  · intro hmem
    obtain ⟨member, hmember, hentry⟩ := exists_of_mem_mapM h hmem
    exact ⟨member, hmember, sequenceIdEntry_eq_ok.mp hentry⟩
  · rintro ⟨member, hmember, hid⟩
    obtain ⟨entry, hentry, heq⟩ := exists_of_mapM_mem h hmember
    have hentry' : sequenceIdEntry host member = .ok (id, sequenceId) := sequenceIdEntry_eq_ok.mpr hid
    cases heq.symm.trans hentry'
    exact hentry

end Canonical

/-- No two keys of the legacy membership spell one inbox id with different sequence ids. -/
def OneSequenceId (host : BootstrapHost) (legacy : Groups.Proto.GroupMembership) : Prop :=
  ∀ a ∈ legacy.members.entries, ∀ b ∈ legacy.members.entries, ∀ id,
    InboxId.fromHex host.hex a.1 = .ok id → InboxId.fromHex host.hex b.1 = .ok id → a.2 = b.2

section SequenceIds

variable {host : BootstrapHost} {legacy : Groups.Proto.GroupMembership}
  {members : List (String × UInt64)} {pairs : List (InboxId × UInt64)}

theorem get_sequenceIds (h : members.mapM (sequenceIdEntry host) = .ok pairs)
    (hperm : members.Perm legacy.members.entries) (hone : OneSequenceId host legacy) {id : InboxId}
    {sequenceId : UInt64} : (TlsMap.ofPairs pairs).get id = some sequenceId ↔
      ∃ member ∈ legacy.members.entries,
        InboxId.fromHex host.hex member.1 = .ok id ∧ member.2 = sequenceId := by
  rw [TlsMap.get_ofPairs]
  constructor
  · intro hget
    obtain ⟨member, hmember, hid⟩ := (mem_of_sequenceIds h).mp (TlsMap.mem_of_contents hget)
    exact ⟨member, hperm.mem_iff.mp hmember, hid⟩
  · rintro ⟨member, hmember, hid, rfl⟩
    have hpair := (mem_of_sequenceIds h).mpr ⟨member, hperm.mem_iff.mpr hmember, hid, rfl⟩
    obtain ⟨sequenceId, hget⟩ := TlsMap.exists_contents hpair
    obtain ⟨other, hother, hid', rfl⟩ := (mem_of_sequenceIds h).mp (TlsMap.mem_of_contents hget)
    rw [hget, hone other (hperm.mem_iff.mp hother) member hmember id hid' hid]

theorem sequenceIds_eq {members' : List (String × UInt64)} {pairs' : List (InboxId × UInt64)}
    (h : members.mapM (sequenceIdEntry host) = .ok pairs)
    (h' : members'.mapM (sequenceIdEntry host) = .ok pairs')
    (hperm : members.Perm legacy.members.entries) (hperm' : members'.Perm legacy.members.entries)
    (hone : OneSequenceId host legacy) : TlsMap.ofPairs pairs = TlsMap.ofPairs pairs' := by
  apply TlsMap.ext_get
  intro id
  apply Option.ext
  intro sequenceId
  rw [get_sequenceIds h hperm hone, get_sequenceIds h' hperm' hone]

end SequenceIds

section Sender

variable {host : BootstrapHost} {extensions : Extensions} {order : MembersOrder}
  {lookup : InstallationLookup} {values : TlsMap UInt16 Bytes}

theorem mem_of_bucketFailed {owners : HashMap Bytes InboxId} {installations : List Bytes}
    {failed : TlsMap InboxId (List Bytes)} {all : Bytes → Prop}
    (hinstallations : ∀ installation ∈ installations, all installation)
    (hfailed : ∀ id, ∀ installation ∈ (failed.get id).getD [], all installation) (id : InboxId) :
    ∀ installation ∈ ((installations.foldl (bucketFailed owners) failed).get id).getD [],
      all installation := by
  induction installations generalizing failed with
  | nil => exact hfailed id
  | cons installation installations ih =>
    refine ih (fun other hother => hinstallations other (List.mem_cons_of_mem _ hother)) ?_
    intro id
    rw [bucketFailed]
    split
    · rename_i owner _
      rw [TlsMap.get_set]
      split
      · intro other hother
        rcases List.mem_append.mp hother with hother | hother
        · exact hfailed owner other hother
        · rw [List.mem_singleton.mp hother]
          exact hinstallations installation List.mem_cons_self
      · exact hfailed id
    · exact hfailed id

theorem get_partitionedEntries (failed : TlsMap InboxId (List Bytes))
    (sequenceIds : TlsMap InboxId UInt64) (id : InboxId) :
    (TlsMap.ofPairs (sequenceIds.iter.map (partitionedEntry failed))).get id =
      (sequenceIds.get id).map fun sequenceId => ⟨sequenceId, (failed.get id).getD []⟩ := by
  have hnodup : ((sequenceIds.iter.map (partitionedEntry failed)).map Prod.fst).Nodup := by
    rw [List.map_map, TlsMap.iter, List.map_map]
    exact sequenceIds.nodup_keys
  apply Option.ext
  intro entry
  rw [TlsMap.get_ofPairs, TlsMap.contents_eq_some_iff hnodup, List.mem_map, Option.map_eq_some_iff]
  constructor
  · rintro ⟨⟨id', sequenceId⟩, hmem, heq⟩
    cases heq
    exact ⟨sequenceId, TlsMap.mem_iter.mp hmem, rfl⟩
  · rintro ⟨sequenceId, hget, rfl⟩
    exact ⟨(id, sequenceId), TlsMap.mem_iter.mpr hget, rfl⟩

/-- The values of the two components that receivers decode, and the others as they are. -/
structure Sent (host : BootstrapHost) (expected : CanonicalBootstrapExpectation)
    (legacy : Groups.Proto.GroupMembership) (entries : TlsMap InboxId Groups.Proto.GroupMembershipEntryV1)
    (registryBytes membershipBytes : Bytes) (values : TlsMap UInt16 Bytes) : Prop where
  registry : (TlsMapDelta.codec host.vlen (componentIdCodec host.vlen) host.vlen.bytes).serialize
    (expected.expectedRegistry.mapValues host.encodeMetadata).seed = .ok registryBytes
  membership : (TlsMapDelta.codec host.vlen (InboxId.codec host.vlen) host.vlen.bytes).serialize
    (entries.mapValues host.encodeGroupMembershipEntry).seed = .ok membershipBytes
  sequenceIds : ∀ id, (entries.get id).map (·.sequenceId) = expected.membershipSequenceIds.get id
  failed : ∀ id entry, entries.get id = some entry →
    ∀ installation ∈ entry.failedInstallations, installation ∈ legacy.failedInstallations
  values : values = (((expected.strict.mapValues Prod.snd).set ComponentId.componentRegistry
    registryBytes).set ComponentId.groupMembership membershipBytes)

theorem exists_sent (h : synthesizeInitialComponentValuesFromExtensions host order lookup extensions =
    .ok values) : ∃ expected gmm registry legacy metadata entries registryBytes membershipBytes,
      Canonical host extensions expected gmm registry legacy metadata (order.iterate legacy.members) ∧
        Sent host expected legacy entries registryBytes membershipBytes values := by
  simp only [synthesizeInitialComponentValuesFromExtensions, bind_eq_ok, mapError_eq_ok, pure_eq_ok]
    at h
  obtain ⟨expected, hexpected, _, _, registryBytes, hregistry, membershipBytes, hmembership, rfl⟩ := h
  obtain ⟨gmm, registry, legacy, metadata, hcanonical⟩ := canonical_eq_ok.mp hexpected
  simp only [buildPartitionedGroupMembership, encodeGroupMembershipDelta, bind_eq_ok, mapError_eq_ok,
    okOr_eq_ok] at hmembership
  obtain ⟨bytes, hbytes, legacy', hdecode, owners, _, hserialize⟩ := hmembership
  have hlegacy := hcanonical.readsMembership
  simp only [extractLegacyGroupMembership, hbytes, okOr_some, ok_bind, hdecode] at hlegacy
  cases hlegacy
  refine ⟨expected, gmm, registry, legacy, metadata, _, registryBytes, membershipBytes, hcanonical,
    hregistry, hserialize, fun id => ?_, fun id entry hentry => ?_, rfl⟩
  · rw [get_partitionedEntries]
    cases expected.membershipSequenceIds.get id <;> rfl
  · rw [get_partitionedEntries, Option.map_eq_some_iff] at hentry
    obtain ⟨_, _, rfl⟩ := hentry
    refine mem_of_bucketFailed (fun _ h => h) (fun id installation hmem => ?_) id
    cases hmem

variable {expected : CanonicalBootstrapExpectation} {legacy : Groups.Proto.GroupMembership}
  {entries : TlsMap InboxId Groups.Proto.GroupMembershipEntryV1} {registryBytes membershipBytes : Bytes}

theorem Sent.get_membership (h : Sent host expected legacy entries registryBytes membershipBytes values) :
    values.get ComponentId.groupMembership = some membershipBytes := by
  rw [h.values, TlsMap.get_set, if_pos rfl]

theorem Sent.get_registry (h : Sent host expected legacy entries registryBytes membershipBytes values) :
    values.get ComponentId.componentRegistry = some registryBytes := by
  rw [h.values, TlsMap.get_set, if_neg (by decide), TlsMap.get_set, if_pos rfl]

theorem Sent.get_strict (h : Sent host expected legacy entries registryBytes membershipBytes values)
    {id : UInt16} (hmembership : id ≠ ComponentId.groupMembership)
    (hregistry : id ≠ ComponentId.componentRegistry) :
    values.get id = (expected.strict.get id).map Prod.snd := by
  rw [h.values, TlsMap.get_set, if_neg hmembership, TlsMap.get_set, if_neg hregistry,
    TlsMap.get_mapValues]

end Sender

section Registry

variable {host : BootstrapHost} {extensions : Extensions} {expected : CanonicalBootstrapExpectation}
  {gmm : GroupMutableMetadata} {registry : ComponentRegistry} {legacy : Groups.Proto.GroupMembership}
  {metadata : LegacyGroupMetadata} {members : List (String × UInt64)}

theorem nodup_iter (wire : Wire) (registry : ComponentRegistry) :
    ((registry.iter wire).map Prod.fst).Nodup := by
  have hkeys : registry.inner.iter.Pairwise fun a b => a.1 ≠ b.1 := by
    rw [TlsMap.iter, List.pairwise_map]
    exact registry.inner.sorted.imp ne_of_lt
  rw [List.Nodup, List.pairwise_map, ComponentRegistry.iter, List.pairwise_filterMap]
  refine hkeys.imp fun hne b hb b' hb' => ?_
  obtain ⟨_, _, rfl⟩ := Option.map_eq_some_iff.mp hb
  obtain ⟨_, _, rfl⟩ := Option.map_eq_some_iff.mp hb'
  exact hne

theorem Canonical.get_expectedRegistry
    (h : Canonical host extensions expected gmm registry legacy metadata members) (id : UInt16) :
    expected.expectedRegistry.get id = registry.get host.toWire id := by
  rw [h.expectedRegistry, TlsMap.get_ofPairs]
  apply Option.ext
  intro entry
  rw [TlsMap.contents_eq_some_iff (nodup_iter _ _), ComponentRegistry.iter, List.mem_filterMap,
    ComponentRegistry.get]
  simp only [Option.map_eq_some_iff, Prod.mk.injEq, Option.bind_eq_bind, Option.bind_eq_some_iff]
  constructor
  · rintro ⟨⟨id', raw⟩, hmem, _, hdecode, rfl, rfl⟩
    exact ⟨raw, TlsMap.mem_iter.mp hmem, hdecode⟩
  · rintro ⟨raw, hget, hdecode⟩
    exact ⟨(id, raw), TlsMap.mem_iter.mpr hget, entry, hdecode, rfl, rfl⟩

/-- Metadata of the legacy policies is read back as it was written. -/
def BootstrapHost.ReadsPolicies (host : BootstrapHost) (extensions : Extensions) : Prop :=
  ∀ policySet, legacyPolicySet host extensions = .ok policySet → host.toWire.RoundTrips policySet

theorem Canonical.recognized
    (h : Canonical host extensions expected gmm registry legacy metadata members)
    (hpolicies : host.ReadsPolicies extensions) {id : UInt16} {entry : Proto.ComponentMetadata}
    (hget : expected.expectedRegistry.get id = some entry) :
    ComponentRegistry.decodeRecognized host.toWire id (host.encodeMetadata entry) = .ok entry := by
  have hregistry := h.readsRegistry
  simp only [synthesizeRegistryFromExtensions, bind_eq_ok, mapError_eq_ok] at hregistry
  obtain ⟨policySet, hpolicySet, metadata', _, hbuild⟩ := hregistry
  obtain ⟨t⟩ := exists_translation hbuild
  have hwire := hpolicies policySet hpolicySet
  obtain ⟨registry', hbuild', hregisters⟩ := t.exists_registry hwire
    metadata'.dmMembers.isSome metadata'.oneshotMessage.isSome
  cases hbuild.symm.trans hbuild'
  rw [h.get_expectedRegistry, hregisters] at hget
  have hwritable := t.writable hwire _ ((t.writesOf_sublist _ _).mem hget)
  simp only [ComponentRegistry.decodeRecognized, hwritable.id, hwritable.read, Except.mapError,
    ok_bind, hwritable.metadata]
  rfl

theorem ComponentMetadata.eq_self (metadata : Proto.ComponentMetadata) :
    metadata.eq metadata = true := by
  have hpolicy : ∀ policy, Proto.ComponentPermissions.eq.policyEq policy policy = true := by
    intro policy
    cases policy with
    | none => rfl
    | some policy => exact policy.eq_self
  rw [Proto.ComponentMetadata.eq]
  cases metadata.permissions with
  | none => simp
  | some permissions => simp [Proto.ComponentPermissions.eq, hpolicy]

theorem ComponentPermissions.eq_of_eq {permissions permissions' : Proto.ComponentPermissions}
    (h : permissions.eq permissions' = true) : permissions = permissions' := by
  have hpolicy : ∀ policy policy', Proto.ComponentPermissions.eq.policyEq policy policy' = true →
      policy = policy' := by
    intro policy policy' heq
    cases policy with
    | none =>
      cases policy' with
      | none => rfl
      | some _ => cases heq
    | some policy =>
      cases policy' with
      | none => cases heq
      | some policy' => exact congrArg some (policy.eq_of_eq policy' heq)
  rw [Proto.ComponentPermissions.eq, Bool.and_eq_true, Bool.and_eq_true] at h
  cases permissions
  cases permissions'
  rw [Proto.ComponentPermissions.mk.injEq]
  exact ⟨hpolicy _ _ h.1.1, hpolicy _ _ h.1.2, hpolicy _ _ h.2⟩

theorem ComponentMetadata.eq_of_eq {metadata metadata' : Proto.ComponentMetadata}
    (h : metadata.eq metadata' = true) : metadata = metadata' := by
  obtain ⟨componentType, permissions⟩ := metadata
  obtain ⟨componentType', permissions'⟩ := metadata'
  rw [Proto.ComponentMetadata.eq, Bool.and_eq_true, beq_iff_eq] at h
  obtain ⟨rfl, hpermissions⟩ := h
  cases permissions with
  | none =>
    cases permissions' with
    | none => rfl
    | some _ => cases hpermissions
  | some permissions =>
    cases permissions' with
    | none => cases hpermissions
    | some permissions' => rw [ComponentPermissions.eq_of_eq hpermissions]

theorem validateComponentRegistryPayload_seed {bytes : Bytes}
    {expectedRegistry : TlsMap UInt16 Proto.ComponentMetadata}
    (hbytes : (TlsMapDelta.codec host.vlen (componentIdCodec host.vlen) host.vlen.bytes).serialize
      (expectedRegistry.mapValues host.encodeMetadata).seed = .ok bytes)
    (hrecognized : ∀ id entry, expectedRegistry.get id = some entry →
      ComponentRegistry.decodeRecognized host.toWire id (host.encodeMetadata entry) = .ok entry) :
    validateComponentRegistryPayload host (some (.update, bytes)) expectedRegistry = .ok () := by
  have hread := (TlsMapDelta.codec_roundTrips (componentIdCodec_lawful _)
    Vlen.bytes_lawful).deserializeExact_serialize hbytes
  have hstep : ∀ (m : TlsMap UInt16 Proto.ComponentMetadata), ∀ e ∈ expectedRegistry.entries,
      m.get e.key = none → collectRegistryEntry host m (.insert e.key (host.encodeMetadata e.value)) =
        .ok (m.set e.key e.value) := by
    intro m e hmem hnone
    have hdecode := hrecognized e.key e.value (TlsMap.get_eq_some_iff.mpr hmem)
    have hvalid : ComponentRegistry.validateEntry host.toWire e.key (host.encodeMetadata e.value) =
        .ok () := ComponentRegistry.validateEntry_eq_ok.mpr ⟨_, hdecode⟩
    have hmetadata := (ComponentRegistry.decodeRecognized_eq_ok.mp hdecode).1
    simp only [collectRegistryEntry, registryMutation, ok_bind, hvalid, hmetadata, Except.mapError,
      TlsMap.insert_eq, hnone, Option.isSome_none, Bool.false_eq_true, if_false]
  obtain ⟨actual, hfold, hget⟩ := TlsMap.exists_foldlM_set (m := TlsMap.new)
    (f := fun e : TlsMapEntry UInt16 Proto.ComponentMetadata => (e.key, e.value)) hstep
    expectedRegistry.nodup_keys (fun _ _ => rfl)
  have hactual : actual = expectedRegistry := by
    apply TlsMap.ext_get
    intro id
    apply Option.ext
    intro entry
    rw [hget, ← TlsMap.mem_iter (m := expectedRegistry) (p := (id, entry)), TlsMap.iter]
    simp
  subst hactual
  have hmutations : (actual.mapValues host.encodeMetadata).seed.mutations =
      actual.entries.map fun e => .insert e.key (host.encodeMetadata e.value) := by
    simp [TlsMap.seed, TlsMap.mapValues]
  simp only [validateComponentRegistryPayload, ne_eq, not_true_eq_false, decide_false,
    rejectIf_false, ok_bind, hread, Except.mapError, hmutations, List.foldlM_map, hfold]
  have hcompare : actual.iter.forM (compareRegistryEntry actual) = .ok () := by
    refine forM_eq_ok.mpr fun entry hentry => ?_
    simp [compareRegistryEntry, TlsMap.mem_iter.mp hentry, ComponentMetadata.eq_self]
  have hkeys : (actual.keys.forM fun id => rejectIf (!actual.containsKey id)
      (BootstrapValidationError.registryEntryMismatch id)) = .ok () := by
    refine forM_eq_ok.mpr fun id hid => ?_
    simp [TlsMap.containsKey_eq, TlsMap.mem_keys.mp hid]
  rw [hcompare, ok_bind, hkeys, ok_bind]

end Registry

def BootstrapHost.ReadsEntries (host : BootstrapHost) : Prop :=
  ∀ entry, host.decodeGroupMembershipEntry (host.encodeGroupMembershipEntry entry) = some (some entry)

section Membership

variable {host : BootstrapHost} {entries : TlsMap InboxId Groups.Proto.GroupMembershipEntryV1}
  {expectedSequenceIds : TlsMap InboxId UInt64} {allowed : Finset Bytes} {bytes : Bytes}

theorem seed_mutations (entries : TlsMap InboxId Groups.Proto.GroupMembershipEntryV1) :
    (entries.mapValues host.encodeGroupMembershipEntry).seed.mutations =
      entries.entries.map fun e => .insert e.key (host.encodeGroupMembershipEntry e.value) := by
  simp [TlsMap.seed, TlsMap.mapValues]

theorem checkFailedInstallation_eq_ok {id : InboxId} {installations : List Bytes} :
    installations.forM (checkFailedInstallation host id allowed) = .ok () ↔
      ∀ installation ∈ installations, installation.length = 32 ∧ installation ∈ allowed := by
  rw [forM_eq_ok]
  simp [checkFailedInstallation]

theorem checkMember_eq_ok (hentries : host.ReadsEntries) {seen seen' : TlsMap InboxId Unit}
    {id : InboxId} {entry : Groups.Proto.GroupMembershipEntryV1} :
    checkMember host expectedSequenceIds allowed seen
        (.insert id (host.encodeGroupMembershipEntry entry)) = .ok seen' ↔
      seen.get id = none ∧ expectedSequenceIds.get id = some entry.sequenceId ∧
        (∀ installation ∈ entry.failedInstallations,
          installation.length = 32 ∧ installation ∈ allowed) ∧ seen.set id () = seen' := by
  simp only [checkMember, membershipMutation, ok_bind, hentries entry, okOr_some, TlsMap.insert_eq,
    ← @checkFailedInstallation_eq_ok host _ id]
  constructor
  · intro h
    simp only [bind_eq_ok, mapError_eq_ok, okOr_eq_ok, rejectIf_eq_ok, pure_eq_ok,
      decide_eq_false_iff_not, not_not] at h
    obtain ⟨seen'', hinsert, expected, hexpected, _, rfl, _, hfailed, rfl⟩ := h
    split at hinsert
    · cases hinsert
    · rename_i hnone
      cases hinsert
      exact ⟨by simpa using hnone, hexpected, hfailed, rfl⟩
  · rintro ⟨hnone, hexpected, hfailed, rfl⟩
    simp only [hnone, hexpected, hfailed, Option.isSome_none, Bool.false_eq_true, if_false,
      Except.mapError, okOr_some, ok_bind, ne_eq, not_true_eq_false, decide_false, rejectIf_false]
    rfl

theorem validateGroupMembershipPayload_seed (hentries : host.ReadsEntries)
    (hbytes : (TlsMapDelta.codec host.vlen (InboxId.codec host.vlen) host.vlen.bytes).serialize
      (entries.mapValues host.encodeGroupMembershipEntry).seed = .ok bytes)
    (hsequenceIds : ∀ id, (entries.get id).map (·.sequenceId) = expectedSequenceIds.get id)
    (hfailed : ∀ id entry, entries.get id = some entry →
      ∀ installation ∈ entry.failedInstallations,
        installation.length = 32 ∧ installation ∈ allowed) :
    validateGroupMembershipPayload host (some (.update, bytes)) expectedSequenceIds allowed =
      .ok () := by
  have hread := (TlsMapDelta.codec_roundTrips (InboxId.codec_lawful _)
    Vlen.bytes_lawful).deserializeExact_serialize hbytes
  have hstep : ∀ (m : TlsMap InboxId Unit), ∀ e ∈ entries.entries, m.get e.key = none →
      checkMember host expectedSequenceIds allowed m
        (.insert e.key (host.encodeGroupMembershipEntry e.value)) = .ok (m.set e.key ()) := by
    intro m e hmem hnone
    have hget : entries.get e.key = some e.value := TlsMap.get_eq_some_iff.mpr hmem
    refine (checkMember_eq_ok hentries).mpr ⟨hnone, ?_, hfailed _ _ hget, rfl⟩
    rw [← hsequenceIds, hget]
    rfl
  obtain ⟨seen, hfold, hget⟩ := TlsMap.exists_foldlM_set (m := TlsMap.new)
    (f := fun e : TlsMapEntry InboxId Groups.Proto.GroupMembershipEntryV1 => (e.key, ())) hstep
    entries.nodup_keys (fun _ _ => rfl)
  simp only [validateGroupMembershipPayload, ne_eq, not_true_eq_false, decide_false,
    rejectIf_false, ok_bind, hread, Except.mapError, seed_mutations, List.foldlM_map, hfold]
  refine forM_eq_ok.mpr fun id hid => ?_
  have hsome := TlsMap.mem_keys.mp hid
  rw [← hsequenceIds, Option.isSome_map, Option.isSome_iff_exists] at hsome
  obtain ⟨entry, hentry⟩ := hsome
  have hseen : seen.get id = some () :=
    (hget id ()).mpr (.inr (List.mem_map.mpr ⟨_, TlsMap.get_eq_some_iff.mp hentry, rfl⟩))
  simp [TlsMap.containsKey_eq, hseen]

theorem sequenceId_of_validateGroupMembershipPayload (hentries : host.ReadsEntries)
    (hbytes : (TlsMapDelta.codec host.vlen (InboxId.codec host.vlen) host.vlen.bytes).serialize
      (entries.mapValues host.encodeGroupMembershipEntry).seed = .ok bytes)
    (h : validateGroupMembershipPayload host (some (.update, bytes)) expectedSequenceIds allowed =
      .ok ()) {id : InboxId} {entry : Groups.Proto.GroupMembershipEntryV1}
    (hget : entries.get id = some entry) : expectedSequenceIds.get id = some entry.sequenceId := by
  have hread := (TlsMapDelta.codec_roundTrips (InboxId.codec_lawful _)
    Vlen.bytes_lawful).deserializeExact_serialize hbytes
  simp only [validateGroupMembershipPayload, ne_eq, not_true_eq_false, decide_false,
    rejectIf_false, ok_bind, hread, Except.mapError, seed_mutations, List.foldlM_map, bind_eq_ok]
    at h
  obtain ⟨seen, hfold, _⟩ := h
  obtain ⟨before, after, hsplit⟩ := List.append_of_mem (TlsMap.get_eq_some_iff.mp hget)
  have hsteps := Steps.foldlM_eq_ok.mp hfold
  rw [hsplit] at hsteps
  obtain ⟨m, n, _, hstep, _⟩ := hsteps.split
  exact ((checkMember_eq_ok hentries).mp hstep).2.1

end Membership

def SentAs (values : TlsMap UInt16 Bytes) (commit : StagedCommit) : Prop :=
  (appDataUpdateProposals commit).Perm
    (values.iter.map fun value => (value.1, AppDataUpdateOperation.update value.2))

def AcceptedBy (host : BootstrapHost) (extensions : Extensions) (values : TlsMap UInt16 Bytes)
    (order : MembersOrder) : Prop :=
  ∀ commit, SentAs values commit → ∃ expected actual,
    synthesizeCanonicalSubsetFromExtensions host order extensions = .ok expected ∧
      collectAppDataUpdates commit = .ok actual ∧
        validateAgainstCanonicalSubset host expected actual = .ok ()

section Receiver

variable {host : BootstrapHost} {extensions : Extensions} {expected : CanonicalBootstrapExpectation}
  {gmm : GroupMutableMetadata} {registry : ComponentRegistry} {legacy : Groups.Proto.GroupMembership}
  {metadata : LegacyGroupMetadata} {members : List (String × UInt64)}
  {entries : TlsMap InboxId Groups.Proto.GroupMembershipEntryV1}
  {registryBytes membershipBytes : Bytes} {values : TlsMap UInt16 Bytes}

theorem collectAppDataUpdates_sent {commit : StagedCommit} (h : SentAs values commit) :
    collectAppDataUpdates commit = .ok (values.mapValues (Prod.mk .update)) := by
  have hnodup : ((appDataUpdateProposals commit).map fun p => p.1).Nodup := by
    rw [(h.map _).nodup_iff, List.map_map, TlsMap.iter, List.map_map]
    exact values.nodup_keys
  have hstep : ∀ (out : TlsMap UInt16 (AppDataUpdateOperationType × Bytes)),
      ∀ p ∈ appDataUpdateProposals commit, out.get p.1 = none →
        ((out.insert p.1 (operationType p.2)).mapError fun _ =>
          BootstrapValidationError.duplicateProposal p.1) = .ok (out.set p.1 (operationType p.2)) := by
    intro out p _ hnone
    simp [TlsMap.insert_eq, hnone]
  obtain ⟨actual, hfold, hget⟩ := TlsMap.exists_foldlM_set (m := TlsMap.new)
    (f := fun p : UInt16 × AppDataUpdateOperation => (p.1, operationType p.2)) hstep hnodup
    (fun _ _ => rfl)
  refine hfold.trans (congrArg _ ?_)
  apply TlsMap.ext_get
  intro id
  apply Option.ext
  intro value
  rw [hget, TlsMap.get_mapValues, (h.map _).mem_iff, List.map_map, Option.map_eq_some_iff]
  simp only [TlsMap.get_new, reduceCtorEq, false_or, List.mem_map, Function.comp_apply,
    operationType, Prod.mk.injEq, Prod.exists]
  constructor
  · rintro ⟨id', bytes, hmem, rfl, rfl⟩
    exact ⟨bytes, TlsMap.mem_iter.mp hmem, rfl⟩
  · rintro ⟨bytes, hbytes, rfl⟩
    exact ⟨id, bytes, TlsMap.mem_iter.mpr hbytes, rfl, rfl⟩

theorem Canonical.strict_get
    (h : Canonical host extensions expected gmm registry legacy metadata members) {id : UInt16}
    {value : AppDataUpdateOperationType × Bytes} (hget : expected.strict.get id = some value) :
    value.1 = .update ∧ (id, .ok (some value.2)) ∈ strictSeeds host gmm metadata :=
  mem_seeds_of_get h.strict (nodup_strictSeeds _ _ _) (fun _ _ => rfl) hget rfl

theorem ne_of_mem_strictSeeds {id : UInt16} {value : Except MigrationError (Option Bytes)}
    (h : (id, value) ∈ strictSeeds host gmm metadata) :
    id ≠ ComponentId.groupMembership ∧ id ≠ ComponentId.componentRegistry := by
  have hids : ∀ id ∈ (strictSeeds host gmm metadata).map Prod.fst,
      id ≠ ComponentId.groupMembership ∧ id ≠ ComponentId.componentRegistry := by
    change ∀ id ∈ ([0x8004, 0x8005, 0x8006, 0x8007, 0x8008, 0x8009, 0x800A, 0x800B, 0x8002, 0x8001,
      0xBFFF, 0xBFFE, 0xBFFD, 0xBFFC] : List UInt16), _
    refine fun id hid => of_decide_eq_true (List.all_eq_true (p := fun id => decide (id ≠ _ ∧ id ≠ _))
      |>.mp ?_ id hid)
    decide
  exact hids id (List.mem_map_of_mem h)

theorem Canonical.failedInstallations
    (h : Canonical host extensions expected gmm registry legacy metadata members)
    {installation : Bytes} (hmem : installation ∈ legacy.failedInstallations) :
    installation.length = 32 ∧ installation ∈ expected.allowedFailedInstallations := by
  obtain ⟨keys, hkeys, hallowed⟩ := h.allowed
  obtain ⟨key, hkey, hread⟩ := exists_of_mapM_mem hkeys hmem
  simp only [installationKey, bind_eq_ok, rejectIf_eq_ok, pure_eq_ok, decide_eq_false_iff_not,
    ne_eq, not_not] at hread
  obtain ⟨_, hlength, rfl⟩ := hread
  exact ⟨hlength, by rw [hallowed, List.mem_toFinset]; exact hkey⟩

theorem Sent.validate (h : Sent host expected legacy entries registryBytes membershipBytes values)
    (hcanonical : Canonical host extensions expected gmm registry legacy metadata members)
    (hentries : host.ReadsEntries) (hpolicies : host.ReadsPolicies extensions) :
    validateAgainstCanonicalSubset host expected (values.mapValues (Prod.mk .update)) = .ok () := by
  have hstrict : expected.strict.iter.forM
      (compareStrict (values.mapValues (Prod.mk .update))) = .ok () := by
    refine forM_eq_ok.mpr ?_
    rintro ⟨id, op, bytes⟩ hmem
    have hget := TlsMap.mem_iter.mp hmem
    obtain ⟨hop, hseed⟩ := hcanonical.strict_get hget
    obtain ⟨hmembership, hregistry⟩ := ne_of_mem_strictSeeds hseed
    cases hop
    simp only at hget
    simp [compareStrict, TlsMap.get_mapValues, h.get_strict hmembership hregistry, hget]
  have hexpected : ((values.mapValues (Prod.mk AppDataUpdateOperationType.update)).keys.forM fun id =>
      rejectIf (id ≠ ComponentId.groupMembership && id ≠ ComponentId.componentRegistry &&
        !expected.strict.containsKey id) (BootstrapValidationError.unexpectedProposal id)) =
          .ok () := by
    refine forM_eq_ok.mpr fun id hid => ?_
    rw [TlsMap.mem_keys, TlsMap.get_mapValues, Option.isSome_map] at hid
    by_cases hmembership : id = ComponentId.groupMembership
    · simp [hmembership]
    · by_cases hregistry : id = ComponentId.componentRegistry
      · simp [hregistry]
      · rw [h.get_strict hmembership hregistry, Option.isSome_map] at hid
        simp [TlsMap.containsKey_eq, hid]
  have hregistry := validateComponentRegistryPayload_seed h.registry fun _ _ hget =>
    hcanonical.recognized hpolicies hget
  have hmembership := validateGroupMembershipPayload_seed hentries h.membership h.sequenceIds
    fun id entry hget installation hmem =>
      hcanonical.failedInstallations (h.failed id entry hget installation hmem)
  rw [validateAgainstCanonicalSubset, hstrict, ok_bind, hexpected, ok_bind, TlsMap.get_mapValues,
    h.get_registry, Option.map_some, hregistry, ok_bind, TlsMap.get_mapValues, h.get_membership,
    Option.map_some, hmembership]

theorem Sent.sequenceIds_of_validate
    (h : Sent host expected legacy entries registryBytes membershipBytes values)
    (hentries : host.ReadsEntries) {expected' : CanonicalBootstrapExpectation}
    (hvalid : validateAgainstCanonicalSubset host expected' (values.mapValues (Prod.mk .update)) =
      .ok ()) {id : InboxId} {sequenceId : UInt64}
    (hget : expected.membershipSequenceIds.get id = some sequenceId) :
    expected'.membershipSequenceIds.get id = some sequenceId := by
  simp only [validateAgainstCanonicalSubset, bind_eq_ok] at hvalid
  obtain ⟨_, _, _, _, _, _, hmembership⟩ := hvalid
  rw [TlsMap.get_mapValues, h.get_membership, Option.map_some] at hmembership
  rw [← h.sequenceIds, Option.map_eq_some_iff] at hget
  obtain ⟨entry, hentry, rfl⟩ := hget
  exact sequenceId_of_validateGroupMembershipPayload hentries h.membership hmembership hentry

end Receiver

end LibXmtp.AppData
