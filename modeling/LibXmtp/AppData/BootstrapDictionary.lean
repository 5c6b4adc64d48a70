import LibXmtp.AppData.HonestBootstrap
import LibXmtp.AppData.MigratedPermissions
import Mathlib.Data.Nat.Digits.Lemmas
import Mathlib.Logic.Equiv.List

namespace LibXmtp.AppData

open LibXmtp.Data LibXmtp.Groups

def DecodesAttribute (host : BootstrapHost) (field : MetadataField) (bytes : Bytes)
    (value : String) : Prop :=
  match field with
  | .messageDisappearFromNS | .messageDisappearInNS =>
    ∃ n, parseI64 value = .ok n ∧ decodeBeI64 (metadataFieldComponentMap field) bytes = .ok n
  | .commitLogSigner => host.hex.decode value = some bytes ∧ bytes.length = ed25519KeyLength
  | _ => decodeUtf8 (metadataFieldComponentMap field) bytes = .ok value

section Apply

variable {host : BootstrapHost} {registry : ComponentRegistry} {payload : Bytes}

theorem apply_of_mem {component : ErasedComponent} (hmem : component ∈ wellKnown host.toWire)
    {bytes : Bytes} (h : component.applyUpdatePayload payload none = .ok bytes) :
    applyAppDataUpdatePayload host.toHost component.id registry payload none = .ok bytes :=
  (applyAppDataUpdatePayload_eq_ok (lookupComponent_of_mem hmem)).mpr ⟨by simp, h⟩

theorem apply_opaque {id : UInt16} (hid : id ∈ [ComponentId.conversationType,
    ComponentId.creatorInboxId, ComponentId.oneshotMessage]) :
    applyAppDataUpdatePayload host.toHost id registry payload none = .ok payload := by
  have hrange : ComponentId.isXmtpRange id = true ∧ componentType id = some .bytes ∧
      id ∉ (wellKnown host.toWire).map ErasedComponent.id := by
    rw [wellKnown_ids]
    simp only [List.mem_cons, List.not_mem_nil, or_false] at hid
    rcases hid with rfl | rfl | rfl <;> decide
  have hlookup : lookupComponent host.toHost id = none := by
    refine Option.eq_none_iff_forall_ne_some.mpr fun component hsome => hrange.2.2 ?_
    obtain ⟨hmem, hcomponent⟩ := (lookupComponent_eq_some_iff hrange.1).mp hsome
    exact List.mem_map.mpr ⟨component, hmem, hcomponent⟩
  simp [applyAppDataUpdatePayload, hlookup, dispatchType, hrange.2.1, applyUpdatePayloadForType,
    applyPassthrough, Except.mapError]

theorem decodeUtf8_toUTF8 (id : UInt16) (value : String) :
    decodeUtf8 id value.toUTF8.data.toList = .ok value := by
  have hbytes : (⟨value.toUTF8.data.toList.toArray⟩ : ByteArray) = value.toByteArray := by simp
  rw [decodeUtf8, hbytes, String.fromUTF8?, dif_pos value.isValidUTF8]
  rfl

theorem decodeBeI64_toBigEndian (id : UInt16) (n : Int64) :
    decodeBeI64 id (toBigEndian 8 n.toUInt64.toNat) = .ok n := by
  have hlt : n.toUInt64.toNat < 256 ^ 8 := n.toUInt64.toNat_lt
  rw [decodeBeI64, if_pos (length_toBigEndian _ _), ofBigEndian_toBigEndian,
    Nat.mod_eq_of_lt hlt, UInt64.ofNat_toNat]
  rfl

theorem encodeAttribute_string {field : MetadataField} {value : String}
    (hfield : field ∉ [MetadataField.messageDisappearFromNS, .messageDisappearInNS,
      .commitLogSigner]) :
    encodeAttribute host field value = .ok value.toUTF8.data.toList := by
  cases field <;> first | rfl | simp at hfield

theorem apply_string {field : MetadataField} {value : String}
    (hfield : field ∉ [MetadataField.messageDisappearFromNS, .messageDisappearInNS,
      .commitLogSigner])
    (hmem : passthroughStringComponent (metadataFieldComponentMap field) ∈ wellKnown host.toWire)
    (h : encodeAttribute host field value = .ok payload) :
    applyAppDataUpdatePayload host.toHost (metadataFieldComponentMap field) registry payload none =
      .ok payload ∧ DecodesAttribute host field payload value := by
  rw [encodeAttribute_string hfield] at h
  cases h
  have hdecode := decodeUtf8_toUTF8 (metadataFieldComponentMap field) value
  constructor
  · have happly : (passthroughStringComponent (metadataFieldComponentMap field)).applyUpdatePayload
        value.toUTF8.data.toList none = .ok value.toUTF8.data.toList := by
      change (do
        let _ ← decodeUtf8 (metadataFieldComponentMap field) value.toUTF8.data.toList
        applyPassthrough value.toUTF8.data.toList) = _
      rw [hdecode]
      rfl
    exact apply_of_mem hmem happly
  · cases field with
    | messageDisappearFromNS => exact absurd (by simp) hfield
    | messageDisappearInNS => exact absurd (by simp) hfield
    | commitLogSigner => exact absurd (by simp) hfield
    | _ => exact hdecode

theorem apply_attribute {field : MetadataField} {value : String}
    (h : encodeAttribute host field value = .ok payload) :
    applyAppDataUpdatePayload host.toHost (metadataFieldComponentMap field) registry payload none =
      .ok payload ∧ DecodesAttribute host field payload value := by
  cases field with
  | messageDisappearFromNS =>
    simp only [encodeAttribute, encodeMetadataAttributeValue, metadataFieldComponentMap, if_true,
      parseDisappearingI64, bind_eq_ok, mapError_eq_ok, pure_eq_ok] at h
    obtain ⟨n, hn, rfl⟩ := h
    have hmem : messageDisappearFromNsComponent ∈ wellKnown host.toWire := by simp [wellKnown]
    refine ⟨apply_of_mem hmem ?_, n, hn, decodeBeI64_toBigEndian _ n⟩
    simp [messageDisappearFromNsComponent, beI64Component, decodeBeI64_toBigEndian, pure, Except.pure]
  | messageDisappearInNS =>
    have hne : ComponentId.messageDisappearInNs ≠ ComponentId.messageDisappearFromNs := by decide
    simp only [encodeAttribute, encodeMetadataAttributeValue, metadataFieldComponentMap, if_neg hne,
      if_true, parseDisappearingI64, bind_eq_ok, mapError_eq_ok, pure_eq_ok] at h
    obtain ⟨n, hn, rfl⟩ := h
    have hmem : messageDisappearInNsComponent ∈ wellKnown host.toWire := by simp [wellKnown]
    refine ⟨apply_of_mem hmem ?_, n, hn, decodeBeI64_toBigEndian _ n⟩
    simp [messageDisappearInNsComponent, beI64Component, decodeBeI64_toBigEndian, pure, Except.pure]
  | commitLogSigner =>
    simp only [encodeAttribute, decodeCommitLogSigner, bind_eq_ok, okOr_eq_ok, rejectIf_eq_ok,
      pure_eq_ok, decide_eq_false_iff_not, ne_eq, not_not] at h
    obtain ⟨raw, hraw, _, hlength, rfl⟩ := h
    have hmem : commitLogSignerComponent ∈ wellKnown host.toWire := by simp [wellKnown]
    refine ⟨apply_of_mem hmem ?_, hraw, hlength⟩
    simp [commitLogSignerComponent, requireExactLen, hlength, pure, Except.pure]
  | appData =>
    have hmem : appDataComponent ∈ wellKnown host.toWire := by simp [wellKnown]
    exact apply_string (by simp) hmem h
  | description =>
    have hmem : groupDescriptionComponent ∈ wellKnown host.toWire := by simp [wellKnown]
    exact apply_string (by simp) hmem h
  | groupName =>
    have hmem : groupNameComponent ∈ wellKnown host.toWire := by simp [wellKnown]
    exact apply_string (by simp) hmem h
  | groupImageUrlSquare =>
    have hmem : groupImageUrlComponent ∈ wellKnown host.toWire := by simp [wellKnown]
    exact apply_string (by simp) hmem h
  | minimumSupportedProtocolVersion =>
    have hmem : minSupportedProtocolVersionComponent ∈ wellKnown host.toWire := by simp [wellKnown]
    exact apply_string (by simp) hmem h

end Apply

section Collections

variable {host : BootstrapHost} {registry : ComponentRegistry} {payload : Bytes}

theorem apply_inboxIds (hvlen : host.vlen.Downward) {id : UInt16}
    (hmem : inboxIdSetComponent host.toWire id ∈ wellKnown host.toWire) {ids : TlsSet InboxId}
    (h : encodeInboxIdDelta host ids = .ok payload) : ∃ bytes,
      applyAppDataUpdatePayload host.toHost id registry payload none = .ok bytes ∧
        readSet host.toWire (InboxId.codec host.vlen) (some bytes) = .ok ids := by
  rw [encodeInboxIdDelta, mapError_eq_ok] at h
  have hlawful := InboxId.codec_lawful host.vlen
  obtain ⟨bytes, happly, hread⟩ :=
    @applySetDelta_seed _ _ host.toWire _ _ hlawful (InboxId.codec_positive _) hvlen _ h
  exact ⟨bytes, apply_of_mem hmem happly, hread⟩

theorem apply_registry (hvlen : host.vlen.Downward) {entries : TlsMap UInt16 Proto.ComponentMetadata}
    (h : (TlsMapDelta.codec host.vlen (componentIdCodec host.vlen) host.vlen.bytes).serialize
      (entries.mapValues host.encodeMetadata).seed = .ok payload)
    (hrecognized : ∀ id entry, entries.get id = some entry →
      ComponentRegistry.decodeRecognized host.toWire id (host.encodeMetadata entry) = .ok entry) :
    ∃ bytes, applyAppDataUpdatePayload host.toHost ComponentId.componentRegistry registry payload
        none = .ok bytes ∧
      ComponentRegistry.fromBytes host.toWire bytes = .ok ⟨entries.mapValues host.encodeMetadata⟩ := by
  have hlawful := componentIdCodec_lawful host.vlen
  obtain ⟨bytes, happly, hbytes⟩ := @applyDecodedMapDelta_seed _ _ host.toWire _ _ hvlen _ h
  have hdelta := @decodeMapDelta_seed _ _ host.toWire _ _ hlawful _ h
  have hvalid : validateRegistryDelta host.toWire (entries.mapValues host.encodeMetadata).seed =
      .ok () := by
    rw [validateRegistryDelta, mapError_eq_ok, forM_eq_ok]
    intro mutation hmutation
    simp only [TlsMap.seed, TlsMap.mapValues, List.map_map, List.mem_map, Function.comp_apply]
      at hmutation
    obtain ⟨e, he, rfl⟩ := hmutation
    have hentry := hrecognized e.key e.value (TlsMap.get_eq_some_iff.mpr he)
    exact ComponentRegistry.validateEntry_eq_ok.mpr ⟨_, hentry⟩
  have hmem : componentRegistryComponent host.toWire ∈ wellKnown host.toWire := by simp [wellKnown]
  refine ⟨bytes, apply_of_mem hmem ?_, ComponentRegistry.fromBytes_eq_ok.mpr
    (readMap_serialize hlawful (componentIdCodec_positive _) hbytes)⟩
  simp only [componentRegistryComponent, hdelta, ok_bind, hvalid, happly]

theorem apply_membership (hvlen : host.vlen.Downward) (hentries : host.ReadsEntries)
    {entries : TlsMap InboxId Groups.Proto.GroupMembershipEntryV1}
    (h : (TlsMapDelta.codec host.vlen (InboxId.codec host.vlen) host.vlen.bytes).serialize
      (entries.mapValues host.encodeGroupMembershipEntry).seed = .ok payload) :
    ∃ bytes, applyAppDataUpdatePayload host.toHost ComponentId.groupMembership registry payload
        none = .ok bytes ∧
      decodeGroupMembershipDict host.toMembershipWire bytes = .ok entries.iter := by
  have hlawful := InboxId.codec_lawful host.vlen
  obtain ⟨bytes, happly, hbytes⟩ := @applyDecodedMapDelta_seed _ _ host.toWire _ _ hvlen _ h
  have hdelta := @decodeMapDelta_seed _ _ host.toWire _ _ hlawful _ h
  have hmem : groupMembershipComponent host.toWire ∈ wellKnown host.toWire := by simp [wellKnown]
  refine ⟨bytes, apply_of_mem hmem ?_, ?_⟩
  · simp only [groupMembershipComponent, applyTlsMapDelta, hdelta, ok_bind, happly]
  · have hread := (TlsMap.codec_roundTrips hlawful (InboxId.codec_positive _)
      Vlen.bytes_lawful).deserializeExact_serialize hbytes
    simp only [decodeGroupMembershipDict, hread, Except.mapError, ok_bind]
    have hiter : (entries.mapValues host.encodeGroupMembershipEntry).iter =
        entries.iter.map fun p => (p.1, host.encodeGroupMembershipEntry p.2) := by
      simp [TlsMap.iter, TlsMap.mapValues]
    rw [hiter]
    refine mapM_map_of_forall fun p _ => ?_
    simp only [hentries p.2, okOr_some, ok_bind]
    rfl

end Collections

section Rows

variable {host : BootstrapHost} {gmm : GroupMutableMetadata} {metadata : LegacyGroupMetadata}
  {registry : ComponentRegistry}

theorem encodeInboxIdSet_eq_ok {texts : List String} {payload : Bytes} :
    encodeInboxIdSet host texts = .ok payload ↔ ∃ ids,
      texts.mapM (inboxIdFromHex host) = .ok ids ∧
        encodeInboxIdDelta host (TlsSet.ofList ids) = .ok payload := by
  simp only [encodeInboxIdSet, bind_eq_ok]

theorem apply_inboxIdSet (hvlen : host.vlen.Downward) {id : UInt16}
    (hmem : inboxIdSetComponent host.toWire id ∈ wellKnown host.toWire) {texts : List String}
    {payload : Bytes} (h : encodeInboxIdSet host texts = .ok payload) : ∃ bytes,
      applyAppDataUpdatePayload host.toHost id registry payload none = .ok bytes ∧
        ∃ set, readSet host.toWire (InboxId.codec host.vlen) (some bytes) = .ok set ∧
          ∀ inboxId, inboxId ∈ set.iter ↔
            ∃ text ∈ texts, InboxId.fromHex host.hex text = .ok inboxId := by
  obtain ⟨ids, hids, hpayload⟩ := encodeInboxIdSet_eq_ok.mp h
  obtain ⟨bytes, happly, hread⟩ := apply_inboxIds hvlen hmem hpayload
  refine ⟨bytes, happly, _, hread, fun inboxId => ?_⟩
  rw [TlsSet.mem_iter_ofList]
  constructor
  · intro hmem
    obtain ⟨text, htext, hid⟩ := exists_of_mem_mapM hids hmem
    exact ⟨text, htext, inboxIdFromHex_eq_ok.mp hid⟩
  · rintro ⟨text, htext, hid⟩
    obtain ⟨inboxId', hmem, hid'⟩ := exists_of_mapM_mem hids htext
    cases hid.symm.trans (inboxIdFromHex_eq_ok.mp hid')
    exact hmem

theorem encodeAttribute_of_mem {field : MetadataField} {id : UInt16} {componentType : ComponentType}
    (h : (field, id, componentType) ∈ metadataFieldRegistryMapping) :
    id = metadataFieldComponentMap field ∧
      encodeMetadataAttributeValue id = encodeAttribute host field := by
  simp only [metadataFieldRegistryMapping, List.mem_cons, Prod.mk.injEq, List.not_mem_nil, or_false]
    at h
  rcases h with ⟨rfl, rfl, _⟩ | ⟨rfl, rfl, _⟩ | ⟨rfl, rfl, _⟩ | ⟨rfl, rfl, _⟩ | ⟨rfl, rfl, _⟩ |
    ⟨rfl, rfl, _⟩ | ⟨rfl, rfl, _⟩ <;> exact ⟨rfl, rfl⟩

theorem mapM_eq_ok_some {α β ε : Type} {f : α → Except ε β} {o : Option α} {b : β} :
    o.mapM f = .ok (some b) ↔ ∃ a, o = some a ∧ f a = .ok b := by
  cases o with
  | none => simp [Option.mapM_none]
  | some a => simp [Option.mapM_some]

theorem exists_apply_of_mem_strictSeeds (hvlen : host.vlen.Downward) {id : UInt16} {payload : Bytes}
    (h : (id, .ok (some payload)) ∈ strictSeeds host gmm metadata) :
    ∃ bytes, applyAppDataUpdatePayload host.toHost id registry payload none = .ok bytes := by
  rcases List.mem_append.mp h with hrow | hrow
  · obtain ⟨⟨field, id', componentType⟩, hmem, heq⟩ := List.mem_map.mp hrow
    obtain ⟨rfl, hencode⟩ := @encodeAttribute_of_mem host _ _ _ hmem
    simp only [hencode, Prod.mk.injEq] at heq
    obtain ⟨rfl, hvalue⟩ := heq
    obtain ⟨value, _, hpayload⟩ := mapM_eq_ok_some.mp hvalue
    exact ⟨_, (apply_attribute hpayload).1⟩
  · simp only [List.mem_cons, Prod.mk.injEq, List.not_mem_nil, or_false] at hrow
    rcases hrow with ⟨rfl, hrow⟩ | ⟨rfl, hrow⟩ | ⟨rfl, hrow⟩ | ⟨rfl, hrow⟩ | ⟨rfl, hrow⟩ | ⟨rfl, hrow⟩ |
      ⟨rfl, hrow⟩
    · obtain ⟨value, _, hpayload⟩ := mapM_eq_ok_some.mp hrow.symm
      have hsigner : encodeAttribute host .commitLogSigner value = .ok payload := hpayload
      exact ⟨_, (apply_attribute hsigner).1⟩
    · obtain ⟨_, hpayload, heq⟩ := map_eq_ok.mp hrow.symm
      cases heq
      have hmem : adminListComponent host.toWire ∈ wellKnown host.toWire := by simp [wellKnown]
      obtain ⟨bytes, happly, _⟩ := apply_inboxIdSet hvlen hmem hpayload
      exact ⟨bytes, happly⟩
    · obtain ⟨_, hpayload, heq⟩ := map_eq_ok.mp hrow.symm
      cases heq
      have hmem : superAdminListComponent host.toWire ∈ wellKnown host.toWire := by simp [wellKnown]
      obtain ⟨bytes, happly, _⟩ := apply_inboxIdSet hvlen hmem hpayload
      exact ⟨bytes, happly⟩
    · exact ⟨_, apply_opaque (by simp)⟩
    · exact ⟨_, apply_opaque (by simp)⟩
    · obtain ⟨dm, _, hpayload⟩ := mapM_eq_ok_some.mp hrow.symm
      simp only [encodeDmMembers, bind_eq_ok] at hpayload
      obtain ⟨_, _, _, _, _, _, hpayload⟩ := hpayload
      have hmem : dmMembersComponent host.toWire ∈ wellKnown host.toWire := by simp [wellKnown]
      obtain ⟨bytes, happly, _⟩ := apply_inboxIds hvlen hmem hpayload
      exact ⟨bytes, happly⟩
    · exact ⟨_, apply_opaque (by simp)⟩

end Rows

section Seeding

variable (host : BootstrapHost) (registry : ComponentRegistry)

def seedComponent (dictionary : TlsMap UInt16 Bytes) (value : UInt16 × Bytes) :
    Except ComponentSourceError (TlsMap UInt16 Bytes) := do
  let bytes ← applyAppDataUpdatePayload host.toHost value.1 registry value.2
    (dictionary.get value.1)
  return dictionary.set value.1 bytes

def seedDictionary (proposals : List (UInt16 × Bytes)) :
    Except ComponentSourceError (TlsMap UInt16 Bytes) :=
  proposals.foldlM (seedComponent host registry) TlsMap.new

variable {host registry} {values : TlsMap UInt16 Bytes} {proposals : List (UInt16 × Bytes)}

theorem exists_seedDictionary (hproposals : proposals.Perm values.iter)
    (happly : ∀ id payload, values.get id = some payload → ∃ bytes,
      applyAppDataUpdatePayload host.toHost id registry payload none = .ok bytes) :
    ∃ dictionary, seedDictionary host registry proposals = .ok dictionary ∧
      ∀ id, (∀ payload, values.get id = some payload → ∃ bytes,
        applyAppDataUpdatePayload host.toHost id registry payload none = .ok bytes ∧
          dictionary.get id = some bytes) ∧
        (values.get id = none → dictionary.get id = none) := by
  have hnodup : (proposals.map fun p => p.1).Nodup := by
    rw [(hproposals.map _).nodup_iff, TlsMap.iter, List.map_map]
    exact values.nodup_keys
  have hmem : ∀ p ∈ proposals, values.get p.1 = some p.2 := fun p hp =>
    TlsMap.mem_iter.mp (hproposals.mem_iff.mp hp)
  let stored (p : UInt16 × Bytes) : Bytes :=
    (applyAppDataUpdatePayload host.toHost p.1 registry p.2 none).toOption.getD []
  have hstored : ∀ id payload, values.get id = some payload →
      applyAppDataUpdatePayload host.toHost id registry payload none =
        .ok (stored (id, payload)) := by
    intro id payload hget
    obtain ⟨bytes, hbytes⟩ := happly id payload hget
    simp only [stored, hbytes, toOption_ok, Option.getD_some]
  have hstep : ∀ (dictionary : TlsMap UInt16 Bytes), ∀ p ∈ proposals, dictionary.get p.1 = none →
      seedComponent host registry dictionary p = .ok (dictionary.set p.1 (stored p)) := by
    intro dictionary p hp hnone
    rw [seedComponent, hnone, hstored p.1 p.2 (hmem p hp)]
    rfl
  obtain ⟨dictionary, hfold, hget⟩ := TlsMap.exists_foldlM_set (m := TlsMap.new)
    (f := fun p : UInt16 × Bytes => (p.1, stored p)) hstep hnodup (fun _ _ => rfl)
  have hdictionary : ∀ id bytes, dictionary.get id = some bytes ↔
      ∃ payload, values.get id = some payload ∧ stored (id, payload) = bytes := by
    intro id bytes
    simp only [hget, TlsMap.get_new, reduceCtorEq, false_or, List.mem_map, Prod.mk.injEq]
    constructor
    · rintro ⟨⟨id', payload⟩, hp, rfl, rfl⟩
      exact ⟨payload, hmem _ hp, rfl⟩
    · rintro ⟨payload, hpayload, rfl⟩
      exact ⟨(id, payload), hproposals.mem_iff.mpr (TlsMap.mem_iter.mpr hpayload), rfl, rfl⟩
  refine ⟨dictionary, hfold, fun id => ⟨fun payload hpayload => ?_, fun hnone => ?_⟩⟩
  · exact ⟨_, hstored id payload hpayload, (hdictionary id _).mpr ⟨payload, hpayload, rfl⟩⟩
  · refine Option.eq_none_iff_forall_ne_some.mpr fun bytes hsome => ?_
    obtain ⟨payload, hpayload, _⟩ := (hdictionary id bytes).mp hsome
    rw [hnone] at hpayload
    cases hpayload

end Seeding

def DecodesInboxIds (host : BootstrapHost) (stored : Option Bytes) (texts : List String) : Prop :=
  ∃ bytes, stored = some bytes ∧
    ∃ set, readSet host.toWire (InboxId.codec host.vlen) (some bytes) = .ok set ∧
      ∀ inboxId, inboxId ∈ set.iter ↔ ∃ text ∈ texts, InboxId.fromHex host.hex text = .ok inboxId

structure DecodesLegacy (host : BootstrapHost) (gmm : GroupMutableMetadata)
    (registry : ComponentRegistry) (legacy : Groups.Proto.GroupMembership)
    (dictionary : TlsMap UInt16 Bytes) : Prop where
  membership : ∃ bytes entries, dictionary.get ComponentId.groupMembership = some bytes ∧
    decodeGroupMembershipDict host.toMembershipWire bytes = .ok entries ∧
      ∀ id sequenceId, (∃ failed, (id, ⟨sequenceId, failed⟩) ∈ entries) ↔
        ∃ member ∈ legacy.members.entries,
          InboxId.fromHex host.hex member.1 = .ok id ∧ member.2 = sequenceId
  adminList : DecodesInboxIds host (dictionary.get ComponentId.adminList) gmm.adminList
  superAdminList : DecodesInboxIds host (dictionary.get ComponentId.superAdminList)
    gmm.superAdminList
  attributes : ∀ field value, gmm.attributes.get field.asStr = some value → ∃ bytes,
    dictionary.get (metadataFieldComponentMap field) = some bytes ∧
      DecodesAttribute host field bytes value
  unset : ∀ field, gmm.attributes.get field.asStr = none →
    dictionary.get (metadataFieldComponentMap field) = none
  registry : ∃ bytes stored, dictionary.get ComponentId.componentRegistry = some bytes ∧
    ComponentRegistry.fromBytes host.toWire bytes = .ok stored ∧
      ∀ id, stored.get host.toWire id = registry.get host.toWire id

section Decoding

variable {host : BootstrapHost} {extensions : Extensions} {expected : CanonicalBootstrapExpectation}
  {gmm : GroupMutableMetadata} {registry registry' : ComponentRegistry}
  {legacy : Groups.Proto.GroupMembership} {metadata : LegacyGroupMetadata}
  {members : List (String × UInt64)} {entries : TlsMap InboxId Groups.Proto.GroupMembershipEntryV1}
  {registryBytes membershipBytes : Bytes} {values : TlsMap UInt16 Bytes}

theorem Sent.exists_apply
    (h : Sent host expected legacy entries registryBytes membershipBytes values)
    (hcanonical : Canonical host extensions expected gmm registry legacy metadata members)
    (hvlen : host.vlen.Downward) (hentries : host.ReadsEntries)
    (hpolicies : host.ReadsPolicies extensions) {id : UInt16} {payload : Bytes}
    (hget : values.get id = some payload) : ∃ bytes,
      applyAppDataUpdatePayload host.toHost id registry' payload none = .ok bytes := by
  by_cases hmembership : id = ComponentId.groupMembership
  · subst hmembership
    cases hget.symm.trans h.get_membership
    obtain ⟨bytes, happly, _⟩ := apply_membership hvlen hentries h.membership
    exact ⟨bytes, happly⟩
  · by_cases hregistry : id = ComponentId.componentRegistry
    · subst hregistry
      cases hget.symm.trans h.get_registry
      obtain ⟨bytes, happly, _⟩ := apply_registry hvlen h.registry fun _ _ hentry =>
        hcanonical.recognized hpolicies hentry
      exact ⟨bytes, happly⟩
    · rw [h.get_strict hmembership hregistry, Option.map_eq_some_iff] at hget
      obtain ⟨value, hvalue, rfl⟩ := hget
      exact exists_apply_of_mem_strictSeeds hvlen (hcanonical.strict_get hvalue).2

theorem Sent.get_of_mem_strictSeeds
    (h : Sent host expected legacy entries registryBytes membershipBytes values)
    (hcanonical : Canonical host extensions expected gmm registry legacy metadata members)
    {id : UInt16} {value : Except MigrationError (Option Bytes)}
    (hmem : (id, value) ∈ strictSeeds host gmm metadata) : value = .ok (values.get id) := by
  obtain ⟨hmembership, hregistry⟩ := ne_of_mem_strictSeeds hmem
  obtain ⟨bytes, rfl, hget⟩ := get_of_mem_seeds hcanonical.strict (nodup_strictSeeds _ _ _)
    (fun _ _ => rfl) hmem
  rw [h.get_strict hmembership hregistry, hget, Option.map_map]
  cases bytes <;> rfl

theorem Sent.decodesLegacy
    (h : Sent host expected legacy entries registryBytes membershipBytes values)
    (hcanonical : Canonical host extensions expected gmm registry legacy metadata members)
    (hperm : members.Perm legacy.members.entries)
    (hvlen : host.vlen.Downward) (hentries : host.ReadsEntries)
    (hpolicies : host.ReadsPolicies extensions) (hone : OneSequenceId host legacy)
    {proposals : List (UInt16 × Bytes)} (hproposals : proposals.Perm values.iter) :
    ∃ dictionary, seedDictionary host registry' proposals = .ok dictionary ∧
      DecodesLegacy host gmm registry legacy dictionary := by
  obtain ⟨dictionary, hseed, hdictionary⟩ := exists_seedDictionary hproposals fun id payload hget =>
    @Sent.exists_apply _ _ _ _ _ registry' _ _ _ _ _ _ _ h hcanonical hvlen hentries hpolicies id
      payload hget
  have hinboxIds : ∀ id texts, inboxIdSetComponent host.toWire id ∈ wellKnown host.toWire →
      (id, some <$> encodeInboxIdSet host texts) ∈ strictSeeds host gmm metadata →
        DecodesInboxIds host (dictionary.get id) texts := by
    intro id texts hmem hrow
    obtain ⟨payload, hpayload, hsome⟩ := map_eq_ok.mp (h.get_of_mem_strictSeeds hcanonical hrow)
    obtain ⟨bytes, happly, hget⟩ := (hdictionary id).1 payload hsome.symm
    obtain ⟨bytes', happly', hset⟩ := apply_inboxIdSet hvlen hmem hpayload
    cases happly.symm.trans happly'
    exact ⟨bytes, hget, hset⟩
  have hattribute : ∀ field, (gmm.attributes.get field.asStr).mapM (encodeAttribute host field) =
      .ok (values.get (metadataFieldComponentMap field)) := fun field =>
    h.get_of_mem_strictSeeds hcanonical (attribute_mem_strictSeeds host gmm metadata field)
  refine ⟨dictionary, hseed, ?_, ?_, ?_, fun field value hvalue => ?_, fun field hnone => ?_, ?_⟩
  · obtain ⟨bytes, happly, hget⟩ := (hdictionary _).1 _ h.get_membership
    obtain ⟨bytes', happly', hdecode⟩ := apply_membership hvlen hentries h.membership
    cases happly.symm.trans happly'
    refine ⟨bytes, entries.iter, hget, hdecode, fun id sequenceId => ?_⟩
    obtain ⟨pairs, hpairs, hsequenceIds⟩ := hcanonical.sequenceIds
    rw [← get_sequenceIds hpairs hperm hone, ← hsequenceIds, ← h.sequenceIds,
      Option.map_eq_some_iff]
    constructor
    · rintro ⟨failed, hmem⟩
      exact ⟨_, TlsMap.mem_iter.mp hmem, rfl⟩
    · rintro ⟨entry, hentry, rfl⟩
      exact ⟨entry.failedInstallations, TlsMap.mem_iter.mpr hentry⟩
  · have hmem : adminListComponent host.toWire ∈ wellKnown host.toWire := by simp [wellKnown]
    exact hinboxIds _ _ hmem (List.mem_append_right _ (by simp))
  · have hmem : superAdminListComponent host.toWire ∈ wellKnown host.toWire := by simp [wellKnown]
    exact hinboxIds _ _ hmem (List.mem_append_right _ (by simp))
  · have hencode := hattribute field
    rw [hvalue] at hencode
    obtain ⟨payload, hpayload, hsome⟩ := map_eq_ok.mp hencode
    obtain ⟨bytes, happly, hget⟩ := (hdictionary _).1 payload hsome.symm
    obtain ⟨happly', hdecodes⟩ := apply_attribute hpayload
    cases happly.symm.trans happly'
    exact ⟨_, hget, hdecodes⟩
  · have hencode := hattribute field
    rw [hnone] at hencode
    have hvalue : values.get (metadataFieldComponentMap field) = none :=
      (Except.ok.inj hencode).symm
    exact (hdictionary _).2 hvalue
  · obtain ⟨bytes, happly, hget⟩ := (hdictionary _).1 _ h.get_registry
    have hrecognized : ∀ id entry, expected.expectedRegistry.get id = some entry →
        ComponentRegistry.decodeRecognized host.toWire id (host.encodeMetadata entry) = .ok entry :=
      fun _ _ hentry => hcanonical.recognized hpolicies hentry
    obtain ⟨bytes', happly', hdecode⟩ := apply_registry hvlen h.registry hrecognized
    cases happly.symm.trans happly'
    refine ⟨bytes, _, hget, hdecode, fun id => ?_⟩
    rw [← hcanonical.get_expectedRegistry, ComponentRegistry.get, TlsMap.get_mapValues]
    cases hentry : expected.expectedRegistry.get id with
    | none => rfl
    | some entry => simp [hrecognized id entry hentry, toOption_ok]

end Decoding

def MembersOrder.endingWith (member : String × UInt64) : MembersOrder where
  iterate members :=
    if member ∈ members.entries then members.entries.erase member ++ [member] else members.entries
  iterate_perm members := by
    split
    · rename_i hmem
      exact (List.perm_append_singleton _ _).trans (List.perm_cons_erase hmem).symm
    · exact .refl _

/-- Every receiver accepts the values, and they make a dictionary that says what the legacy
extensions said. -/
structure HonestBootstrap (host : BootstrapHost) (extensions : Extensions)
    (gmm : GroupMutableMetadata) (registry : ComponentRegistry)
    (legacy : Groups.Proto.GroupMembership) (values : TlsMap UInt16 Bytes) : Prop where
  accepted : ∀ order, AcceptedBy host extensions values order
  applied : ∀ registry' proposals, proposals.Perm values.iter →
    ∃ dictionary, seedDictionary host registry' proposals = .ok dictionary ∧
      DecodesLegacy host gmm registry legacy dictionary

section Honest

variable {host : BootstrapHost} {extensions : Extensions} {expected : CanonicalBootstrapExpectation}
  {gmm : GroupMutableMetadata} {registry : ComponentRegistry}
  {legacy : Groups.Proto.GroupMembership} {metadata : LegacyGroupMetadata}
  {members : List (String × UInt64)} {entries : TlsMap InboxId Groups.Proto.GroupMembershipEntryV1}
  {registryBytes membershipBytes : Bytes} {values : TlsMap UInt16 Bytes}

theorem Sent.acceptedBy
    (h : Sent host expected legacy entries registryBytes membershipBytes values)
    (hcanonical : Canonical host extensions expected gmm registry legacy metadata members)
    (hperm : members.Perm legacy.members.entries) (hentries : host.ReadsEntries)
    (hpolicies : host.ReadsPolicies extensions) (hone : OneSequenceId host legacy)
    (order : MembersOrder) : AcceptedBy host extensions values order := by
  intro commit hsent
  have hperm' := order.iterate_perm legacy.members
  obtain ⟨pairs', hpairs', hcanonical'⟩ := hcanonical.reorder (hperm.trans hperm'.symm)
  obtain ⟨pairs, hpairs, hsequenceIds⟩ := hcanonical.sequenceIds
  have hsame : { expected with membershipSequenceIds := TlsMap.ofPairs pairs' } = expected := by
    rw [← sequenceIds_eq hpairs hpairs' hperm hperm' hone, ← hsequenceIds]
  rw [hsame] at hcanonical'
  exact ⟨expected, _, canonical_eq_ok.mpr ⟨gmm, registry, legacy, metadata, hcanonical'⟩,
    collectAppDataUpdates_sent hsent, h.validate hcanonical hentries hpolicies⟩

theorem exists_sentAs (extensions : Extensions) (values : TlsMap UInt16 Bytes) :
    ∃ commit, SentAs values commit := by
  let queued (value : UInt16 × Bytes) : QueuedProposal :=
    ⟨.appDataUpdate value.1 (.update value.2), .member 0⟩
  refine ⟨⟨values.iter.map queued, extensions⟩, List.Perm.of_eq ?_⟩
  rw [appDataUpdateProposals, appDataUpdates, List.filterMap_map]
  exact List.filterMap_eq_map_iff_forall_eq_some.mpr fun _ _ => rfl

theorem Sent.oneSequenceId
    (h : Sent host expected legacy entries registryBytes membershipBytes values)
    (hcanonical : Canonical host extensions expected gmm registry legacy metadata members)
    (hperm : members.Perm legacy.members.entries) (hentries : host.ReadsEntries)
    (haccepted : ∀ order, AcceptedBy host extensions values order) :
    OneSequenceId host legacy := by
  obtain ⟨commit, hsent⟩ := exists_sentAs extensions values
  obtain ⟨pairs, hpairs, hsequenceIds⟩ := hcanonical.sequenceIds
  have hmember : ∀ a ∈ legacy.members.entries, ∀ id, InboxId.fromHex host.hex a.1 = .ok id →
      expected.membershipSequenceIds.get id = some a.2 := by
    intro a ha id hid
    obtain ⟨sequenceId, hget⟩ := TlsMap.exists_contents
      ((mem_of_sequenceIds hpairs).mpr ⟨a, hperm.mem_iff.mpr ha, hid, rfl⟩)
    rw [← TlsMap.get_ofPairs, ← hsequenceIds] at hget
    obtain ⟨expected', actual, hexpected', hactual, hvalid⟩ :=
      haccepted (.endingWith a) commit hsent
    cases hactual.symm.trans (collectAppDataUpdates_sent hsent)
    have hget' := h.sequenceIds_of_validate hentries hvalid hget
    obtain ⟨gmm', registry', legacy', metadata', hcanonical'⟩ := canonical_eq_ok.mp hexpected'
    cases hcanonical.readsMembership.symm.trans hcanonical'.readsMembership
    obtain ⟨pairs', hpairs', hsequenceIds'⟩ := hcanonical'.sequenceIds
    have hiterate : (MembersOrder.endingWith a).iterate legacy.members =
        legacy.members.entries.erase a ++ [a] := if_pos ha
    rw [hiterate, mapM_append_eq_ok] at hpairs'
    obtain ⟨front, last, _, hlast, rfl⟩ := hpairs'
    have hentry : sequenceIdEntry host a = .ok (id, a.2) := sequenceIdEntry_eq_ok.mpr ⟨hid, rfl⟩
    simp only [List.mapM_cons, List.mapM_nil, hentry, ok_bind] at hlast
    cases hlast
    rw [hsequenceIds', TlsMap.get_ofPairs, TlsMap.contents_concat_self] at hget'
    rw [hget, hget']
  intro a ha b hb id hida hidb
  exact Option.some.inj ((hmember a ha id hida).symm.trans (hmember b hb id hidb))

end Honest

/-- The receivers of a migration agree with its sender, whatever they iterate the legacy members in,
as long as no inbox id is spelled in two ways with two sequence ids. -/
theorem honestBootstrap_iff (host : BootstrapHost) (extensions : Extensions) (order : MembersOrder)
    (lookup : InstallationLookup) (values : TlsMap UInt16 Bytes) (gmm : GroupMutableMetadata)
    (registry : ComponentRegistry) (legacy : Groups.Proto.GroupMembership)
    (hvlen : host.vlen.Downward) (hentries : host.ReadsEntries)
    (hpolicies : host.ReadsPolicies extensions)
    (hmutable : legacyMutableMetadata host extensions = .ok gmm)
    (hregistry : synthesizeRegistryFromExtensions host extensions = .ok registry)
    (hmembership : extractLegacyGroupMembership host extensions = .ok legacy)
    (hvalues : synthesizeInitialComponentValuesFromExtensions host order lookup extensions =
      .ok values) :
    HonestBootstrap host extensions gmm registry legacy values ↔ OneSequenceId host legacy := by
  obtain ⟨expected, gmm', registry', legacy', metadata, entries, registryBytes, membershipBytes,
    hcanonical, hsent⟩ := exists_sent hvalues
  cases hmutable.symm.trans hcanonical.readsMutable
  cases hregistry.symm.trans hcanonical.readsRegistry
  cases hmembership.symm.trans hcanonical.readsMembership
  have hperm := order.iterate_perm legacy.members
  constructor
  · intro h
    exact hsent.oneSequenceId hcanonical hperm hentries h.accepted
  · intro hone
    refine ⟨hsent.acceptedBy hcanonical hperm hentries hpolicies hone, ?_⟩
    intro registry'' proposals hproposals
    exact hsent.decodesLegacy hcanonical hperm hvlen hentries hpolicies hone hproposals

namespace BootstrapSample

def creator : String := String.ofList (List.replicate 64 'a')

def spelled : String := String.ofList (List.replicate 64 'A')

def other : String := String.ofList (List.replicate 64 'b')

def pack (entry : UInt64 × List Bytes) : Bytes :=
  (Nat.digits 256 (Encodable.encode entry)).map UInt8.ofNat

def unpack (bytes : Bytes) : Option (UInt64 × List Bytes) :=
  Encodable.decode (Nat.ofDigits 256 (bytes.map UInt8.toNat))

theorem unpack_pack (entry : UInt64 × List Bytes) : unpack (pack entry) = some entry := by
  have hdigits : ((Nat.digits 256 (Encodable.encode entry)).map UInt8.ofNat).map UInt8.toNat =
      Nat.digits 256 (Encodable.encode entry) := by
    rw [List.map_map]
    refine (List.map_congr_left fun digit hdigit => ?_).trans (List.map_id _)
    simp only [Function.comp_apply, UInt8.toNat_ofNat']
    exact Nat.mod_eq_of_lt (Nat.digits_lt_base (by decide) hdigit)
  rw [unpack, pack, hdigits, Nat.ofDigits_digits, Encodable.encodek]

def encodeEntry (entry : Groups.Proto.GroupMembershipEntryV1) : Bytes :=
  if 0 < entry.sequenceId ∧ entry.sequenceId < 128 ∧ entry.failedInstallations = [] then
    [0x0A, 2, 0x08, entry.sequenceId.toUInt8]
  else 0 :: pack (entry.sequenceId, entry.failedInstallations)

def decodeEntry : Bytes → Option (Option Groups.Proto.GroupMembershipEntryV1)
  | [0x0A, 2, 0x08, sequenceId] => some (some ⟨sequenceId.toUInt64, []⟩)
  | 0 :: bytes => (unpack bytes).map fun entry => some ⟨entry.1, entry.2⟩
  | _ => none

theorem decodeEntry_encodeEntry (entry : Groups.Proto.GroupMembershipEntryV1) :
    decodeEntry (encodeEntry entry) = some (some entry) := by
  obtain ⟨sequenceId, failedInstallations⟩ := entry
  rw [encodeEntry]
  split
  · rename_i hsmall
    obtain ⟨_, hlt, rfl⟩ := hsmall
    have hbyte : sequenceId.toUInt8.toUInt64 = sequenceId := by
      rw [UInt64.lt_iff_toNat_lt] at hlt
      apply UInt64.toNat_inj.mp
      rw [UInt8.toNat_toUInt64, UInt64.toNat_toUInt8]
      exact Nat.mod_eq_of_lt (hlt.trans (by decide))
    simp only [decodeEntry, hbyte]
  · simp only [decodeEntry, unpack_pack, Option.map_some]

def membership (members : List (String × UInt64)) : Groups.Proto.GroupMembership :=
  ⟨.ofList members, []⟩

def respelled : Groups.Proto.GroupMembership :=
  ⟨.ofList [(creator, 1), (spelled, 1), (other, 2)], [List.replicate 32 0xCC]⟩

def groupCodec : GroupCodec where
  decodeInboxId _ := none
  decodeGroupMetadata bytes := if bytes = [3] then some ⟨1, creator, none⟩ else none
  decodeGroupMutableMetadata bytes :=
    if bytes = [4] then some ⟨.ofList [("group_name", "hi")], some ⟨[]⟩, some ⟨[creator]⟩⟩ else none
  decodeGroupMutablePermissions bytes := if bytes = [5] then some ⟨some openPolicies⟩ else none
  decodeGroupMembership bytes :=
    if bytes = [6] then some (membership [(creator, 1)])
    else if bytes = [7] then some (membership [(creator, 1), (spelled, 2)])
    else if bytes = [8] then some respelled
    else none

def host : BootstrapHost where
  toHost := bareHost
  hex := .lower
  decodeGroupMembershipEntry := decodeEntry
  codec := groupCodec
  oneshotMessage _ := none
  encodeOneshotMessage _ := []
  encodeGroupMembershipEntry := encodeEntry

def groupOf (members : UInt8) : Extensions :=
  [.immutableMetadata [3], .unknown mutableMetadataExtensionId [4],
    .unknown groupPermissionsExtensionId [5], .unknown groupMembershipExtensionId [members]]

def inOrder : MembersOrder := ⟨fun members => members.entries, fun _ => .refl _⟩

def lookup : InstallationLookup := fun _ _ => .ok []

def valuesOf (members : UInt8) : TlsMap UInt16 Bytes :=
  (synthesizeInitialComponentValuesFromExtensions host inOrder lookup
    (groupOf members)).toOption.getD .new

def registry : ComponentRegistry :=
  (synthesizeRegistryFromExtensions host (groupOf 8)).toOption.getD .new

def gmm : GroupMutableMetadata := ⟨.ofList [("group_name", "hi")], [], [creator]⟩

theorem readsPolicies (members : UInt8) : host.ReadsPolicies (groupOf members) := by
  intro policySet h
  cases h
  exact bareHost_roundTrips

theorem isOk_values : ∀ members ∈ [7, 8], (synthesizeInitialComponentValuesFromExtensions host
    inOrder lookup (groupOf members)).isOk = true := by
  decide +kernel

theorem oneSequenceId : OneSequenceId host respelled := by
  have hsame : ∀ a ∈ respelled.members.entries, ∀ b ∈ respelled.members.entries,
      InboxId.fromHex host.hex a.1 = InboxId.fromHex host.hex b.1 → a.2 = b.2 := by
    decide +kernel
  intro a ha b hb id hid hid'
  exact hsame a ha b hb (hid.trans hid'.symm)

end BootstrapSample

open BootstrapSample in
theorem honestBootstrap_respelled :
    HonestBootstrap host (groupOf 8) gmm registry respelled (valuesOf 8) :=
  (honestBootstrap_iff host (groupOf 8) inOrder lookup (valuesOf 8) gmm registry respelled
    Vlen.quic_downward decodeEntry_encodeEntry (readsPolicies 8) rfl
    (eq_ok_of_isOk (by decide +kernel)) rfl (eq_ok_of_isOk (isOk_values 8 (by simp)))).mpr
      oneSequenceId

/-- A group whose only inbox is a member under two spellings cannot be migrated: whatever its sender
sends, the receivers that iterate the members in another order refuse it. -/
theorem honestBootstrap_two_spellings :
    synthesizeInitialComponentValuesFromExtensions BootstrapSample.host BootstrapSample.inOrder
        BootstrapSample.lookup (BootstrapSample.groupOf 7) = .ok (BootstrapSample.valuesOf 7) ∧
      ¬HonestBootstrap BootstrapSample.host (BootstrapSample.groupOf 7) BootstrapSample.gmm
        BootstrapSample.registry
        (BootstrapSample.membership [(BootstrapSample.creator, 1), (BootstrapSample.spelled, 2)])
        (BootstrapSample.valuesOf 7) := by
  have hvalues := @eq_ok_of_isOk _ _ _ TlsMap.new (BootstrapSample.isOk_values 7 (by simp))
  refine ⟨hvalues, fun h => ?_⟩
  obtain ⟨_, _, _, legacy, _, _, _, _, hcanonical, hsent⟩ := exists_sent hvalues
  cases hcanonical.readsMembership
  have hone := hsent.oneSequenceId hcanonical (BootstrapSample.inOrder.iterate_perm _)
    BootstrapSample.decodeEntry_encodeEntry h.accepted
  have hsame := hone (BootstrapSample.creator, 1) (by decide +kernel) (BootstrapSample.spelled, 2)
    (by decide +kernel) ⟨List.replicate 32 0xAA, rfl⟩ (by decide +kernel) (by decide +kernel)
  exact absurd hsame (by decide)

end LibXmtp.AppData
