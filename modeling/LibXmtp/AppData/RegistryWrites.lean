import LibXmtp.AppData.Components
import LibXmtp.AppData.StoredCollections

namespace LibXmtp.AppData

open LibXmtp.Data LibXmtp.Groups

namespace ComponentRegistry

structure Settable (id : UInt16) (metadata : Proto.ComponentMetadata) : Prop where
  inSpace : ComponentId.isInComponentSpace id = true
  notReserved : ComponentId.isReserved id = false
  notHardcoded : ComponentId.isHardcoded id = false
  policies : ∃ permissions insertPolicy updatePolicy deletePolicy,
    metadata.permissions = some permissions ∧ permissions.insertPolicy = some insertPolicy ∧
    permissions.updatePolicy = some updatePolicy ∧ permissions.deletePolicy = some deletePolicy ∧
    (ComponentId.isConstrained id = true → isAdminOrSuperAdminPolicy insertPolicy = true ∧
      isAdminOrSuperAdminPolicy updatePolicy = true ∧ isAdminOrSuperAdminPolicy deletePolicy = true)

section Checks

variable {wire : Wire} {id : UInt16} {metadata : Proto.ComponentMetadata} {raw : Bytes}

theorem validateId_eq_ok : validateId id = .ok () ↔
    ComponentId.isInComponentSpace id = true ∧ ComponentId.isReserved id = false ∧
      ComponentId.isHardcoded id = false := by
  simp [validateId]

theorem validatePolicyField_eq_ok {op : ComponentOp} {policy : Option Proto.Policy} :
    validatePolicyField id op policy = .ok () ↔ ∃ p, policy = some p ∧
      (ComponentId.isConstrained id = true → isAdminOrSuperAdminPolicy p = true) := by
  simp [validatePolicyField]

theorem validateMetadata_eq_ok : validateMetadata id metadata = .ok () ↔
    ∃ permissions, metadata.permissions = some permissions ∧
      validatePolicyField id .insert permissions.insertPolicy = .ok () ∧
      validatePolicyField id .update permissions.updatePolicy = .ok () ∧
      validatePolicyField id .delete permissions.deletePolicy = .ok () := by
  simp [validateMetadata, exists_unit_eq_ok]

theorem settable_iff : Settable id metadata ↔
    validateId id = .ok () ∧ validateMetadata id metadata = .ok () := by
  rw [validateId_eq_ok, validateMetadata_eq_ok]
  simp only [validatePolicyField_eq_ok]
  constructor
  · intro ⟨hspace, hreserved, hhardcoded, permissions, i, u, d, hp, hi, hu, hd, hc⟩
    exact ⟨⟨hspace, hreserved, hhardcoded⟩, permissions, hp, ⟨i, hi, fun h => (hc h).1⟩,
      ⟨u, hu, fun h => (hc h).2.1⟩, ⟨d, hd, fun h => (hc h).2.2⟩⟩
  · intro ⟨⟨hspace, hreserved, hhardcoded⟩, permissions, hp, ⟨i, hi, hic⟩, ⟨u, hu, huc⟩,
      ⟨d, hd, hdc⟩⟩
    exact ⟨hspace, hreserved, hhardcoded, permissions, i, u, d, hp, hi, hu, hd,
      fun h => ⟨hic h, huc h, hdc h⟩⟩

theorem decodeRecognized_eq_ok : decodeRecognized wire id raw = .ok metadata ↔
    wire.decodeMetadata raw = .ok metadata ∧ Settable id metadata := by
  simp only [decodeRecognized, bind_eq_ok, mapError_eq_ok, pure_eq_ok, settable_iff]
  constructor
  · rintro ⟨_, hid, m, hm, _, hvalid, heq⟩
    subst heq
    exact ⟨hm, hid, hvalid⟩
  · rintro ⟨hm, hid, hvalid⟩
    exact ⟨⟨⟩, hid, metadata, hm, ⟨⟩, hvalid, rfl⟩

theorem validateEntry_eq_ok : validateEntry wire id raw = .ok () ↔
    ∃ metadata, decodeRecognized wire id raw = .ok metadata := by
  simp [validateEntry]

theorem set_new_eq_ok :
    (∃ registry, new.set wire id metadata = .ok registry) ↔ Settable id metadata := by
  have hcontains : new.contains wire id = false := rfl
  simp [set, validateModifiable, hcontains, settable_iff, exists_unit_eq_ok]

end Checks

section Partition

variable {wire : Wire} {registry : ComponentRegistry}

theorem toBytes_iff {bytes : Bytes} (h : fromBytes wire bytes = .ok registry) :
    registry.toBytes wire = .ok bytes ↔ wire.vlen.StatesLength bytes := by
  simp only [fromBytes, bind_eq_ok, mapError_eq_ok, pure_eq_ok] at h
  obtain ⟨inner, hinner, heq⟩ := h
  subst heq
  rw [toBytes, mapError_eq_ok]
  exact TlsMap.serialize_iff (componentIdCodec_lawful _) Vlen.bytes_lawful hinner

def recognizedIds (wire : Wire) (registry : ComponentRegistry) : List UInt16 :=
  (registry.iter wire).map Prod.fst

theorem recognizedIds_eq : registry.recognizedIds wire =
    (registry.inner.iter.filter fun p => (decodeRecognized wire p.1 p.2).isOk).map Prod.fst := by
  rw [recognizedIds, iter]
  induction registry.inner.iter with
  | nil => rfl
  | cons p entries ih =>
    rw [List.filterMap_cons, List.filter_cons]
    cases h : decodeRecognized wire p.1 p.2 <;>
      simp [h, toOption_ok, toOption_error, isOk_ok, isOk_error, ih]

theorem unrecognizedIds_eq : registry.unrecognizedIds wire =
    (registry.inner.iter.filter fun p => !(decodeRecognized wire p.1 p.2).isOk).map Prod.fst := by
  rw [unrecognizedIds]
  induction registry.inner.iter with
  | nil => rfl
  | cons p entries ih =>
    rw [List.filterMap_cons, List.filter_cons]
    cases h : decodeRecognized wire p.1 p.2 <;> simp [h, isOk_ok, isOk_error, ih]

theorem keys_eq (registry : ComponentRegistry) :
    registry.inner.keys = registry.inner.iter.map Prod.fst := by
  simp [TlsMap.keys, TlsMap.iter]

theorem recognizedIds_append_unrecognizedIds (registry : ComponentRegistry) :
    (registry.recognizedIds wire ++ registry.unrecognizedIds wire).Perm registry.inner.keys := by
  rw [recognizedIds_eq, unrecognizedIds_eq, keys_eq, ← List.map_append]
  apply List.Perm.map
  exact List.filter_append_perm _ _

theorem nodup_keys (registry : ComponentRegistry) : registry.inner.keys.Nodup := by
  rw [TlsMap.keys]
  apply (TlsMap.pairwise_iff_map.mp registry.inner.sorted).imp
  intro a b hab
  exact hab.ne

end Partition

section Write

variable {wire : Wire} {value value' : Option Bytes} {payload : Bytes} {id : UInt16} {raw : Bytes}

def write (wire : Wire) (value : Option Bytes) (payload : Bytes) :
    Except ComponentTypedError (Option Bytes) :=
  some <$> (componentRegistryComponent wire).applyUpdatePayload payload value

abbrev stored (wire : Wire) (value : Option Bytes) :
    Except ComponentTypedError (TlsMap UInt16 Bytes) :=
  readMap wire (componentIdCodec wire.vlen) value

theorem fromBytes_eq_ok {bytes : Bytes} {registry : ComponentRegistry} :
    fromBytes wire bytes = .ok registry ↔ stored wire (some bytes) = .ok registry.inner := by
  simp only [fromBytes, bind_eq_ok, mapError_eq_ok, pure_eq_ok, stored, readMap]
  constructor
  · intro ⟨inner, hinner, heq⟩
    subst heq
    exact hinner
  · intro h
    exact ⟨registry.inner, h, rfl⟩

theorem write_eq_ok (h : write wire value payload = .ok value') :
    ∃ mutations map map',
      (∀ mutation ∈ mutations, validateRegistryMutation wire mutation = .ok ()) ∧
      stored wire value = .ok map ∧ Steps TlsMap.mutate map mutations map' ∧
      ∃ bytes, value' = some bytes ∧ (codec wire).serialize map' = .ok bytes := by
  rw [write, map_eq_ok] at h
  obtain ⟨bytes, happly, hvalue'⟩ := h
  subst hvalue'
  simp only [componentRegistryComponent, bind_eq_ok] at happly
  obtain ⟨delta, _, _, hvalid, happly⟩ := happly
  obtain ⟨map, hmap, map', hsteps, hbytes⟩ := applyDecodedMapDelta_eq_ok.mp happly
  rw [validateRegistryDelta, mapError_eq_ok, forM_eq_ok] at hvalid
  exact ⟨delta.mutations, map, map', hvalid, hmap, hsteps, bytes, rfl, hbytes⟩

theorem stored_of_serialize {map : TlsMap UInt16 Bytes} {bytes : Bytes}
    (h : (codec wire).serialize map = .ok bytes) : stored wire (some bytes) = .ok map :=
  readMap_serialize (componentIdCodec_lawful _) (componentIdCodec_positive _) h

theorem get_of_mutate {map map' : TlsMap UInt16 Bytes} {mutation : TlsMapMutation UInt16 Bytes}
    (hvalid : validateRegistryMutation wire mutation = .ok ())
    (h : map.mutate mutation = .ok map') (hget : map'.get id = some raw) :
    validateEntry wire id raw = .ok () ∨ map.get id = some raw := by
  cases mutation with
  | insert key value =>
    obtain ⟨_, hset⟩ := TlsMap.mutate_insert.mp h
    subst hset
    rw [TlsMap.get_set] at hget
    split at hget
    · rename_i hid
      cases hget
      rw [hid]
      exact .inl hvalid
    · exact .inr hget
  | update key value =>
    obtain ⟨_, hset⟩ := TlsMap.mutate_update.mp h
    subst hset
    simp only [validateRegistryMutation, bind_eq_ok] at hvalid
    obtain ⟨_, hentry, _⟩ := hvalid
    rw [TlsMap.get_set] at hget
    split at hget
    · rename_i hid
      cases hget
      rw [hid]
      exact .inl hentry
    · exact .inr hget
  | delete key =>
    obtain ⟨_, herase⟩ := TlsMap.mutate_delete.mp h
    subst herase
    rw [TlsMap.get_erase] at hget
    split at hget
    · cases hget
    · exact .inr hget

theorem immutable_of_mutate (hid : ComponentId.isImmutable id = true)
    {map map' : TlsMap UInt16 Bytes} {mutation : TlsMapMutation UInt16 Bytes}
    (hvalid : validateRegistryMutation wire mutation = .ok ())
    (h : map.mutate mutation = .ok map') (hget : map.get id = some raw) :
    map'.get id = some raw := by
  cases mutation with
  | insert key value =>
    obtain ⟨hnone, hset⟩ := TlsMap.mutate_insert.mp h
    have hne : id ≠ key := by
      intro heq
      rw [← heq, hget] at hnone
      cases hnone
    rw [← hset, TlsMap.get_set, if_neg hne, hget]
  | update key value =>
    obtain ⟨_, hset⟩ := TlsMap.mutate_update.mp h
    simp only [validateRegistryMutation, bind_eq_ok, rejectIf_eq_ok] at hvalid
    obtain ⟨_, _, hkey⟩ := hvalid
    have hne : id ≠ key := by
      intro heq
      rw [← heq, hid] at hkey
      cases hkey
    rw [← hset, TlsMap.get_set, if_neg hne, hget]
  | delete key =>
    obtain ⟨_, herase⟩ := TlsMap.mutate_delete.mp h
    simp only [validateRegistryMutation, bind_eq_ok, rejectIf_eq_ok] at hvalid
    obtain ⟨_, _, hkey⟩ := hvalid
    have hne : id ≠ key := by
      intro heq
      rw [← heq, hid] at hkey
      cases hkey
    rw [← herase, TlsMap.get_erase, if_neg hne, hget]

def Checked (wire : Wire) (value : Option Bytes) : Prop :=
  ∃ map, stored wire value = .ok map ∧
    (∀ bytes, value = some bytes → (codec wire).serialize map = .ok bytes) ∧
    ∀ id raw, map.get id = some raw → validateEntry wire id raw = .ok ()

theorem checked_of_write (h : write wire value payload = .ok value')
    (hchecked : Checked wire value) : Checked wire value' := by
  have ⟨mutations, map, map', hvalid, hmap, hsteps, bytes, hvalue', hbytes⟩ := write_eq_ok h
  have ⟨before, hbefore, _, hentries⟩ := hchecked
  rw [hmap, Except.ok.injEq] at hbefore
  subst hbefore hvalue'
  refine ⟨map', stored_of_serialize hbytes, ?_, ?_⟩
  · intro bytes' hbytes'
    cases hbytes'
    exact hbytes
  apply hsteps.invariant (P := fun map => ∀ id raw, map.get id = some raw →
    validateEntry wire id raw = .ok ()) hentries
  intro map mutation map' hmutation hentries hmutate id raw hget
  cases get_of_mutate (hvalid mutation hmutation) hmutate hget with
  | inl hnew => exact hnew
  | inr hold => exact hentries id raw hold

theorem immutable_of_write (hid : ComponentId.isImmutable id = true)
    (h : write wire value payload = .ok value')
    (hget : ∃ map, stored wire value = .ok map ∧ map.get id = some raw) :
    ∃ map, stored wire value' = .ok map ∧ map.get id = some raw := by
  have ⟨mutations, map, map', hvalid, hmap, hsteps, bytes, hvalue', hbytes⟩ := write_eq_ok h
  have ⟨before, hbefore, hbeforeGet⟩ := hget
  rw [hmap, Except.ok.injEq] at hbefore
  subst hbefore hvalue'
  refine ⟨map', stored_of_serialize hbytes, ?_⟩
  apply hsteps.invariant (P := fun map => map.get id = some raw) hbeforeGet
  intro map mutation map' hmutation hget hmutate
  exact immutable_of_mutate hid (hvalid mutation hmutation) hmutate hget

structure Recognized (wire : Wire) (registry : ComponentRegistry) (id : UInt16) (raw : Bytes) :
    Prop where
  get : ∃ metadata, registry.get wire id = some metadata ∧
    wire.decodeMetadata raw = .ok metadata ∧ Settable id metadata ∧
    ∃ registry', new.set wire id metadata = .ok registry'

theorem recognized_of_validateEntry {registry : ComponentRegistry}
    (hget : registry.inner.get id = some raw) (h : validateEntry wire id raw = .ok ()) :
    Recognized wire registry id raw := by
  have ⟨metadata, hmetadata⟩ := validateEntry_eq_ok.mp h
  have ⟨hdecode, hsettable⟩ := decodeRecognized_eq_ok.mp hmetadata
  refine ⟨metadata, ?_, hdecode, hsettable, set_new_eq_ok.mpr hsettable⟩
  simp [ComponentRegistry.get, hget, hmetadata, toOption_ok]

/-- What accepted writes store are entries that could be set, and those of immutable ids stay. What
is read is written back byte for byte if it states its length, whatever of it is recognized. -/
theorem registry_writes (wire : Wire) :
    (∀ payloads bytes, Steps (write wire) none payloads (some bytes) →
      ∃ registry, fromBytes wire bytes = .ok registry ∧ registry.toBytes wire = .ok bytes ∧
        (∀ id raw, registry.inner.get id = some raw → Recognized wire registry id raw) ∧
        ∀ later bytes', Steps (write wire) (some bytes) later (some bytes') →
          ∃ registry', fromBytes wire bytes' = .ok registry' ∧
            ∀ id raw, ComponentId.isImmutable id = true → registry.inner.get id = some raw →
              registry'.inner.get id = some raw) ∧
    ∀ bytes registry, fromBytes wire bytes = .ok registry →
      (registry.toBytes wire = .ok bytes ↔ wire.vlen.StatesLength bytes) ∧
      (registry.recognizedIds wire ++ registry.unrecognizedIds wire).Perm registry.inner.keys ∧
      (registry.recognizedIds wire ++ registry.unrecognizedIds wire).Nodup := by
  have hread : ∀ payloads value, Steps (write wire) none payloads value → Checked wire value := by
    intro payloads value h
    apply h.invariant (P := Checked wire)
    · exact ⟨TlsMap.new, rfl, nofun, nofun⟩
    · intro value payload value' _ hchecked hwrite
      exact checked_of_write hwrite hchecked
  constructor
  · intro payloads bytes h
    have ⟨map, hmap, hwritten, hentries⟩ := hread payloads _ h
    have hregistry : fromBytes wire bytes = .ok ⟨map⟩ := fromBytes_eq_ok.mpr hmap
    have hbytes : toBytes wire ⟨map⟩ = .ok bytes := by
      rw [toBytes, mapError_eq_ok]
      exact hwritten bytes rfl
    refine ⟨⟨map⟩, hregistry, hbytes, ?_, ?_⟩
    · intro id raw hget
      exact recognized_of_validateEntry hget (hentries id raw hget)
    · intro later bytes' hlater
      have ⟨map', hmap', _⟩ := hread _ _ (h.append hlater)
      refine ⟨⟨map'⟩, fromBytes_eq_ok.mpr hmap', ?_⟩
      intro id raw hid hget
      have ⟨kept, hkept, hkeptGet⟩ := hlater.invariant
        (P := fun value => ∃ map, stored wire value = .ok map ∧ map.get id = some raw)
        ⟨map, hmap, hget⟩
        fun value payload value' _ hvalue hwrite => immutable_of_write hid hwrite hvalue
      rw [hmap', Except.ok.injEq] at hkept
      rw [hkept]
      exact hkeptGet
  · intro bytes registry h
    have hperm : (registry.recognizedIds wire ++ registry.unrecognizedIds wire).Perm
        registry.inner.keys := recognizedIds_append_unrecognizedIds registry
    exact ⟨toBytes_iff h, hperm, hperm.nodup_iff.mpr registry.nodup_keys⟩

def dmMembersEntry : Bytes :=
  [0x80, 0x00, 0xBF, 0xFD, 16, 0x08, 6, 0x12, 12, 0x0A, 2, 0x08, 1, 0x12, 2, 0x08, 2, 0x1A, 2, 0x08,
    2]

theorem registry_writes_dmMembers :
    (∃ registry, fromBytes bareHost.toWire (21 :: dmMembersEntry) = .ok registry ∧
      registry.toBytes bareHost.toWire = .ok (21 :: dmMembersEntry)) ∧
    ∃ registry, fromBytes bareHost.toWire (20 :: dmMembersEntry) = .ok registry ∧
      registry.toBytes bareHost.toWire ≠ .ok (20 :: dmMembersEntry) := by
  have ⟨hwrites, hreads⟩ := registry_writes bareHost.toWire
  have ⟨registry, hregistry, hbytes, _⟩ := hwrites [22 :: 0 :: dmMembersEntry]
    (21 :: dmMembersEntry) (.cons rfl .nil)
  refine ⟨⟨registry, hregistry, hbytes⟩, _, rfl, fun hsame => ?_⟩
  obtain ⟨n, consumed, rest, hread, hstates⟩ := (hreads _ _ rfl).1.mp hsame
  cases hread
  cases hstates

/-- The length is that of the entry but for its last byte, which is read all the same. -/
theorem registry_length_restated :
    ∃ registry, fromBytes bareHost.toWire (20 :: dmMembersEntry) = .ok registry ∧
      registry.toBytes bareHost.toWire = .ok (21 :: dmMembersEntry) :=
  ⟨_, rfl, rfl⟩

end Write

end ComponentRegistry

end LibXmtp.AppData
