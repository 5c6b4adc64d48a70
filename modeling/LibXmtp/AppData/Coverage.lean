import LibXmtp.AppData.ComponentSource
import LibXmtp.AppData.StoredCollections

namespace LibXmtp.AppData

open LibXmtp.Data LibXmtp.Groups

def SingleCovered (prior : Option Bytes) (bytes : Bytes)
    (changes : List ExpandedComponentChange) : Prop :=
  prior ≠ some bytes → ⟨.update, some bytes⟩ ∈ changes

section Set

variable {K : Type} [LinearOrder K] {wire : Wire} {k : TlsCodec K} {toBytes : K → Bytes}
  {prior : Option Bytes} {payload bytes : Bytes} {changes : List ExpandedComponentChange}

/-- What is in the set now and was not is inserted, and what was and is not is deleted. -/
def SetCovered (wire : Wire) (k : TlsCodec K) (toBytes : K → Bytes) (prior : Option Bytes)
    (bytes : Bytes) (changes : List ExpandedComponentChange) : Prop :=
  ∃ old new, readSet wire k prior = .ok old ∧ readSet wire k (some bytes) = .ok new ∧
    (∀ key ∈ new.iter, key ∉ old.iter → ⟨.insert, some (toBytes key)⟩ ∈ changes) ∧
    ∀ key ∈ old.iter, key ∉ new.iter → ⟨.delete, some (toBytes key)⟩ ∈ changes

theorem expandIndex_eq {delta : TlsSetDelta K} {set : TlsSet K}
    {index index' : HashMap TlsKeyHash K} (hset : readSet wire k (some bytes) = .ok set)
    (happly : TlsSet.deltaIndex ⟨wire.sha256, k⟩ set delta = .ok index)
    (hexpand : expandIndex wire k delta (some bytes) = .ok index') : index' = index := by
  rw [TlsSet.deltaIndex] at happly
  rw [expandIndex] at hexpand
  rw [readSet, mapError_eq_ok] at hset
  split at happly
  · rename_i hhash
    rw [if_pos hhash] at hexpand
    simp only [hset, Except.mapError, ok_bind] at hexpand
    rw [happly, Except.ok.injEq] at hexpand
    exact hexpand.symm
  · rename_i hhash
    rw [if_neg hhash] at hexpand
    rw [Except.ok.injEq] at happly hexpand
    rw [← happly, ← hexpand]

theorem setCovered (hk : k.Lawful) (hpos : k.Positive)
    (happly : applySetDelta wire k payload prior = .ok bytes)
    (hexpand : expandSetChanges wire k toBytes (.update payload) prior = .ok changes) :
    SetCovered wire k toBytes prior bytes changes := by
  obtain ⟨delta, hdelta, old, hold, new, hnew, hbytes⟩ := applySetDelta_eq_ok.mp happly
  obtain ⟨index, hindex, hsteps⟩ := TlsSet.steps_of_applyDelta hnew
  simp only [expandSetChanges, hdelta, Except.mapError, ok_bind, bind_eq_ok, pure_eq_ok] at hexpand
  obtain ⟨index', hindex', hchanges⟩ := hexpand
  subst hchanges
  refine ⟨old, new, hold, readSet_serialize hk hpos hbytes, ?_, ?_⟩
  · intro key hkey hnot
    rw [TlsSet.mem_iter] at hkey hnot
    have hinsert := TlsSet.insert_of_steps hsteps hnot hkey
    exact List.mem_map.mpr ⟨_, hinsert, rfl⟩
  · intro key hkey hnot
    have hprior : ∃ stored, prior = some stored := by
      cases prior with
      | none =>
        cases hold
        cases hkey
      | some stored => exact ⟨stored, rfl⟩
    obtain ⟨stored, hstored⟩ := hprior
    subst hstored
    have heq := expandIndex_eq hold hindex hindex'
    subst heq
    rw [TlsSet.mem_iter] at hkey hnot
    obtain ⟨mutation, hmutation, hremoves⟩ := TlsSet.removes_of_steps hsteps hkey hnot
    refine List.mem_map.mpr ⟨mutation, hmutation, ?_⟩
    cases mutation with
    | insert k => cases hremoves
    | remove k =>
      cases hremoves
      rfl
    | removeByHash hash =>
      change index'.get hash = some key at hremoves
      rw [expandSetMutation, hremoves]
      rfl

end Set

section Map

variable {K : Type} [LinearOrder K] {wire : Wire} {k : TlsCodec K} {prior : Option Bytes}
  {payload bytes : Bytes} {delta : TlsMapDelta K Bytes} {changes : List ExpandedComponentChange}

def Mutates (key : K) : TlsMapMutation K Bytes → Prop
  | .insert key' _ => key' = key
  | .update key' _ => key' = key
  | .delete key' => key' = key

def ChangesKey (k : TlsCodec K) (delta : TlsMapDelta K Bytes)
    (changes : List ExpandedComponentChange) (op : ComponentOp) (key : K) : Prop :=
  ∃ mutation ∈ delta.mutations, Mutates key mutation ∧
    ∃ change ∈ changes, expandMapMutation k mutation = .ok change ∧ change.op = op

/-- A new key is inserted, a key that is gone is deleted, and a key whose value is another is
updated, or deleted and inserted. -/
def MapCovered (wire : Wire) (k : TlsCodec K) (payload : Bytes) (prior : Option Bytes)
    (bytes : Bytes) (changes : List ExpandedComponentChange) : Prop :=
  ∃ delta old new, decodeMapDelta wire k payload = .ok delta ∧ readMap wire k prior = .ok old ∧
    readMap wire k (some bytes) = .ok new ∧
    (∀ key, old.get key = none → new.get key ≠ none → ChangesKey k delta changes .insert key) ∧
    (∀ key value value', old.get key = some value → new.get key = some value' → value ≠ value' →
      ChangesKey k delta changes .update key ∨
        ChangesKey k delta changes .delete key ∧ ChangesKey k delta changes .insert key) ∧
    ∀ key, old.get key ≠ none → new.get key = none → ChangesKey k delta changes .delete key

def mutationOp : TlsMapMutation K Bytes → ComponentOp
  | .insert _ _ => .insert
  | .update _ _ => .update
  | .delete _ => .delete

omit [LinearOrder K] in
theorem changesKey_of_mem {key : K} {mutation : TlsMapMutation K Bytes}
    (hchanges : expandDecodedTlsMapDelta k delta = .ok changes)
    (hmutation : mutation ∈ delta.mutations) (hkey : Mutates key mutation) :
    ChangesKey k delta changes (mutationOp mutation) key := by
  obtain ⟨change, hchange, hexpand⟩ := exists_of_mapM_mem hchanges hmutation
  refine ⟨mutation, hmutation, hkey, change, hchange, hexpand, ?_⟩
  cases mutation with
  | insert key' value =>
    cases hexpand
    rfl
  | update key' value =>
    cases hexpand
    rfl
  | delete key' =>
    simp only [expandMapMutation, bind_eq_ok, pure_eq_ok] at hexpand
    obtain ⟨_, _, heq⟩ := hexpand
    rw [← heq]
    rfl

theorem mapCovered (hk : k.Lawful) (hpos : k.Positive)
    (hdelta : decodeMapDelta wire k payload = .ok delta)
    (happly : applyDecodedMapDelta wire k delta prior = .ok bytes)
    (hchanges : expandDecodedTlsMapDelta k delta = .ok changes) :
    MapCovered wire k payload prior bytes changes := by
  have ⟨old, hold, new, hsteps, hbytes⟩ := applyDecodedMapDelta_eq_ok.mp happly
  refine ⟨delta, old, new, hdelta, hold, readMap_serialize hk hpos hbytes, ?_, ?_, ?_⟩
  · intro key hnone hsome
    have ⟨_, hinsert⟩ := TlsMap.insert_of_steps hsteps hnone hsome
    exact changesKey_of_mem hchanges hinsert rfl
  · intro key value value' hvalue hvalue' hne
    rcases TlsMap.change_of_steps hsteps hvalue hvalue' hne with ⟨_, hupdate⟩ |
      ⟨hdelete, _, hinsert⟩
    · exact .inl (changesKey_of_mem hchanges hupdate rfl)
    · exact .inr ⟨changesKey_of_mem hchanges hdelete rfl, changesKey_of_mem hchanges hinsert rfl⟩
  · intro key hsome hnone
    exact changesKey_of_mem hchanges (TlsMap.delete_of_steps hsteps hsome hnone) rfl

theorem tlsMapCovered (hk : k.Lawful) (hpos : k.Positive)
    (happly : applyTlsMapDelta wire k payload prior = .ok bytes)
    (hchanges : expandTlsMapChanges wire k (.update payload) = .ok changes) :
    MapCovered wire k payload prior bytes changes := by
  simp only [applyTlsMapDelta, bind_eq_ok] at happly
  obtain ⟨delta, hdelta, happly⟩ := happly
  simp only [expandTlsMapChanges, hdelta, ok_bind] at hchanges
  exact mapCovered hk hpos hdelta happly hchanges

end Map

/-- An update of a component is covered as the content of its type asks. The registry is a map of
component ids. -/
def Covered (wire : Wire) (id : UInt16) (ty : ComponentType) (payload : Bytes)
    (prior : Option Bytes) (bytes : Bytes) (changes : List ExpandedComponentChange) : Prop :=
  match ty with
  | .bytes => SingleCovered prior bytes changes
  | .string => SingleCovered prior bytes changes
  | .tlsSetInboxId => SetCovered wire (InboxId.codec wire.vlen) InboxId.bytes prior bytes changes
  | .tlsSetBytes => SetCovered wire wire.vlen.bytes (fun key => key) prior bytes changes
  | .tlsMapInboxIdBytes => MapCovered wire (InboxId.codec wire.vlen) payload prior bytes changes
  | .tlsMapBytesBytes =>
    if id = ComponentId.componentRegistry then
      MapCovered wire (componentIdCodec wire.vlen) payload prior bytes changes
    else MapCovered wire wire.vlen.bytes payload prior bytes changes
  | .unspecified => False

section

variable {host : Host} {wire : Wire} {id : UInt16} {registry : ComponentRegistry}
  {component : ErasedComponent} {ty : ComponentType} {payload bytes : Bytes}
  {prior : Option Bytes} {changes : List ExpandedComponentChange}

theorem covered_of_type (hid : id ≠ ComponentId.componentRegistry)
    (happly : applyUpdatePayloadForType wire id ty payload prior = .ok bytes)
    (hexpand : expandToChangesForType wire id ty (.update payload) prior = .ok changes) :
    Covered wire id ty payload prior bytes changes := by
  simp only [applyUpdatePayloadForType, mapError_eq_ok] at happly
  simp only [expandToChangesForType, mapError_eq_ok] at hexpand
  cases ty with
  | unspecified => cases happly
  | bytes =>
    cases happly
    cases hexpand
    exact fun _ => List.mem_cons_self
  | string =>
    simp only [bind_eq_ok] at happly hexpand
    obtain ⟨_, _, happly⟩ := happly
    obtain ⟨_, _, hexpand⟩ := hexpand
    cases happly
    cases hexpand
    exact fun _ => List.mem_cons_self
  | tlsSetInboxId =>
    exact setCovered (InboxId.codec_lawful _) (InboxId.codec_positive _) happly hexpand
  | tlsSetBytes => exact setCovered Vlen.bytes_lawful Vlen.bytes_positive happly hexpand
  | tlsMapInboxIdBytes =>
    exact tlsMapCovered (InboxId.codec_lawful _) (InboxId.codec_positive _) happly hexpand
  | tlsMapBytesBytes =>
    rw [Covered, if_neg hid]
    exact tlsMapCovered Vlen.bytes_lawful Vlen.bytes_positive happly hexpand

theorem covered_of_registry
    (happly : (componentRegistryComponent wire).applyUpdatePayload payload prior = .ok bytes)
    (hexpand : (componentRegistryComponent wire).expandToChanges (.update payload) prior =
      .ok changes) :
    Covered wire ComponentId.componentRegistry .tlsMapBytesBytes payload prior bytes changes := by
  simp only [componentRegistryComponent, bind_eq_ok] at happly hexpand
  obtain ⟨delta, hdelta, _, _, happly⟩ := happly
  obtain ⟨delta', hdelta', _, _, hexpand⟩ := hexpand
  rw [hdelta, Except.ok.injEq] at hdelta'
  subst hdelta'
  exact mapCovered (componentIdCodec_lawful _) (componentIdCodec_positive _) hdelta happly hexpand

theorem covered_of_wellKnown (hmem : component ∈ wellKnown wire)
    (happly : component.applyUpdatePayload payload prior = .ok bytes)
    (hexpand : component.expandToChanges (.update payload) prior = .ok changes) :
    Covered wire component.id component.componentType payload prior bytes changes := by
  have hset (id : UInt16) (hid : id ≠ ComponentId.componentRegistry)
      (happly : (inboxIdSetComponent wire id).applyUpdatePayload payload prior = .ok bytes)
      (hexpand : (inboxIdSetComponent wire id).expandToChanges (.update payload) prior =
        .ok changes) : Covered wire id .tlsSetInboxId payload prior bytes changes :=
    covered_of_type hid (mapError_eq_ok.mpr happly) (mapError_eq_ok.mpr hexpand)
  have hstring (id : UInt16) (hid : id ≠ ComponentId.componentRegistry)
      (happly : (passthroughStringComponent id).applyUpdatePayload payload prior = .ok bytes)
      (hexpand : (passthroughStringComponent id).expandToChanges (.update payload) prior =
        .ok changes) : Covered wire id .string payload prior bytes changes :=
    covered_of_type hid (mapError_eq_ok.mpr happly) (mapError_eq_ok.mpr hexpand)
  have hnumber (id : UInt16)
      (happly : (beI64Component id).applyUpdatePayload payload prior = .ok bytes)
      (hexpand : (beI64Component id).expandToChanges (.update payload) prior = .ok changes) :
      Covered wire id .bytes payload prior bytes changes := by
    simp only [beI64Component, bind_eq_ok, pure_eq_ok] at happly hexpand
    obtain ⟨_, _, hbytes⟩ := happly
    obtain ⟨_, _, hchanges⟩ := hexpand
    subst hbytes hchanges
    exact fun _ => List.mem_cons_self
  simp only [wellKnown, List.mem_cons, List.not_mem_nil, or_false] at hmem
  rcases hmem with h | h | h | h | h | h | h | h | h | h | h | h | h <;> subst h
  · exact covered_of_registry happly hexpand
  · exact hset ComponentId.superAdminList (by decide) happly hexpand
  · exact hset ComponentId.adminList (by decide) happly hexpand
  · have hid : ComponentId.groupMembership ≠ ComponentId.componentRegistry := by decide
    exact covered_of_type hid (mapError_eq_ok.mpr happly) (mapError_eq_ok.mpr hexpand)
  · exact hstring _ (by decide) happly hexpand
  · exact hstring _ (by decide) happly hexpand
  · exact hstring _ (by decide) happly hexpand
  · exact hnumber _ happly hexpand
  · exact hnumber _ happly hexpand
  · exact hstring _ (by decide) happly hexpand
  · exact hstring _ (by decide) happly hexpand
  · simp only [commitLogSignerComponent, bind_eq_ok, pure_eq_ok] at happly hexpand
    obtain ⟨_, _, hbytes⟩ := happly
    obtain ⟨_, _, hchanges⟩ := hexpand
    subst hbytes hchanges
    exact fun _ => List.mem_cons_self
  · exact hset ComponentId.dmMembers (by decide) happly hexpand

def contentType (host : Host) (id : UInt16) (registry : ComponentRegistry) :
    Except ComponentSourceError ComponentType :=
  match lookupComponent host id with
  | some component => .ok component.componentType
  | none => dispatchType host id registry

/-- The host has no component of its own for the id: it is a known one, or handled by its type. -/
def KnownOrTyped (host : Host) (id : UInt16) : Prop :=
  ComponentId.isAppRange id = true → host.lookupRuntimeComponent id = none

theorem mem_wellKnown_of_lookup (hknown : KnownOrTyped host id)
    (h : lookupComponent host id = some component) :
    component ∈ wellKnown host.toWire ∧ component.id = id := by
  by_cases hrange : ComponentId.isXmtpRange id = true
  · exact (lookupComponent_eq_some_iff hrange).mp h
  · rw [lookupComponent, if_neg hrange] at h
    split at h
    · rename_i happ
      rw [hknown happ] at h
      cases h
    · cases h

theorem lookup_componentRegistry (host : Host) :
    lookupComponent host ComponentId.componentRegistry =
      some (componentRegistryComponent host.toWire) := by
  have hmem : componentRegistryComponent host.toWire ∈ wellKnown host.toWire := by simp [wellKnown]
  exact lookupComponent_of_mem hmem

/-- The policies an update is judged by are those of what it does to the content of its component.
A value that is set as a whole counts as updated, also where there was none before. -/
theorem update_covered (hknown : KnownOrTyped host id)
    (hexpand : expandAppDataUpdateToChanges host id registry (.update payload) prior = .ok changes)
    (happly : applyAppDataUpdatePayload host id registry payload prior = .ok bytes) :
    ∃ ty, contentType host id registry = .ok ty ∧
      Covered host.toWire id ty payload prior bytes changes := by
  rw [contentType]
  cases hcomponent : lookupComponent host id with
  | some component =>
    have ⟨hmem, hid⟩ := mem_wellKnown_of_lookup hknown hcomponent
    rw [expandAppDataUpdateToChanges_eq hcomponent, mapError_eq_ok] at hexpand
    have ⟨_, happly⟩ := (applyAppDataUpdatePayload_eq_ok hcomponent).mp happly
    refine ⟨component.componentType, rfl, ?_⟩
    rw [← hid]
    exact covered_of_wellKnown hmem happly hexpand
  | none =>
    have hid : id ≠ ComponentId.componentRegistry := by
      intro heq
      rw [heq, lookup_componentRegistry] at hcomponent
      cases hcomponent
    simp only [expandAppDataUpdateToChanges, hcomponent, bind_eq_ok, mapError_eq_ok] at hexpand
    simp only [applyAppDataUpdatePayload, hcomponent, bind_eq_ok, mapError_eq_ok] at happly
    have ⟨ty, hty, hexpand⟩ := hexpand
    have ⟨_, _, ty', hty', happly⟩ := happly
    rw [hty, Except.ok.injEq] at hty'
    subst hty'
    exact ⟨ty, hty, covered_of_type hid happly hexpand⟩

theorem update_covered_swap :
    ∃ ty, contentType bareHost ComponentId.adminList .new = .ok ty ∧
      Covered bareHost.toWire ComponentId.adminList ty
        ([0x40, 68, 0, 0] ++ List.replicate 32 2 ++ [1, 0] ++ List.replicate 32 1)
        (some ([33, 0] ++ List.replicate 32 1)) ([33, 0] ++ List.replicate 32 2)
        [⟨.insert, some (List.replicate 32 2)⟩, ⟨.delete, some (List.replicate 32 1)⟩] :=
  update_covered (fun _ => rfl) rfl rfl

/-- A first name is set by an update alone. -/
theorem update_not_inserted :
    ComponentId.isImmutable ComponentId.groupName = false ∧
      expandAppDataUpdateToChanges bareHost ComponentId.groupName .new (.update [0x68, 0x69]) none =
        .ok [⟨.update, some [0x68, 0x69]⟩] ∧
      applyAppDataUpdatePayload bareHost ComponentId.groupName .new [0x68, 0x69] none =
        .ok [0x68, 0x69] ∧
      ∀ change ∈ [(⟨.update, some [0x68, 0x69]⟩ : ExpandedComponentChange)],
        change.op ≠ .insert :=
  ⟨by decide, rfl, rfl, by decide⟩

end

end LibXmtp.AppData
