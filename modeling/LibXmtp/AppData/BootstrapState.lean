import LibXmtp.AppData.Accumulate
import LibXmtp.AppData.BootstrapDictionary
import LibXmtp.AppData.BootstrapValidator

namespace LibXmtp.Groups

open LibXmtp.Data

def Extension.isLegacy : Extension → Bool
  | .immutableMetadata _ => true
  | .unknown id _ => id = mutableMetadataExtensionId ∨ id = groupPermissionsExtensionId ∨
      id = groupMembershipExtensionId
  | _ => false

def Extension.isCarried : Extension → Bool
  | .appDataDictionary _ => false
  | .requiredCapabilities _ => false
  | extension => !extension.isLegacy

namespace Extensions

variable {extensions : Extensions}

theorem findUnknownExtension_eq_none {extensionType : UInt16} :
    extensions.findUnknownExtension extensionType = none ↔
      ∀ bytes, Extension.unknown extensionType bytes ∉ extensions := by
  rw [findUnknownExtension, List.findSome?_eq_none_iff]
  constructor
  · intro h bytes hmem
    have hnone := h _ hmem
    simp at hnone
  · intro h extension hmem
    cases extension with
    | unknown id bytes =>
      rw [ite_eq_right_iff]
      rintro rfl
      exact absurd hmem (h bytes)
    | _ => rfl

theorem immutableMetadata_eq_none :
    extensions.immutableMetadata = none ↔
      ∀ metadata, Extension.immutableMetadata metadata ∉ extensions := by
  rw [immutableMetadata, List.findSome?_eq_none_iff]
  constructor
  · intro h metadata hmem
    have hnone := h _ hmem
    simp at hnone
  · intro h extension hmem
    cases extension with
    | immutableMetadata metadata => exact absurd hmem (h metadata)
    | _ => rfl

theorem isLegacy_of_mem (hshape : AppData.gceMatchesBootstrapShape extensions = true)
    {extension : Extension} (hmem : extension ∈ extensions) : extension.isLegacy = false := by
  simp only [AppData.gceMatchesBootstrapShape, Bool.and_eq_true, Option.isNone_iff_eq_none,
    findUnknownExtension_eq_none, immutableMetadata_eq_none] at hshape
  obtain ⟨⟨⟨hmutable, hpermissions⟩, hmembership⟩, himmutable⟩ := hshape
  cases extension with
  | immutableMetadata metadata => exact absurd hmem (himmutable metadata)
  | unknown id bytes =>
    rw [Extension.isLegacy, decide_eq_false_iff_not]
    rintro (rfl | rfl | rfl)
    · exact hmutable bytes hmem
    · exact hpermissions bytes hmem
    · exact hmembership bytes hmem
  | _ => rfl

theorem mem_addOrReplace_dictionary {dictionary : HashMap UInt16 Bytes} {extension : Extension}
    (hother : ∀ dictionary, extension ≠ .appDataDictionary dictionary) :
    extension ∈ extensions.addOrReplace (.appDataDictionary dictionary) ↔ extension ∈ extensions := by
  rw [addOrReplace, List.mem_append, List.mem_filter, List.mem_singleton]
  cases extension with
  | appDataDictionary dictionary => exact absurd rfl (hother dictionary)
  | _ => simp [Extension.sameType]

theorem appDataDictionary_addOrReplace (dictionary : HashMap UInt16 Bytes) :
    (extensions.addOrReplace (.appDataDictionary dictionary)).appDataDictionary =
      some dictionary := by
  have hnone : appDataDictionary
      (extensions.filter (!(Extension.appDataDictionary dictionary).sameType ·)) = none := by
    rw [appDataDictionary, List.findSome?_eq_none_iff]
    intro extension hmem
    cases extension with
    | appDataDictionary _ => simp [Extension.sameType] at hmem
    | _ => rfl
  rw [appDataDictionary] at hnone
  rw [appDataDictionary, addOrReplace, List.findSome?_append, hnone]
  rfl

end Extensions

end LibXmtp.Groups

namespace LibXmtp.AppData

open LibXmtp.Data LibXmtp.Groups LibXmtp.Data.KeyedFold

/-- What `openmls` makes of a group's extensions when it merges a commit whose proposals of app data
had these results. -/
structure CommitMerge where
  mergeCommit : StagedCommit → Extensions → Option AppDataUpdates → Extensions
  /-- A proposal of extensions puts its own in place of the group's, and the results go to the
  dictionary among those. -/
  read {commit : StagedCommit} {gce : Extensions} {updates : Option AppDataUpdates}
    (hgce : gceProposals commit = [gce])
    (hdistinct : ∀ results, updates = some results → (results.entries.map Prod.fst).Nodup)
    (extensions : Extensions) (id : UInt16) :
    readFromAppDataDict id (mergeCommit commit extensions updates) =
      (AppDataUpdates.value updates id).getD (readFromAppDataDict id gce)
  mem {commit : StagedCommit} {gce : Extensions} {extension : Extension}
    (hgce : gceProposals commit = [gce])
    (hother : ∀ dictionary, extension ≠ .appDataDictionary dictionary) (extensions : Extensions)
    (updates : Option AppDataUpdates) :
    extension ∈ mergeCommit commit extensions updates ↔ extension ∈ gce

namespace CommitMerge

def writeComponent (dictionary : HashMap UInt16 Bytes) (entry : UInt16 × Option Bytes) :
    HashMap UInt16 Bytes :=
  match entry.2 with
  | some bytes => dictionary.insert entry.1 bytes
  | none => dictionary.remove entry.1

def applyUpdates (extensions : Extensions) : Option AppDataUpdates → Extensions
  | none => extensions
  | some updates => extensions.addOrReplace (.appDataDictionary
      (updates.entries.foldl writeComponent (extensions.appDataDictionary.getD .empty)))

theorem get_foldl_writeComponent (entries : List (UInt16 × Option Bytes))
    (hdistinct : (entries.map Prod.fst).Nodup) (dictionary : HashMap UInt16 Bytes) (id : UInt16) :
    (entries.foldl writeComponent dictionary).get id =
      ((entries.find? (·.1 = id)).map Prod.snd).getD (dictionary.get id) := by
  induction entries generalizing dictionary with
  | nil => rfl
  | cons entry entries ih =>
    rw [List.map_cons, List.nodup_cons] at hdistinct
    rw [List.foldl_cons, ih hdistinct.2, List.find?_cons]
    have hwrite : (writeComponent dictionary entry).get id =
        if entry.1 = id then entry.2 else dictionary.get id := by
      obtain ⟨key, value⟩ := entry
      cases value with
      | some bytes => simp [writeComponent]
      | none => simp [writeComponent]
    by_cases hid : entry.1 = id
    · have hnone : entries.find? (·.1 = id) = none := by
        rw [List.find?_eq_none]
        intro other hmem heq
        exact hdistinct.1 (List.mem_map.mpr ⟨other, hmem, by simpa [hid] using heq⟩)
      simp [hwrite, hid, hnone]
    · simp [hwrite, hid]

def overDictionary : CommitMerge where
  mergeCommit commit extensions updates :=
    applyUpdates ((gceProposals commit).head?.getD extensions) updates
  read {commit gce updates} hgce hdistinct extensions id := by
    rw [hgce, List.head?_cons, Option.getD_some]
    cases updates with
    | none => rfl
    | some results =>
      rw [applyUpdates, readFromAppDataDict, Extensions.appDataDictionary_addOrReplace,
        Option.bind_eq_bind, Option.bind_some, get_foldl_writeComponent _ (hdistinct results rfl)]
      have hdictionary : (gce.appDataDictionary.getD .empty).get id = readFromAppDataDict id gce := by
        rw [readFromAppDataDict]
        cases gce.appDataDictionary <;> rfl
      rw [hdictionary]
      simp [AppDataUpdates.value, Option.map_eq_bind]
  mem {commit gce extension} hgce hother extensions updates := by
    rw [hgce, List.head?_cons, Option.getD_some]
    cases updates with
    | none => rfl
    | some results => exact Extensions.mem_addOrReplace_dictionary hother

variable {merge : CommitMerge} {host : BootstrapHost} {extensions gce : Extensions}
  {commit : StagedCommit} {updates : Option AppDataUpdates} {registry : ComponentRegistry}

theorem read_mergeCommit
    (hregistry : loadComponentRegistry host.toWire extensions = .ok registry)
    (hgce : gceProposals commit = [gce])
    (hupdates : resolvedAppDataUpdates host.toHost extensions commit = .ok updates) (id : UInt16) :
    readFromAppDataDict id (merge.mergeCommit commit extensions updates) =
      (AppDataUpdates.value updates id).getD (readFromAppDataDict id gce) := by
  obtain ⟨inBatch, _, rfl⟩ := (accumulateAppDataUpdates_eq_ok hregistry).mp hupdates
  refine merge.read hgce (fun results hresults => ?_) extensions id
  have hdistinct : (inBatch.toList.map Prod.fst).Nodup := by
    rw [List.nodup_iff_pairwise_ne, List.pairwise_map]
    apply Std.TreeMap.distinct_keys_toList.imp
    intro a b hab heq
    exact hab (compare_eq_iff_eq.mpr heq)
  rw [AppDataUpdates.changes, Option.ite_none_left_eq_some, Option.some.injEq] at hresults
  obtain ⟨_, rfl⟩ := hresults
  exact hdistinct

theorem mem_mergeCommit (hgce : gceProposals commit = [gce]) {extension : Extension}
    (hcarried : extension.isCarried = true) :
    extension ∈ merge.mergeCommit commit extensions updates ↔ extension ∈ gce := by
  refine merge.mem hgce (fun dictionary heq => ?_) extensions updates
  subst heq
  cases hcarried

theorem isLegacy_of_mem_mergeCommit (hgce : gceProposals commit = [gce])
    (hshape : gceMatchesBootstrapShape gce = true) {extension : Extension}
    (hmem : extension ∈ merge.mergeCommit commit extensions updates) :
    extension.isLegacy = false := by
  cases hlegacy : extension.isLegacy with
  | false => rfl
  | true =>
    have hother : ∀ dictionary, extension ≠ .appDataDictionary dictionary := by
      rintro dictionary rfl
      cases hlegacy
    rw [merge.mem hgce hother] at hmem
    exact hlegacy.symm.trans (Extensions.isLegacy_of_mem hshape hmem)

end CommitMerge

section Collect

variable {host : BootstrapHost} {extensions : Extensions} {commit : StagedCommit}
  {actual : TlsMap UInt16 (AppDataUpdateOperationType × Bytes)} {updates : Option AppDataUpdates}
  {id : UInt16}

theorem toList_of_collect {proposals : List (UInt16 × AppDataUpdateOperation)}
    {out : TlsMap UInt16 (AppDataUpdateOperationType × Bytes)}
    (h : proposals.foldlM (fun out (id, operation) =>
      (out.insert id (operationType operation)).mapError fun _ =>
        BootstrapValidationError.duplicateProposal id) out = .ok actual) (id : UInt16) :
    (actual.get id).toList = (out.get id).toList ++ (operationsOn id proposals).map operationType := by
  induction proposals generalizing out with
  | nil =>
    cases h
    rw [operationsOn_nil, List.map_nil, List.append_nil]
  | cons proposal proposals ih =>
    rw [List.foldlM_cons, bind_eq_ok] at h
    obtain ⟨out', hinsert, hrest⟩ := h
    rw [mapError_eq_ok, TlsMap.insert_eq] at hinsert
    split at hinsert
    · cases hinsert
    · rename_i hnone
      cases hinsert
      rw [ih hrest, TlsMap.get_set, operationsOn_cons]
      by_cases hid : proposal.1 = id
      · subst hid
        rw [Option.not_isSome_iff_eq_none] at hnone
        rw [if_pos rfl, if_pos rfl, hnone]
        rfl
      · rw [if_neg hid, if_neg (Ne.symm hid)]

theorem operationsOn_of_collect (h : collectAppDataUpdates commit = .ok actual) (id : UInt16) :
    (operationsOn id (appDataUpdateProposals commit)).map operationType = (actual.get id).toList := by
  rw [toList_of_collect h id, TlsMap.get_new, Option.toList_none, List.nil_append]

theorem operationsOn_of_update (h : collectAppDataUpdates commit = .ok actual) {payload : Bytes}
    (hget : actual.get id = some (.update, payload)) :
    operationsOn id (appDataUpdateProposals commit) = [.update payload] := by
  have hops := operationsOn_of_collect h id
  rw [hget, Option.toList_some, List.map_eq_singleton_iff] at hops
  obtain ⟨operation, hops, htype⟩ := hops
  rw [hops]
  cases operation with
  | update payload' =>
    cases htype
    rfl
  | remove => cases htype

theorem operationsOn_of_none (h : collectAppDataUpdates commit = .ok actual)
    (hget : actual.get id = none) : operationsOn id (appDataUpdateProposals commit) = [] := by
  have hops := operationsOn_of_collect h id
  rw [hget, Option.toList_none, List.map_eq_nil_iff] at hops
  exact hops

theorem get_of_mem_proposals (h : collectAppDataUpdates commit = .ok actual)
    {operation : AppDataUpdateOperation}
    (hmem : (id, operation) ∈ appDataUpdateProposals commit) :
    actual.get id = some (operationType operation) := by
  rw [← Option.mem_toList, ← operationsOn_of_collect h id]
  exact List.mem_map_of_mem (mem_operationsOn.mpr hmem)

theorem loadComponentRegistry_of_not_migrated (wire : Wire) (h : extensions.isMigrated = false) :
    loadComponentRegistry wire extensions = .ok .new := by
  rw [isMigrated_eq, Option.isSome_eq_false_iff, Option.isNone_iff_eq_none] at h
  rw [loadComponentRegistry, h]

theorem value_of_none (hmigrated : extensions.isMigrated = false)
    (hcollect : collectAppDataUpdates commit = .ok actual)
    (hupdates : resolvedAppDataUpdates host.toHost extensions commit = .ok updates)
    (hget : actual.get id = none) : AppDataUpdates.value updates id = none := by
  have hvalue := value_of_accumulateAppDataUpdates
    (loadComponentRegistry_of_not_migrated _ hmigrated) hupdates id
  rwa [if_pos (operationsOn_of_none hcollect hget)] at hvalue

theorem value_of_update (hmigrated : extensions.isMigrated = false)
    (hcollect : collectAppDataUpdates commit = .ok actual)
    (hupdates : resolvedAppDataUpdates host.toHost extensions commit = .ok updates)
    {payload : Bytes} (hget : actual.get id = some (.update, payload)) :
    ∃ bytes, applyAppDataUpdatePayload host.toHost id .new payload
        (readFromAppDataDict id extensions) = .ok bytes ∧
      AppDataUpdates.value updates id = some (some bytes) := by
  have hvalue := value_of_accumulateAppDataUpdates
    (loadComponentRegistry_of_not_migrated _ hmigrated) hupdates id
  have hops := operationsOn_of_update hcollect hget
  rw [hops, if_neg (List.cons_ne_nil _ _)] at hvalue
  obtain ⟨value, hfold, hvalue⟩ := hvalue
  rw [foldOperations, foldOn, hops, List.foldlM_cons, bind_eq_ok] at hfold
  obtain ⟨value', happly, hnil⟩ := hfold
  cases hnil
  rw [applyOperation, bind_eq_ok] at happly
  obtain ⟨bytes, happly, hbytes⟩ := happly
  cases hbytes
  exact ⟨bytes, happly, hvalue⟩

end Collect

section Payloads

variable {host : BootstrapHost} {registry : ComponentRegistry} {payload bytes : Bytes}
  {prior : Option Bytes}

theorem apply_registry_eq_ok
    (h : applyAppDataUpdatePayload host.toHost ComponentId.componentRegistry registry payload prior =
      .ok bytes) : ∃ delta before after,
      (TlsMapDelta.codec host.vlen (componentIdCodec host.vlen) host.vlen.bytes).deserializeExact
        payload = .ok delta ∧
      ComponentRegistry.stored host.toWire prior = .ok before ∧
      Steps TlsMap.mutate before delta.mutations after ∧
      ComponentRegistry.stored host.toWire (some bytes) = .ok after := by
  have hmem : componentRegistryComponent host.toWire ∈ wellKnown host.toWire := by simp [wellKnown]
  obtain ⟨_, happly⟩ := (applyAppDataUpdatePayload_eq_ok (lookupComponent_of_mem hmem)).mp h
  simp only [componentRegistryComponent, bind_eq_ok, decodeMapDelta, mapError_eq_ok] at happly
  obtain ⟨delta, hdelta, _, _, happly⟩ := happly
  obtain ⟨before, hbefore, after, hsteps, hbytes⟩ := applyDecodedMapDelta_eq_ok.mp happly
  exact ⟨delta, before, after, hdelta, hbefore, hsteps,
    readMap_serialize (componentIdCodec_lawful _) (componentIdCodec_positive _) hbytes⟩

theorem apply_membership_eq_ok
    (h : applyAppDataUpdatePayload host.toHost ComponentId.groupMembership registry payload prior =
      .ok bytes) : ∃ delta before after,
      (TlsMapDelta.codec host.vlen (InboxId.codec host.vlen) host.vlen.bytes).deserializeExact
        payload = .ok delta ∧
      readMap host.toWire (InboxId.codec host.vlen) prior = .ok before ∧
      Steps TlsMap.mutate before delta.mutations after ∧
      readMap host.toWire (InboxId.codec host.vlen) (some bytes) = .ok after := by
  have hmem : groupMembershipComponent host.toWire ∈ wellKnown host.toWire := by simp [wellKnown]
  obtain ⟨_, happly⟩ := (applyAppDataUpdatePayload_eq_ok (lookupComponent_of_mem hmem)).mp h
  simp only [groupMembershipComponent, applyTlsMapDelta, bind_eq_ok, decodeMapDelta, mapError_eq_ok]
    at happly
  obtain ⟨delta, hdelta, happly⟩ := happly
  obtain ⟨before, hbefore, after, hsteps, hbytes⟩ := applyDecodedMapDelta_eq_ok.mp happly
  exact ⟨delta, before, after, hdelta, hbefore, hsteps,
    readMap_serialize (InboxId.codec_lawful _) (InboxId.codec_positive _) hbytes⟩

section Registry

variable {expectedRegistry : TlsMap UInt16 Proto.ComponentMetadata}

def Reads (host : BootstrapHost) (stored : TlsMap UInt16 Bytes)
    (entries : TlsMap UInt16 Proto.ComponentMetadata) : Prop :=
  ∀ id, (stored.get id).map host.decodeMetadata = (entries.get id).map .ok

theorem Reads.step {stored stored' : TlsMap UInt16 Bytes}
    {entries entries' : TlsMap UInt16 Proto.ComponentMetadata}
    {mutation : TlsMapMutation UInt16 Bytes} (h : Reads host stored entries)
    (hmutate : stored.mutate mutation = .ok stored')
    (hcollect : collectRegistryEntry host entries mutation = .ok entries') :
    Reads host stored' entries' := by
  simp only [collectRegistryEntry, bind_eq_ok, mapError_eq_ok, TlsMap.insert_eq] at hcollect
  obtain ⟨⟨id, raw⟩, hmutation, _, _, metadata, hmetadata, hinsert⟩ := hcollect
  cases mutation with
  | insert key value =>
    cases hmutation
    obtain ⟨_, rfl⟩ := TlsMap.mutate_insert.mp hmutate
    split at hinsert
    · cases hinsert
    · cases hinsert
      intro other
      rw [TlsMap.get_set, TlsMap.get_set]
      split
      · rw [Option.map_some, Option.map_some, hmetadata]
      · exact h other
  | update _ _ => cases hmutation
  | delete _ => cases hmutation

theorem reads_of_validate
    (hvalid : validateComponentRegistryPayload host (some (.update, payload)) expectedRegistry =
      .ok ())
    (happly : applyAppDataUpdatePayload host.toHost ComponentId.componentRegistry registry payload
      none = .ok bytes) :
    ∃ stored, ComponentRegistry.stored host.toWire (some bytes) = .ok stored ∧
      Reads host stored expectedRegistry := by
  obtain ⟨delta, before, after, hdelta, hbefore, hsteps, hafter⟩ := apply_registry_eq_ok happly
  cases hbefore
  simp only [validateComponentRegistryPayload, bind_eq_ok, mapError_eq_ok] at hvalid
  obtain ⟨_, _, delta', hdelta', actual, hcollect, ⟨⟩, hcompare, ⟨⟩, hkeys, _⟩ := hvalid
  cases hdelta.symm.trans hdelta'
  have hreads : Reads host after actual :=
    hsteps.paired (Steps.foldlM_eq_ok.mp hcollect) (fun _ => rfl)
      fun _ _ _ _ _ h hmutate hcollect => h.step hmutate hcollect
  refine ⟨after, hafter, fun id => (hreads id).trans (congrArg _ ?_)⟩
  cases hexpected : expectedRegistry.get id with
  | some metadata =>
    have hentry := forM_eq_ok.mp hcompare (id, metadata) (TlsMap.mem_iter.mpr hexpected)
    simp only [compareRegistryEntry, bind_eq_ok, okOr_eq_ok, rejectIf_eq_ok, Bool.not_eq_false']
      at hentry
    obtain ⟨metadata', hget, heq⟩ := hentry
    rw [hget, ComponentMetadata.eq_of_eq heq]
  | none =>
    by_contra hsome
    have hkey := forM_eq_ok.mp hkeys id
      (TlsMap.mem_keys.mpr (Option.isSome_iff_ne_none.mpr hsome))
    rw [rejectIf_eq_ok, Bool.not_eq_false', TlsMap.containsKey_eq, hexpected] at hkey
    cases hkey

end Registry

section Members

variable {expectedSequenceIds : TlsMap InboxId UInt64} {allowed : Finset Bytes}

/-- What is stored of an inbox: an accepted entry once it is seen, and what was there before. -/
inductive Stored (host : BootstrapHost) (expectedSequenceIds : TlsMap InboxId UInt64)
    (allowed : Finset Bytes) (before after : Option Bytes) (id : InboxId) : Option Unit → Prop
  | kept (same : after = before) : Stored host expectedSequenceIds allowed before after id none
  | seen (fresh : before = none) (raw : Bytes) (entry : Groups.Proto.GroupMembershipEntryV1)
      (stored : after = some raw) (decoded : host.decodeGroupMembershipEntry raw = some (some entry))
      (expected : expectedSequenceIds.get id = some entry.sequenceId)
      (failed : ∀ installation ∈ entry.failedInstallations, installation ∈ allowed) :
      Stored host expectedSequenceIds allowed before after id (some ())

theorem Stored.step {before : InboxId → Option Bytes} {map map' : TlsMap InboxId Bytes}
    {seen seen' : TlsMap InboxId Unit} {mutation : TlsMapMutation InboxId Bytes}
    (h : ∀ id, Stored host expectedSequenceIds allowed (before id) (map.get id) id (seen.get id))
    (hmutate : map.mutate mutation = .ok map')
    (hcheck : checkMember host expectedSequenceIds allowed seen mutation = .ok seen') (id : InboxId) :
    Stored host expectedSequenceIds allowed (before id) (map'.get id) id (seen'.get id) := by
  simp only [checkMember, bind_eq_ok, mapError_eq_ok, okOr_eq_ok, rejectIf_eq_ok, pure_eq_ok,
    TlsMap.insert_eq, decide_eq_false_iff_not, ne_eq, not_not] at hcheck
  obtain ⟨⟨inboxId, raw⟩, hmutation, seen'', hinsert, expected, hexpected, envelope, henvelope, entry,
    hentry, _, rfl, ⟨⟩, hfailed, rfl⟩ := hcheck
  cases mutation with
  | insert key value =>
    cases hmutation
    obtain ⟨hnone, rfl⟩ := TlsMap.mutate_insert.mp hmutate
    split at hinsert
    · cases hinsert
    · rename_i hunseen
      cases hinsert
      rw [TlsMap.get_set, TlsMap.get_set]
      by_cases hid : id = inboxId
      · subst hid
        rw [if_pos rfl, if_pos rfl]
        have hold := h id
        rw [Option.not_isSome_iff_eq_none] at hunseen
        rw [hunseen, hnone] at hold
        cases hold with
        | kept same =>
          refine .seen same.symm raw entry rfl (by rw [henvelope, hentry]) hexpected ?_
          intro installation hmem
          exact (checkFailedInstallation_eq_ok.mp hfailed installation hmem).2
      · rw [if_neg hid, if_neg hid]
        exact h id
  | update _ _ => cases hmutation
  | delete _ => cases hmutation

theorem stored_of_validate
    (hvalid : validateGroupMembershipPayload host (some (.update, payload)) expectedSequenceIds
      allowed = .ok ())
    (happly : applyAppDataUpdatePayload host.toHost ComponentId.groupMembership registry payload
      prior = .ok bytes) :
    ∃ before after, readMap host.toWire (InboxId.codec host.vlen) prior = .ok before ∧
      readMap host.toWire (InboxId.codec host.vlen) (some bytes) = .ok after ∧
      ∀ id, Stored host expectedSequenceIds allowed (before.get id) (after.get id) id
        ((expectedSequenceIds.get id).map fun _ => ()) := by
  obtain ⟨delta, before, after, hdelta, hbefore, hsteps, hafter⟩ := apply_membership_eq_ok happly
  simp only [validateGroupMembershipPayload, bind_eq_ok, mapError_eq_ok] at hvalid
  obtain ⟨_, _, delta', hdelta', seen, hcheck, hkeys⟩ := hvalid
  cases hdelta.symm.trans hdelta'
  have hstored : ∀ id, Stored host expectedSequenceIds allowed (before.get id) (after.get id) id
      (seen.get id) :=
    hsteps.paired (R := fun map seen => ∀ id, Stored host expectedSequenceIds allowed
        (before.get id) (map.get id) id (seen.get id))
      (Steps.foldlM_eq_ok.mp hcheck) (fun _ => .kept rfl)
      fun _ _ _ _ _ h hmutate hcheck => Stored.step h hmutate hcheck
  refine ⟨before, after, hbefore, hafter, fun id => ?_⟩
  have hid := hstored id
  cases hexpected : expectedSequenceIds.get id with
  | none =>
    cases hseen : seen.get id with
    | none =>
      rw [hseen] at hid
      exact hid
    | some _ =>
      rw [hseen] at hid
      cases hid with
      | seen _ _ _ _ _ expected =>
        rw [hexpected] at expected
        cases expected
  | some _ =>
    have hkey := forM_eq_ok.mp hkeys id (TlsMap.mem_keys.mpr (by rw [hexpected]; rfl))
    rw [rejectIf_eq_ok, Bool.not_eq_false', TlsMap.containsKey_eq, Option.isSome_iff_exists] at hkey
    obtain ⟨_, hseen⟩ := hkey
    rw [hseen] at hid
    exact hid

section Decode

variable (wire : MembershipWire) {map : TlsMap InboxId Bytes}
  {members : List (InboxId × Groups.Proto.GroupMembershipEntryV1)}

theorem mem_of_decodeGroupMembershipDict
    (hmap : readMap wire.toWire (InboxId.codec wire.vlen) (some bytes) = .ok map)
    (h : decodeGroupMembershipDict wire bytes = .ok members) :
    (∀ id raw, map.get id = some raw →
      ∃ entry, wire.decodeGroupMembershipEntry raw = some (some entry) ∧ (id, entry) ∈ members) ∧
    ∀ id entry, (id, entry) ∈ members →
      ∃ raw, map.get id = some raw ∧ wire.decodeGroupMembershipEntry raw = some (some entry) := by
  simp only [readMap, mapError_eq_ok] at hmap
  simp only [decodeGroupMembershipDict, hmap, Except.mapError, ok_bind] at h
  constructor
  · intro id raw hget
    have hiter : (id, raw) ∈ map.iter := TlsMap.mem_iter.mpr hget
    obtain ⟨member, hmem, hread⟩ := exists_of_mapM_mem h hiter
    simp only [bind_eq_ok, okOr_eq_ok, pure_eq_ok] at hread
    obtain ⟨envelope, henvelope, entry, hentry, rfl⟩ := hread
    exact ⟨entry, by rw [henvelope, hentry], hmem⟩
  · intro id entry hmem
    obtain ⟨⟨key, raw⟩, hiter, hread⟩ := exists_of_mem_mapM h hmem
    simp only [bind_eq_ok, okOr_eq_ok, pure_eq_ok, Prod.mk.injEq] at hread
    obtain ⟨envelope, henvelope, entry', hentry, rfl, rfl⟩ := hread
    exact ⟨raw, TlsMap.mem_iter.mp hiter, by rw [henvelope, hentry]⟩

theorem exists_decodeGroupMembershipDict
    (hmap : readMap wire.toWire (InboxId.codec wire.vlen) (some bytes) = .ok map)
    (h : ∀ id raw, map.get id = some raw →
      ∃ entry, wire.decodeGroupMembershipEntry raw = some (some entry)) :
    ∃ members, decodeGroupMembershipDict wire bytes = .ok members := by
  simp only [readMap, mapError_eq_ok] at hmap
  simp only [decodeGroupMembershipDict, hmap, Except.mapError, ok_bind]
  apply exists_mapM
  rintro ⟨id, raw⟩ hmem
  obtain ⟨entry, hentry⟩ := h id raw (TlsMap.mem_iter.mp hmem)
  exact ⟨(id, entry), by simp [hentry]⟩

end Decode

end Members

end Payloads

/-- The inboxes with their sequence ids are those expected, whatever each failed of what may fail. -/
structure ExpectedMembers (expected : CanonicalBootstrapExpectation)
    (members : List (InboxId × Groups.Proto.GroupMembershipEntryV1)) : Prop where
  sequenceIds : ∀ id sequenceId, (∃ failed, (id, ⟨sequenceId, failed⟩) ∈ members) ↔
    expected.membershipSequenceIds.get id = some sequenceId
  failed : ∀ member ∈ members, ∀ installation ∈ member.2.failedInstallations,
    installation ∈ expected.allowedFailedInstallations

/-- The group has left its legacy state behind, and its registry is the one expected. -/
structure LeavesLegacy (host : BootstrapHost) (expected : CanonicalBootstrapExpectation)
    (post : Extensions) : Prop where
  legacy : ∀ extension ∈ post, extension.isLegacy = false
  registry : ∃ bytes stored, readFromAppDataDict ComponentId.componentRegistry post = some bytes ∧
    ComponentRegistry.fromBytes host.toWire bytes = .ok stored ∧
    Reads host stored.inner expected.expectedRegistry

/-- The group follows from its legacy state, up to the installations that failed. -/
structure Determined (host : BootstrapHost) (extensions : Extensions)
    (expected : CanonicalBootstrapExpectation) (post : Extensions) : Prop extends
    LeavesLegacy host expected post where
  carried : ∀ extension, extension.isCarried = true → (extension ∈ post ↔ extension ∈ extensions)
  component : ∀ id, id ≠ ComponentId.componentRegistry → id ≠ ComponentId.groupMembership →
    readFromAppDataDict id post = (expected.strict.get id).bind fun seed =>
      (applyAppDataUpdatePayload host.toHost id .new seed.2 none).toOption
  members : ∃ bytes members, readFromAppDataDict ComponentId.groupMembership post = some bytes ∧
    decodeGroupMembershipDict host.toMembershipWire bytes = .ok members ∧
    ExpectedMembers expected members

/-- The sender carries over what the migration is not about, and brings no component along; nor
does the group have one that the seeds come on top of. -/
structure CarriesOver (host : BootstrapHost) (extensions : Extensions) (commit : StagedCommit) :
    Prop where
  carried : ∀ gce ∈ gceProposals commit, ∀ extension, extension.isCarried = true →
    (extension ∈ gce ↔ extension ∈ extensions)
  written : ∀ gce ∈ gceProposals commit, ∀ id bytes, readFromAppDataDict id gce = some bytes →
    id ≠ ComponentId.groupMembership → operationsOn id (appDataUpdateProposals commit) ≠ []
  fresh : ∀ id payload, (id, .update payload) ∈ appDataUpdateProposals commit →
    id ≠ ComponentId.groupMembership →
      applyAppDataUpdatePayload host.toHost id .new payload (readFromAppDataDict id extensions) =
        applyAppDataUpdatePayload host.toHost id .new payload none
  freshMembers :
    operationsOn ComponentId.groupMembership (appDataUpdateProposals commit) ≠ [] →
      readMap host.toWire (InboxId.codec host.vlen)
        (readFromAppDataDict ComponentId.groupMembership extensions) = .ok .new
  givenMembers :
    operationsOn ComponentId.groupMembership (appDataUpdateProposals commit) = [] →
      ∀ gce ∈ gceProposals commit, ∃ bytes,
        readFromAppDataDict ComponentId.groupMembership gce = some bytes ∧
          decodeGroupMembershipDict host.toMembershipWire bytes = .ok []

structure AcceptedBootstrap (host : BootstrapHost) (extensions : Extensions) (commit : StagedCommit)
    (expected : CanonicalBootstrapExpectation) (gce : Extensions)
    (actual : TlsMap UInt16 (AppDataUpdateOperationType × Bytes)) : Prop where
  notMigrated : extensions.isMigrated = false
  proposed : gceProposals commit = [gce]
  shape : gceMatchesBootstrapShape gce = true
  collected : collectAppDataUpdates commit = .ok actual
  seeds : ∀ id seed, expected.strict.get id = some seed → seed.1 = .update ∧
    id ≠ ComponentId.groupMembership ∧ id ≠ ComponentId.componentRegistry
  seeded : ∀ id, id ≠ ComponentId.groupMembership → id ≠ ComponentId.componentRegistry →
    actual.get id = expected.strict.get id
  registry : ∃ payload, actual.get ComponentId.componentRegistry = some (.update, payload) ∧
    validateComponentRegistryPayload host (some (.update, payload)) expected.expectedRegistry = .ok ()
  membership : validateGroupMembershipPayload host (actual.get ComponentId.groupMembership)
    expected.membershipSequenceIds expected.allowedFailedInstallations = .ok ()

section Accepted

variable (merge : CommitMerge) {Version : Type} {semver : Semver Version} {host : BootstrapHost} {order : MembersOrder}
  {commit : StagedCommit} {extensions gce : Extensions} {proposer : CommitParticipant}
  {ownVersion : String} {expected : CanonicalBootstrapExpectation}
  {actual : TlsMap UInt16 (AppDataUpdateOperationType × Bytes)} {updates : Option AppDataUpdates}

theorem actual_eq_strict
    (hcompare : ∀ entry ∈ expected.strict.iter, compareStrict actual entry = .ok ())
    (hkeys : ∀ id ∈ actual.keys, rejectIf (id ≠ ComponentId.groupMembership &&
      id ≠ ComponentId.componentRegistry && !expected.strict.containsKey id)
        (BootstrapValidationError.unexpectedProposal id) = .ok ()) {id : UInt16}
    (hmembership : id ≠ ComponentId.groupMembership) (hregistry : id ≠ ComponentId.componentRegistry) :
    actual.get id = expected.strict.get id := by
  cases hexpected : expected.strict.get id with
  | some seed =>
    have hentry := hcompare (id, seed) (TlsMap.mem_iter.mpr hexpected)
    simp only [compareStrict, bind_eq_ok, okOr_eq_ok, rejectIf_eq_ok, decide_eq_false_iff_not,
      ne_eq, not_not] at hentry
    obtain ⟨found, hget, rfl⟩ := hentry
    exact hget
  | none =>
    by_contra hsome
    have hkey := hkeys id (TlsMap.mem_keys.mpr (Option.isSome_iff_ne_none.mpr hsome))
    simp [TlsMap.containsKey_eq, hexpected, hmembership, hregistry] at hkey

theorem exists_gceProposal (h : validateGceShape commit = .ok ()) :
    ∃ gce, gceProposals commit = [gce] ∧ gceMatchesBootstrapShape gce = true := by
  rw [validateGceShape] at h
  split at h
  · cases h
  · rename_i gce hgce
    rw [validateGceExtensionSet, bind_eq_ok] at h
    obtain ⟨_, hshape, _⟩ := h
    rw [rejectIf_eq_ok, Bool.not_eq_false'] at hshape
    exact ⟨gce, hgce, hshape⟩
  · cases h

theorem operationsOn_registry_ne_nil (h : isBootstrapCommit commit extensions = true) :
    extensions.isMigrated = false ∧
      operationsOn ComponentId.componentRegistry (appDataUpdateProposals commit) ≠ [] := by
  simp only [isBootstrapCommit, Bool.and_eq_true, Bool.not_eq_true', List.any_eq_true] at h
  obtain ⟨⟨hmigrated, _⟩, queued, hmem, hwrites⟩ := h
  refine ⟨hmigrated, ?_⟩
  rw [writesComponentRegistry] at hwrites
  split at hwrites
  · rename_i id operation hproposal
    rw [beq_iff_eq] at hwrites
    have hupdate : (id, operation) ∈ appDataUpdateProposals commit := by
      rw [appDataUpdateProposals, appDataUpdates, List.mem_filterMap]
      exact ⟨queued, hmem, by rw [hproposal]⟩
    rw [hwrites] at hupdate
    exact List.ne_nil_of_mem (mem_operationsOn.mpr hupdate)
  · cases hwrites

theorem exists_acceptedBootstrap (hbootstrap : isBootstrapCommit commit extensions = true)
    (hexpected : synthesizeCanonicalSubsetFromExtensions host order extensions = .ok expected)
    (hvalid : validateBootstrapCommit semver host order commit extensions proposer ownVersion =
      .ok ()) :
    ∃ gce actual, AcceptedBootstrap host extensions commit expected gce actual := by
  rw [validateBootstrapCommit] at hvalid
  simp only [bind_eq_ok] at hvalid
  obtain ⟨_, _, _, _, hvalid⟩ := hvalid
  split at hvalid
  · cases hvalid
  · simp only [hexpected, Except.mapError, ok_bind, bind_eq_ok] at hvalid
    obtain ⟨actual, hcollect, ⟨⟩, hcanonical, hshape⟩ := hvalid
    obtain ⟨gce, hgce, hshape⟩ := exists_gceProposal hshape
    obtain ⟨hmigrated, hwrites⟩ := operationsOn_registry_ne_nil hbootstrap
    obtain ⟨_, _, _, _, hsubset⟩ := canonical_eq_ok.mp hexpected
    simp only [validateAgainstCanonicalSubset, bind_eq_ok] at hcanonical
    obtain ⟨⟨⟩, hcompare, ⟨⟩, hkeys, ⟨⟩, hregistry, hmembership⟩ := hcanonical
    refine ⟨gce, actual, hmigrated, hgce, hshape, hcollect, ?_, ?_, ?_, hmembership⟩
    · intro id seed hget
      obtain ⟨hop, hmem⟩ := hsubset.strict_get hget
      exact ⟨hop, ne_of_mem_strictSeeds hmem⟩
    · intro id hmembership hregistry
      exact actual_eq_strict (forM_eq_ok.mp hcompare) (forM_eq_ok.mp hkeys) hmembership hregistry
    · cases hget : actual.get ComponentId.componentRegistry with
      | none => exact absurd (operationsOn_of_none hcollect hget) hwrites
      | some value =>
        obtain ⟨operation, payload⟩ := value
        rw [hget] at hregistry
        have hvalid := hregistry
        simp only [validateComponentRegistryPayload, bind_eq_ok, rejectIf_eq_ok,
          decide_eq_false_iff_not, ne_eq, not_not] at hregistry
        obtain ⟨_, rfl, _⟩ := hregistry
        exact ⟨payload, rfl, hvalid⟩

namespace AcceptedBootstrap

theorem read_of_none (h : AcceptedBootstrap host extensions commit expected gce actual)
    (hupdates : resolvedAppDataUpdates host.toHost extensions commit = .ok updates) {id : UInt16}
    (hget : actual.get id = none) :
    readFromAppDataDict id (merge.mergeCommit commit extensions updates) = readFromAppDataDict id gce := by
  have hregistry := loadComponentRegistry_of_not_migrated host.toWire h.notMigrated
  rw [CommitMerge.read_mergeCommit hregistry h.proposed hupdates,
    value_of_none h.notMigrated h.collected hupdates hget, Option.getD_none]

theorem read_of_update (h : AcceptedBootstrap host extensions commit expected gce actual)
    (hupdates : resolvedAppDataUpdates host.toHost extensions commit = .ok updates) {id : UInt16}
    {payload : Bytes} (hget : actual.get id = some (.update, payload)) : ∃ bytes,
      applyAppDataUpdatePayload host.toHost id .new payload (readFromAppDataDict id extensions) =
        .ok bytes ∧
      readFromAppDataDict id (merge.mergeCommit commit extensions updates) = some bytes := by
  have hregistry := loadComponentRegistry_of_not_migrated host.toWire h.notMigrated
  obtain ⟨bytes, happly, hvalue⟩ := value_of_update h.notMigrated h.collected hupdates hget
  refine ⟨bytes, happly, ?_⟩
  rw [CommitMerge.read_mergeCommit hregistry h.proposed hupdates, hvalue, Option.getD_some]

/-- A component of the canonical subset is what its seed makes if nothing is under it, and any other
is absent if the sender does not bring it along. -/
theorem component_iff (h : AcceptedBootstrap host extensions commit expected gce actual)
    (hupdates : resolvedAppDataUpdates host.toHost extensions commit = .ok updates) {id : UInt16}
    (hregistry : id ≠ ComponentId.componentRegistry)
    (hmembership : id ≠ ComponentId.groupMembership) :
    (readFromAppDataDict id (merge.mergeCommit commit extensions updates) =
      (expected.strict.get id).bind fun seed =>
        (applyAppDataUpdatePayload host.toHost id .new seed.2 none).toOption) ↔
    (actual.get id = none → readFromAppDataDict id gce = none) ∧
      ∀ payload, actual.get id = some (.update, payload) →
        applyAppDataUpdatePayload host.toHost id .new payload (readFromAppDataDict id extensions) =
          applyAppDataUpdatePayload host.toHost id .new payload none := by
  rw [← h.seeded id hmembership hregistry]
  cases hget : actual.get id with
  | none => simp [h.read_of_none merge hupdates hget]
  | some seed =>
    obtain ⟨operation, payload⟩ := seed
    have hseed := h.seeded id hmembership hregistry
    rw [hget] at hseed
    obtain ⟨rfl, _⟩ := h.seeds id _ hseed.symm
    obtain ⟨bytes, happly, hread⟩ := h.read_of_update merge hupdates hget
    rw [hread, Option.bind_some]
    constructor
    · intro hbytes
      refine ⟨nofun, fun payload' heq => ?_⟩
      cases heq
      cases hnone : applyAppDataUpdatePayload host.toHost id .new payload none with
      | ok bytes' =>
        rw [hnone, toOption_ok, Option.some.injEq] at hbytes
        rw [happly, hbytes]
      | error e =>
        rw [hnone, toOption_error] at hbytes
        cases hbytes
    · intro hfresh
      rw [← hfresh.2 payload rfl, happly, toOption_ok]

theorem leavesLegacy (h : AcceptedBootstrap host extensions commit expected gce actual)
    (hupdates : resolvedAppDataUpdates host.toHost extensions commit = .ok updates) :
    LeavesLegacy host expected (merge.mergeCommit commit extensions updates) := by
  refine ⟨fun extension hmem => merge.isLegacy_of_mem_mergeCommit h.proposed h.shape hmem, ?_⟩
  obtain ⟨payload, hget, hvalid⟩ := h.registry
  obtain ⟨bytes, happly, hread⟩ := h.read_of_update merge hupdates hget
  have hmigrated := h.notMigrated
  rw [isMigrated_eq, Option.isSome_eq_false_iff, Option.isNone_iff_eq_none] at hmigrated
  rw [hmigrated] at happly
  obtain ⟨stored, hstored, hreads⟩ := reads_of_validate hvalid happly
  exact ⟨bytes, ⟨stored⟩, hread, ComponentRegistry.fromBytes_eq_ok.mpr hstored, hreads⟩

theorem members_of_stored {before after : TlsMap InboxId Bytes} {bytes : Bytes}
    (hafter : readMap host.toWire (InboxId.codec host.vlen) (some bytes) = .ok after)
    (hstored : ∀ id, Stored host expected.membershipSequenceIds
      expected.allowedFailedInstallations (before.get id) (after.get id) id
      ((expected.membershipSequenceIds.get id).map fun _ => ())) :
    (∃ members, decodeGroupMembershipDict host.toMembershipWire bytes = .ok members ∧
      ExpectedMembers expected members) ↔ before = .new := by
  constructor
  · rintro ⟨members, hdecode, hmembers⟩
    obtain ⟨hentries, _⟩ := mem_of_decodeGroupMembershipDict host.toMembershipWire
      hafter hdecode
    apply TlsMap.ext_get
    intro id
    rw [TlsMap.get_new]
    have hid := hstored id
    cases hexpected : expected.membershipSequenceIds.get id with
    | some _ =>
      rw [hexpected] at hid
      cases hid with
      | seen fresh => exact fresh
    | none =>
      rw [hexpected] at hid
      cases hid with
      | kept same =>
        by_contra hsome
        obtain ⟨raw, hraw⟩ := Option.ne_none_iff_exists'.mp hsome
        obtain ⟨entry, _, hmem⟩ := hentries id raw (same.trans hraw)
        have hsequenceId := (hmembers.sequenceIds id entry.sequenceId).mp
          ⟨entry.failedInstallations, hmem⟩
        rw [hexpected] at hsequenceId
        cases hsequenceId
  · rintro rfl
    have hread : ∀ id raw, after.get id = some raw → ∃ entry,
        host.decodeGroupMembershipEntry raw = some (some entry) ∧
          expected.membershipSequenceIds.get id = some entry.sequenceId ∧
          ∀ installation ∈ entry.failedInstallations,
            installation ∈ expected.allowedFailedInstallations := by
      intro id raw hget
      have hid := hstored id
      rw [hget] at hid
      generalize (expected.membershipSequenceIds.get id).map (fun _ => ()) = seen at hid
      cases hid with
      | kept same => cases same
      | seen _ raw' entry stored decoded expected failed =>
        cases stored
        exact ⟨entry, decoded, expected, failed⟩
    obtain ⟨members, hdecode⟩ := exists_decodeGroupMembershipDict host.toMembershipWire
      hafter fun id raw hget => (hread id raw hget).imp fun _ h => h.1
    obtain ⟨hentries, hmem⟩ := mem_of_decodeGroupMembershipDict host.toMembershipWire
      hafter hdecode
    refine ⟨members, hdecode, ?_, ?_⟩
    · intro id sequenceId
      constructor
      · rintro ⟨failed, hmember⟩
        obtain ⟨raw, hget, hdecoded⟩ := hmem id _ hmember
        obtain ⟨entry, hentry, hexpected, _⟩ := hread id raw hget
        cases hdecoded.symm.trans hentry
        exact hexpected
      · intro hexpected
        have hid := hstored id
        rw [hexpected] at hid
        cases hid with
        | seen _ raw entry stored decoded hsequenceId =>
          rw [hexpected] at hsequenceId
          cases hsequenceId
          obtain ⟨entry', hentry', hmember⟩ := hentries id raw stored
          cases hentry'.symm.trans decoded
          exact ⟨entry.failedInstallations, hmember⟩
    · rintro ⟨id, entry⟩ hmember
      obtain ⟨raw, hget, hdecoded⟩ := hmem id entry hmember
      obtain ⟨entry', hentry', _, hfailed⟩ := hread id raw hget
      cases hdecoded.symm.trans hentry'
      exact hfailed

theorem members_iff (h : AcceptedBootstrap host extensions commit expected gce actual)
    (hupdates : resolvedAppDataUpdates host.toHost extensions commit = .ok updates) :
    (∃ bytes members, readFromAppDataDict ComponentId.groupMembership
        (merge.mergeCommit commit extensions updates) = some bytes ∧
      decodeGroupMembershipDict host.toMembershipWire bytes = .ok members ∧
      ExpectedMembers expected members) ↔
    (operationsOn ComponentId.groupMembership (appDataUpdateProposals commit) ≠ [] →
      readMap host.toWire (InboxId.codec host.vlen)
        (readFromAppDataDict ComponentId.groupMembership extensions) = .ok .new) ∧
    (operationsOn ComponentId.groupMembership (appDataUpdateProposals commit) = [] →
      ∃ bytes, readFromAppDataDict ComponentId.groupMembership gce = some bytes ∧
        decodeGroupMembershipDict host.toMembershipWire bytes = .ok []) := by
  have hmembership := h.membership
  cases hget : actual.get ComponentId.groupMembership with
  | none =>
    rw [hget, validateGroupMembershipPayload] at hmembership
    have hempty : ∀ id, expected.membershipSequenceIds.get id = none := by
      intro id
      by_contra hsome
      have hkey := TlsMap.mem_keys.mpr (Option.isSome_iff_ne_none.mpr hsome)
      cases hkeys : expected.membershipSequenceIds.keys with
      | nil =>
        rw [hkeys] at hkey
        cases hkey
      | cons _ _ =>
        rw [hkeys] at hmembership
        cases hmembership
    have hnone := operationsOn_of_none h.collected hget
    simp only [h.read_of_none merge hupdates hget, hnone, ne_eq, not_true_eq_false, false_imp_iff, true_and,
      true_imp_iff]
    constructor
    · rintro ⟨bytes, members, hread, hdecode, hmembers⟩
      cases members with
      | nil => exact ⟨bytes, hread, hdecode⟩
      | cons member members =>
        obtain ⟨id, entry⟩ := member
        have hsequenceId := (hmembers.sequenceIds id entry.sequenceId).mp
          ⟨entry.failedInstallations, List.mem_cons_self⟩
        rw [hempty] at hsequenceId
        cases hsequenceId
    · rintro ⟨bytes, hread, hdecode⟩
      refine ⟨bytes, [], hread, hdecode, fun id sequenceId => ?_,
        fun member hmember => absurd hmember List.not_mem_nil⟩
      simp [hempty]
  | some value =>
    obtain ⟨operation, payload⟩ := value
    rw [hget] at hmembership
    have hvalid := hmembership
    simp only [validateGroupMembershipPayload, bind_eq_ok, rejectIf_eq_ok, decide_eq_false_iff_not,
      ne_eq, not_not] at hmembership
    obtain ⟨_, rfl, _⟩ := hmembership
    obtain ⟨bytes, happly, hread⟩ := h.read_of_update merge hupdates hget
    obtain ⟨before, after, hbefore, hafter, hstored⟩ := stored_of_validate hvalid happly
    have hops := operationsOn_of_update h.collected hget
    have hiff := members_of_stored hafter hstored
    simp only [hread, hops, hbefore, ne_eq, List.cons_ne_nil, not_false_eq_true, true_imp_iff,
      false_imp_iff, and_true, Option.some.injEq, Except.ok.injEq, exists_and_left, exists_eq_left',
      ← hiff]

theorem determined (h : AcceptedBootstrap host extensions commit expected gce actual)
    (hupdates : resolvedAppDataUpdates host.toHost extensions commit = .ok updates)
    (hcarries : CarriesOver host extensions commit) :
    Determined host extensions expected (merge.mergeCommit commit extensions updates) := by
  have hgce : gce ∈ gceProposals commit := by
    rw [h.proposed]
    exact List.mem_cons_self
  refine ⟨h.leavesLegacy merge hupdates, ?_, ?_,
    (h.members_iff merge hupdates).mpr ⟨hcarries.freshMembers, fun hops =>
      hcarries.givenMembers hops gce hgce⟩⟩
  · intro extension hcarried
    rw [merge.mem_mergeCommit h.proposed hcarried]
    exact hcarries.carried gce hgce extension hcarried
  · intro id hregistry hmembership
    refine (h.component_iff merge hupdates hregistry hmembership).mpr ⟨fun hnone => ?_, fun payload hget => ?_⟩
    · by_contra hsome
      obtain ⟨bytes, hread⟩ := Option.ne_none_iff_exists'.mp hsome
      exact hcarries.written gce hgce id bytes hread hmembership
        (operationsOn_of_none h.collected hnone)
    · have hops := operationsOn_of_update h.collected hget
      exact hcarries.fresh id payload (mem_operationsOn.mp (by rw [hops]; exact List.mem_cons_self))
        hmembership

end AcceptedBootstrap

/-- An accepted bootstrap makes of the group what its legacy state says, as long as its sender
carries the other extensions over and neither it nor the group has components of their own. The
legacy extensions are gone in any case. -/
theorem determined_iff (hbootstrap : isBootstrapCommit commit extensions = true)
    (hexpected : synthesizeCanonicalSubsetFromExtensions host order extensions = .ok expected)
    (hvalid : validateBootstrapCommit semver host order commit extensions proposer ownVersion =
      .ok ())
    (hupdates : resolvedAppDataUpdates host.toHost extensions commit = .ok updates) :
    LeavesLegacy host expected (merge.mergeCommit commit extensions updates) ∧
      (Determined host extensions expected (merge.mergeCommit commit extensions updates) ↔
        CarriesOver host extensions commit) := by
  obtain ⟨gce, actual, h⟩ := exists_acceptedBootstrap hbootstrap hexpected hvalid
  have hproposed : ∀ {P : Extensions → Prop}, (∀ gce ∈ gceProposals commit, P gce) ↔ P gce := by
    intro P
    rw [h.proposed]
    simp
  refine ⟨h.leavesLegacy merge hupdates, ?_, h.determined merge hupdates⟩
  · intro hdetermined
    obtain ⟨hfreshMembers, hgivenMembers⟩ := (h.members_iff merge hupdates).mp hdetermined.members
    refine ⟨hproposed.mpr ?_, hproposed.mpr ?_, ?_, hfreshMembers, fun hops =>
      hproposed.mpr (hgivenMembers hops)⟩
    · intro extension hcarried
      rw [← merge.mem_mergeCommit h.proposed hcarried]
      exact hdetermined.carried extension hcarried
    · intro id bytes hread hmembership hops
      have hnone : actual.get id = none := by
        have hlist := operationsOn_of_collect h.collected id
        rw [hops, List.map_nil, eq_comm, Option.toList_eq_nil_iff] at hlist
        exact hlist
      have hregistry : id ≠ ComponentId.componentRegistry := by
        rintro rfl
        obtain ⟨payload, hget, _⟩ := h.registry
        rw [hnone] at hget
        cases hget
      have habsent := ((h.component_iff merge hupdates hregistry hmembership).mp
        (hdetermined.component id hregistry hmembership)).1 hnone
      rw [hread] at habsent
      cases habsent
    · intro id payload hmem hmembership
      by_cases hregistry : id = ComponentId.componentRegistry
      · have hmigrated := h.notMigrated
        rw [isMigrated_eq, Option.isSome_eq_false_iff, Option.isNone_iff_eq_none] at hmigrated
        rw [hregistry, hmigrated]
      · exact ((h.component_iff merge hupdates hregistry hmembership).mp
          (hdetermined.component id hregistry hmembership)).2 payload
            (get_of_mem_proposals h.collected hmem)

end Accepted

namespace BootstrapSample

def migrationOf (gce : Extensions) (values : TlsMap UInt16 Bytes) : StagedCommit where
  queuedProposals := ⟨.groupContextExtensions gce, .member 0⟩ ::
    values.iter.map fun value => ⟨.appDataUpdate value.1 (.update value.2), .member 0⟩
  groupContextExtensions := []

def requiredOnly : Extensions := [.requiredCapabilities [.appDataDictionary]]

theorem gceProposals_migrationOf (gce : Extensions) (values : TlsMap UInt16 Bytes) :
    gceProposals (migrationOf gce values) = [gce] := by
  rw [migrationOf]
  generalize values.iter = values
  simp [gceProposals, List.filterMap_map]

theorem carriesOver_migrationOf {host : BootstrapHost} {values : TlsMap UInt16 Bytes} {n : UInt8}
    (hmembers : operationsOn ComponentId.groupMembership
      (appDataUpdateProposals (migrationOf requiredOnly values)) ≠ []) :
    CarriesOver host (groupOf n) (migrationOf requiredOnly values) where
  carried gce hgce extension hcarried := by
    rw [gceProposals_migrationOf, List.mem_singleton] at hgce
    subst hgce
    have hgroup : ∀ extension ∈ groupOf n, extension.isCarried = false := by
      intro extension hmem
      simp only [groupOf, List.mem_cons, List.not_mem_nil, or_false] at hmem
      rcases hmem with rfl | rfl | rfl | rfl <;> rfl
    constructor
    · intro hmem
      rw [List.mem_singleton.mp hmem] at hcarried
      cases hcarried
    · intro hmem
      rw [hgroup extension hmem] at hcarried
      cases hcarried
  written gce hgce id bytes hread := by
    rw [gceProposals_migrationOf, List.mem_singleton] at hgce
    subst hgce
    cases hread
  fresh _ _ _ _ := rfl
  freshMembers _ := rfl
  givenMembers hops := absurd hops hmembers

def migration : StagedCommit := migrationOf requiredOnly (valuesOf 6)

def smuggling : StagedCommit := migrationOf (requiredOnly ++ [.unknown 0x1234 [1]]) (valuesOf 6)

def superAdmin : CommitParticipant := ⟨creator, [], false, true, true⟩

def semver : Semver Nat := ⟨fun _ => none, fun _ _ => false⟩

def merged (host : BootstrapHost) (commit : StagedCommit) : Extensions :=
  CommitMerge.overDictionary.mergeCommit commit (groupOf 6)
    ((resolvedAppDataUpdates host.toHost (groupOf 6) commit).toOption.getD none)

def isAccepted (host : BootstrapHost) (commit : StagedCommit) : Bool :=
  isBootstrapCommit commit (groupOf 6) &&
    (validateBootstrapCommit semver host inOrder commit (groupOf 6) superAdmin "1.0.0").isOk &&
    (resolvedAppDataUpdates host.toHost (groupOf 6) commit).isOk

end BootstrapSample

open BootstrapSample in
theorem determined_iff_smuggling : ∃ expected,
    synthesizeCanonicalSubsetFromExtensions host inOrder (groupOf 6) = .ok expected ∧
      Determined host (groupOf 6) expected (merged host migration) ∧
      LeavesLegacy host expected (merged host smuggling) ∧
      ¬Determined host (groupOf 6) expected (merged host smuggling) := by
  have hexpected : (synthesizeCanonicalSubsetFromExtensions host inOrder (groupOf 6)).isOk = true := by
    decide +kernel
  have hmigration : (isAccepted host migration && !(operationsOn ComponentId.groupMembership
      (appDataUpdateProposals migration)).isEmpty) = true := by decide +kernel
  have hsmuggling : isAccepted host smuggling = true := by decide +kernel
  simp only [isAccepted, Bool.and_eq_true, Bool.not_eq_true', List.isEmpty_eq_false_iff] at *
  obtain ⟨⟨⟨hbootstrap, hvalid⟩, hupdates⟩, hmembers⟩ := hmigration
  obtain ⟨⟨hbootstrap', hvalid'⟩, hupdates'⟩ := hsmuggling
  obtain ⟨expected, hexpected⟩ := exists_of_isOk hexpected
  obtain ⟨_, hmigrated⟩ := determined_iff .overDictionary hbootstrap hexpected
    (exists_unit_eq_ok.mp (exists_of_isOk hvalid)) (eq_ok_of_isOk hupdates)
  obtain ⟨hleaves, hsmuggled⟩ := determined_iff .overDictionary hbootstrap' hexpected
    (exists_unit_eq_ok.mp (exists_of_isOk hvalid')) (eq_ok_of_isOk hupdates')
  refine ⟨expected, hexpected, hmigrated.mpr (carriesOver_migrationOf hmembers), hleaves, ?_⟩
  intro hdetermined
  have hcarried := ((hsmuggled.mp hdetermined).carried _
    (by rw [smuggling, gceProposals_migrationOf]; exact List.mem_cons_self)
    (.unknown 0x1234 [1]) rfl).mp (by simp)
  simp [groupOf, mutableMetadataExtensionId, groupPermissionsExtensionId,
    groupMembershipExtensionId] at hcarried

end LibXmtp.AppData
