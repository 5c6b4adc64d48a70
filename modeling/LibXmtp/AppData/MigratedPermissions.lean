import LibXmtp.AppData.Components
import LibXmtp.AppData.PolicyTranslation

namespace LibXmtp.AppData

open LibXmtp.Data LibXmtp.Groups

section Legacy

variable {proto : Proto.PolicySet} {policies : PolicySet} (actor : CommitParticipant)

structure Decoded (proto : Proto.PolicySet) (policies : PolicySet) : Prop where
  addMember : ∃ policy, proto.addMemberPolicy = some policy ∧
    MembershipPolicies.tryFrom policy = .ok policies.addMemberPolicy
  removeMember : ∃ policy, proto.removeMemberPolicy = some policy ∧
    MembershipPolicies.tryFrom policy = .ok policies.removeMemberPolicy
  addAdmin : ∃ policy, proto.addAdminPolicy = some policy ∧
    PermissionsPolicies.tryFrom policy = .ok policies.addAdminPolicy
  removeAdmin : ∃ policy, proto.removeAdminPolicy = some policy ∧
    PermissionsPolicies.tryFrom policy = .ok policies.removeAdminPolicy
  metadata : ∀ key policy, proto.updateMetadataPolicy.get key = some policy →
    ∃ converted, MetadataPolicies.tryFrom policy = .ok converted
  get_metadata : ∀ key, policies.updateMetadataPolicy.get key =
    (proto.updateMetadataPolicy.get key).bind fun policy =>
      (MetadataPolicies.tryFrom policy).toOption

theorem decoded_of_fromProto (h : PolicySet.fromProto proto = .ok policies) :
    Decoded proto policies := by
  simp only [PolicySet.fromProto, bind_eq_ok, okOr_eq_ok, pure_eq_ok] at h
  obtain ⟨_, haddMember, _, haddMember', _, hremoveMember, _, hremoveMember', _, haddAdmin, _,
    haddAdmin', _, hremoveAdmin, _, hremoveAdmin', _, _, _, _, metadata, hmetadata, rfl⟩ := h
  refine ⟨⟨_, haddMember, haddMember'⟩, ⟨_, hremoveMember, hremoveMember'⟩,
    ⟨_, haddAdmin, haddAdmin'⟩, ⟨_, hremoveAdmin, hremoveAdmin'⟩, ?_,
    HashMap.get_ofList_mapM hmetadata⟩
  intro key policy hget
  obtain ⟨_, _, hconverted⟩ := exists_of_mapM_mem hmetadata (HashMap.get_eq_some_iff.mp hget)
  obtain ⟨converted, hconverted, _⟩ := bind_eq_ok.mp hconverted
  exact ⟨converted, hconverted⟩

theorem evaluate_of_adminListPolicy {policy : Proto.Policy} {base : MetadataBasePolicies}
    {converted : PermissionsPolicies}
    (h : adminListPolicyToMetadataPolicy policy = .ok (metadataPolicy base))
    (hlegacy : PermissionsPolicies.tryFrom policy = .ok converted) :
    base.evaluate actor = converted.evaluate actor := by
  obtain ⟨inner, hinner, rfl⟩ := adminListPolicy_ok_iff.mp ⟨_, h⟩
  simp only [List.mem_cons, List.not_mem_nil, or_false] at hinner
  rcases hinner with rfl | rfl <;> cases base <;> cases h <;> cases hlegacy <;> rfl

theorem evaluate_of_membershipPolicy {policy : Proto.Policy} {base : MetadataBasePolicies}
    {converted : MembershipPolicies}
    (h : membershipPolicyToMetadataPolicy policy = .ok (metadataPolicy base))
    (hlegacy : MembershipPolicies.tryFrom policy = .ok converted) (inbox : Inbox) :
    base.evaluate actor = converted.evaluate actor inbox := by
  obtain ⟨inner, hinner, rfl⟩ := membershipPolicy_ok_iff.mp ⟨_, h⟩
  simp only [List.mem_cons, List.not_mem_nil, or_false] at hinner
  rcases hinner with rfl | rfl | rfl | rfl <;> cases base <;> cases h <;> cases hlegacy <;> rfl

theorem evaluateMetadataPolicy_of_get_eq_none {metadata : HashMap String MetadataPolicies}
    {field : MetadataField} {change : MetadataFieldChange} (hchange : change.fieldName = field.asStr)
    (hnone : metadata.get field.asStr = none) :
    PolicySet.evaluateMetadataPolicy [change] metadata actor =
      if field = .commitLogSigner then actor.isSuperAdmin
      else (actor.isAdmin || actor.isSuperAdmin) := by
  simp only [PolicySet.evaluateMetadataPolicy, List.all_cons, List.all_nil, Bool.and_true, hchange,
    hnone]
  cases field <;> rfl

theorem evaluateMetadataPolicy_of_get_eq_some {metadata : HashMap String MetadataPolicies}
    {policy : MetadataPolicies} {change : MetadataFieldChange}
    (h : metadata.get change.fieldName = some policy) :
    PolicySet.evaluateMetadataPolicy [change] metadata actor = policy.evaluate actor := by
  simp only [PolicySet.evaluateMetadataPolicy, List.all_cons, List.all_nil, Bool.and_true, h]

theorem evaluate_fieldPolicy (h : Decoded proto policies) {field : MetadataField}
    {change : MetadataFieldChange} (hchange : change.fieldName = field.asStr)
    (hsigner : field ≠ .commitLogSigner) (hfloor : field = .minimumSupportedProtocolVersion →
      (policies.updateMetadataPolicy.get field.asStr).isSome = true) :
    evaluatePolicyProto (authorityOf actor) (fieldPolicy proto field) =
      .fromBool (PolicySet.evaluateMetadataPolicy [change] policies.updateMetadataPolicy actor) := by
  have hget := h.get_metadata field.asStr
  cases hproto : proto.updateMetadataPolicy.get field.asStr with
  | some policy =>
    obtain ⟨converted, hconverted⟩ := h.metadata _ _ hproto
    have hstored : policies.updateMetadataPolicy.get change.fieldName = some converted := by
      rw [hchange, hget, hproto, Option.bind_some, hconverted, toOption_ok]
    rw [fieldPolicy, hproto, Option.getD_some, evaluatePolicyProto_of_tryFrom actor _ hconverted,
      evaluateMetadataPolicy_of_get_eq_some actor hstored]
  | none =>
    rw [hproto, Option.bind_none] at hget
    have hfield : field ≠ .minimumSupportedProtocolVersion := by
      intro heq
      simpa [hget] using hfloor heq
    rw [fieldPolicy, hproto, Option.getD_none, evaluatePolicyProto_metadataPolicy,
      evaluateMetadataPolicy_of_get_eq_none actor hchange hget, if_neg hsigner, defaultBase,
      if_neg hfield]
    rfl

end Legacy

/-- What the migrated registry lets be written, in terms of the legacy policies. A field keeps its
policy for insertions and updates, and can be deleted by super admins only. -/
structure Preserves (wire : Wire) (registry : ComponentRegistry) (policies : PolicySet) : Prop where
  changedField : ∀ field (change : MetadataFieldChange) op, change.fieldName = field.asStr →
    op ≠ .delete → (field = .minimumSupportedProtocolVersion →
      (policies.updateMetadataPolicy.get field.asStr).isSome = true) →
      Decides wire registry (metadataFieldComponentMap field) op fun actor =>
        PolicySet.evaluateMetadataPolicy [change] policies.updateMetadataPolicy actor
  changedFloor : ∀ op, op ≠ .delete → policies.updateMetadataPolicy.get
      MetadataField.minimumSupportedProtocolVersion.asStr = none →
    Decides wire registry ComponentId.minSupportedProtocolVersion op fun actor => actor.isSuperAdmin
  deletedField : ∀ field, Decides wire registry (metadataFieldComponentMap field) .delete
    fun actor => actor.isSuperAdmin
  addedAdmins : Decides wire registry ComponentId.adminList .insert
    fun actor => policies.addAdminPolicy.evaluate actor
  removedAdmins : Decides wire registry ComponentId.adminList .delete
    fun actor => policies.removeAdminPolicy.evaluate actor
  addedMembers : ∀ inbox, Decides wire registry ComponentId.groupMembership .insert
    fun actor => policies.addMemberPolicy.evaluate actor inbox
  removedMembers : ∀ inbox, Decides wire registry ComponentId.groupMembership .delete
    fun actor => policies.removeMemberPolicy.evaluate actor inbox

section Synthesis

variable {wire : Wire} {proto : Proto.PolicySet} {registry : ComponentRegistry}
variable (t : Translation proto) {includeDmMembers includeOneshotMessage : Bool}

theorem field_mutable (field : MetadataField) :
    ComponentId.isImmutable (metadataFieldComponentMap field) = false ∧
      ComponentId.isHardcoded (metadataFieldComponentMap field) = false := by
  cases field <;> decide

variable
  (hregistry : Registers wire registry (t.writesOf includeDmMembers includeOneshotMessage))

include hregistry

theorem get_field {field : MetadataField} (hfield : field ≠ .commitLogSigner) :
    ∃ componentType, registry.get wire (metadataFieldComponentMap field) =
      some (fieldMetadata proto field componentType) := by
  obtain ⟨componentType, hmem⟩ := exists_mem_metadataFieldRegistryMapping hfield
  refine ⟨componentType, (hregistry _ _).mpr ?_⟩
  exact List.mem_append_left _ (List.mem_append_left _ (List.mem_map.mpr ⟨_, hmem, rfl⟩))

theorem get_commitLogSigner :
    registry.get wire ComponentId.commitLogSigner =
      some (newComponentMetadata superAdminPermissions .bytes) := by
  refine (hregistry _ _).mpr (List.mem_append_left _ (List.mem_append_right _ ?_))
  simp [Translation.requiredWrites]

theorem get_adminList :
    registry.get wire ComponentId.adminList = some (newComponentMetadata
      ⟨some (metadataPolicy t.addAdmin), some (metadataPolicy t.addAdmin),
        some (metadataPolicy t.removeAdmin)⟩ .tlsSetInboxId) := by
  refine (hregistry _ _).mpr (List.mem_append_left _ (List.mem_append_right _ ?_))
  simp [Translation.requiredWrites]

theorem get_groupMembership :
    registry.get wire ComponentId.groupMembership = some (newComponentMetadata
      ⟨some (metadataPolicy t.addMember), some (metadataPolicy .allow),
        some (metadataPolicy t.removeMember)⟩ .tlsMapInboxIdBytes) := by
  refine (hregistry _ _).mpr (List.mem_append_left _ (List.mem_append_right _ ?_))
  simp [Translation.requiredWrites]

theorem decides_field {field : MetadataField} (hfield : field ≠ .commitLogSigner)
    {op : ComponentOp} (hop : op ≠ .delete) {decision : CommitParticipant → Bool}
    (heval : ∀ actor, evaluatePolicyProto (authorityOf actor) (fieldPolicy proto field) =
      .fromBool (decision actor)) :
    Decides wire registry (metadataFieldComponentMap field) op decision := by
  obtain ⟨componentType, hget⟩ := get_field t hregistry hfield
  refine decides_of_get hget (field_mutable field).1 (field_mutable field).2 rfl ?_ heval
  cases op with
  | delete => exact absurd rfl hop
  | _ => rfl

theorem decides_commitLogSigner (op : ComponentOp) :
    Decides wire registry ComponentId.commitLogSigner op fun actor => actor.isSuperAdmin := by
  refine decides_of_get (get_commitLogSigner t hregistry) rfl rfl rfl ?_
    (fun actor => evaluatePolicyProto_metadataPolicy actor .allowIfActorSuperAdmin)
  cases op <;> rfl

theorem preserves_of_registers {policies : PolicySet} (h : Decoded proto policies) :
    Preserves wire registry policies where
  changedField := by
    intro field change op hchange hop hfloor
    by_cases hsigner : field = .commitLogSigner
    · subst hsigner
      have hnone : policies.updateMetadataPolicy.get MetadataField.commitLogSigner.asStr = none := by
        rw [h.get_metadata]
        cases hproto : proto.updateMetadataPolicy.get MetadataField.commitLogSigner.asStr with
        | none => rfl
        | some policy =>
          obtain ⟨field, hne, heq⟩ := rejectUnknownMetadataFields_ok_iff.mp t.knownFields _
            (HashMap.mem_keys.mpr (by rw [HashMap.containsKey_eq_isSome_get, hproto]; rfl))
          cases field <;> simp [MetadataField.asStr] at hne heq
      simp only [evaluateMetadataPolicy_of_get_eq_none _ hchange hnone, if_true]
      exact decides_commitLogSigner t hregistry op
    · exact decides_field t hregistry hsigner hop fun actor =>
        evaluate_fieldPolicy actor h hchange hsigner hfloor
  changedFloor := by
    intro op hop hnone
    have hproto : proto.updateMetadataPolicy.get
        MetadataField.minimumSupportedProtocolVersion.asStr = none := by
      cases hproto : proto.updateMetadataPolicy.get
          MetadataField.minimumSupportedProtocolVersion.asStr with
      | none => rfl
      | some policy =>
        obtain ⟨converted, hconverted⟩ := h.metadata _ _ hproto
        rw [h.get_metadata, hproto, Option.bind_some, hconverted, toOption_ok] at hnone
        cases hnone
    have hfield : MetadataField.minimumSupportedProtocolVersion ≠ .commitLogSigner := nofun
    refine decides_field t hregistry hfield hop fun actor => ?_
    rw [fieldPolicy, hproto, Option.getD_none, evaluatePolicyProto_metadataPolicy]
    rfl
  deletedField := by
    intro field
    by_cases hsigner : field = .commitLogSigner
    · subst hsigner
      exact decides_commitLogSigner t hregistry .delete
    · obtain ⟨componentType, hget⟩ := get_field t hregistry hsigner
      exact decides_of_get hget (field_mutable field).1 (field_mutable field).2 rfl rfl
        fun actor => evaluatePolicyProto_metadataPolicy actor .allowIfActorSuperAdmin
  addedAdmins := by
    obtain ⟨_, hproto, hadmin⟩ := t.addAdmin_eq
    obtain ⟨_, hproto', hlegacy⟩ := h.addAdmin
    cases hproto.symm.trans hproto'
    refine decides_of_get (get_adminList t hregistry) rfl rfl rfl rfl fun actor => ?_
    rw [evaluatePolicyProto_metadataPolicy, evaluate_of_adminListPolicy actor hadmin hlegacy]
  removedAdmins := by
    obtain ⟨_, hproto, hadmin⟩ := t.removeAdmin_eq
    obtain ⟨_, hproto', hlegacy⟩ := h.removeAdmin
    cases hproto.symm.trans hproto'
    refine decides_of_get (get_adminList t hregistry) rfl rfl rfl rfl fun actor => ?_
    rw [evaluatePolicyProto_metadataPolicy, evaluate_of_adminListPolicy actor hadmin hlegacy]
  addedMembers := by
    intro inbox
    obtain ⟨_, hproto, hmember⟩ := t.addMember_eq
    obtain ⟨_, hproto', hlegacy⟩ := h.addMember
    cases hproto.symm.trans hproto'
    refine decides_of_get (get_groupMembership t hregistry) rfl rfl rfl rfl fun actor => ?_
    rw [evaluatePolicyProto_metadataPolicy, evaluate_of_membershipPolicy actor hmember hlegacy]
  removedMembers := by
    intro inbox
    obtain ⟨_, hproto, hmember⟩ := t.removeMember_eq
    obtain ⟨_, hproto', hlegacy⟩ := h.removeMember
    cases hproto.symm.trans hproto'
    refine decides_of_get (get_groupMembership t hregistry) rfl rfl rfl rfl fun actor => ?_
    rw [evaluatePolicyProto_metadataPolicy, evaluate_of_membershipPolicy actor hmember hlegacy]

end Synthesis

/-- A legacy set is migrated exactly when it is representable, and then every decision about a
change that the legacy policies know is theirs. -/
theorem synthesized_registry_preserves (wire : Wire) (proto : Proto.PolicySet)
    (hwire : wire.RoundTrips proto) :
    ((∃ registry, synthesizeRegistryFromPolicySet wire proto = .ok registry) ↔
        Representable proto) ∧
      ∀ registry policies, synthesizeRegistryFromPolicySet wire proto = .ok registry →
        PolicySet.fromProto proto = .ok policies → Preserves wire registry policies := by
  constructor
  · rw [representable_iff]
    constructor
    · rintro ⟨registry, h⟩
      exact exists_translation h
    · rintro ⟨t⟩
      obtain ⟨registry, h, _⟩ := t.exists_registry hwire true true
      exact ⟨registry, h⟩
  · intro registry policies h hlegacy
    obtain ⟨t⟩ := exists_translation h
    obtain ⟨registry', h', hregistry⟩ := t.exists_registry hwire true true
    cases h.symm.trans h'
    exact preserves_of_registers t hregistry (decoded_of_fromProto hlegacy)

def openPolicies : Proto.PolicySet where
  addMemberPolicy := some (.base 1)
  removeMemberPolicy := some (.base 3)
  updateMetadataPolicy := .ofList [("group_name", .base 1)]
  addAdminPolicy := some (.base 2)
  removeAdminPolicy := some (.base 2)
  updatePermissionsPolicy := some (.base 3)

theorem bareHost_roundTrips : bareHost.toWire.RoundTrips openPolicies := by
  have hbase : ∀ policy, Carries openPolicies policy → ∃ base, policy = metadataPolicy base := by
    rintro policy (hbase | ⟨key, hkey⟩)
    · exact hbase
    · refine ⟨.allow, ?_⟩
      have hmem : (key, policy) ∈ [("group_name", Proto.Policy.base 1)] :=
        HashMap.get_eq_some_iff.mp hkey
      cases List.mem_singleton.mp hmem
      rfl
  intro insert update delete componentType hinsert hupdate hdelete
  obtain ⟨insert, rfl⟩ := hbase _ hinsert
  obtain ⟨update, rfl⟩ := hbase _ hupdate
  obtain ⟨delete, rfl⟩ := hbase _ hdelete
  have hbyte : ∀ base : MetadataBasePolicies,
      Int32.ofNat base.inner.toNatClampNeg.toUInt8.toNat = base.inner := by
    intro base
    cases base <;> rfl
  have htag : Int32.ofNat componentType.tag.toNatClampNeg.toUInt8.toNat = componentType.tag := by
    cases componentType <;> rfl
  intro metadata
  change decodeBaseMetadata (encodeBaseMetadata metadata) = .ok metadata
  simp only [metadata, newComponentMetadata, metadataPolicy, encodeBaseMetadata, decodeBaseMetadata,
    hbyte, htag]

theorem openPolicies_representable : Representable openPolicies where
  addMember := ⟨1, by decide, rfl⟩
  removeMember := ⟨3, by decide, rfl⟩
  addAdmin := ⟨2, by decide, rfl⟩
  removeAdmin := ⟨2, by decide, rfl⟩
  updatePermissions := rfl
  knownFields := by
    intro key hkey
    exact ⟨.groupName, nofun, (List.mem_singleton.mp hkey).symm⟩

def openLegacy : PolicySet where
  addMemberPolicy := .standard .allow
  removeMemberPolicy := .standard .allowIfAdminOrSuperAdmin
  updateMetadataPolicy := .ofList [("group_name", .standard .allow)]
  addAdminPolicy := .standard .allowIfActorAdminOrSuperAdmin
  removeAdminPolicy := .standard .allowIfActorAdminOrSuperAdmin
  updatePermissionsPolicy := .standard .allowIfActorSuperAdmin

theorem fromProto_openPolicies : PolicySet.fromProto openPolicies = .ok openLegacy := rfl

theorem synthesized_registry_preserves_open :
    ∃ registry, synthesizeRegistryFromPolicySet bareHost.toWire openPolicies = .ok registry ∧
      Preserves bareHost.toWire registry openLegacy := by
  have ⟨hiff, hpreserves⟩ :=
    synthesized_registry_preserves bareHost.toWire openPolicies bareHost_roundTrips
  obtain ⟨registry, hregistry⟩ := hiff.mpr openPolicies_representable
  exact ⟨registry, hregistry, hpreserves registry openLegacy hregistry fromProto_openPolicies⟩

/-- Everyone may change the name of such a group, but not delete it once it is migrated; and its
admins may raise the version floor, but not once it is migrated. -/
theorem legacy_decisions_not_preserved :
    ∃ registry, synthesizeRegistryFromPolicySet bareHost.toWire openPolicies = .ok registry ∧
      PolicySet.fromProto openPolicies = .ok openLegacy ∧
        (∃ actor : CommitParticipant, validateComponentWrite bareHost.toWire
            ⟨ComponentId.groupName, .delete, authorityOf actor, none, none⟩ registry =
              .error (.permissionDenied ComponentId.groupName .delete) ∧
          PolicySet.evaluateMetadataPolicy [⟨MetadataField.groupName.asStr, none, none⟩]
            openLegacy.updateMetadataPolicy actor = true) ∧
        ∃ actor : CommitParticipant, validateComponentWrite bareHost.toWire
            ⟨ComponentId.minSupportedProtocolVersion, .update, authorityOf actor, none, none⟩
              registry =
            .error (.permissionDenied ComponentId.minSupportedProtocolVersion .update) ∧
          PolicySet.evaluateMetadataPolicy
            [⟨MetadataField.minimumSupportedProtocolVersion.asStr, none, none⟩]
              openLegacy.updateMetadataPolicy actor = true := by
  obtain ⟨t⟩ := representable_iff.mp openPolicies_representable
  obtain ⟨registry, hregistry, hregisters⟩ := t.exists_registry bareHost_roundTrips true true
  have hpreserves :=
    preserves_of_registers t hregisters (decoded_of_fromProto fromProto_openPolicies)
  refine ⟨registry, hregistry, rfl, ?_, ?_⟩
  · refine ⟨⟨"alice", [], false, false, false⟩, ?_, by decide⟩
    exact hpreserves.deletedField .groupName ⟨"alice", [], false, false, false⟩ none none
  · refine ⟨⟨"bob", [], false, true, false⟩, ?_, by decide⟩
    exact hpreserves.changedFloor .update nofun (by decide) ⟨"bob", [], false, true, false⟩ none none

end LibXmtp.AppData
