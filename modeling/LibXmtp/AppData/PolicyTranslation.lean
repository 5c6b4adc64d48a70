import LibXmtp.AppData.Migration

namespace LibXmtp.AppData

open LibXmtp.Data LibXmtp.Groups

def authorityOf (actor : CommitParticipant) : ActorAuthority := ⟨actor.isAdmin, actor.isSuperAdmin⟩

section Evaluation

variable (actor : CommitParticipant)

theorem evaluateBasePolicy_of_ofInner {base : Int32} {policy : MetadataBasePolicies}
    (h : MetadataBasePolicies.ofInner base = some policy) :
    evaluateBasePolicy base (authorityOf actor) = .fromBool (policy.evaluate actor) := by
  unfold MetadataBasePolicies.ofInner at h
  unfold evaluateBasePolicy
  split_ifs at h ⊢ <;> cases h <;> rfl

theorem evaluatePolicyProto_metadataPolicy (policy : MetadataBasePolicies) :
    evaluatePolicyProto (authorityOf actor) (metadataPolicy policy) =
      .fromBool (policy.evaluate actor) := by
  rw [metadataPolicy, evaluatePolicyProto,
    evaluateBasePolicy_of_ofInner actor (MetadataBasePolicies.ofInner_inner policy)]

mutual

theorem evaluatePolicyProto_of_tryFrom (proto : Proto.Policy) {policy : MetadataPolicies}
    (h : MetadataPolicies.tryFrom proto = .ok policy) :
    evaluatePolicyProto (authorityOf actor) proto = .fromBool (policy.evaluate actor) := by
  match proto with
  | .unset => simp [MetadataPolicies.tryFrom, Policies.tryFrom] at h
  | .base base =>
    simp only [MetadataPolicies.tryFrom, Policies.tryFrom] at h
    split at h
    · rename_i hbase
      cases h
      exact evaluateBasePolicy_of_ofInner actor hbase
    · cases h
  | .andCondition protos =>
    simp only [MetadataPolicies.tryFrom, Policies.tryFrom] at h
    split at h
    · cases h
    · rename_i hne
      obtain ⟨policies, hall, rfl⟩ := map_eq_ok.mp h
      rw [evaluatePolicyProto, if_neg hne]
      exact evaluateAndCondition_of_tryFromAll protos hall
  | .anyCondition protos =>
    simp only [MetadataPolicies.tryFrom, Policies.tryFrom] at h
    split at h
    · cases h
    · rename_i hne
      obtain ⟨policies, hall, rfl⟩ := map_eq_ok.mp h
      rw [evaluatePolicyProto, if_neg hne]
      exact evaluateAnyCondition_of_tryFromAll protos hall

theorem evaluateAndCondition_of_tryFromAll (protos : List Proto.Policy)
    {policies : List MetadataPolicies} (h : Policies.tryFromAll MetadataBasePolicies.ofInner
      .invalidMetadataPolicy protos = .ok policies) :
    evaluateAndCondition (authorityOf actor) protos =
      .fromBool (Policies.evaluateAll (MetadataBasePolicies.evaluate actor) policies) := by
  match protos with
  | [] =>
    cases h
    rfl
  | proto :: protos =>
    simp only [Policies.tryFromAll, bind_eq_ok, pure_eq_ok] at h
    obtain ⟨policy, hpolicy, rest, hrest, rfl⟩ := h
    rw [evaluateAndCondition, evaluatePolicyProto_of_tryFrom proto hpolicy,
      evaluateAndCondition_of_tryFromAll protos hrest, Policies.evaluateAll]
    change _ = PolicyOutcome.fromBool (MetadataPolicies.evaluate policy actor && _)
    cases MetadataPolicies.evaluate policy actor <;> rfl

theorem evaluateAnyCondition_of_tryFromAll (protos : List Proto.Policy)
    {policies : List MetadataPolicies} (h : Policies.tryFromAll MetadataBasePolicies.ofInner
      .invalidMetadataPolicy protos = .ok policies) :
    evaluateAnyCondition (authorityOf actor) protos =
      .fromBool (Policies.evaluateAny (MetadataBasePolicies.evaluate actor) policies) := by
  match protos with
  | [] =>
    cases h
    rfl
  | proto :: protos =>
    simp only [Policies.tryFromAll, bind_eq_ok, pure_eq_ok] at h
    obtain ⟨policy, hpolicy, rest, hrest, rfl⟩ := h
    rw [evaluateAnyCondition, evaluatePolicyProto_of_tryFrom proto hpolicy,
      evaluateAnyCondition_of_tryFromAll protos hrest, Policies.evaluateAny]
    change _ = PolicyOutcome.fromBool (MetadataPolicies.evaluate policy actor || _)
    cases MetadataPolicies.evaluate policy actor <;> rfl

end

end Evaluation

def Decides (wire : Wire) (registry : ComponentRegistry) (id : UInt16) (op : ComponentOp)
    (decision : CommitParticipant → Bool) : Prop :=
  ∀ actor oldValue newValue,
    validateComponentWrite wire ⟨id, op, authorityOf actor, oldValue, newValue⟩ registry =
      if decision actor then .ok () else .error (.permissionDenied id op)

theorem decides_of_get {wire : Wire} {registry : ComponentRegistry} {id : UInt16}
    {metadata : Proto.ComponentMetadata} {permissions : Proto.ComponentPermissions}
    {policy : Proto.Policy} {op : ComponentOp} {decision : CommitParticipant → Bool}
    (hget : registry.get wire id = some metadata) (himmutable : ComponentId.isImmutable id = false)
    (hhardcoded : ComponentId.isHardcoded id = false)
    (hpermissions : metadata.permissions = some permissions)
    (hpolicy : permissions.policy op = some policy)
    (heval : ∀ actor, evaluatePolicyProto (authorityOf actor) policy = .fromBool (decision actor)) :
    Decides wire registry id op decision := by
  intro actor oldValue newValue
  simp only [validateComponentWrite, himmutable, hhardcoded, hget, hpermissions, hpolicy, heval,
    Bool.false_and, rejectIf_false, okOr_some, ok_bind, Bool.false_eq_true, if_false]
  cases decision actor <;> rfl

section Writes

variable {wire : Wire} {registry : ComponentRegistry}

theorem get_set {registry' : ComponentRegistry} {id : UInt16} {metadata : Proto.ComponentMetadata}
    (hread : wire.decodeMetadata (wire.encodeMetadata metadata) = .ok metadata)
    (hset : registry.set wire id metadata = .ok registry') (id' : UInt16) :
    registry'.get wire id' = if id' = id then some metadata else registry.get wire id' := by
  simp only [ComponentRegistry.set, bind_eq_ok, pure_eq_ok] at hset
  obtain ⟨_, hmodifiable, _, hvalid, rfl⟩ := hset
  simp only [ComponentRegistry.validateModifiable, bind_eq_ok, rejectIf_eq_ok] at hmodifiable
  obtain ⟨_, hid, _⟩ := hmodifiable
  simp only [ComponentRegistry.get, TlsMap.get_set]
  split
  · rename_i heq
    subst heq
    simp [ComponentRegistry.decodeRecognized, hid, hread, hvalid, Except.mapError,
      Except.toOption, pure, Except.pure]
  · rfl

theorem contains_eq_isSome_get (registry : ComponentRegistry) (wire : Wire) (id : UInt16) :
    registry.contains wire id = (registry.get wire id).isSome := by
  rw [ComponentRegistry.contains, ComponentRegistry.get]
  cases registry.inner.get id with
  | none => rfl
  | some raw =>
    change (ComponentRegistry.decodeRecognized wire id raw).isOk =
      (ComponentRegistry.decodeRecognized wire id raw).toOption.isSome
    cases ComponentRegistry.decodeRecognized wire id raw <;> rfl

structure Writable (wire : Wire) (write : UInt16 × Proto.ComponentMetadata) : Prop where
  id : ComponentRegistry.validateId write.1 = .ok ()
  metadata : ComponentRegistry.validateMetadata write.1 write.2 = .ok ()
  read : wire.decodeMetadata (wire.encodeMetadata write.2) = .ok write.2

def Registers (wire : Wire) (registry : ComponentRegistry)
    (entries : List (UInt16 × Proto.ComponentMetadata)) : Prop :=
  ∀ id metadata, registry.get wire id = some metadata ↔ (id, metadata) ∈ entries

theorem registers_new (wire : Wire) : Registers wire .new [] := by
  intro id metadata
  simp [ComponentRegistry.get, ComponentRegistry.new]

theorem Registers.set {entries : List (UInt16 × Proto.ComponentMetadata)}
    {write : UInt16 × Proto.ComponentMetadata} (h : Registers wire registry entries)
    (hwrite : Writable wire write) (hnew : ∀ entry ∈ entries, entry.1 ≠ write.1) :
    ∃ registry', migrationSet wire write.1 write.2 registry = .ok registry' ∧
      Registers wire registry' (entries ++ [write]) := by
  have hnone : registry.get wire write.1 = none := by
    refine Option.eq_none_iff_forall_ne_some.mpr fun metadata hmetadata => ?_
    exact hnew _ ((h _ _).mp hmetadata) rfl
  have hset : registry.set wire write.1 write.2 =
      .ok ⟨registry.inner.set write.1 (wire.encodeMetadata write.2)⟩ := by
    simp [ComponentRegistry.set, ComponentRegistry.validateModifiable, hwrite.id, hwrite.metadata,
      contains_eq_isSome_get, hnone, pure, Except.pure]
  refine ⟨_, by rw [migrationSet, hset]; rfl, fun id metadata => ?_⟩
  rw [get_set hwrite.read hset, List.mem_append, List.mem_singleton]
  split
  · rename_i heq
    subst heq
    constructor
    · intro hmetadata
      exact .inr (Prod.ext rfl (Option.some.inj hmetadata).symm)
    · rintro (hmem | hmem)
      · exact absurd rfl (hnew (write.1, metadata) hmem)
      · rw [← hmem]
  · rename_i hne
    rw [h]
    constructor
    · exact .inl
    · rintro (hmem | hmem)
      · exact hmem
      · exact absurd (congrArg Prod.fst hmem) hne

theorem Registers.foldlM {writes : List (UInt16 × Proto.ComponentMetadata)} :
    ∀ {registry entries}, Registers wire registry entries →
      (∀ write ∈ writes, Writable wire write) → ((entries ++ writes).map Prod.fst).Nodup →
        ∃ registry', writes.foldlM (fun registry write =>
            migrationSet wire write.1 write.2 registry) registry = .ok registry' ∧
          Registers wire registry' (entries ++ writes) := by
  induction writes with
  | nil =>
    intro registry entries h _ _
    exact ⟨registry, rfl, by rwa [List.append_nil]⟩
  | cons write writes ih =>
    intro registry entries h hwrites hnodup
    have hnew : ∀ entry ∈ entries, entry.1 ≠ write.1 := by
      rw [List.map_append, List.map_cons, List.nodup_append] at hnodup
      intro entry hentry
      exact hnodup.2.2 _ (List.mem_map_of_mem hentry) _ List.mem_cons_self
    obtain ⟨next, hset, hnext⟩ := h.set (hwrites write List.mem_cons_self) hnew
    rw [← List.singleton_append, ← List.append_assoc] at hnodup ⊢
    obtain ⟨registry', hrest, hregisters⟩ :=
      ih hnext (fun w hw => hwrites w (List.mem_cons_of_mem _ hw)) hnodup
    refine ⟨registry', ?_, hregisters⟩
    rw [List.singleton_append, List.foldlM_cons, hset]
    exact hrest

end Writes

/-- The legacy sets that have a counterpart among the registries. -/
structure Representable (policySet : Proto.PolicySet) : Prop where
  addMember : ∃ base ∈ [1, 2, 3, 4], policySet.addMemberPolicy = some (.base base)
  removeMember : ∃ base ∈ [1, 2, 3, 4], policySet.removeMemberPolicy = some (.base base)
  addAdmin : ∃ base ∈ [2, 3], policySet.addAdminPolicy = some (.base base)
  removeAdmin : ∃ base ∈ [2, 3], policySet.removeAdminPolicy = some (.base base)
  updatePermissions : policySet.updatePermissionsPolicy = some (.base 3)
  knownFields : ∀ key ∈ policySet.updateMetadataPolicy.keys,
    ∃ field, field ≠ MetadataField.commitLogSigner ∧ field.asStr = key

structure Translation (policySet : Proto.PolicySet) where
  addMember : MetadataBasePolicies
  addMember_eq : ∃ policy, policySet.addMemberPolicy = some policy ∧
    membershipPolicyToMetadataPolicy policy = .ok (metadataPolicy addMember)
  removeMember : MetadataBasePolicies
  removeMember_eq : ∃ policy, policySet.removeMemberPolicy = some policy ∧
    membershipPolicyToMetadataPolicy policy = .ok (metadataPolicy removeMember)
  addAdmin : MetadataBasePolicies
  addAdmin_eq : ∃ policy, policySet.addAdminPolicy = some policy ∧
    adminListPolicyToMetadataPolicy policy = .ok (metadataPolicy addAdmin)
  removeAdmin : MetadataBasePolicies
  removeAdmin_eq : ∃ policy, policySet.removeAdminPolicy = some policy ∧
    adminListPolicyToMetadataPolicy policy = .ok (metadataPolicy removeAdmin)
  updatePermissions : ∃ policy, policySet.updatePermissionsPolicy = some policy ∧
    validateUpdatePermissionsIsSuperAdmin policy = .ok ()
  knownFields : rejectUnknownMetadataFields policySet = .ok ()

theorem exists_base_of_membershipPolicy {policy converted : Proto.Policy}
    (h : membershipPolicyToMetadataPolicy policy = .ok converted) :
    ∃ base, converted = metadataPolicy base := by
  cases policy with
  | base inner =>
    simp only [membershipPolicyToMetadataPolicy] at h
    split at h <;> cases h <;> exact ⟨_, rfl⟩
  | _ => cases h

theorem exists_base_of_adminListPolicy {policy converted : Proto.Policy}
    (h : adminListPolicyToMetadataPolicy policy = .ok converted) :
    ∃ base, converted = metadataPolicy base := by
  cases policy with
  | base inner =>
    simp only [adminListPolicyToMetadataPolicy] at h
    split at h <;> cases h <;> exact ⟨_, rfl⟩
  | _ => cases h

namespace Translation

variable {policySet : Proto.PolicySet}

def writes (t : Translation policySet) : List (UInt16 × Proto.ComponentMetadata) :=
  metadataFieldRegistryMapping.map (fun (field, id, componentType) =>
    (id, fieldMetadata policySet field componentType)) ++
  [(ComponentId.commitLogSigner, newComponentMetadata superAdminPermissions .bytes),
    (ComponentId.adminList, newComponentMetadata ⟨some (metadataPolicy t.addAdmin),
      some (metadataPolicy t.addAdmin), some (metadataPolicy t.removeAdmin)⟩ .tlsSetInboxId),
    (ComponentId.groupMembership, newComponentMetadata ⟨some (metadataPolicy t.addMember),
      some (metadataPolicy .allow), some (metadataPolicy t.removeMember)⟩ .tlsMapInboxIdBytes),
    (ComponentId.conversationType, newComponentMetadata immutablePermissions .bytes),
    (ComponentId.creatorInboxId, newComponentMetadata immutablePermissions .bytes),
    (ComponentId.oneshotMessage, newComponentMetadata immutablePermissions .bytes),
    (ComponentId.dmMembers, newComponentMetadata immutablePermissions .tlsSetInboxId)]

def fieldWrites (policySet : Proto.PolicySet) : List (UInt16 × Proto.ComponentMetadata) :=
  metadataFieldRegistryMapping.map fun (field, id, componentType) =>
    (id, fieldMetadata policySet field componentType)

def requiredWrites (t : Translation policySet) : List (UInt16 × Proto.ComponentMetadata) :=
  [(ComponentId.commitLogSigner, newComponentMetadata superAdminPermissions .bytes),
    (ComponentId.adminList, newComponentMetadata ⟨some (metadataPolicy t.addAdmin),
      some (metadataPolicy t.addAdmin), some (metadataPolicy t.removeAdmin)⟩ .tlsSetInboxId),
    (ComponentId.groupMembership, newComponentMetadata ⟨some (metadataPolicy t.addMember),
      some (metadataPolicy .allow), some (metadataPolicy t.removeMember)⟩ .tlsMapInboxIdBytes),
    (ComponentId.conversationType, newComponentMetadata immutablePermissions .bytes),
    (ComponentId.creatorInboxId, newComponentMetadata immutablePermissions .bytes)]

def optionalWrites (includeDmMembers includeOneshotMessage : Bool) :
    List (UInt16 × Proto.ComponentMetadata) :=
  (if includeOneshotMessage then
    [(ComponentId.oneshotMessage, newComponentMetadata immutablePermissions .bytes)] else []) ++
  if includeDmMembers then
    [(ComponentId.dmMembers, newComponentMetadata immutablePermissions .tlsSetInboxId)] else []

def writesOf (t : Translation policySet) (includeDmMembers includeOneshotMessage : Bool) :
    List (UInt16 × Proto.ComponentMetadata) :=
  fieldWrites policySet ++ t.requiredWrites ++ optionalWrites includeDmMembers includeOneshotMessage

theorem writesOf_sublist (t : Translation policySet)
    (includeDmMembers includeOneshotMessage : Bool) :
    (t.writesOf includeDmMembers includeOneshotMessage).Sublist t.writes := by
  have hwrites : t.writes = t.writesOf true true := rfl
  rw [hwrites, writesOf, writesOf]
  refine List.Sublist.append (List.Sublist.refl _) ?_
  cases includeDmMembers <;> cases includeOneshotMessage <;> simp [optionalWrites]

theorem buildRegistry_eq (t : Translation policySet) (wire : Wire)
    (includeDmMembers includeOneshotMessage : Bool) :
    buildRegistry wire policySet includeDmMembers includeOneshotMessage =
      (t.writesOf includeDmMembers includeOneshotMessage).foldlM (fun registry write =>
        migrationSet wire write.1 write.2 registry) ComponentRegistry.new := by
  obtain ⟨_, haddMember, haddMember'⟩ := t.addMember_eq
  obtain ⟨_, hremoveMember, hremoveMember'⟩ := t.removeMember_eq
  obtain ⟨_, haddAdmin, haddAdmin'⟩ := t.addAdmin_eq
  obtain ⟨_, hremoveAdmin, hremoveAdmin'⟩ := t.removeAdmin_eq
  obtain ⟨_, hpermissions, hpermissions'⟩ := t.updatePermissions
  have hok (registry : ComponentRegistry) :
      (.ok registry : Except MigrationError ComponentRegistry) = pure registry := rfl
  simp only [buildRegistry, haddMember, haddMember', hremoveMember, hremoveMember', haddAdmin,
    haddAdmin', hremoveAdmin, hremoveAdmin', hpermissions, hpermissions', t.knownFields, okOr_some,
    ok_bind, hok, writesOf, fieldWrites, requiredWrites, optionalWrites, List.foldlM_append,
    List.foldlM_map, List.foldlM_cons, List.foldlM_nil, bind_assoc, bind_pure]
  cases includeDmMembers <;> cases includeOneshotMessage <;>
    simp only [Bool.false_eq_true, if_true, if_false, List.foldlM_cons, List.foldlM_nil, bind_pure,
      pure_bind]

end Translation

theorem exists_translation {wire : Wire} {policySet : Proto.PolicySet}
    {includeDmMembers includeOneshotMessage : Bool} {registry : ComponentRegistry}
    (h : buildRegistry wire policySet includeDmMembers includeOneshotMessage = .ok registry) :
    Nonempty (Translation policySet) := by
  simp only [buildRegistry, bind_eq_ok, okOr_eq_ok] at h
  obtain ⟨addMember, haddMember, removeMember, hremoveMember, addAdmin, haddAdmin, removeAdmin,
    hremoveAdmin, permissions, hpermissions, _, hsuper, _, hknown, _, _, _, _, adminPolicy,
    hadminPolicy, removeAdminPolicy, hremoveAdminPolicy, _, _, insertPolicy, hinsertPolicy,
    deletePolicy, hdeletePolicy, _⟩ := h
  obtain ⟨_, rfl⟩ := exists_base_of_adminListPolicy hadminPolicy
  obtain ⟨_, rfl⟩ := exists_base_of_adminListPolicy hremoveAdminPolicy
  obtain ⟨_, rfl⟩ := exists_base_of_membershipPolicy hinsertPolicy
  obtain ⟨_, rfl⟩ := exists_base_of_membershipPolicy hdeletePolicy
  exact ⟨_, ⟨_, haddMember, hinsertPolicy⟩, _, ⟨_, hremoveMember, hdeletePolicy⟩, _,
    ⟨_, haddAdmin, hadminPolicy⟩, _, ⟨_, hremoveAdmin, hremoveAdminPolicy⟩,
    ⟨_, hpermissions, hsuper⟩, hknown⟩

/-- A policy of the migration: a base policy, or one of the legacy metadata policies. -/
def Carries (policySet : Proto.PolicySet) (policy : Proto.Policy) : Prop :=
  (∃ base, policy = metadataPolicy base) ∨ ∃ key, policySet.updateMetadataPolicy.get key = some policy

/-- Metadata of the policies the set carries is read back as it was written. -/
def Wire.RoundTrips (wire : Wire) (policySet : Proto.PolicySet) : Prop :=
  ∀ insert update delete componentType, Carries policySet insert → Carries policySet update →
    Carries policySet delete →
      let metadata := newComponentMetadata ⟨some insert, some update, some delete⟩ componentType
      wire.decodeMetadata (wire.encodeMetadata metadata) = .ok metadata

theorem carries_metadataPolicy (policySet : Proto.PolicySet) (base : MetadataBasePolicies) :
    Carries policySet (metadataPolicy base) := .inl ⟨base, rfl⟩

theorem carries_fieldPolicy (policySet : Proto.PolicySet) (field : MetadataField) :
    Carries policySet (fieldPolicy policySet field) := by
  unfold fieldPolicy
  cases h : policySet.updateMetadataPolicy.get field.asStr with
  | none => exact carries_metadataPolicy _ _
  | some policy => exact .inr ⟨_, h⟩

theorem constrained_of_adminListPolicy {policy converted : Proto.Policy}
    (h : adminListPolicyToMetadataPolicy policy = .ok converted) :
    ComponentRegistry.isAdminOrSuperAdminPolicy converted = true := by
  cases policy with
  | base inner =>
    simp only [adminListPolicyToMetadataPolicy] at h
    split at h <;> cases h <;> rfl
  | _ => cases h

theorem writable_of_carries {wire : Wire} {policySet : Proto.PolicySet}
    (hwire : wire.RoundTrips policySet) {id : UInt16} {insert update delete : Proto.Policy}
    {componentType : ComponentType} (hid : ComponentRegistry.validateId id = .ok ())
    (hinsert : Carries policySet insert) (hupdate : Carries policySet update)
    (hdelete : Carries policySet delete)
    (hconstrained : ComponentId.isConstrained id = true →
      ∀ policy ∈ [insert, update, delete],
        ComponentRegistry.isAdminOrSuperAdminPolicy policy = true) :
    Writable wire
      (id, newComponentMetadata ⟨some insert, some update, some delete⟩ componentType) where
  id := hid
  metadata := by
    cases hc : ComponentId.isConstrained id with
    | false =>
      simp [ComponentRegistry.validateMetadata, ComponentRegistry.validatePolicyField,
        newComponentMetadata, hc]
    | true =>
      have hall := hconstrained hc
      simp only [List.mem_cons, forall_eq_or_imp] at hall
      simp [ComponentRegistry.validateMetadata, ComponentRegistry.validatePolicyField,
        newComponentMetadata, hall]
  read := hwire insert update delete componentType hinsert hupdate hdelete

namespace Translation

variable {wire : Wire} {policySet : Proto.PolicySet} (t : Translation policySet)

theorem constrained_addAdmin :
    ComponentRegistry.isAdminOrSuperAdminPolicy (metadataPolicy t.addAdmin) = true := by
  obtain ⟨_, _, h⟩ := t.addAdmin_eq
  exact constrained_of_adminListPolicy h

theorem constrained_removeAdmin :
    ComponentRegistry.isAdminOrSuperAdminPolicy (metadataPolicy t.removeAdmin) = true := by
  obtain ⟨_, _, h⟩ := t.removeAdmin_eq
  exact constrained_of_adminListPolicy h

theorem writable (hwire : wire.RoundTrips policySet) :
    ∀ write ∈ t.writes, Writable wire write := by
  have base := carries_metadataPolicy policySet
  intro write hwrite
  rw [writes, List.mem_append, List.mem_map] at hwrite
  rcases hwrite with ⟨⟨field, id, componentType⟩, hfield, rfl⟩ | hwrite
  · have hid : ComponentRegistry.validateId id = .ok () ∧ ComponentId.isConstrained id = false := by
      have hall : metadataFieldRegistryMapping.all fun (_, id, _) =>
          (ComponentRegistry.validateId id).isOk && !ComponentId.isConstrained id := by decide
      have hid := List.all_eq_true.mp hall _ hfield
      simp only [Bool.and_eq_true, Bool.not_eq_true'] at hid
      obtain ⟨_, hok⟩ := exists_of_isOk hid.1
      exact ⟨hok, hid.2⟩
    refine writable_of_carries hwire hid.1 (carries_fieldPolicy _ _) (carries_fieldPolicy _ _)
      (base _) fun hconstrained => ?_
    simp [hid.2] at hconstrained
  · simp only [List.mem_cons, List.not_mem_nil, or_false] at hwrite
    rcases hwrite with rfl | rfl | rfl | rfl | rfl | rfl | rfl
    · exact writable_of_carries hwire rfl (base _) (base _) (base _) fun h => absurd h (by decide)
    · refine writable_of_carries hwire rfl (base _) (base _) (base _) fun _ => ?_
      simp [t.constrained_addAdmin, t.constrained_removeAdmin]
    all_goals
      exact writable_of_carries hwire rfl (base _) (base _) (base _) fun h => absurd h (by decide)

theorem nodup_writes : (t.writes.map Prod.fst).Nodup := by
  have heq : t.writes.map Prod.fst = [0x8004, 0x8005, 0x8006, 0x8007, 0x8008, 0x8009, 0x800A,
    0x800B, 0x8002, 0x8003, 0xBFFF, 0xBFFE, 0xBFFC, 0xBFFD] := rfl
  rw [heq]
  decide

theorem exists_registry (hwire : wire.RoundTrips policySet)
    (includeDmMembers includeOneshotMessage : Bool) :
    ∃ registry,
      buildRegistry wire policySet includeDmMembers includeOneshotMessage = .ok registry ∧
        Registers wire registry (t.writesOf includeDmMembers includeOneshotMessage) := by
  rw [t.buildRegistry_eq]
  have hsublist := t.writesOf_sublist includeDmMembers includeOneshotMessage
  exact (registers_new wire).foldlM (fun write hwrite => t.writable hwire write (hsublist.mem hwrite))
    (t.nodup_writes.sublist (hsublist.map Prod.fst))

end Translation

theorem adminListPolicy_ok_iff {policy : Proto.Policy} :
    (∃ converted, adminListPolicyToMetadataPolicy policy = .ok converted) ↔
      ∃ base ∈ [2, 3], policy = .base base := by
  cases policy with
  | base inner =>
    simp only [adminListPolicyToMetadataPolicy, PermissionsBasePolicies.ofInner]
    split_ifs <;> simp_all
  | _ => simp [adminListPolicyToMetadataPolicy]

theorem membershipPolicy_ok_iff {policy : Proto.Policy} :
    (∃ converted, membershipPolicyToMetadataPolicy policy = .ok converted) ↔
      ∃ base ∈ [1, 2, 3, 4], policy = .base base := by
  cases policy with
  | base inner =>
    simp only [membershipPolicyToMetadataPolicy, BasePolicies.ofInner]
    split_ifs <;> simp_all
  | _ => simp [membershipPolicyToMetadataPolicy]

theorem validateUpdatePermissions_ok_iff {policy : Proto.Policy} :
    validateUpdatePermissionsIsSuperAdmin policy = .ok () ↔ policy = .base 3 := by
  cases policy with
  | base inner =>
    simp only [validateUpdatePermissionsIsSuperAdmin, PermissionsBasePolicies.ofInner]
    split_ifs <;> simp_all
  | _ => simp [validateUpdatePermissionsIsSuperAdmin]

theorem exists_mem_metadataFieldRegistryMapping {field : MetadataField}
    (h : field ≠ .commitLogSigner) : ∃ componentType,
      (field, metadataFieldComponentMap field, componentType) ∈ metadataFieldRegistryMapping := by
  cases field with
  | commitLogSigner => exact absurd rfl h
  | _ => simp [metadataFieldRegistryMapping, metadataFieldComponentMap]

theorem isKnownMetadataField_iff {key : String} : isKnownMetadataField key = true ↔
    ∃ field, field ≠ MetadataField.commitLogSigner ∧ field.asStr = key := by
  simp only [isKnownMetadataField, List.any_eq_true, beq_iff_eq, Prod.exists]
  constructor
  · rintro ⟨field, id, componentType, hmem, rfl⟩
    refine ⟨field, ?_, rfl⟩
    rintro rfl
    simp [metadataFieldRegistryMapping] at hmem
  · rintro ⟨field, hne, rfl⟩
    obtain ⟨componentType, hmem⟩ := exists_mem_metadataFieldRegistryMapping hne
    exact ⟨field, _, componentType, hmem, rfl⟩

theorem rejectUnknownMetadataFields_ok_iff {policySet : Proto.PolicySet} :
    rejectUnknownMetadataFields policySet = .ok () ↔
      ∀ key ∈ policySet.updateMetadataPolicy.keys,
        ∃ field, field ≠ MetadataField.commitLogSigner ∧ field.asStr = key := by
  rw [rejectUnknownMetadataFields, forM_eq_ok]
  simp [isKnownMetadataField_iff]

theorem representable_iff {policySet : Proto.PolicySet} :
    Representable policySet ↔ Nonempty (Translation policySet) := by
  constructor
  · intro h
    obtain ⟨_, haddMember, haddMember'⟩ := h.addMember
    obtain ⟨_, hremoveMember, hremoveMember'⟩ := h.removeMember
    obtain ⟨_, haddAdmin, haddAdmin'⟩ := h.addAdmin
    obtain ⟨_, hremoveAdmin, hremoveAdmin'⟩ := h.removeAdmin
    obtain ⟨_, hinsert⟩ := membershipPolicy_ok_iff.mpr ⟨_, haddMember, rfl⟩
    obtain ⟨_, hdelete⟩ := membershipPolicy_ok_iff.mpr ⟨_, hremoveMember, rfl⟩
    obtain ⟨_, hadmin⟩ := adminListPolicy_ok_iff.mpr ⟨_, haddAdmin, rfl⟩
    obtain ⟨_, hadmin'⟩ := adminListPolicy_ok_iff.mpr ⟨_, hremoveAdmin, rfl⟩
    obtain ⟨_, rfl⟩ := exists_base_of_membershipPolicy hinsert
    obtain ⟨_, rfl⟩ := exists_base_of_membershipPolicy hdelete
    obtain ⟨_, rfl⟩ := exists_base_of_adminListPolicy hadmin
    obtain ⟨_, rfl⟩ := exists_base_of_adminListPolicy hadmin'
    exact ⟨_, ⟨_, haddMember', hinsert⟩, _, ⟨_, hremoveMember', hdelete⟩, _,
      ⟨_, haddAdmin', hadmin⟩, _, ⟨_, hremoveAdmin', hadmin'⟩,
      ⟨_, h.updatePermissions, validateUpdatePermissions_ok_iff.mpr rfl⟩,
      rejectUnknownMetadataFields_ok_iff.mpr h.knownFields⟩
  · rintro ⟨t⟩
    obtain ⟨_, haddMember, hinsert⟩ := t.addMember_eq
    obtain ⟨_, hremoveMember, hdelete⟩ := t.removeMember_eq
    obtain ⟨_, haddAdmin, hadmin⟩ := t.addAdmin_eq
    obtain ⟨_, hremoveAdmin, hadmin'⟩ := t.removeAdmin_eq
    obtain ⟨_, hpermissions, hsuper⟩ := t.updatePermissions
    obtain ⟨_, hbase, rfl⟩ := membershipPolicy_ok_iff.mp ⟨_, hinsert⟩
    obtain ⟨_, hbase', rfl⟩ := membershipPolicy_ok_iff.mp ⟨_, hdelete⟩
    obtain ⟨_, hadminBase, rfl⟩ := adminListPolicy_ok_iff.mp ⟨_, hadmin⟩
    obtain ⟨_, hadminBase', rfl⟩ := adminListPolicy_ok_iff.mp ⟨_, hadmin'⟩
    obtain rfl := validateUpdatePermissions_ok_iff.mp hsuper
    exact ⟨⟨_, hbase, haddMember⟩, ⟨_, hbase', hremoveMember⟩, ⟨_, hadminBase, haddAdmin⟩,
      ⟨_, hadminBase', hremoveAdmin⟩, hpermissions,
      rejectUnknownMetadataFields_ok_iff.mp t.knownFields⟩

end LibXmtp.AppData
