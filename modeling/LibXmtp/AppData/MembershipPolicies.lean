import LibXmtp.AppData.ComponentSource
import LibXmtp.AppData.MigratedPermissions
import LibXmtp.AppData.PolicyAgreement
import LibXmtp.AppData.RegistryWrites

/-! Who may add and remove members of a migrated group: the policies read from the registry for the
proposals, beside the check of the write that goes with them. -/

namespace LibXmtp.AppData

open LibXmtp.Data LibXmtp.Groups

def metadataPolicyToMembership : Proto.Policy → MembershipPolicies
  | .base base =>
    match MetadataBasePolicies.ofInner base with
    | some .allow => .standard .allow
    | some .deny => .standard .deny
    | some .allowIfActorAdminOrSuperAdmin => .standard .allowIfAdminOrSuperAdmin
    | some .allowIfActorSuperAdmin => .standard .allowIfSuperAdmin
    | none => .standard .deny
  -- a condition is not translated, and denied to everyone
  | .andCondition _ | .anyCondition _ | .unset => .standard .deny

def membershipPolicyOrDeny (policy : Option Proto.Policy) : MembershipPolicies :=
  match policy with
  | some policy => metadataPolicyToMembership policy
  | none => .standard .deny

def membershipPolicies (wire : Wire) (registry : ComponentRegistry) :
    MembershipPolicies × MembershipPolicies :=
  match registry.get wire ComponentId.groupMembership with
  | some metadata =>
    match metadata.permissions with
    | some permissions =>
      (membershipPolicyOrDeny permissions.insertPolicy,
        membershipPolicyOrDeny permissions.deletePolicy)
    | none => (.standard .deny, .standard .deny)
  | none => (.standard .deny, .standard .deny)

def membershipPolicySetFromRegistry (wire : Wire) (extensions : Extensions) :
    Except ComponentSourceError GroupMutablePermissions := do
  let registry ← loadComponentRegistry wire extensions
  let (addPolicy, removePolicy) := membershipPolicies wire registry
  return {
    policies := {
      addMemberPolicy := addPolicy
      removeMemberPolicy := removePolicy
      updateMetadataPolicy := .empty
      addAdminPolicy := .standard .allowIfActorSuperAdmin
      removeAdminPolicy := .standard .allowIfActorSuperAdmin
      updatePermissionsPolicy := .standard .allowIfActorSuperAdmin } }

def storedMembershipPolicy (wire : Wire) (registry : ComponentRegistry) (op : ComponentOp) :
    Option Proto.Policy := do
  let metadata ← registry.get wire ComponentId.groupMembership
  let permissions ← metadata.permissions
  permissions.policy op

def isCondition : Proto.Policy → Bool
  | .andCondition _ | .anyCondition _ => true
  | .base _ | .unset => false

section Judges

theorem fromBool_eq_allow {allowed : Bool} :
    PolicyOutcome.fromBool allowed = .allow ↔ allowed = true := by
  cases allowed <;> simp [PolicyOutcome.fromBool]

variable (actor : CommitParticipant) (inbox : Inbox)

theorem evaluate_base (base : Int32) :
    (metadataPolicyToMembership (.base base)).evaluate actor inbox = true ↔
      evaluatePolicyProto (authorityOf actor) (.base base) = .allow := by
  rw [evaluatePolicyProto, metadataPolicyToMembership]
  cases hbase : MetadataBasePolicies.ofInner base with
  | none =>
    rw [evaluateBasePolicy_of_none actor hbase]
    simp [MembershipPolicies.evaluate, Policies.evaluate, BasePolicies.evaluate]
  | some policy =>
    rw [evaluateBasePolicy_of_ofInner actor hbase, fromBool_eq_allow]
    cases policy <;> rfl

theorem evaluate_metadataPolicyToMembership (policy : Proto.Policy) :
    (metadataPolicyToMembership policy).evaluate actor inbox = true ↔
      evaluatePolicyProto (authorityOf actor) policy = .allow ∧ isCondition policy = false := by
  cases policy with
  | base base =>
    rw [evaluate_base]
    exact ⟨fun h => ⟨h, rfl⟩, fun h => h.1⟩
  | unset =>
    rw [evaluatePolicyProto]
    simp [metadataPolicyToMembership, MembershipPolicies.evaluate, Policies.evaluate,
      BasePolicies.evaluate]
  | andCondition policies | anyCondition policies =>
    simp [metadataPolicyToMembership, MembershipPolicies.evaluate, Policies.evaluate,
      BasePolicies.evaluate, isCondition]

theorem evaluate_membershipPolicyOrDeny (policy : Option Proto.Policy) :
    (membershipPolicyOrDeny policy).evaluate actor inbox = true ↔
      ∃ stored, policy = some stored ∧ isCondition stored = false ∧
        evaluatePolicyProto (authorityOf actor) stored = .allow := by
  cases policy with
  | none =>
    simp [membershipPolicyOrDeny, MembershipPolicies.evaluate, Policies.evaluate,
      BasePolicies.evaluate]
  | some stored =>
    rw [membershipPolicyOrDeny, evaluate_metadataPolicyToMembership]
    simp [and_comm]

variable {wire : Wire} {registry : ComponentRegistry}

theorem membershipPolicies_eq : membershipPolicies wire registry =
    (membershipPolicyOrDeny (storedMembershipPolicy wire registry .insert),
      membershipPolicyOrDeny (storedMembershipPolicy wire registry .delete)) := by
  rw [membershipPolicies, storedMembershipPolicy, storedMembershipPolicy]
  cases registry.get wire ComponentId.groupMembership with
  | none => rfl
  | some metadata =>
    cases hpermissions : metadata.permissions with
    | none => simp [hpermissions, membershipPolicyOrDeny]
    | some permissions => simp [hpermissions, Proto.ComponentPermissions.policy]

variable {oldValue newValue : Option Bytes}

theorem validateComponentWrite_groupMembership {op : ComponentOp} :
    validateComponentWrite wire
        ⟨ComponentId.groupMembership, op, authorityOf actor, oldValue, newValue⟩ registry = .ok () ↔
      ∃ stored, storedMembershipPolicy wire registry op = some stored ∧
        evaluatePolicyProto (authorityOf actor) stored = .allow := by
  have himmutable : ComponentId.isImmutable ComponentId.groupMembership = false := rfl
  have hhardcoded : ComponentId.isHardcoded ComponentId.groupMembership = false := rfl
  simp only [validateComponentWrite, himmutable, hhardcoded, Bool.false_and, rejectIf_false,
    ok_bind, Bool.false_eq_true, if_false, bind_eq_ok, okOr_eq_ok, storedMembershipPolicy,
    Option.bind_eq_bind, Option.bind_eq_some_iff]
  constructor
  · rintro ⟨metadata, hmetadata, permissions, hpermissions, policy, hpolicy, hwalk⟩
    refine ⟨policy, ⟨metadata, hmetadata, permissions, hpermissions, hpolicy⟩, ?_⟩
    cases houtcome : evaluatePolicyProto (authorityOf actor) policy with
    | allow => rfl
    | deny | invalid => simp [houtcome] at hwalk
  · rintro ⟨policy, ⟨metadata, hmetadata, permissions, hpermissions, hpolicy⟩, hallow⟩
    refine ⟨metadata, hmetadata, permissions, hpermissions, policy, hpolicy, ?_⟩
    rw [hallow]
    rfl

/-- A policy of the set allows an actor what the write of a member allows it, if the policy stored
for the write is no condition, and nothing if it is one. -/
def JudgesWrites (wire : Wire) (registry : ComponentRegistry) (op : ComponentOp)
    (policy : MembershipPolicies) : Prop :=
  ∀ actor inbox oldValue newValue, policy.evaluate actor inbox = true ↔
    validateComponentWrite wire
        ⟨ComponentId.groupMembership, op, authorityOf actor, oldValue, newValue⟩ registry = .ok () ∧
      (storedMembershipPolicy wire registry op).any isCondition = false

theorem judgesWrites (op : ComponentOp) : JudgesWrites wire registry op
    (membershipPolicyOrDeny (storedMembershipPolicy wire registry op)) := by
  intro actor inbox oldValue newValue
  rw [evaluate_membershipPolicyOrDeny, validateComponentWrite_groupMembership]
  constructor
  · rintro ⟨stored, hstored, hcondition, hallow⟩
    rw [hstored]
    exact ⟨⟨stored, rfl, hallow⟩, hcondition⟩
  · rintro ⟨⟨stored, hstored, hallow⟩, hcondition⟩
    rw [hstored] at hcondition
    exact ⟨stored, hstored, hcondition, hallow⟩

/-- A policy of the set, and the write beside it, allow what the legacy policy allows. -/
def KeepsLegacy (wire : Wire) (registry : ComponentRegistry) (op : ComponentOp)
    (policy legacy : MembershipPolicies) : Prop :=
  ∀ actor inbox oldValue newValue, policy.evaluate actor inbox = legacy.evaluate actor inbox ∧
    (validateComponentWrite wire
        ⟨ComponentId.groupMembership, op, authorityOf actor, oldValue, newValue⟩ registry = .ok () ↔
      legacy.evaluate actor inbox = true)

theorem keepsLegacy {op : ComponentOp} {policy legacy : MembershipPolicies}
    {base : MetadataBasePolicies} (hjudges : JudgesWrites wire registry op policy)
    (hstored : storedMembershipPolicy wire registry op = some (metadataPolicy base))
    (hdecides : ∀ inbox, Decides wire registry ComponentId.groupMembership op
      fun actor => legacy.evaluate actor inbox) : KeepsLegacy wire registry op policy legacy := by
  intro actor inbox oldValue newValue
  have hwrite : validateComponentWrite wire
      ⟨ComponentId.groupMembership, op, authorityOf actor, oldValue, newValue⟩ registry = .ok () ↔
        legacy.evaluate actor inbox = true := by
    rw [hdecides inbox actor oldValue newValue]
    cases hevaluate : legacy.evaluate actor inbox <;> simp [hevaluate]
  refine ⟨Bool.eq_iff_iff.mpr ?_, hwrite⟩
  rw [hjudges actor inbox oldValue newValue, hwrite, hstored]
  exact ⟨fun h => h.1, fun h => ⟨h, rfl⟩⟩

end Judges

section Migrated

variable {wire : Wire} {proto : Proto.PolicySet} {registry : ComponentRegistry}
  {includeDmMembers includeOneshotMessage : Bool}

theorem not_isCondition_of_migrated {policy : Option Proto.Policy} {converted : Proto.Policy}
    (h : ∃ stored, policy = some stored ∧ membershipPolicyToMetadataPolicy stored = .ok converted) :
    policy.any isCondition = false := by
  obtain ⟨stored, hstored, hconverted⟩ := h
  obtain ⟨base, _, hbase⟩ := membershipPolicy_ok_iff.mp ⟨converted, hconverted⟩
  rw [hstored, hbase]
  rfl

theorem not_migrated_of_isCondition (h : proto.addMemberPolicy.any isCondition = true ∨
      proto.removeMemberPolicy.any isCondition = true) :
    buildRegistry wire proto includeDmMembers includeOneshotMessage ≠ .ok registry := by
  intro hbuild
  obtain ⟨t⟩ := exists_translation hbuild
  cases h with
  | inl hadd =>
    rw [not_isCondition_of_migrated t.addMember_eq] at hadd
    cases hadd
  | inr hremove =>
    rw [not_isCondition_of_migrated t.removeMember_eq] at hremove
    cases hremove

theorem keepsLegacy_of_migrated {legacy : PolicySet} (hwire : wire.RoundTrips proto)
    (hbuild : buildRegistry wire proto includeDmMembers includeOneshotMessage = .ok registry)
    (hlegacy : PolicySet.fromProto proto = .ok legacy) :
    KeepsLegacy wire registry .insert
        (membershipPolicyOrDeny (storedMembershipPolicy wire registry .insert))
        legacy.addMemberPolicy ∧
      KeepsLegacy wire registry .delete
        (membershipPolicyOrDeny (storedMembershipPolicy wire registry .delete))
        legacy.removeMemberPolicy := by
  obtain ⟨t⟩ := exists_translation hbuild
  obtain ⟨registry', hbuild', hregisters⟩ :=
    t.exists_registry hwire includeDmMembers includeOneshotMessage
  cases hbuild.symm.trans hbuild'
  have hpreserves := preserves_of_registers t hregisters (decoded_of_fromProto hlegacy)
  have hget := get_groupMembership t hregisters
  constructor
  · have hstored : storedMembershipPolicy wire registry .insert =
        some (metadataPolicy t.addMember) := by
      rw [storedMembershipPolicy, hget]
      rfl
    exact keepsLegacy (judgesWrites .insert) hstored hpreserves.addedMembers
  · have hstored : storedMembershipPolicy wire registry .delete =
        some (metadataPolicy t.removeMember) := by
      rw [storedMembershipPolicy, hget]
      rfl
    exact keepsLegacy (judgesWrites .delete) hstored hpreserves.removedMembers

end Migrated

/-- The set read from any registry judges additions and removals of members as the writes beside
them are judged, as long as no condition is stored for these. A legacy condition is never migrated,
and a migrated group keeps who may add and remove its members. -/
theorem membershipPolicySet_judges_writes (wire : Wire) :
    (∀ extensions registry, loadComponentRegistry wire extensions = .ok registry →
      ∃ permissions, membershipPolicySetFromRegistry wire extensions = .ok permissions ∧
        JudgesWrites wire registry .insert permissions.policies.addMemberPolicy ∧
        JudgesWrites wire registry .delete permissions.policies.removeMemberPolicy) ∧
    ∀ proto registry includeDmMembers includeOneshotMessage,
      buildRegistry wire proto includeDmMembers includeOneshotMessage = .ok registry →
        proto.addMemberPolicy.any isCondition = false ∧
        proto.removeMemberPolicy.any isCondition = false ∧
        ∀ legacy extensions permissions, wire.RoundTrips proto →
          PolicySet.fromProto proto = .ok legacy →
          loadComponentRegistry wire extensions = .ok registry →
          membershipPolicySetFromRegistry wire extensions = .ok permissions →
            KeepsLegacy wire registry .insert permissions.policies.addMemberPolicy
              legacy.addMemberPolicy ∧
            KeepsLegacy wire registry .delete permissions.policies.removeMemberPolicy
              legacy.removeMemberPolicy := by
  constructor
  · intro extensions registry hload
    refine ⟨_, by rw [membershipPolicySetFromRegistry, hload, ok_bind, membershipPolicies_eq]; rfl,
      ?_, ?_⟩
    · exact judgesWrites .insert
    · exact judgesWrites .delete
  · intro proto registry includeDmMembers includeOneshotMessage hbuild
    refine ⟨?_, ?_, ?_⟩
    · by_contra hadd
      exact not_migrated_of_isCondition (.inl (eq_true_of_ne_false hadd)) hbuild
    · by_contra hremove
      exact not_migrated_of_isCondition (.inr (eq_true_of_ne_false hremove)) hbuild
    · intro legacy extensions permissions hwire hlegacy hload hset
      rw [membershipPolicySetFromRegistry, hload, ok_bind, membershipPolicies_eq] at hset
      cases hset
      exact keepsLegacy_of_migrated hwire hbuild hlegacy

def groupOfRegistry (bytes : Bytes) : Extensions :=
  [.appDataDictionary (.ofList [(ComponentId.componentRegistry, bytes)])]

theorem loadComponentRegistry_groupOfRegistry {wire : Wire} {registry : ComponentRegistry}
    {bytes : Bytes} (h : ComponentRegistry.fromBytes wire bytes = .ok registry) :
    loadComponentRegistry wire (groupOfRegistry bytes) = .ok registry := by
  change (ComponentRegistry.fromBytes wire bytes).mapError _ = _
  rw [h]
  rfl

theorem fromBytes_of_toBytes {wire : Wire} {registry : ComponentRegistry} {bytes : Bytes}
    (h : registry.toBytes wire = .ok bytes) :
    ComponentRegistry.fromBytes wire bytes = .ok registry := by
  rw [ComponentRegistry.toBytes, mapError_eq_ok] at h
  have hread := (ComponentRegistry.codec_roundTrips wire).deserializeExact_serialize h
  rw [ComponentRegistry.fromBytes, hread]
  rfl

def openRegistry : ComponentRegistry :=
  (buildRegistry bareHost.toWire openPolicies false false).toOption.getD .new

def openBytes : Bytes := (openRegistry.toBytes bareHost.toWire).toOption.getD []

theorem membershipPolicySet_judges_writes_open :
    ∃ permissions, membershipPolicySetFromRegistry bareHost.toWire (groupOfRegistry openBytes) =
        .ok permissions ∧
      KeepsLegacy bareHost.toWire openRegistry .insert permissions.policies.addMemberPolicy
        openLegacy.addMemberPolicy ∧
      KeepsLegacy bareHost.toWire openRegistry .delete permissions.policies.removeMemberPolicy
        openLegacy.removeMemberPolicy := by
  have hbuild : buildRegistry bareHost.toWire openPolicies false false = .ok openRegistry :=
    eq_ok_of_isOk (by decide +kernel)
  have hbytes : openRegistry.toBytes bareHost.toWire = .ok openBytes :=
    eq_ok_of_isOk (by decide +kernel)
  have hload := loadComponentRegistry_groupOfRegistry (fromBytes_of_toBytes hbytes)
  obtain ⟨permissions, hset, _⟩ := (membershipPolicySet_judges_writes bareHost.toWire).1 _ _ hload
  refine ⟨permissions, hset, ?_⟩
  exact ((membershipPolicySet_judges_writes bareHost.toWire).2 _ _ _ _ hbuild).2.2 _ _ _
    bareHost_roundTrips fromProto_openPolicies hload hset

/-- The entry of the members of a group to which anyone may add who meets any of one condition,
which everyone meets. -/
def nestedEntry : Bytes :=
  [0x08, 4, 0x12, 16, 0x0A, 6, 0x1A, 4, 0x0A, 2, 0x08, 1, 0x12, 2, 0x08, 1, 0x1A, 2, 0x08, 2]

def nestedMetadata : Proto.ComponentMetadata :=
  ⟨4, some ⟨some (.anyCondition [.base 1]), some (.base 1), some (.base 2)⟩⟩

def nestedWire : Wire where
  vlen := .quic
  sha256 := id
  encodeMetadata _ := nestedEntry
  decodeMetadata raw :=
    if raw = nestedEntry then .ok nestedMetadata else .error "unexpected metadata"

def nestedBytes : Bytes := [25, 0x80, 0x00, 0x80, 0x03, 20] ++ nestedEntry

def nestedRegistry : ComponentRegistry :=
  (ComponentRegistry.fromBytes nestedWire nestedBytes).toOption.getD .new

/-- Anyone may write a member to the dictionary of this group, but nobody may add one. -/
theorem nested_policy_not_judged_alike :
    ∃ permissions,
      Steps (ComponentRegistry.write nestedWire) none [[26, 0] ++ nestedBytes.tail]
        (some nestedBytes) ∧
      loadComponentRegistry nestedWire (groupOfRegistry nestedBytes) = .ok nestedRegistry ∧
      membershipPolicySetFromRegistry nestedWire (groupOfRegistry nestedBytes) = .ok permissions ∧
      ∀ actor inbox, permissions.policies.addMemberPolicy.evaluate actor inbox = false ∧
        validateComponentWrite nestedWire ⟨ComponentId.groupMembership, .insert, authorityOf actor,
          none, some []⟩ nestedRegistry = .ok () := by
  refine ⟨_, .cons rfl .nil, ?_, rfl, ?_⟩
  · exact loadComponentRegistry_groupOfRegistry (eq_ok_of_isOk rfl)
  · intro actor inbox
    exact ⟨rfl, rfl⟩

end LibXmtp.AppData
