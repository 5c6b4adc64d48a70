import LibXmtp.AppData.MigratedPermissions
import LibXmtp.AppData.RegistryWrites
import LibXmtp.AppData.UpdateValidation
import Mathlib.Logic.Relation

namespace LibXmtp.Groups

open LibXmtp.Data

inductive PermissionUpdateType
  | addMember
  | removeMember
  | addAdmin
  | removeAdmin
  | updateMetadata

inductive PermissionPolicyOption
  | allow
  | deny
  | adminOnly
  | superAdminOnly

namespace PermissionPolicyOption

def toMembershipPolicies : PermissionPolicyOption → MembershipPolicies
  | allow => .standard .allow
  | deny => .standard .deny
  | adminOnly => .standard .allowIfAdminOrSuperAdmin
  | superAdminOnly => .standard .allowIfSuperAdmin

def toMetadataPolicies : PermissionPolicyOption → MetadataPolicies
  | allow => .standard .allow
  | deny => .standard .deny
  | adminOnly => .standard .allowIfActorAdminOrSuperAdmin
  | superAdminOnly => .standard .allowIfActorSuperAdmin

def toPermissionsPolicies : PermissionPolicyOption → PermissionsPolicies
  | allow => .standard .allowIfActorSuperAdmin
  | deny => .standard .deny
  | adminOnly => .standard .allowIfActorAdminOrSuperAdmin
  | superAdminOnly => .standard .allowIfActorSuperAdmin

def allows (actor : CommitParticipant) : PermissionPolicyOption → Bool
  | allow => true
  | deny => false
  | adminOnly => actor.isAdmin || actor.isSuperAdmin
  | superAdminOnly => actor.isSuperAdmin

end PermissionPolicyOption

structure UpdatePermissionIntentData where
  updateType : PermissionUpdateType
  policyOption : PermissionPolicyOption
  metadataFieldName : Option String

/-- The legacy policies after the update, as `build_extensions_for_permissions_update` stores
them. -/
def PolicySet.updatePermission (policies : PolicySet) (intent : UpdatePermissionIntentData) :
    Except GroupMutableMetadataError PolicySet :=
  let option := intent.policyOption
  match intent.updateType with
  | .addMember => .ok { policies with addMemberPolicy := option.toMembershipPolicies }
  | .removeMember => .ok { policies with removeMemberPolicy := option.toMembershipPolicies }
  | .addAdmin => .ok { policies with addAdminPolicy := option.toPermissionsPolicies }
  | .removeAdmin => .ok { policies with removeAdminPolicy := option.toPermissionsPolicies }
  | .updateMetadata => do
    let fieldName ← okOr intent.metadataFieldName .missingMetadataField
    return { policies with
      updateMetadataPolicy :=
        policies.updateMetadataPolicy.insert fieldName option.toMetadataPolicies }

end LibXmtp.Groups

namespace LibXmtp.AppData

open LibXmtp.Data LibXmtp.Groups Relation

inductive UpdatePermissionError
  | missingMetadataField
  | unknownMetadataField (fieldName : String)
  | malformedComponentValue (id : UInt16) (reason : String)
  | tlsCodec (error : TlsCodecError)

def basePolicyOf : PermissionPolicyOption → MetadataBasePolicies
  | .allow => .allow
  | .deny => .deny
  | .adminOnly => .allowIfActorAdminOrSuperAdmin
  | .superAdminOnly => .allowIfActorSuperAdmin

/-- The fields in the order of `METADATA_FIELD_COMPONENT_MAP`. -/
def metadataFields : List MetadataField :=
  [.groupName, .description, .groupImageUrlSquare, .messageDisappearFromNS, .messageDisappearInNS,
    .minimumSupportedProtocolVersion, .commitLogSigner, .appData]

def metadataFieldToComponentId (fieldName : String) : Option UInt16 :=
  (metadataFields.find? fun field => field.asStr == fieldName).map metadataFieldComponentMap

/-- The component an update is about, and the one of its policies that is rewritten. -/
def permissionTarget (intent : UpdatePermissionIntentData) :
    Except UpdatePermissionError (UInt16 × ComponentOp) :=
  match intent.updateType with
  | .addMember => .ok (ComponentId.groupMembership, .insert)
  | .removeMember => .ok (ComponentId.groupMembership, .delete)
  | .addAdmin => .ok (ComponentId.adminList, .insert)
  | .removeAdmin => .ok (ComponentId.adminList, .delete)
  | .updateMetadata => do
    let fieldName ← okOr intent.metadataFieldName .missingMetadataField
    let id ← okOr (metadataFieldToComponentId fieldName) (.unknownMetadataField fieldName)
    return (id, .update)

def setPolicy (permissions : Proto.ComponentPermissions) (policy : Proto.Policy) :
    ComponentOp → Proto.ComponentPermissions
  | .insert => { permissions with insertPolicy := some policy }
  | .update => { permissions with updatePolicy := some policy }
  | .delete => { permissions with deletePolicy := some policy }

def registryDeltaCodec (wire : Wire) : TlsCodec (TlsMapDelta UInt16 Bytes) :=
  TlsMapDelta.codec wire.vlen (componentIdCodec wire.vlen) wire.vlen.bytes

/-- The update of the registry that `apply_update_permission_app_data_intent` proposes. -/
def updatePermissionPayload (wire : Wire) (registry : ComponentRegistry)
    (intent : UpdatePermissionIntentData) : Except UpdatePermissionError Bytes := do
  let (target, op) ← permissionTarget intent
  let metadata ← okOr (registry.get wire target)
    (.malformedComponentValue target "registry has no entry for target component")
  let permissions ← okOr metadata.permissions
    (.malformedComponentValue target "registry entry missing permissions")
  let newPolicy := metadataPolicy (basePolicyOf intent.policyOption)
  let metadata := { metadata with permissions := some (setPolicy permissions newPolicy op) }
  ((registryDeltaCodec wire).serialize
    ⟨[.update target (wire.encodeMetadata metadata)]⟩).mapError .tlsCodec

section Policies

variable {wire : Wire} {registry registry' : ComponentRegistry}

def policyOf (wire : Wire) (registry : ComponentRegistry) (id : UInt16) (op : ComponentOp) :
    Option Proto.Policy := do
  let metadata ← registry.get wire id
  let permissions ← metadata.permissions
  permissions.policy op

structure Governable (id : UInt16) : Prop where
  notImmutable : ComponentId.isImmutable id = false
  notHardcoded : ComponentId.isHardcoded id = false

theorem decides_iff {id : UInt16} (hid : Governable id) {op : ComponentOp}
    {decision : CommitParticipant → Bool} :
    Decides wire registry id op decision ↔ ∃ policy, policyOf wire registry id op = some policy ∧
      ∀ actor, evaluatePolicyProto (authorityOf actor) policy = .fromBool (decision actor) := by
  constructor
  · intro h
    have hwrite (actor : CommitParticipant) := h actor none none
    simp only [validateComponentWrite, hid.notImmutable, hid.notHardcoded, Bool.false_and,
      rejectIf_false, ok_bind, Bool.false_eq_true, if_false] at hwrite
    have hactor := hwrite ⟨"", [], false, false, false⟩
    cases hget : registry.get wire id with
    | none =>
      rw [hget] at hactor
      split at hactor <;> cases hactor
    | some metadata =>
      cases hpermissions : metadata.permissions with
      | none =>
        rw [hget, okOr_some, ok_bind, hpermissions] at hactor
        split at hactor <;> cases hactor
      | some permissions =>
        cases hpolicy : permissions.policy op with
        | none =>
          rw [hget, okOr_some, ok_bind, hpermissions, okOr_some, ok_bind, hpolicy] at hactor
          split at hactor <;> cases hactor
        | some policy =>
          refine ⟨policy, by simp [policyOf, hget, hpermissions, hpolicy], fun actor => ?_⟩
          have hone := hwrite actor
          rw [hget, okOr_some, ok_bind, hpermissions, okOr_some, ok_bind, hpolicy, okOr_some,
            ok_bind] at hone
          cases heval : evaluatePolicyProto (authorityOf actor) policy with
          | allow =>
            rw [heval] at hone
            cases hdecision : decision actor with
            | true => rfl
            | false => simp [hdecision, pure, Except.pure] at hone
          | deny =>
            rw [heval] at hone
            cases hdecision : decision actor with
            | true => simp [hdecision] at hone
            | false => rfl
          | invalid =>
            rw [heval] at hone
            cases hdecision : decision actor <;> simp [hdecision] at hone
  · rintro ⟨policy, hpolicy, heval⟩
    simp only [policyOf, Option.bind_eq_bind, Option.bind_eq_some_iff] at hpolicy
    obtain ⟨metadata, hget, permissions, hpermissions, hpolicy⟩ := hpolicy
    exact decides_of_get hget hid.notImmutable hid.notHardcoded hpermissions hpolicy heval

theorem governable_field (field : MetadataField) : Governable (metadataFieldComponentMap field) :=
  ⟨(field_mutable field).1, (field_mutable field).2⟩

theorem governable_adminList : Governable ComponentId.adminList := ⟨by decide, by decide⟩

theorem governable_groupMembership : Governable ComponentId.groupMembership :=
  ⟨by decide, by decide⟩

theorem metadataFieldToComponentId_eq_some {fieldName : String} {id : UInt16}
    (h : metadataFieldToComponentId fieldName = some id) :
    ∃ field, MetadataField.asStr field = fieldName ∧ id = metadataFieldComponentMap field := by
  obtain ⟨field, hfind, rfl⟩ := Option.map_eq_some_iff.mp h
  have hname := List.find?_some hfind
  exact ⟨field, eq_of_beq hname, rfl⟩

theorem metadataFieldComponentMap_injective : Function.Injective metadataFieldComponentMap := by
  intro a b h
  cases a <;> cases b <;> first | rfl | exact absurd h (by decide)

theorem asStr_injective : Function.Injective MetadataField.asStr := by
  intro a b h
  cases a <;> cases b <;> first | rfl | exact absurd h (by decide)

end Policies

section Registry

variable {Version : Type} {semver : Semver Version} {host : Host}
  {extensions extensions' : Extensions} {registry registry' : ComponentRegistry}
  {target : UInt16} {raw : Bytes} {metadata : Proto.ComponentMetadata}

theorem loadComponentRegistry_eq_ok {wire : Wire} :
    loadComponentRegistry wire extensions = .ok registry ↔
      ComponentRegistry.stored wire (readFromAppDataDict ComponentId.componentRegistry extensions) =
        .ok registry.inner := by
  rw [loadComponentRegistry]
  cases readFromAppDataDict ComponentId.componentRegistry extensions with
  | none =>
    constructor
    · intro h
      cases h
      rfl
    · intro h
      have hinner : TlsMap.new = registry.inner := Except.ok.inj h
      rw [ComponentRegistry.new, hinner]
  | some bytes =>
    simp only [mapError_eq_ok]
    exact ComponentRegistry.fromBytes_eq_ok

theorem get_of_inner_set {wire : Wire} (hinner : registry'.inner = registry.inner.set target raw)
    (hdecode : ComponentRegistry.decodeRecognized wire target raw = .ok metadata) (id : UInt16) :
    registry'.get wire id = if id = target then some metadata else registry.get wire id := by
  rw [ComponentRegistry.get, hinner, TlsMap.get_set]
  split
  · rename_i heq
    subst heq
    simp [hdecode, toOption_ok]
  · rfl

theorem AcceptedUpdates.registry_of_update {proposer : String} {actor : ActorAuthority}
    {payload : Bytes} (hload : loadComponentRegistry host.toWire extensions = .ok registry)
    (hpayload : (registryDeltaCodec host.toWire).serialize ⟨[.update target raw]⟩ = .ok payload)
    (h : AcceptedUpdates semver host extensions
      [⟨proposer, actor, ComponentId.componentRegistry, .update payload⟩] extensions') :
    ∃ registry', loadComponentRegistry host.toWire extensions' = .ok registry' ∧
      registry'.inner = registry.inner.set target raw ∧
      ComponentRegistry.validateEntry host.toWire target raw = .ok () := by
  obtain ⟨loaded, _, applied, post⟩ := h
  rw [hload] at loaded
  cases loaded
  have hfold := foldOperations_of_accumulateAppDataUpdates hload applied
    ComponentId.componentRegistry
  rw [← post] at hfold
  simp only [foldOperations, updatesOf, List.map_cons, List.map_nil, KeyedFold.foldOn_cons, if_true,
    bind_eq_ok, applyOperation, pure_eq_ok] at hfold
  obtain ⟨value, ⟨bytes, hbytes, hvalue⟩, hpost⟩ := hfold
  have hmem : componentRegistryComponent host.toWire ∈ wellKnown host.toWire := by simp [wellKnown]
  have hlookup : lookupComponent host ComponentId.componentRegistry =
      some (componentRegistryComponent host.toWire) := lookupComponent_of_mem hmem
  obtain ⟨_, happly⟩ := (applyAppDataUpdatePayload_eq_ok hlookup).mp hbytes
  simp only [componentRegistryComponent, bind_eq_ok] at happly
  obtain ⟨delta, hdelta, _, hvalid, happly⟩ := happly
  have hdecode := (TlsMapDelta.codec_roundTrips (componentIdCodec_lawful _)
    Vlen.bytes_lawful).deserializeExact_serialize hpayload
  rw [decodeMapDelta, mapError_eq_ok] at hdelta
  cases hdecode.symm.trans hdelta
  rw [validateRegistryDelta, mapError_eq_ok, forM_eq_ok] at hvalid
  obtain ⟨_, hentry, _⟩ := bind_eq_ok.mp (hvalid _ List.mem_cons_self)
  obtain ⟨map, hmap, _, hsteps, hserialize⟩ := applyDecodedMapDelta_eq_ok.mp happly
  obtain ⟨map', hmutate, hend⟩ := Steps.cons_iff.mp hsteps
  obtain rfl := Steps.nil_iff.mp hend
  obtain ⟨_, hset⟩ := TlsMap.mutate_update.mp hmutate
  have hbefore := loadComponentRegistry_eq_ok.mp hload
  cases hmap.symm.trans hbefore
  refine ⟨⟨map'⟩, ?_, hset.symm, hentry⟩
  have hread : value = readFromAppDataDict ComponentId.componentRegistry extensions' :=
    Except.ok.inj hpost
  rw [loadComponentRegistry_eq_ok, ← hread, ← hvalue]
  exact readMap_serialize (componentIdCodec_lawful _) (componentIdCodec_positive _) hserialize

/-- The migrated entries: what the policies of the legacy set, or base ones, are written to. -/
def CarriedEntries (wire : Wire) (proto : Proto.PolicySet) (registry : ComponentRegistry) : Prop :=
  ∀ id metadata, registry.get wire id = some metadata → ∃ insert update delete componentType,
    Carries proto insert ∧ Carries proto update ∧ Carries proto delete ∧
      metadata = newComponentMetadata ⟨some insert, some update, some delete⟩ componentType

structure Rewritten (wire : Wire) (registry registry' : ComponentRegistry) (target : UInt16)
    (op : ComponentOp) (base : MetadataBasePolicies) : Prop where
  written : policyOf wire registry' target op = some (metadataPolicy base)
  kept : ∀ id op', (id, op') ≠ (target, op) → policyOf wire registry' id op' =
    policyOf wire registry id op'
  constrained : ComponentId.isConstrained target = true →
    ComponentRegistry.isAdminOrSuperAdminPolicy (metadataPolicy base) = true

theorem setPolicy_policy (permissions : Proto.ComponentPermissions) (policy : Proto.Policy)
    (op op' : ComponentOp) : (setPolicy permissions policy op).policy op' =
      if op' = op then some policy else permissions.policy op' := by
  cases op <;> cases op' <;> rfl

theorem carries_setPolicy {proto : Proto.PolicySet} {insert update delete policy : Proto.Policy}
    (hinsert : Carries proto insert) (hupdate : Carries proto update)
    (hdelete : Carries proto delete) (hpolicy : Carries proto policy) (op : ComponentOp) :
    ∃ insert' update' delete', Carries proto insert' ∧ Carries proto update' ∧
      Carries proto delete' ∧ setPolicy ⟨some insert, some update, some delete⟩ policy op =
        ⟨some insert', some update', some delete'⟩ := by
  cases op with
  | insert => exact ⟨policy, update, delete, hpolicy, hupdate, hdelete, rfl⟩
  | update => exact ⟨insert, policy, delete, hinsert, hpolicy, hdelete, rfl⟩
  | delete => exact ⟨insert, update, policy, hinsert, hupdate, hpolicy, rfl⟩

theorem constrained_of_settable {policies : Proto.ComponentPermissions} {componentType : ComponentType}
    (h : ComponentRegistry.Settable target (newComponentMetadata policies componentType))
    {op : ComponentOp} {policy : Proto.Policy} (hpolicy : policies.policy op = some policy)
    (hconstrained : ComponentId.isConstrained target = true) :
    ComponentRegistry.isAdminOrSuperAdminPolicy policy = true := by
  obtain ⟨_, insert, update, delete, hpermissions, hinsert, hupdate, hdelete, hall⟩ := h.policies
  cases hpermissions
  obtain ⟨hinsert', hupdate', hdelete'⟩ := hall hconstrained
  cases op with
  | insert =>
    cases hinsert.symm.trans hpolicy
    exact hinsert'
  | update =>
    cases hupdate.symm.trans hpolicy
    exact hupdate'
  | delete =>
    cases hdelete.symm.trans hpolicy
    exact hdelete'

end Registry

/-- A commit that changes a policy of a migrated group, beside the legacy policies changed in the
same way. -/
structure UpdatesPermission {Version : Type} (semver : Semver Version) (host : Host)
    (intent : UpdatePermissionIntentData) (s s' : Extensions × PolicySet) : Prop where
  migrated : ∃ proposer actor registry payload,
    loadComponentRegistry host.toWire s.1 = .ok registry ∧
    updatePermissionPayload host.toWire registry intent = .ok payload ∧
    AcceptedUpdates semver host s.1
      [⟨proposer, actor, ComponentId.componentRegistry, .update payload⟩] s'.1
  unmigrated : s.2.updatePermission intent = .ok s'.2

section Step

variable {Version : Type} {semver : Semver Version} {host : Host}
  {intent : UpdatePermissionIntentData} {s s' : Extensions × PolicySet}
  {proto : Proto.PolicySet} {registry : ComponentRegistry}

theorem UpdatesPermission.rewritten (h : UpdatesPermission semver host intent s s')
    (hwire : host.toWire.RoundTrips proto)
    (hload : loadComponentRegistry host.toWire s.1 = .ok registry)
    (hcarried : CarriedEntries host.toWire proto registry) :
    ∃ registry' target op, loadComponentRegistry host.toWire s'.1 = .ok registry' ∧
      permissionTarget intent = .ok (target, op) ∧
      CarriedEntries host.toWire proto registry' ∧
      Rewritten host.toWire registry registry' target op (basePolicyOf intent.policyOption) := by
  obtain ⟨proposer, actor, before, payload, hbefore, hpayload, haccepted⟩ := h.migrated
  cases hbefore.symm.trans hload
  simp only [updatePermissionPayload, bind_eq_ok, okOr_eq_ok, mapError_eq_ok, Prod.exists]
    at hpayload
  obtain ⟨target, op, htarget, metadata, hget, permissions, hpermissions, hserialize⟩ := hpayload
  obtain ⟨registry', hload', hinner, hentry⟩ := haccepted.registry_of_update hload hserialize
  obtain ⟨insert, update, delete, componentType, hinsert, hupdate, hdelete, rfl⟩ :=
    hcarried target metadata hget
  cases hpermissions
  obtain ⟨insert', update', delete', hinsert', hupdate', hdelete', hset⟩ :=
    carries_setPolicy hinsert hupdate hdelete
      (carries_metadataPolicy proto (basePolicyOf intent.policyOption)) op
  have hmetadata : ({ newComponentMetadata ⟨some insert, some update, some delete⟩ componentType with
      permissions := some (setPolicy ⟨some insert, some update, some delete⟩
        (metadataPolicy (basePolicyOf intent.policyOption)) op) } : Proto.ComponentMetadata) =
      newComponentMetadata ⟨some insert', some update', some delete'⟩ componentType := by
    rw [hset]
    rfl
  rw [hmetadata] at hinner hentry
  have hread := hwire insert' update' delete' componentType hinsert' hupdate' hdelete'
  obtain ⟨decoded, hdecoded⟩ := ComponentRegistry.validateEntry_eq_ok.mp hentry
  obtain ⟨hdecode, hsettable⟩ := ComponentRegistry.decodeRecognized_eq_ok.mp hdecoded
  cases hread.symm.trans hdecode
  have hget' := get_of_inner_set hinner hdecoded
  have hpolicy := setPolicy_policy ⟨some insert, some update, some delete⟩
    (metadataPolicy (basePolicyOf intent.policyOption)) op
  rw [hset] at hpolicy
  refine ⟨registry', target, op, hload', htarget, ?_, ?_, ?_, ?_⟩
  · intro id metadata hmetadata
    rw [hget'] at hmetadata
    split at hmetadata
    · cases hmetadata
      exact ⟨insert', update', delete', componentType, hinsert', hupdate', hdelete', rfl⟩
    · exact hcarried id metadata hmetadata
  · simp [policyOf, hget', newComponentMetadata, hpolicy]
  · intro id op' hne
    by_cases hid : id = target
    · subst hid
      have hop : op' ≠ op := fun heq => hne (heq ▸ rfl)
      simp [policyOf, hget', hget, newComponentMetadata, hpolicy, hop]
    · rw [policyOf, hget', if_neg hid, policyOf]
  · exact constrained_of_settable hsettable ((hpolicy op).trans (if_pos rfl))

/-- What the two kinds of groups decide alike. A field of an unmigrated group is never deleted; the
floor of a migrated one is for super admins until its policy is set. -/
structure Matches (wire : Wire) (registry : ComponentRegistry) (policies : PolicySet) : Prop where
  updatedField : ∀ field (change : MetadataFieldChange), change.fieldName = field.asStr →
    (field = .minimumSupportedProtocolVersion →
      (policies.updateMetadataPolicy.get field.asStr).isSome = true) →
      Decides wire registry (metadataFieldComponentMap field) .update fun actor =>
        PolicySet.evaluateMetadataPolicy [change] policies.updateMetadataPolicy actor
  deletedField : ∀ field, Decides wire registry (metadataFieldComponentMap field) .delete
    fun actor => actor.isSuperAdmin
  addedAdmins : Decides wire registry ComponentId.adminList .insert
    fun actor => policies.addAdminPolicy.evaluate actor
  removedAdmins : Decides wire registry ComponentId.adminList .delete
    fun actor => policies.removeAdminPolicy.evaluate actor
  addedMembers : ∀ inbox, Decides wire registry ComponentId.groupMembership .insert
    fun actor => policies.addMemberPolicy.evaluate actor inbox
  removedMembers : ∀ inbox, Decides wire registry ComponentId.groupMembership .delete
    fun actor => policies.removeMemberPolicy.evaluate actor inbox

theorem Preserves.matches {wire : Wire} {policies : PolicySet}
    (h : Preserves wire registry policies) : Matches wire registry policies where
  updatedField field change hchange := h.changedField field change .update hchange (by decide)
  deletedField := h.deletedField
  addedAdmins := h.addedAdmins
  removedAdmins := h.removedAdmins
  addedMembers := h.addedMembers
  removedMembers := h.removedMembers

section Options

variable (actor : CommitParticipant) (option : PermissionPolicyOption)

theorem evaluate_basePolicyOf : (basePolicyOf option).evaluate actor = option.allows actor := by
  cases option <;> rfl

theorem evaluate_toMetadataPolicies :
    option.toMetadataPolicies.evaluate actor = option.allows actor := by
  cases option <;> rfl

theorem evaluate_toMembershipPolicies (inbox : Inbox) :
    option.toMembershipPolicies.evaluate actor inbox = option.allows actor := by
  cases option <;> rfl

theorem evaluate_toPermissionsPolicies (h : ComponentRegistry.isAdminOrSuperAdminPolicy
    (metadataPolicy (basePolicyOf option)) = true) :
    option.toPermissionsPolicies.evaluate actor = option.allows actor := by
  cases option with
  | allow => cases h
  | deny => cases h
  | adminOnly => rfl
  | superAdminOnly => rfl

end Options

section Rewrite

variable {wire : Wire} {registry' : ComponentRegistry} {target id : UInt16} {op op' : ComponentOp}
  {option : PermissionPolicyOption} {decision : CommitParticipant → Bool}

theorem Rewritten.decides_written
    (h : Rewritten wire registry registry' target op (basePolicyOf option))
    (hid : Governable target) (hdecision : ∀ actor, decision actor = option.allows actor) :
    Decides wire registry' target op decision := by
  refine (decides_iff hid).mpr ⟨_, h.written, fun actor => ?_⟩
  rw [evaluatePolicyProto_metadataPolicy, evaluate_basePolicyOf, hdecision]

theorem Rewritten.decides_kept
    (h : Rewritten wire registry registry' target op (basePolicyOf option)) (hid : Governable id)
    (hne : (id, op') ≠ (target, op)) (hdecides : Decides wire registry id op' decision) :
    Decides wire registry' id op' decision := by
  obtain ⟨policy, hpolicy, heval⟩ := (decides_iff hid).mp hdecides
  exact (decides_iff hid).mpr ⟨policy, (h.kept id op' hne).trans hpolicy, heval⟩

end Rewrite

theorem metadataFieldComponentMap_ne (field : MetadataField) :
    metadataFieldComponentMap field ≠ ComponentId.adminList ∧
      metadataFieldComponentMap field ≠ ComponentId.groupMembership := by
  cases field <;> decide

section Simulation

variable {wire : Wire} {registry' : ComponentRegistry} {target : UInt16} {op : ComponentOp}
  {policies policies' : PolicySet}

theorem updatedField_of_updateMetadata (h : Matches wire registry policies)
    {updated : MetadataField} (hrewritten : Rewritten wire registry registry'
      (metadataFieldComponentMap updated) .update (basePolicyOf intent.policyOption))
    (field : MetadataField) (change : MetadataFieldChange) (hchange : change.fieldName = field.asStr)
    (hfloor : field = .minimumSupportedProtocolVersion → ((policies.updateMetadataPolicy.insert
      updated.asStr intent.policyOption.toMetadataPolicies).get field.asStr).isSome = true) :
    Decides wire registry' (metadataFieldComponentMap field) .update fun actor =>
      PolicySet.evaluateMetadataPolicy [change] (policies.updateMetadataPolicy.insert updated.asStr
        intent.policyOption.toMetadataPolicies) actor := by
  have hget := HashMap.get_insert policies.updateMetadataPolicy updated.asStr field.asStr
    intent.policyOption.toMetadataPolicies
  by_cases heq : field = updated
  · subst heq
    rw [beq_self_eq_true, if_pos rfl] at hget
    refine hrewritten.decides_written (governable_field field) fun actor => ?_
    rw [evaluateMetadataPolicy_of_get_eq_some actor (by rw [hchange]; exact hget),
      evaluate_toMetadataPolicies]
  · have hname : ¬(updated.asStr == field.asStr) = true := fun hbeq =>
      heq (asStr_injective (eq_of_beq hbeq)).symm
    rw [if_neg hname] at hget
    have hbefore := h.updatedField field change hchange fun hfield => hget ▸ hfloor hfield
    have hkept := hrewritten.decides_kept (governable_field field)
      (fun hpair => heq (metadataFieldComponentMap_injective (Prod.mk.inj hpair).1)) hbefore
    have hsame (actor : CommitParticipant) :
        PolicySet.evaluateMetadataPolicy [change] (policies.updateMetadataPolicy.insert
          updated.asStr intent.policyOption.toMetadataPolicies) actor =
        PolicySet.evaluateMetadataPolicy [change] policies.updateMetadataPolicy actor := by
      simp only [PolicySet.evaluateMetadataPolicy, List.all_cons, List.all_nil, hchange, hget]
    simpa only [hsame] using hkept

theorem Matches.step (h : Matches wire registry policies)
    (hrewritten : Rewritten wire registry registry' target op (basePolicyOf intent.policyOption))
    (htarget : permissionTarget intent = .ok (target, op))
    (hupdate : policies.updatePermission intent = .ok policies') :
    Matches wire registry' policies' := by
  have hfields := metadataFieldComponentMap_ne
  rw [permissionTarget] at htarget
  rw [PolicySet.updatePermission] at hupdate
  cases htype : intent.updateType with
  | addMember =>
    simp only [htype] at htarget hupdate
    cases htarget
    cases hupdate
    exact {
      updatedField := fun field change hchange hfloor =>
        hrewritten.decides_kept (governable_field field) (by simp)
          (h.updatedField field change hchange hfloor)
      deletedField := fun field => hrewritten.decides_kept (governable_field field) (by simp)
        (h.deletedField field)
      addedAdmins := hrewritten.decides_kept governable_adminList (by decide) h.addedAdmins
      removedAdmins := hrewritten.decides_kept governable_adminList (by decide) h.removedAdmins
      addedMembers := fun inbox => hrewritten.decides_written governable_groupMembership fun actor =>
        evaluate_toMembershipPolicies actor _ inbox
      removedMembers := fun inbox =>
        hrewritten.decides_kept governable_groupMembership (by decide) (h.removedMembers inbox) }
  | removeMember =>
    simp only [htype] at htarget hupdate
    cases htarget
    cases hupdate
    exact {
      updatedField := fun field change hchange hfloor =>
        hrewritten.decides_kept (governable_field field) (by simp)
          (h.updatedField field change hchange hfloor)
      deletedField := fun field => hrewritten.decides_kept (governable_field field)
        (by simp [(hfields field).2]) (h.deletedField field)
      addedAdmins := hrewritten.decides_kept governable_adminList (by decide) h.addedAdmins
      removedAdmins := hrewritten.decides_kept governable_adminList (by decide) h.removedAdmins
      addedMembers := fun inbox =>
        hrewritten.decides_kept governable_groupMembership (by decide) (h.addedMembers inbox)
      removedMembers := fun inbox => hrewritten.decides_written governable_groupMembership
        fun actor => evaluate_toMembershipPolicies actor _ inbox }
  | addAdmin =>
    simp only [htype] at htarget hupdate
    cases htarget
    cases hupdate
    exact {
      updatedField := fun field change hchange hfloor =>
        hrewritten.decides_kept (governable_field field) (by simp)
          (h.updatedField field change hchange hfloor)
      deletedField := fun field => hrewritten.decides_kept (governable_field field) (by simp)
        (h.deletedField field)
      addedAdmins := hrewritten.decides_written governable_adminList fun actor =>
        evaluate_toPermissionsPolicies actor _ (hrewritten.constrained (by decide))
      removedAdmins := hrewritten.decides_kept governable_adminList (by decide) h.removedAdmins
      addedMembers := fun inbox =>
        hrewritten.decides_kept governable_groupMembership (by decide) (h.addedMembers inbox)
      removedMembers := fun inbox =>
        hrewritten.decides_kept governable_groupMembership (by decide) (h.removedMembers inbox) }
  | removeAdmin =>
    simp only [htype] at htarget hupdate
    cases htarget
    cases hupdate
    exact {
      updatedField := fun field change hchange hfloor =>
        hrewritten.decides_kept (governable_field field) (by simp)
          (h.updatedField field change hchange hfloor)
      deletedField := fun field => hrewritten.decides_kept (governable_field field)
        (by simp [(hfields field).1]) (h.deletedField field)
      addedAdmins := hrewritten.decides_kept governable_adminList (by decide) h.addedAdmins
      removedAdmins := hrewritten.decides_written governable_adminList fun actor =>
        evaluate_toPermissionsPolicies actor _ (hrewritten.constrained (by decide))
      addedMembers := fun inbox =>
        hrewritten.decides_kept governable_groupMembership (by decide) (h.addedMembers inbox)
      removedMembers := fun inbox =>
        hrewritten.decides_kept governable_groupMembership (by decide) (h.removedMembers inbox) }
  | updateMetadata =>
    simp only [htype, bind_eq_ok, okOr_eq_ok, pure_eq_ok] at htarget hupdate
    obtain ⟨fieldName, hname, id, hid, hpair⟩ := htarget
    cases hpair
    obtain ⟨fieldName', hname', rfl⟩ := hupdate
    cases hname.symm.trans hname'
    obtain ⟨updated, rfl, rfl⟩ := metadataFieldToComponentId_eq_some hid
    exact {
      updatedField := updatedField_of_updateMetadata h hrewritten
      deletedField := fun field => hrewritten.decides_kept (governable_field field) (by simp)
        (h.deletedField field)
      addedAdmins := hrewritten.decides_kept governable_adminList (by simp) h.addedAdmins
      removedAdmins := hrewritten.decides_kept governable_adminList (by simp) h.removedAdmins
      addedMembers := fun inbox =>
        hrewritten.decides_kept governable_groupMembership (by simp) (h.addedMembers inbox)
      removedMembers := fun inbox =>
        hrewritten.decides_kept governable_groupMembership (by simp) (h.removedMembers inbox) }

end Simulation

/-- The proposals to a component that make changes of one kind only are decided by this. -/
def Governs (semver : Semver Version) (host : Host) (registry : ComponentRegistry) (id : UInt16)
    (op : ComponentOp) (decision : CommitParticipant → Bool) : Prop :=
  ∀ actor operation oldValue changes,
    (id = ComponentId.minSupportedProtocolVersion →
      enforceMinVersionMonotonicity semver operation oldValue = .ok ()) →
    expandAppDataUpdateToChanges host id registry operation oldValue = .ok changes →
    changes ≠ [] → (∀ change ∈ changes, change.op = op) →
      (validateOneAppDataUpdateWithOldValue semver host id operation (authorityOf actor) registry
        oldValue = .ok () ↔ decision actor = true)

def Plain (host : Host) (id : UInt16) : Prop :=
  ∃ component, lookupComponent host id = some component ∧ component.validateInvariant = noInvariant

theorem validate_eq_ok_iff {id : UInt16} (hid : Plain host id) {operation : AppDataUpdateOperation}
    {actor : ActorAuthority} {oldValue : Option Bytes} :
    validateOneAppDataUpdateWithOldValue semver host id operation actor registry oldValue = .ok () ↔
      (id = ComponentId.minSupportedProtocolVersion →
        enforceMinVersionMonotonicity semver operation oldValue = .ok ()) ∧
      ∃ changes, expandAppDataUpdateToChanges host id registry operation oldValue = .ok changes ∧
        ∀ change ∈ changes, validateComponentWrite host.toWire
          ⟨id, change.op, actor, none, change.value⟩ registry = .ok () := by
  obtain ⟨component, hlookup, hinvariant⟩ := hid
  rw [expandAppDataUpdateToChanges_eq hlookup]
  simp only [validateOneAppDataUpdateWithOldValue, hlookup, bind_eq_ok, mapError_eq_ok, forM_eq_ok,
    validateChange, hinvariant, noInvariant]
  constructor
  · rintro ⟨_, hfloor, changes, hchanges, hwrites⟩
    refine ⟨fun hid => ?_, changes, hchanges, fun change hchange => ?_⟩
    · rw [if_pos hid] at hfloor
      exact hfloor
    · obtain ⟨_, hwrite, _⟩ := hwrites change hchange
      exact hwrite
  · rintro ⟨hfloor, changes, hchanges, hwrites⟩
    refine ⟨(), ?_, changes, hchanges, fun change hchange => ⟨(), hwrites change hchange, trivial⟩⟩
    split
    · rename_i hid
      exact hfloor hid
    · rfl

theorem governs_of_decides {id : UInt16} {op : ComponentOp} {decision : CommitParticipant → Bool}
    (hid : Plain host id) (h : Decides host.toWire registry id op decision) :
    Governs semver host registry id op decision := by
  intro actor operation oldValue changes hfloor hchanges hne hops
  rw [validate_eq_ok_iff hid]
  constructor
  · rintro ⟨_, changes', hchanges', hwrites⟩
    cases hchanges.symm.trans hchanges'
    obtain ⟨change, hchange⟩ := List.exists_mem_of_ne_nil changes hne
    have hwrite := hwrites change hchange
    rw [hops change hchange, h] at hwrite
    by_contra hdenied
    rw [if_neg hdenied] at hwrite
    cases hwrite
  · intro hallowed
    refine ⟨hfloor, changes, hchanges, fun change hchange => ?_⟩
    rw [hops change hchange, h, if_pos hallowed]

theorem plain_of_mem (component : ErasedComponent) (h : component ∈ wellKnown host.toWire)
    (hinvariant : component.validateInvariant = noInvariant) : Plain host component.id :=
  ⟨component, lookupComponent_of_mem h, hinvariant⟩

theorem plain_adminList (host : Host) : Plain host ComponentId.adminList :=
  plain_of_mem (adminListComponent host.toWire) (by simp [wellKnown]) rfl

theorem plain_groupMembership (host : Host) : Plain host ComponentId.groupMembership :=
  plain_of_mem (groupMembershipComponent host.toWire) (by simp [wellKnown]) rfl

def fieldComponent : MetadataField → ErasedComponent
  | .groupName => groupNameComponent
  | .description => groupDescriptionComponent
  | .groupImageUrlSquare => groupImageUrlComponent
  | .messageDisappearFromNS => messageDisappearFromNsComponent
  | .messageDisappearInNS => messageDisappearInNsComponent
  | .minimumSupportedProtocolVersion => minSupportedProtocolVersionComponent
  | .commitLogSigner => commitLogSignerComponent
  | .appData => appDataComponent

theorem lookupComponent_field (host : Host) (field : MetadataField) :
    lookupComponent host (metadataFieldComponentMap field) = some (fieldComponent field) := by
  have hid : (fieldComponent field).id = metadataFieldComponentMap field := by cases field <;> rfl
  rw [← hid]
  apply lookupComponent_of_mem
  cases field <;> simp [wellKnown, fieldComponent]

theorem plain_field (host : Host) (field : MetadataField) :
    Plain host (metadataFieldComponentMap field) :=
  ⟨_, lookupComponent_field host field, by cases field <;> rfl⟩

theorem expand_field {field : MetadataField} {payload : Bytes} {oldValue : Option Bytes}
    {changes : List ExpandedComponentChange}
    (h : expandAppDataUpdateToChanges host (metadataFieldComponentMap field) registry
      (.update payload) oldValue = .ok changes) : changes = [⟨.update, some payload⟩] := by
  rw [expandAppDataUpdateToChanges_eq (lookupComponent_field host field), mapError_eq_ok] at h
  cases field with
  | messageDisappearFromNS | messageDisappearInNS | commitLogSigner =>
    simp only [fieldComponent, messageDisappearFromNsComponent, messageDisappearInNsComponent,
      commitLogSignerComponent, beI64Component, bind_eq_ok, pure_eq_ok] at h
    obtain ⟨_, _, heq⟩ := h
    exact heq.symm
  | _ =>
    simp only [fieldComponent, groupNameComponent, groupDescriptionComponent,
      groupImageUrlComponent, appDataComponent, minSupportedProtocolVersionComponent,
      passthroughStringComponent, bind_eq_ok, expandPassthrough, Except.ok.injEq] at h
    obtain ⟨_, _, heq⟩ := h
    exact heq.symm

end Step

structure OnlyChanges (commit : ValidatedCommit) (addedInboxes removedInboxes : List Inbox)
    (fields : List MetadataFieldChange) (adminsAdded adminsRemoved : List Inbox) : Prop where
  addedInboxes : commit.addedInboxes = addedInboxes
  removedInboxes : commit.removedInboxes = removedInboxes
  fields : commit.metadataValidationInfo.metadataFieldChanges = fields
  adminsAdded : commit.metadataValidationInfo.adminsAdded = adminsAdded
  adminsRemoved : commit.metadataValidationInfo.adminsRemoved = adminsRemoved
  superAdminsAdded : commit.metadataValidationInfo.superAdminsAdded = []
  superAdminsRemoved : commit.metadataValidationInfo.superAdminsRemoved = []
  permissions : commit.permissionsChanged = false

/-- A commit to an unmigrated group that makes one change, of the kind a permission is about. The
other member of a DM can always be added to it, and a super admin is never removed. -/
inductive Exercises (intent : UpdatePermissionIntentData) (actor : CommitParticipant)
    (commit : ValidatedCommit) : Prop
  | addMember {inbox : Inbox} (type : intent.updateType = .addMember)
    (author : inbox.proposer.getD commit.actor = actor)
    (changes : OnlyChanges commit [inbox] [] [] [] []) (notDm : commit.addsDmMember = false)
  | removeMember {inbox : Inbox} (type : intent.updateType = .removeMember)
    (author : inbox.proposer.getD commit.actor = actor)
    (changes : OnlyChanges commit [] [inbox] [] [] []) (notSuperAdmin : inbox.isSuperAdmin = false)
  | addAdmin {admin : Inbox} (type : intent.updateType = .addAdmin) (author : commit.actor = actor)
    (changes : OnlyChanges commit [] [] [] [admin] [])
  | removeAdmin {admin : Inbox} (type : intent.updateType = .removeAdmin)
    (author : commit.actor = actor) (changes : OnlyChanges commit [] [] [] [] [admin])
  | updateMetadata {change : MetadataFieldChange} (type : intent.updateType = .updateMetadata)
    (author : commit.actor = actor) (field : intent.metadataFieldName = some change.fieldName)
    (changes : OnlyChanges commit [] [] [change] [] [])

theorem evaluateCommit_onlyChanges {commit : ValidatedCommit}
    {addedInboxes removedInboxes adminsAdded adminsRemoved : List Inbox}
    {fields : List MetadataFieldChange} {policies : PolicySet}
    (h : OnlyChanges commit addedInboxes removedInboxes fields adminsAdded adminsRemoved)
    (hsuper : ∀ inbox ∈ removedInboxes, inbox.isSuperAdmin = false)
    (hdm : addedInboxes ≠ [] → commit.addsDmMember = false) :
    policies.evaluateCommit commit = true ↔
      PolicySet.evaluatePolicyWithProposer addedInboxes policies.addMemberPolicy commit.actor = true ∧
      PolicySet.evaluatePolicyWithProposer removedInboxes policies.removeMemberPolicy
        commit.actor = true ∧
      PolicySet.evaluateMetadataPolicy fields policies.updateMetadataPolicy commit.actor = true ∧
      (adminsAdded = [] ∨ policies.addAdminPolicy.evaluate commit.actor = true) ∧
      (adminsRemoved = [] ∨ policies.removeAdminPolicy.evaluate commit.actor = true) := by
  rw [PolicySet.evaluateCommit_iff]
  constructor
  · intro hpermits
    refine ⟨?_, h.removedInboxes ▸ hpermits.removedInboxes, h.fields ▸ hpermits.metadataChanges,
      h.adminsAdded ▸ hpermits.addedAdmins, h.adminsRemoved ▸ hpermits.removedAdmins⟩
    rcases hpermits.addedInboxes with hadded | hdmAdd
    · exact h.addedInboxes ▸ hadded
    · cases addedInboxes with
      | nil => rfl
      | cons inbox inboxes => simp [hdm (List.cons_ne_nil _ _)] at hdmAdd
  · rintro ⟨hadded, hremoved, hfields, hadmins, hadmins'⟩
    exact {
      addedInboxes := .inl (h.addedInboxes ▸ hadded)
      removedInboxes := h.removedInboxes ▸ hremoved
      noSuperAdminRemoved := h.removedInboxes ▸ hsuper
      metadataChanges := h.fields ▸ hfields
      addedAdmins := h.adminsAdded ▸ hadmins
      removedAdmins := h.adminsRemoved ▸ hadmins'
      addedSuperAdmins := .inl h.superAdminsAdded
      removedSuperAdmins := .inl h.superAdminsRemoved
      permissions := .inl h.permissions }

theorem Exercises.evaluateCommit {intent : UpdatePermissionIntentData} {actor : CommitParticipant}
    {commit : ValidatedCommit} {policies policies' : PolicySet} {target : UInt16}
    {op : ComponentOp} {wire : Wire} {registry registry' : ComponentRegistry}
    (h : Exercises intent actor commit) (htarget : permissionTarget intent = .ok (target, op))
    (hrewritten : Rewritten wire registry registry' target op (basePolicyOf intent.policyOption))
    (hupdate : policies.updatePermission intent = .ok policies') :
    policies'.evaluateCommit commit = true ↔ intent.policyOption.allows actor = true := by
  rw [PolicySet.updatePermission] at hupdate
  rw [permissionTarget] at htarget
  cases h with
  | addMember type author changes notDm =>
    simp only [type] at hupdate
    cases hupdate
    rw [evaluateCommit_onlyChanges changes (by simp) fun _ => notDm]
    simp [PolicySet.evaluatePolicyWithProposer, PolicySet.evaluateMetadataPolicy, author,
      evaluate_toMembershipPolicies]
  | removeMember type author changes notSuperAdmin =>
    simp only [type] at hupdate
    cases hupdate
    rw [evaluateCommit_onlyChanges changes (by simpa using notSuperAdmin) (by simp)]
    simp [PolicySet.evaluatePolicyWithProposer, PolicySet.evaluateMetadataPolicy, author,
      evaluate_toMembershipPolicies]
  | addAdmin type author changes =>
    simp only [type] at hupdate htarget
    cases hupdate
    cases htarget
    rw [evaluateCommit_onlyChanges changes (by simp) (by simp)]
    simp [PolicySet.evaluatePolicyWithProposer, PolicySet.evaluateMetadataPolicy, author,
      evaluate_toPermissionsPolicies actor _ (hrewritten.constrained (by decide))]
  | removeAdmin type author changes =>
    simp only [type] at hupdate htarget
    cases hupdate
    cases htarget
    rw [evaluateCommit_onlyChanges changes (by simp) (by simp)]
    simp [PolicySet.evaluatePolicyWithProposer, PolicySet.evaluateMetadataPolicy, author,
      evaluate_toPermissionsPolicies actor _ (hrewritten.constrained (by decide))]
  | updateMetadata type author field changes =>
    simp only [type, field, okOr_some, ok_bind, pure_eq_ok] at hupdate
    subst hupdate
    rw [evaluateCommit_onlyChanges changes (by simp) (by simp)]
    simp [PolicySet.evaluatePolicyWithProposer, PolicySet.evaluateMetadataPolicy, author,
      evaluate_toMetadataPolicies]

/-- What an update of a permission decides from then on, on both kinds of groups. -/
structure Decided {Version : Type} (semver : Semver Version) (host : Host)
    (registry : ComponentRegistry) (policies : PolicySet) (intent : UpdatePermissionIntentData)
    (target : UInt16) (op : ComponentOp) : Prop where
  migrated : Governs semver host registry target op fun actor => intent.policyOption.allows actor
  unmigrated : ∀ actor commit, Exercises intent actor commit →
    (policies.evaluateCommit commit = true ↔ intent.policyOption.allows actor = true)
  wholeValue : intent.updateType = .updateMetadata → ∀ payload oldValue changes,
    expandAppDataUpdateToChanges host target registry (.update payload) oldValue = .ok changes →
      changes = [⟨op, some payload⟩]
  removal : intent.updateType = .updateMetadata →
    Governs semver host registry target .delete fun actor => actor.isSuperAdmin

theorem permissionTarget_plain {intent : UpdatePermissionIntentData} {target : UInt16}
    {op : ComponentOp} (h : permissionTarget intent = .ok (target, op)) (host : Host) :
    Governable target ∧ Plain host target ∧ (intent.updateType = .updateMetadata →
      ∃ field, target = metadataFieldComponentMap field ∧ op = .update) := by
  rw [permissionTarget] at h
  cases htype : intent.updateType with
  | addMember | removeMember =>
    simp only [htype] at h
    cases h
    exact ⟨governable_groupMembership, plain_groupMembership host, fun h => by cases h⟩
  | addAdmin | removeAdmin =>
    simp only [htype] at h
    cases h
    exact ⟨governable_adminList, plain_adminList host, fun h => by cases h⟩
  | updateMetadata =>
    simp only [htype, bind_eq_ok, okOr_eq_ok, pure_eq_ok] at h
    obtain ⟨fieldName, _, id, hid, hpair⟩ := h
    cases hpair
    obtain ⟨field, _, rfl⟩ := metadataFieldToComponentId_eq_some hid
    exact ⟨governable_field field, plain_field host field, fun _ => ⟨field, rfl, rfl⟩⟩

/-- A group whose permissions have only been changed by such commits since it was migrated. -/
structure MigratedGroup (wire : Wire) (proto : Proto.PolicySet) (s : Extensions × PolicySet)
    (registry : ComponentRegistry) : Prop where
  loaded : loadComponentRegistry wire s.1 = .ok registry
  carried : CarriedEntries wire proto registry
  decisions : Matches wire registry s.2

section Runs

variable {Version : Type} {semver : Semver Version} {host : Host}
  {intent : UpdatePermissionIntentData} {s s' : Extensions × PolicySet}
  {proto : Proto.PolicySet} {registry : ComponentRegistry}

theorem MigratedGroup.step (h : MigratedGroup host.toWire proto s registry)
    (hwire : host.toWire.RoundTrips proto) (hstep : UpdatesPermission semver host intent s s') :
    ∃ registry' target op, MigratedGroup host.toWire proto s' registry' ∧
      permissionTarget intent = .ok (target, op) ∧
      Decided semver host registry' s'.2 intent target op := by
  obtain ⟨registry', target, op, hload, htarget, hcarried, hrewritten⟩ :=
    hstep.rewritten hwire h.loaded h.carried
  have hmatches := h.decisions.step hrewritten htarget hstep.unmigrated
  obtain ⟨hgovernable, hplain, hfield⟩ := permissionTarget_plain htarget host
  refine ⟨registry', target, op, ⟨hload, hcarried, hmatches⟩, htarget, ?_, ?_, ?_, ?_⟩
  · exact governs_of_decides hplain (hrewritten.decides_written hgovernable fun _ => rfl)
  · intro actor commit hexercises
    exact hexercises.evaluateCommit htarget hrewritten hstep.unmigrated
  · intro htype payload oldValue changes hchanges
    obtain ⟨field, rfl, rfl⟩ := hfield htype
    exact expand_field hchanges
  · intro htype
    obtain ⟨field, rfl, rfl⟩ := hfield htype
    exact governs_of_decides hplain (hmatches.deletedField field)

end Runs

theorem carried_writes {proto : Proto.PolicySet} (t : Translation proto) :
    ∀ write ∈ t.writes, ∃ insert update delete componentType, Carries proto insert ∧
      Carries proto update ∧ Carries proto delete ∧
        write.2 = newComponentMetadata ⟨some insert, some update, some delete⟩ componentType := by
  have base := carries_metadataPolicy proto
  intro write hwrite
  rw [Translation.writes, List.mem_append, List.mem_map] at hwrite
  rcases hwrite with ⟨⟨field, id, componentType⟩, hfield, rfl⟩ | hwrite
  · exact ⟨_, _, _, componentType, carries_fieldPolicy _ _, carries_fieldPolicy _ _, base _, rfl⟩
  · simp only [List.mem_cons, List.not_mem_nil, or_false] at hwrite
    rcases hwrite with rfl | rfl | rfl | rfl | rfl | rfl | rfl
    all_goals exact ⟨_, _, _, _, base _, base _, base _, rfl⟩

/-- After any updates of the permissions of a migrated group, the last one decides the same as it
does on an unmigrated group, where it is a super admin's to remove the value of a field; and so do
all the permissions that are not updated. -/
theorem updatePermission_decided {Version : Type} {semver : Semver Version} {host : Host}
    {proto : Proto.PolicySet} {legacy : PolicySet} {includeDmMembers includeOneshotMessage : Bool}
    {registry : ComponentRegistry} {extensions : Extensions}
    (hwire : host.toWire.RoundTrips proto) (hlegacy : PolicySet.fromProto proto = .ok legacy)
    (hbuild : buildRegistry host.toWire proto includeDmMembers includeOneshotMessage = .ok registry)
    (hload : loadComponentRegistry host.toWire extensions = .ok registry)
    {s s' : Extensions × PolicySet}
    (hrun : ReflTransGen (fun a b => ∃ intent, UpdatesPermission semver host intent a b)
      (extensions, legacy) s)
    {intent : UpdatePermissionIntentData} (hstep : UpdatesPermission semver host intent s s') :
    ∃ registry' target op, loadComponentRegistry host.toWire s'.1 = .ok registry' ∧
      permissionTarget intent = .ok (target, op) ∧ Matches host.toWire registry' s'.2 ∧
      Decided semver host registry' s'.2 intent target op := by
  have hstart : MigratedGroup host.toWire proto (extensions, legacy) registry := by
    obtain ⟨t⟩ := exists_translation hbuild
    obtain ⟨registry', hbuild', hregisters⟩ :=
      t.exists_registry hwire includeDmMembers includeOneshotMessage
    cases hbuild.symm.trans hbuild'
    refine ⟨hload, fun id metadata hget => ?_,
      (preserves_of_registers t hregisters (decoded_of_fromProto hlegacy)).matches⟩
    exact carried_writes t _ ((t.writesOf_sublist _ _).mem ((hregisters id metadata).mp hget))
  have hreached : ∃ registry, MigratedGroup host.toWire proto s registry := by
    clear hstep
    induction hrun with
    | refl => exact ⟨registry, hstart⟩
    | tail _ hnext ih =>
      obtain ⟨before, hbefore⟩ := ih
      obtain ⟨_, hnext⟩ := hnext
      obtain ⟨after, _, _, hafter, _⟩ := hbefore.step hwire hnext
      exact ⟨after, hafter⟩
  obtain ⟨before, hbefore⟩ := hreached
  obtain ⟨after, target, op, hafter, htarget, hdecided⟩ := hbefore.step hwire hstep
  exact ⟨after, target, op, hafter.loaded, htarget, hafter.decisions, hdecided⟩

namespace PermissionSample

def migratedRegistry : ComponentRegistry :=
  (buildRegistry bareHost.toWire openPolicies false false).toOption.getD .new

def bytesOf (registry : ComponentRegistry) : Bytes :=
  (registry.toBytes bareHost.toWire).toOption.getD []

def groupWith (registry : ComponentRegistry) : Extensions :=
  [.appDataDictionary ⟨[(ComponentId.componentRegistry, bytesOf registry),
    (ComponentId.groupDescription, [104, 105])],
      by simp [ComponentId.componentRegistry, ComponentId.groupDescription]⟩]

def openDescription : UpdatePermissionIntentData := ⟨.updateMetadata, .allow, some "description"⟩

def payload : Bytes :=
  (updatePermissionPayload bareHost.toWire migratedRegistry openDescription).toOption.getD []

def openedEntry : Bytes := [8, 2, 18, 12, 10, 2, 8, 3, 18, 2, 8, 1, 26, 2, 8, 4]

def openedRegistry : ComponentRegistry :=
  ⟨migratedRegistry.inner.set ComponentId.groupDescription openedEntry⟩

def openedLegacy : PolicySet :=
  { openLegacy with
    updateMetadataPolicy :=
      openLegacy.updateMetadataPolicy.insert "description" (.standard .allow) }

theorem load_groupWith {registry : ComponentRegistry}
    (h : (registry.toBytes bareHost.toWire).isOk = true) :
    loadComponentRegistry bareHost.toWire (groupWith registry) = .ok registry := by
  have hbytes : registry.toBytes bareHost.toWire = .ok (bytesOf registry) := eq_ok_of_isOk h
  rw [ComponentRegistry.toBytes, mapError_eq_ok] at hbytes
  exact loadComponentRegistry_eq_ok.mpr
    (readMap_serialize (componentIdCodec_lawful _) (componentIdCodec_positive _) hbytes)

theorem readFromAppDataDict_groupWith (registry : ComponentRegistry) (id : UInt16) :
    readFromAppDataDict id (groupWith registry) =
      if id = ComponentId.componentRegistry then some (bytesOf registry)
      else if id = ComponentId.groupDescription then some [104, 105] else none := by
  have hget : readFromAppDataDict id (groupWith registry) =
      (([(ComponentId.componentRegistry, bytesOf registry),
        (ComponentId.groupDescription, [104, 105])] : List (UInt16 × Bytes)).find?
          fun entry => entry.1 == id).map (·.2) := rfl
  rw [hget, List.find?_cons, List.find?_cons]
  by_cases hid : id = ComponentId.componentRegistry
  · simp [hid]
  · by_cases hid' : id = ComponentId.groupDescription
    · subst hid'
      rfl
    · simp [hid, hid', beq_false_of_ne (Ne.symm hid), beq_false_of_ne (Ne.symm hid')]

theorem updatesPermission_openDescription :
    UpdatesPermission Sample.semver bareHost openDescription (groupWith migratedRegistry, openLegacy)
      (groupWith openedRegistry, openedLegacy) where
  migrated := by
    refine ⟨"", ⟨true, true⟩, migratedRegistry, payload, load_groupWith (by decide +kernel),
      eq_ok_of_isOk (by decide +kernel), ?_⟩
    refine @AcceptedUpdates.commit _ _ _ _ _ _ migratedRegistry
      (some ⟨[(ComponentId.componentRegistry, some (bytesOf openedRegistry))]⟩)
      (load_groupWith (by decide +kernel)) ?_ (by decide +kernel) ?_
    · intro proposal hproposal
      obtain rfl := List.mem_singleton.mp hproposal
      have hok : (validateOneAppDataUpdate Sample.semver bareHost ComponentId.componentRegistry
          (.update payload) ⟨true, true⟩ migratedRegistry (groupWith migratedRegistry)).isOk =
            true := by
        decide +kernel
      exact eq_ok_of_isOk (a := ()) hok
    · intro id
      simp only [AppDataUpdates.post, readFromAppDataDict_groupWith]
      by_cases hid : id = ComponentId.componentRegistry
      · simp [AppDataUpdates.value, hid]
      · simp [AppDataUpdates.value, hid, Ne.symm hid]
  unmigrated := rfl

def member : CommitParticipant := ⟨"bob", [], false, false, false⟩

def describes : ValidatedCommit where
  actor := member
  proposers := []
  addedInboxes := []
  removedInboxes := []
  readdedInstallations := ∅
  metadataValidationInfo := { metadataFieldChanges := [⟨"description", some "hi", none⟩] }
  installationsChanged := false
  permissionsChanged := false
  dmMembers := none

end PermissionSample

open PermissionSample

theorem updatePermission_decided_description :
    ∃ registry target op,
      loadComponentRegistry bareHost.toWire (groupWith openedRegistry) = .ok registry ∧
      permissionTarget openDescription = .ok (target, op) ∧
      Matches bareHost.toWire registry openedLegacy ∧
      Decided Sample.semver bareHost registry openedLegacy openDescription target op := by
  have hbuild : buildRegistry bareHost.toWire openPolicies false false = .ok migratedRegistry :=
    eq_ok_of_isOk (a := .new) (by decide +kernel)
  have hload : loadComponentRegistry bareHost.toWire (groupWith migratedRegistry) =
      .ok migratedRegistry := load_groupWith (by decide +kernel)
  have hdecided := updatePermission_decided bareHost_roundTrips fromProto_openPolicies hbuild hload
    .refl updatesPermission_openDescription
  exact hdecided

/-- Everyone may change the description, but on a migrated group a member may not remove it. -/
theorem updatePermission_remove_differs :
    UpdatesPermission Sample.semver bareHost openDescription
      (groupWith migratedRegistry, openLegacy) (groupWith openedRegistry, openedLegacy) ∧
    openDescription.policyOption.allows member = true ∧
    validateOneAppDataUpdate Sample.semver bareHost ComponentId.groupDescription .remove
      (authorityOf member) openedRegistry (groupWith openedRegistry) ≠ .ok () ∧
    openedLegacy.evaluateCommit describes = true := by
  refine ⟨updatesPermission_openDescription, rfl, fun h => ?_, by decide +kernel⟩
  have hok : (validateOneAppDataUpdate Sample.semver bareHost ComponentId.groupDescription .remove
      (authorityOf member) openedRegistry (groupWith openedRegistry)).isOk = false := by
    decide +kernel
  rw [h] at hok
  cases hok

end LibXmtp.AppData
