import LibXmtp.AppData.ComponentRegistry

/-! Who may write a component: immutability, then the components whose rule is fixed, then the
policies of the registry. -/

namespace LibXmtp.AppData

open LibXmtp.Data LibXmtp.Groups

structure ActorAuthority where
  isAdmin : Bool
  isSuperAdmin : Bool

structure ComponentChange where
  componentId : UInt16
  op : ComponentOp
  actor : ActorAuthority
  oldValue : Option Bytes
  newValue : Option Bytes

inductive ComponentPermissionError
  | immutableViolation (id : UInt16) (op : ComponentOp)
  | superAdminRequired (id : UInt16)
  | noRegistryEntry (id : UInt16)
  | missingPermissions (id : UInt16)
  | missingPolicyField (id : UInt16) (op : ComponentOp)
  | invalidPolicy (id : UInt16) (op : ComponentOp)
  | permissionDenied (id : UInt16) (op : ComponentOp)

inductive PolicyOutcome
  | allow
  | deny
  | invalid

def PolicyOutcome.fromBool (allowed : Bool) : PolicyOutcome := if allowed then .allow else .deny

def evaluateBasePolicy (base : Int32) (actor : ActorAuthority) : PolicyOutcome :=
  if base = 1 then .allow
  else if base = 2 then .deny
  else if base = 3 then .fromBool (actor.isAdmin || actor.isSuperAdmin)
  else if base = 4 then .fromBool actor.isSuperAdmin
  else .invalid

mutual

def evaluatePolicyProto (actor : ActorAuthority) : Proto.Policy → PolicyOutcome
  | .base base => evaluateBasePolicy base actor
  | .andCondition policies =>
    if policies.isEmpty then .invalid else evaluateAndCondition actor policies
  | .anyCondition policies =>
    if policies.isEmpty then .invalid else evaluateAnyCondition actor policies
  | .unset => .invalid

def evaluateAndCondition (actor : ActorAuthority) : List Proto.Policy → PolicyOutcome
  | [] => .allow
  | policy :: policies =>
    match evaluatePolicyProto actor policy with
    | .allow => evaluateAndCondition actor policies
    | other => other

def evaluateAnyCondition (actor : ActorAuthority) : List Proto.Policy → PolicyOutcome
  | [] => .deny
  | policy :: policies =>
    match evaluatePolicyProto actor policy with
    | .allow => .allow
    | .deny => evaluateAnyCondition actor policies
    | .invalid => .invalid

end

def Proto.ComponentPermissions.policy (permissions : Proto.ComponentPermissions) :
    ComponentOp → Option Proto.Policy
  | .insert => permissions.insertPolicy
  | .update => permissions.updatePolicy
  | .delete => permissions.deletePolicy

def validateComponentWrite (wire : Wire) (change : ComponentChange)
    (registry : ComponentRegistry) : Except ComponentPermissionError Unit := do
  let id := change.componentId
  rejectIf (ComponentId.isImmutable id && (change.op = .update || change.op = .delete))
    (.immutableViolation id change.op)
  if ComponentId.isHardcoded id then
    rejectIf (!change.actor.isSuperAdmin) (.superAdminRequired id)
  else
    let metadata ← okOr (registry.get wire id) (.noRegistryEntry id)
    let permissions ← okOr metadata.permissions (.missingPermissions id)
    let policy ← okOr (permissions.policy change.op) (.missingPolicyField id change.op)
    match evaluatePolicyProto change.actor policy with
    | .allow => return
    | .deny => .error (.permissionDenied id change.op)
    | .invalid => .error (.invalidPolicy id change.op)

section

variable {wire : Wire} {change : ComponentChange} {registry : ComponentRegistry}

theorem insert_of_isImmutable (h : ComponentId.isImmutable change.componentId = true)
    (hok : validateComponentWrite wire change registry = .ok ()) : change.op = .insert := by
  simp only [validateComponentWrite, bind_eq_ok, rejectIf_eq_ok, h] at hok
  obtain ⟨_, hop, _⟩ := hok
  cases hchange : change.op <;> simp_all

theorem isSuperAdmin_of_isHardcoded (h : ComponentId.isHardcoded change.componentId = true)
    (hok : validateComponentWrite wire change registry = .ok ()) :
    change.actor.isSuperAdmin = true := by
  simp only [validateComponentWrite, bind_eq_ok, h, if_true, rejectIf_eq_ok] at hok
  obtain ⟨_, _, hactor⟩ := hok
  simpa using hactor

end

end LibXmtp.AppData
