import LibXmtp.Groups.ValidatedCommit

namespace LibXmtp.Groups

open LibXmtp.Data

/-- A policy over the base policies `β`: all or any of several policies, at any depth. -/
inductive Policies (β : Type)
  | standard (policy : β)
  | andCondition (policies : List (Policies β))
  | anyCondition (policies : List (Policies β))

namespace Policies

variable {β : Type}

mutual

def evaluate (base : β → Bool) : Policies β → Bool
  | .standard policy => base policy
  | .andCondition policies => evaluateAll base policies
  | .anyCondition policies => evaluateAny base policies

def evaluateAll (base : β → Bool) : List (Policies β) → Bool
  | [] => true
  | policy :: policies => evaluate base policy && evaluateAll base policies

def evaluateAny (base : β → Bool) : List (Policies β) → Bool
  | [] => false
  | policy :: policies => evaluate base policy || evaluateAny base policies

end

theorem evaluateAll_eq (base : β → Bool) (policies : List (Policies β)) :
    evaluateAll base policies = policies.all (evaluate base) := by
  induction policies with
  | nil => rfl
  | cons policy policies ih => rw [evaluateAll, ih, List.all_cons]

theorem evaluateAny_eq (base : β → Bool) (policies : List (Policies β)) :
    evaluateAny base policies = policies.any (evaluate base) := by
  induction policies with
  | nil => rfl
  | cons policy policies ih => rw [evaluateAny, ih, List.any_cons]

mutual

def eq [DecidableEq β] : Policies β → Policies β → Bool
  | .standard p, .standard q => p == q
  | .andCondition ps, .andCondition qs => eqAll ps qs
  | .anyCondition ps, .anyCondition qs => eqAll ps qs
  | _, _ => false

def eqAll [DecidableEq β] : List (Policies β) → List (Policies β) → Bool
  | [], [] => true
  | p :: ps, q :: qs => eq p q && eqAll ps qs
  | _, _ => false

end

instance [DecidableEq β] : BEq (Policies β) := ⟨eq⟩

section

variable [DecidableEq β]

mutual

theorem eq_iff (p q : Policies β) : eq p q = true ↔ p = q := by
  match p, q with
  | .standard p, .standard q => simp [eq]
  | .andCondition ps, .andCondition qs =>
    rw [eq, eqAll_iff ps qs, Policies.andCondition.injEq]
  | .anyCondition ps, .anyCondition qs =>
    rw [eq, eqAll_iff ps qs, Policies.anyCondition.injEq]
  | .standard _, .andCondition _ => simp [eq]
  | .standard _, .anyCondition _ => simp [eq]
  | .andCondition _, .standard _ => simp [eq]
  | .andCondition _, .anyCondition _ => simp [eq]
  | .anyCondition _, .standard _ => simp [eq]
  | .anyCondition _, .andCondition _ => simp [eq]

theorem eqAll_iff (ps qs : List (Policies β)) : eqAll ps qs = true ↔ ps = qs := by
  match ps, qs with
  | [], [] => simp [eqAll]
  | p :: ps, q :: qs =>
    rw [eqAll, Bool.and_eq_true, eq_iff p q, eqAll_iff ps qs, List.cons.injEq]
  | [], _ :: _ => simp [eqAll]
  | _ :: _, [] => simp [eqAll]

end

instance : LawfulBEq (Policies β) where
  eq_of_beq {p q} h := (eq_iff p q).mp h
  rfl {p} := (eq_iff p p).mpr rfl

end

end Policies

/-- A policy message: its kind may be unset, and a base policy is a number. -/
inductive Proto.Policy
  | unset
  | base (inner : Int32)
  | andCondition (policies : List Proto.Policy)
  | anyCondition (policies : List Proto.Policy)

inductive PolicyError
  | invalidPolicy
  | invalidMetadataPolicy
  | invalidMembershipPolicy
  | invalidPermissionsPolicy
  | fromProtoAddMemberInvalidPolicy
  | fromProtoRemoveMemberInvalidPolicy
  | fromProtoAddAdminInvalidPolicy
  | fromProtoRemoveAdminInvalidPolicy
  | fromProtoUpdatePermissionsInvalidPolicy

namespace Policies

variable {β : Type} (ofInner : Int32 → Option β) (invalid : PolicyError)

mutual

def tryFrom : Proto.Policy → Except PolicyError (Policies β)
  | .unset => .error invalid
  | .base inner =>
    match ofInner inner with
    | some policy => .ok (.standard policy)
    | none => .error invalid
  | .andCondition policies =>
    if policies.isEmpty then .error invalid else .andCondition <$> tryFromAll policies
  | .anyCondition policies =>
    if policies.isEmpty then .error invalid else .anyCondition <$> tryFromAll policies

def tryFromAll : List Proto.Policy → Except PolicyError (List (Policies β))
  | [] => .ok []
  | policy :: policies => do
    let policy ← tryFrom policy
    let policies ← tryFromAll policies
    return policy :: policies

end

end Policies

inductive MetadataBasePolicies
  | allow
  | deny
  | allowIfActorAdminOrSuperAdmin
  | allowIfActorSuperAdmin
  deriving DecidableEq

def MetadataBasePolicies.evaluate (actor : CommitParticipant) : MetadataBasePolicies → Bool
  | .allow => true
  | .deny => false
  | .allowIfActorAdminOrSuperAdmin => actor.isAdmin || actor.isSuperAdmin
  | .allowIfActorSuperAdmin => actor.isSuperAdmin

def MetadataBasePolicies.ofInner (inner : Int32) : Option MetadataBasePolicies :=
  if inner = 1 then some .allow
  else if inner = 2 then some .deny
  else if inner = 3 then some .allowIfActorAdminOrSuperAdmin
  else if inner = 4 then some .allowIfActorSuperAdmin
  else none

def MetadataBasePolicies.inner : MetadataBasePolicies → Int32
  | .allow => 1
  | .deny => 2
  | .allowIfActorAdminOrSuperAdmin => 3
  | .allowIfActorSuperAdmin => 4

@[simp] theorem MetadataBasePolicies.ofInner_inner (policy : MetadataBasePolicies) :
    ofInner policy.inner = some policy := by cases policy <;> rfl

abbrev MetadataPolicies := Policies MetadataBasePolicies

def MetadataPolicies.evaluate (policy : MetadataPolicies) (actor : CommitParticipant) : Bool :=
  Policies.evaluate (MetadataBasePolicies.evaluate actor) policy

def MetadataPolicies.tryFrom : Proto.Policy → Except PolicyError MetadataPolicies :=
  Policies.tryFrom MetadataBasePolicies.ofInner .invalidMetadataPolicy

inductive PermissionsBasePolicies
  | deny
  | allowIfActorAdminOrSuperAdmin
  | allowIfActorSuperAdmin
  deriving DecidableEq

def PermissionsBasePolicies.evaluate (actor : CommitParticipant) : PermissionsBasePolicies → Bool
  | .deny => false
  | .allowIfActorAdminOrSuperAdmin => actor.isAdmin || actor.isSuperAdmin
  | .allowIfActorSuperAdmin => actor.isSuperAdmin

def PermissionsBasePolicies.ofInner (inner : Int32) : Option PermissionsBasePolicies :=
  if inner = 1 then some .deny
  else if inner = 2 then some .allowIfActorAdminOrSuperAdmin
  else if inner = 3 then some .allowIfActorSuperAdmin
  else none

abbrev PermissionsPolicies := Policies PermissionsBasePolicies

def PermissionsPolicies.evaluate (policy : PermissionsPolicies) (actor : CommitParticipant) : Bool :=
  Policies.evaluate (PermissionsBasePolicies.evaluate actor) policy

def PermissionsPolicies.tryFrom : Proto.Policy → Except PolicyError PermissionsPolicies :=
  Policies.tryFrom PermissionsBasePolicies.ofInner .invalidPermissionsPolicy

inductive BasePolicies
  | allow
  | deny
  | allowSameMember
  | allowIfAdminOrSuperAdmin
  | allowIfSuperAdmin
  deriving DecidableEq

def BasePolicies.evaluate (actor : CommitParticipant) (inbox : Inbox) : BasePolicies → Bool
  | .allow => true
  | .deny => false
  | .allowSameMember => inbox.inboxId == actor.inboxId
  | .allowIfAdminOrSuperAdmin => actor.isAdmin || actor.isSuperAdmin
  | .allowIfSuperAdmin => actor.isSuperAdmin

def BasePolicies.ofInner (inner : Int32) : Option BasePolicies :=
  if inner = 1 then some .allow
  else if inner = 2 then some .deny
  else if inner = 3 then some .allowIfAdminOrSuperAdmin
  else if inner = 4 then some .allowIfSuperAdmin
  else none

abbrev MembershipPolicies := Policies BasePolicies

def MembershipPolicies.evaluate (policy : MembershipPolicies) (actor : CommitParticipant)
    (inbox : Inbox) : Bool :=
  Policies.evaluate (BasePolicies.evaluate actor inbox) policy

def MembershipPolicies.tryFrom : Proto.Policy → Except PolicyError MembershipPolicies :=
  Policies.tryFrom BasePolicies.ofInner .invalidMembershipPolicy

structure Proto.PolicySet where
  addMemberPolicy : Option Proto.Policy
  removeMemberPolicy : Option Proto.Policy
  updateMetadataPolicy : HashMap String Proto.Policy
  addAdminPolicy : Option Proto.Policy
  removeAdminPolicy : Option Proto.Policy
  updatePermissionsPolicy : Option Proto.Policy

structure Proto.GroupMutablePermissionsV1 where
  policies : Option Proto.PolicySet

structure PolicySet where
  addMemberPolicy : MembershipPolicies
  removeMemberPolicy : MembershipPolicies
  updateMetadataPolicy : HashMap String MetadataPolicies
  addAdminPolicy : PermissionsPolicies
  removeAdminPolicy : PermissionsPolicies
  updatePermissionsPolicy : PermissionsPolicies

namespace PolicySet

def eq (p q : PolicySet) : Bool :=
  p.addMemberPolicy == q.addMemberPolicy && p.removeMemberPolicy == q.removeMemberPolicy &&
    p.updateMetadataPolicy.eq q.updateMetadataPolicy && p.addAdminPolicy == q.addAdminPolicy &&
    p.removeAdminPolicy == q.removeAdminPolicy &&
    p.updatePermissionsPolicy == q.updatePermissionsPolicy

def fromProto (proto : Proto.PolicySet) : Except PolicyError PolicySet := do
  let addMemberPolicy ← okOr proto.addMemberPolicy .fromProtoAddMemberInvalidPolicy
  let addMemberPolicy ← MembershipPolicies.tryFrom addMemberPolicy
  let removeMemberPolicy ← okOr proto.removeMemberPolicy .fromProtoRemoveMemberInvalidPolicy
  let removeMemberPolicy ← MembershipPolicies.tryFrom removeMemberPolicy
  let addAdminPolicy ← okOr proto.addAdminPolicy .fromProtoAddAdminInvalidPolicy
  let addAdminPolicy ← PermissionsPolicies.tryFrom addAdminPolicy
  let removeAdminPolicy ← okOr proto.removeAdminPolicy .fromProtoRemoveAdminInvalidPolicy
  let removeAdminPolicy ← PermissionsPolicies.tryFrom removeAdminPolicy
  let updatePermissionsPolicy ←
    okOr proto.updatePermissionsPolicy .fromProtoUpdatePermissionsInvalidPolicy
  let updatePermissionsPolicy ← PermissionsPolicies.tryFrom updatePermissionsPolicy
  let updateMetadataPolicy ← proto.updateMetadataPolicy.entries.mapM fun (key, policyProto) => do
    let policy ← MetadataPolicies.tryFrom policyProto
    return (key, policy)
  return {
    addMemberPolicy, removeMemberPolicy, addAdminPolicy, removeAdminPolicy, updatePermissionsPolicy
    updateMetadataPolicy := .ofList updateMetadataPolicy }

def evaluatePolicyWithProposer (changes : List Inbox) (policy : MembershipPolicies)
    (defaultActor : CommitParticipant) : Bool :=
  changes.all fun change => policy.evaluate (change.proposer.getD defaultActor) change

def superAdminMetadataPrefix : String := "_"

def evaluateMetadataPolicy (changes : List MetadataFieldChange)
    (policies : HashMap String MetadataPolicies) (actor : CommitParticipant) : Bool :=
  changes.all fun change =>
    match policies.get change.fieldName with
    | some policy => policy.evaluate actor
    | none =>
      let policyForUnrecognizedField : MetadataPolicies :=
        if superAdminMetadataPrefix.toList.isPrefixOf change.fieldName.toList then
          .standard .allowIfActorSuperAdmin
        else .standard .allowIfActorAdminOrSuperAdmin
      policyForUnrecognizedField.evaluate actor

def evaluateCommit (policies : PolicySet) (commit : ValidatedCommit) : Bool :=
  let info := commit.metadataValidationInfo
  -- a member of a DM can always be added to it by the other one
  let isDmAdd :=
    match commit.dmMembers, commit.addedInboxes with
    | some dmMembers, [added] =>
      (added.inboxId == dmMembers.memberOneInboxId ||
        added.inboxId == dmMembers.memberTwoInboxId) && added.inboxId != commit.actor.inboxId
    | _, _ => false
  let addedInboxesValid :=
    evaluatePolicyWithProposer commit.addedInboxes policies.addMemberPolicy commit.actor || isDmAdd
  let removedInboxesValid :=
    evaluatePolicyWithProposer commit.removedInboxes policies.removeMemberPolicy commit.actor &&
      !commit.removedInboxes.any Inbox.isSuperAdmin
  let metadataChangesValid :=
    evaluateMetadataPolicy info.metadataFieldChanges policies.updateMetadataPolicy commit.actor
  let addedAdminsValid :=
    info.adminsAdded.isEmpty || policies.addAdminPolicy.evaluate commit.actor
  let removedAdminsValid :=
    info.adminsRemoved.isEmpty || policies.removeAdminPolicy.evaluate commit.actor
  let superAdminAddValid := info.superAdminsAdded.isEmpty || commit.actor.isSuperAdmin
  let superAdminRemoveValid :=
    info.superAdminsRemoved.isEmpty || (commit.actor.isSuperAdmin && info.numSuperAdmins > 0)
  let permissionsChangesValid := !commit.permissionsChanged || commit.actor.isSuperAdmin
  addedInboxesValid && removedInboxesValid && metadataChangesValid && addedAdminsValid &&
    removedAdminsValid && superAdminAddValid && superAdminRemoveValid && permissionsChangesValid

/-- The same policies, whatever the order the policies of the fields are iterated in. -/
structure Equiv (p q : PolicySet) : Prop where
  addMemberPolicy : p.addMemberPolicy = q.addMemberPolicy
  removeMemberPolicy : p.removeMemberPolicy = q.removeMemberPolicy
  updateMetadataPolicy : ∀ fieldName,
    p.updateMetadataPolicy.get fieldName = q.updateMetadataPolicy.get fieldName
  addAdminPolicy : p.addAdminPolicy = q.addAdminPolicy
  removeAdminPolicy : p.removeAdminPolicy = q.removeAdminPolicy
  updatePermissionsPolicy : p.updatePermissionsPolicy = q.updatePermissionsPolicy

theorem equiv_of_eq {p q : PolicySet} (h : p.eq q = true) : p.Equiv q := by
  simp only [eq, Bool.and_eq_true, beq_iff_eq] at h
  have ⟨⟨⟨⟨⟨hadd, hremove⟩, hmetadata⟩, haddAdmin⟩, hremoveAdmin⟩, hpermissions⟩ := h
  exact ⟨hadd, hremove, HashMap.get_of_eq hmetadata, haddAdmin, hremoveAdmin, hpermissions⟩

end PolicySet

def ValidatedCommit.addsDmMember (commit : ValidatedCommit) : Bool :=
  match commit.dmMembers, commit.addedInboxes with
  | some dmMembers, [added] =>
    (added.inboxId == dmMembers.memberOneInboxId ||
      added.inboxId == dmMembers.memberTwoInboxId) && added.inboxId != commit.actor.inboxId
  | _, _ => false

namespace PolicySet

/-- The conditions a commit is evaluated on, each with the changes it is about. -/
structure Permits (policies : PolicySet) (commit : ValidatedCommit) : Prop where
  addedInboxes : evaluatePolicyWithProposer commit.addedInboxes policies.addMemberPolicy
    commit.actor = true ∨ commit.addsDmMember = true
  removedInboxes : evaluatePolicyWithProposer commit.removedInboxes policies.removeMemberPolicy
    commit.actor = true
  noSuperAdminRemoved : ∀ inbox ∈ commit.removedInboxes, inbox.isSuperAdmin = false
  metadataChanges : evaluateMetadataPolicy commit.metadataValidationInfo.metadataFieldChanges
    policies.updateMetadataPolicy commit.actor = true
  addedAdmins : commit.metadataValidationInfo.adminsAdded = [] ∨
    policies.addAdminPolicy.evaluate commit.actor = true
  removedAdmins : commit.metadataValidationInfo.adminsRemoved = [] ∨
    policies.removeAdminPolicy.evaluate commit.actor = true
  addedSuperAdmins : commit.metadataValidationInfo.superAdminsAdded = [] ∨
    commit.actor.isSuperAdmin = true
  removedSuperAdmins : commit.metadataValidationInfo.superAdminsRemoved = [] ∨
    commit.actor.isSuperAdmin = true ∧ commit.metadataValidationInfo.numSuperAdmins > 0
  permissions : commit.permissionsChanged = false ∨ commit.actor.isSuperAdmin = true

theorem evaluateCommit_iff {policies : PolicySet} {commit : ValidatedCommit} :
    policies.evaluateCommit commit = true ↔ policies.Permits commit := by
  simp only [evaluateCommit, Bool.and_eq_true, Bool.or_eq_true, Bool.not_eq_true',
    List.isEmpty_iff, decide_eq_true_eq, List.any_eq_false, Bool.not_eq_true]
  constructor
  · intro h
    obtain ⟨⟨⟨⟨⟨⟨⟨hadded, hremoved, hsuper⟩, hmetadata⟩, haddAdmin⟩, hremoveAdmin⟩, haddSuper⟩,
      hremoveSuper⟩, hpermissions⟩ := h
    exact ⟨hadded, hremoved, hsuper, hmetadata, haddAdmin, hremoveAdmin, haddSuper, hremoveSuper,
      hpermissions⟩
  · intro h
    exact ⟨⟨⟨⟨⟨⟨⟨h.addedInboxes, h.removedInboxes, h.noSuperAdminRemoved⟩, h.metadataChanges⟩,
      h.addedAdmins⟩, h.removedAdmins⟩, h.addedSuperAdmins⟩, h.removedSuperAdmins⟩, h.permissions⟩

end PolicySet

inductive GroupMutablePermissionsError
  | deserialization
  | policy (error : PolicyError)
  | missingPolicies
  | missingExtension

structure GroupMutablePermissions where
  policies : PolicySet

def GroupMutablePermissions.fromProto (proto : Proto.GroupMutablePermissionsV1) :
    Except GroupMutablePermissionsError GroupMutablePermissions := do
  let policies ← okOr proto.policies .missingPolicies
  let policies ← (PolicySet.fromProto policies).mapError .policy
  return ⟨policies⟩

end LibXmtp.Groups
