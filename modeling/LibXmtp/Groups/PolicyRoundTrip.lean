import LibXmtp.Groups.Permissions

/-! The policies of a group written to their messages and read back, and what the ones that are
read grant to the roles. -/

namespace LibXmtp.Groups

open LibXmtp.Data

/-- `AllowSameMember` has no number: it is not needed on the wire. -/
def BasePolicies.inner : BasePolicies → Except PolicyError Int32
  | .allow => .ok 1
  | .deny => .ok 2
  | .allowSameMember => .error .invalidPolicy
  | .allowIfAdminOrSuperAdmin => .ok 3
  | .allowIfSuperAdmin => .ok 4

def PermissionsBasePolicies.inner : PermissionsBasePolicies → Int32
  | .deny => 1
  | .allowIfActorAdminOrSuperAdmin => 2
  | .allowIfActorSuperAdmin => 3

namespace Policies

variable {β : Type}

section ToProto

variable (inner : β → Except PolicyError Int32)

mutual

def toProto : Policies β → Except PolicyError Proto.Policy
  | .standard policy => .base <$> inner policy
  | .andCondition policies => .andCondition <$> toProtoAll policies
  | .anyCondition policies => .anyCondition <$> toProtoAll policies

def toProtoAll : List (Policies β) → Except PolicyError (List Proto.Policy)
  | [] => .ok []
  | policy :: policies => do
    let policy ← toProto policy
    let policies ← toProtoAll policies
    return policy :: policies

end

end ToProto

/-- No condition is empty, at any depth, and every base policy is a good one. -/
inductive Filled (good : β → Prop) : Policies β → Prop
  | standard {policy : β} (h : good policy) : Filled good (.standard policy)
  | andCondition {policies : List (Policies β)} (hne : policies ≠ [])
    (h : ∀ policy ∈ policies, Filled good policy) : Filled good (.andCondition policies)
  | anyCondition {policies : List (Policies β)} (hne : policies ≠ [])
    (h : ∀ policy ∈ policies, Filled good policy) : Filled good (.anyCondition policies)

theorem Filled.mono {good good' : β → Prop} {policy : Policies β} (h : Filled good policy)
    (himp : ∀ policy, good policy → good' policy) : Filled good' policy := by
  induction h with
  | standard h => exact .standard (himp _ h)
  | andCondition hne _ ih => exact .andCondition hne ih
  | anyCondition hne _ ih => exact .anyCondition hne ih

section RoundTrip

variable {good : β → Prop} {inner : β → Except PolicyError Int32} {ofInner : Int32 → Option β}
  {invalid : PolicyError}

def RoundTrips (inner : β → Except PolicyError Int32) (ofInner : Int32 → Option β)
    (invalid : PolicyError) (policy : Policies β) : Prop :=
  ∃ proto, toProto inner policy = .ok proto ∧ tryFrom ofInner invalid proto = .ok policy

theorem roundTrips_all {policies : List (Policies β)}
    (h : ∀ policy ∈ policies, RoundTrips inner ofInner invalid policy) :
    ∃ protos, toProtoAll inner policies = .ok protos ∧
      tryFromAll ofInner invalid protos = .ok policies ∧ protos.isEmpty = policies.isEmpty := by
  induction policies with
  | nil => exact ⟨[], rfl, rfl, rfl⟩
  | cons policy policies ih =>
    obtain ⟨proto, hproto, hread⟩ := h policy List.mem_cons_self
    obtain ⟨protos, hprotos, hreads, _⟩ := ih fun policy hmem => h policy (List.mem_cons_of_mem _ hmem)
    refine ⟨proto :: protos, ?_, ?_, rfl⟩
    · rw [toProtoAll, hproto, ok_bind, hprotos]
      rfl
    · rw [tryFromAll, hread, ok_bind, hreads]
      rfl

theorem Filled.roundTrips {policy : Policies β} (h : Filled good policy)
    (hinner : ∀ policy, good policy → ∃ n, inner policy = .ok n ∧ ofInner n = some policy) :
    RoundTrips inner ofInner invalid policy := by
  induction h with
  | @standard policy hgood =>
    obtain ⟨n, hn, hpolicy⟩ := hinner policy hgood
    exact ⟨.base n, by rw [toProto, hn, map_ok], by rw [tryFrom, hpolicy]⟩
  | @andCondition policies hne _ ih =>
    obtain ⟨protos, hprotos, hreads, hempty⟩ := roundTrips_all ih
    refine ⟨.andCondition protos, by rw [toProto, hprotos, map_ok], ?_⟩
    rw [tryFrom, hempty, if_neg (by simpa using hne), hreads, map_ok]
  | @anyCondition policies hne _ ih =>
    obtain ⟨protos, hprotos, hreads, hempty⟩ := roundTrips_all ih
    refine ⟨.anyCondition protos, by rw [toProto, hprotos, map_ok], ?_⟩
    rw [tryFrom, hempty, if_neg (by simpa using hne), hreads, map_ok]

mutual

theorem filled_of_tryFrom (hgood : ∀ n policy, ofInner n = some policy → good policy)
    (proto : Proto.Policy) {policy : Policies β}
    (h : tryFrom ofInner invalid proto = .ok policy) : Filled good policy := by
  match proto with
  | .unset => cases h
  | .base n =>
    rw [tryFrom] at h
    split at h
    · rename_i hn
      cases h
      exact .standard (hgood n _ hn)
    · cases h
  | .andCondition protos =>
    rw [tryFrom] at h
    split at h
    · cases h
    · rename_i hne
      obtain ⟨policies, hall, rfl⟩ := map_eq_ok.mp h
      obtain ⟨hfilled, hempty⟩ := filled_of_tryFromAll hgood protos hall
      exact .andCondition (fun hnil => hne (hempty.mpr hnil)) hfilled
  | .anyCondition protos =>
    rw [tryFrom] at h
    split at h
    · cases h
    · rename_i hne
      obtain ⟨policies, hall, rfl⟩ := map_eq_ok.mp h
      obtain ⟨hfilled, hempty⟩ := filled_of_tryFromAll hgood protos hall
      exact .anyCondition (fun hnil => hne (hempty.mpr hnil)) hfilled

theorem filled_of_tryFromAll (hgood : ∀ n policy, ofInner n = some policy → good policy)
    (protos : List Proto.Policy) {policies : List (Policies β)}
    (h : tryFromAll ofInner invalid protos = .ok policies) :
    (∀ policy ∈ policies, Filled good policy) ∧ (protos.isEmpty = true ↔ policies = []) := by
  match protos with
  | [] =>
    cases h
    simp
  | proto :: protos =>
    simp only [tryFromAll, bind_eq_ok, pure_eq_ok] at h
    obtain ⟨policy, hpolicy, rest, hrest, rfl⟩ := h
    refine ⟨fun policy' hmem => ?_, by simp⟩
    rcases List.mem_cons.mp hmem with heq | hmem
    · subst heq
      exact filled_of_tryFrom hgood proto hpolicy
    · exact (filled_of_tryFromAll hgood protos hrest).1 policy' hmem

end

end RoundTrip

section MonotoneInRole

variable {base base' : β → Bool}

mutual

theorem evaluate_mono (hbase : ∀ policy, base policy = true → base' policy = true)
    (policy : Policies β) (h : evaluate base policy = true) :
    evaluate base' policy = true := by
  match policy with
  | .standard policy => exact hbase policy h
  | .andCondition policies => exact evaluateAll_mono hbase policies h
  | .anyCondition policies => exact evaluateAny_mono hbase policies h

theorem evaluateAll_mono (hbase : ∀ policy, base policy = true → base' policy = true)
    (policies : List (Policies β)) (h : evaluateAll base policies = true) :
    evaluateAll base' policies = true := by
  match policies with
  | [] => rfl
  | policy :: policies =>
    rw [evaluateAll, Bool.and_eq_true] at h ⊢
    exact ⟨evaluate_mono hbase policy h.1, evaluateAll_mono hbase policies h.2⟩

theorem evaluateAny_mono (hbase : ∀ policy, base policy = true → base' policy = true)
    (policies : List (Policies β)) (h : evaluateAny base policies = true) :
    evaluateAny base' policies = true := by
  match policies with
  | [] => cases h
  | policy :: policies =>
    rw [evaluateAny, Bool.or_eq_true] at h ⊢
    rcases h with h | h
    · exact .inl (evaluate_mono hbase policy h)
    · exact .inr (evaluateAny_mono hbase policies h)

end

end MonotoneInRole

end Policies

def MembershipPolicies.toProto : MembershipPolicies → Except PolicyError Proto.Policy :=
  Policies.toProto BasePolicies.inner

def MetadataPolicies.toProto : MetadataPolicies → Except PolicyError Proto.Policy :=
  Policies.toProto fun policy => .ok policy.inner

def PermissionsPolicies.toProto : PermissionsPolicies → Except PolicyError Proto.Policy :=
  Policies.toProto fun policy => .ok policy.inner

def PolicySet.toProto (policies : PolicySet) : Except PolicyError Proto.PolicySet := do
  let addMemberPolicy ← MembershipPolicies.toProto policies.addMemberPolicy
  let removeMemberPolicy ← MembershipPolicies.toProto policies.removeMemberPolicy
  let updateMetadataPolicy ← policies.updateMetadataPolicy.entries.mapM fun (key, policy) => do
    let policyProto ← MetadataPolicies.toProto policy
    return (key, policyProto)
  let addAdminPolicy ← PermissionsPolicies.toProto policies.addAdminPolicy
  let removeAdminPolicy ← PermissionsPolicies.toProto policies.removeAdminPolicy
  let updatePermissionsPolicy ← PermissionsPolicies.toProto policies.updatePermissionsPolicy
  return {
    addMemberPolicy := some addMemberPolicy
    removeMemberPolicy := some removeMemberPolicy
    updateMetadataPolicy := .ofList updateMetadataPolicy
    addAdminPolicy := some addAdminPolicy
    removeAdminPolicy := some removeAdminPolicy
    updatePermissionsPolicy := some updatePermissionsPolicy }

/-- No condition of any of the policies is empty, and every base policy of a membership policy is a
good one. -/
structure PolicySet.Filled (good : BasePolicies → Prop) (p : PolicySet) : Prop where
  addMemberPolicy : p.addMemberPolicy.Filled good
  removeMemberPolicy : p.removeMemberPolicy.Filled good
  updateMetadataPolicy : ∀ key policy, p.updateMetadataPolicy.get key = some policy →
    policy.Filled fun _ => True
  addAdminPolicy : p.addAdminPolicy.Filled fun _ => True
  removeAdminPolicy : p.removeAdminPolicy.Filled fun _ => True
  updatePermissionsPolicy : p.updatePermissionsPolicy.Filled fun _ => True

section RoundTrip

theorem MembershipPolicies.roundTrips {policy : MembershipPolicies}
    (h : policy.Filled (· ≠ .allowSameMember)) :
    ∃ proto, toProto policy = .ok proto ∧ tryFrom proto = .ok policy := by
  refine Policies.Filled.roundTrips h fun base hbase => ?_
  cases base with
  | allowSameMember => exact absurd rfl hbase
  | _ => exact ⟨_, rfl, rfl⟩

theorem MetadataPolicies.roundTrips {policy : MetadataPolicies} (h : policy.Filled fun _ => True) :
    ∃ proto, toProto policy = .ok proto ∧ tryFrom proto = .ok policy :=
  Policies.Filled.roundTrips h fun base _ => ⟨base.inner, rfl, base.ofInner_inner⟩

theorem PermissionsPolicies.roundTrips {policy : PermissionsPolicies}
    (h : policy.Filled fun _ => True) :
    ∃ proto, toProto policy = .ok proto ∧ tryFrom proto = .ok policy := by
  refine Policies.Filled.roundTrips h fun base _ => ⟨base.inner, rfl, ?_⟩
  cases base <;> rfl

theorem PolicySet.roundTrips {p : PolicySet} (h : p.Filled (· ≠ .allowSameMember)) :
    ∃ proto q, p.toProto = .ok proto ∧ fromProto proto = .ok q ∧ q.eq p = true := by
  obtain ⟨addMember, haddMember, haddMember'⟩ := MembershipPolicies.roundTrips h.addMemberPolicy
  obtain ⟨removeMember, hremoveMember, hremoveMember'⟩ :=
    MembershipPolicies.roundTrips h.removeMemberPolicy
  obtain ⟨addAdmin, haddAdmin, haddAdmin'⟩ := PermissionsPolicies.roundTrips h.addAdminPolicy
  obtain ⟨removeAdmin, hremoveAdmin, hremoveAdmin'⟩ :=
    PermissionsPolicies.roundTrips h.removeAdminPolicy
  obtain ⟨permissions, hpermissions, hpermissions'⟩ :=
    PermissionsPolicies.roundTrips h.updatePermissionsPolicy
  obtain ⟨metadata, hmetadata, metadata', hmetadata', hequiv⟩ :=
    HashMap.exists_converted_back (f := MetadataPolicies.toProto) (g := MetadataPolicies.tryFrom)
      fun key policy hget => MetadataPolicies.roundTrips (h.updateMetadataPolicy key policy hget)
  let proto : Proto.PolicySet := ⟨some addMember, some removeMember, .ofList metadata, some addAdmin,
    some removeAdmin, some permissions⟩
  let q : PolicySet := ⟨p.addMemberPolicy, p.removeMemberPolicy, .ofList metadata', p.addAdminPolicy,
    p.removeAdminPolicy, p.updatePermissionsPolicy⟩
  refine ⟨proto, q, ?_, ?_, ?_⟩
  · rw [toProto, haddMember, hremoveMember, hmetadata, haddAdmin, hremoveAdmin, hpermissions]
    rfl
  · simp only [fromProto, proto, okOr_some, ok_bind, haddMember', hremoveMember', haddAdmin',
      hremoveAdmin', hpermissions', hmetadata']
    rfl
  · simp [eq, q, hequiv.eq_true]

end RoundTrip

theorem PolicySet.filled_of_fromProto {proto : Proto.PolicySet} {p : PolicySet}
    (h : fromProto proto = .ok p) : p.Filled fun _ => True := by
  simp only [fromProto, bind_eq_ok, okOr_eq_ok, pure_eq_ok] at h
  obtain ⟨_, _, addMember, haddMember, _, _, removeMember, hremoveMember, _, _, addAdmin, haddAdmin,
    _, _, removeAdmin, hremoveAdmin, _, _, permissions, hpermissions, metadata, hmetadata, hp⟩ := h
  subst hp
  exact {
    addMemberPolicy := Policies.filled_of_tryFrom (fun _ _ _ => trivial) _ haddMember
    removeMemberPolicy := Policies.filled_of_tryFrom (fun _ _ _ => trivial) _ hremoveMember
    updateMetadataPolicy := by
      intro key policy hget
      rw [HashMap.get_ofList_mapM hmetadata, Option.bind_eq_some_iff] at hget
      obtain ⟨policyProto, _, hpolicy⟩ := hget
      cases hread : MetadataPolicies.tryFrom policyProto with
      | error e =>
        rw [hread] at hpolicy
        cases hpolicy
      | ok policy' =>
        rw [hread] at hpolicy
        cases hpolicy
        exact Policies.filled_of_tryFrom (fun _ _ _ => trivial) _ hread
    addAdminPolicy := Policies.filled_of_tryFrom (fun _ _ _ => trivial) _ haddAdmin
    removeAdminPolicy := Policies.filled_of_tryFrom (fun _ _ _ => trivial) _ hremoveAdmin
    updatePermissionsPolicy := Policies.filled_of_tryFrom (fun _ _ _ => trivial) _ hpermissions }

section Roles

def CommitParticipant.rank (actor : CommitParticipant) : Nat :=
  if actor.isSuperAdmin then 2 else if actor.isAdmin then 1 else 0

def MonotoneInRole (evaluate : CommitParticipant → Bool) : Prop :=
  ∀ actor higher : CommitParticipant, actor.inboxId = higher.inboxId → actor.rank ≤ higher.rank →
    evaluate actor = true → evaluate higher = true

theorem isSuperAdmin_of_rank {actor higher : CommitParticipant} (hrank : actor.rank ≤ higher.rank)
    (h : actor.isSuperAdmin = true) : higher.isSuperAdmin = true := by
  unfold CommitParticipant.rank at hrank
  cases hs : higher.isSuperAdmin <;> cases ha : higher.isAdmin <;> simp_all

theorem isAdminOrSuperAdmin_of_rank {actor higher : CommitParticipant}
    (hrank : actor.rank ≤ higher.rank) (h : (actor.isAdmin || actor.isSuperAdmin) = true) :
    (higher.isAdmin || higher.isSuperAdmin) = true := by
  unfold CommitParticipant.rank at hrank
  cases hs : higher.isSuperAdmin <;> cases ha : higher.isAdmin <;> cases hs' : actor.isSuperAdmin <;>
    simp_all

theorem MembershipPolicies.monotone (policy : MembershipPolicies) (inbox : Inbox) :
    MonotoneInRole fun actor => policy.evaluate actor inbox := by
  intro actor higher hinbox hrank
  refine Policies.evaluate_mono (fun base hbase => ?_) policy
  cases base with
  | allow => rfl
  | deny => cases hbase
  | allowSameMember =>
    rw [BasePolicies.evaluate] at hbase ⊢
    rw [← hinbox]
    exact hbase
  | allowIfAdminOrSuperAdmin => exact isAdminOrSuperAdmin_of_rank hrank hbase
  | allowIfSuperAdmin => exact isSuperAdmin_of_rank hrank hbase

theorem MetadataPolicies.monotone (policy : MetadataPolicies) : MonotoneInRole policy.evaluate := by
  intro actor higher _ hrank
  refine Policies.evaluate_mono (fun base hbase => ?_) policy
  cases base with
  | allow => rfl
  | deny => cases hbase
  | allowIfActorAdminOrSuperAdmin => exact isAdminOrSuperAdmin_of_rank hrank hbase
  | allowIfActorSuperAdmin => exact isSuperAdmin_of_rank hrank hbase

theorem PermissionsPolicies.monotone (policy : PermissionsPolicies) : MonotoneInRole policy.evaluate := by
  intro actor higher _ hrank
  refine Policies.evaluate_mono (fun base hbase => ?_) policy
  cases base with
  | deny => cases hbase
  | allowIfActorAdminOrSuperAdmin => exact isAdminOrSuperAdmin_of_rank hrank hbase
  | allowIfActorSuperAdmin => exact isSuperAdmin_of_rank hrank hbase

/-- Every policy of the set grants a higher role what it grants a lower one. -/
structure PolicySet.RoleMonotone (p : PolicySet) : Prop where
  addMemberPolicy : ∀ inbox, MonotoneInRole fun actor => p.addMemberPolicy.evaluate actor inbox
  removeMemberPolicy : ∀ inbox, MonotoneInRole fun actor => p.removeMemberPolicy.evaluate actor inbox
  updateMetadataPolicy : ∀ key policy, p.updateMetadataPolicy.get key = some policy →
    MonotoneInRole policy.evaluate
  addAdminPolicy : MonotoneInRole p.addAdminPolicy.evaluate
  removeAdminPolicy : MonotoneInRole p.removeAdminPolicy.evaluate
  updatePermissionsPolicy : MonotoneInRole p.updatePermissionsPolicy.evaluate

theorem PolicySet.roleMonotone (p : PolicySet) : p.RoleMonotone where
  addMemberPolicy := MembershipPolicies.monotone p.addMemberPolicy
  removeMemberPolicy := MembershipPolicies.monotone p.removeMemberPolicy
  updateMetadataPolicy _ policy _ := MetadataPolicies.monotone policy
  addAdminPolicy := PermissionsPolicies.monotone p.addAdminPolicy
  removeAdminPolicy := PermissionsPolicies.monotone p.removeAdminPolicy
  updatePermissionsPolicy := PermissionsPolicies.monotone p.updatePermissionsPolicy

end Roles

/-- Sets without empty conditions are read back as they were written. Every set that is read is
without empty conditions, and grants a higher role whatever it grants a lower one. -/
theorem PolicySet.read_policies :
    (∀ p : PolicySet, p.Filled (· ≠ .allowSameMember) →
      ∃ proto q, p.toProto = .ok proto ∧ fromProto proto = .ok q ∧ q.eq p = true) ∧
      ∀ proto p, fromProto proto = .ok p → p.Filled (fun _ => True) ∧ p.RoleMonotone :=
  ⟨fun _ h => roundTrips h, fun _ p h => ⟨filled_of_fromProto h, p.roleMonotone⟩⟩

namespace PolicySample

def policies : PolicySet where
  addMemberPolicy := .andCondition [.standard .allow, .standard .allowIfAdminOrSuperAdmin]
  removeMemberPolicy := .anyCondition [.standard .deny, .andCondition [.standard .allowIfSuperAdmin]]
  updateMetadataPolicy := .ofList [("group_name", .anyCondition [.standard .allow])]
  addAdminPolicy := .standard .allowIfActorSuperAdmin
  removeAdminPolicy := .standard .allowIfActorSuperAdmin
  updatePermissionsPolicy := .standard .deny

theorem filled_policies : policies.Filled (· ≠ .allowSameMember) where
  addMemberPolicy := by
    refine .andCondition (List.cons_ne_nil _ _) fun policy hmem => ?_
    simp only [List.mem_cons, List.not_mem_nil, or_false] at hmem
    rcases hmem with rfl | rfl <;> exact .standard (by decide)
  removeMemberPolicy := by
    refine .anyCondition (List.cons_ne_nil _ _) fun policy hmem => ?_
    simp only [List.mem_cons, List.not_mem_nil, or_false] at hmem
    rcases hmem with rfl | rfl
    · exact .standard (by decide)
    · refine .andCondition (List.cons_ne_nil _ _) fun policy hmem => ?_
      rw [List.mem_singleton.mp hmem]
      exact .standard (by decide)
  updateMetadataPolicy key policy hget := by
    have hentry := List.mem_singleton.mp (HashMap.get_eq_some_iff.mp hget)
    cases hentry
    refine .anyCondition (List.cons_ne_nil _ _) fun policy hmem => ?_
    rw [List.mem_singleton.mp hmem]
    exact .standard trivial
  addAdminPolicy := .standard trivial
  removeAdminPolicy := .standard trivial
  updatePermissionsPolicy := .standard trivial

end PolicySample

theorem PolicySet.read_policies_sample :
    ∃ proto q, toProto PolicySample.policies = .ok proto ∧ fromProto proto = .ok q ∧
      q.eq PolicySample.policies = true ∧ q.Filled (fun _ => True) ∧ q.RoleMonotone := by
  obtain ⟨proto, q, hproto, hread, heq⟩ := read_policies.1 _ PolicySample.filled_policies
  obtain ⟨hfilled, hmonotone⟩ := read_policies.2 proto q hread
  exact ⟨proto, q, hproto, hread, heq, hfilled, hmonotone⟩

end LibXmtp.Groups
