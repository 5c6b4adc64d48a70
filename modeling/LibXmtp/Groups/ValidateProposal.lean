import LibXmtp.Groups.RoleAuthority

namespace LibXmtp.Groups

open LibXmtp.Data LibXmtp.Associations LibXmtp.Db LibXmtp.Mls

section Validate

variable {Key Version Registry : Type} (ctx : Context Key Version Registry)
  (group : OpenMlsGroup) (policySet : PolicySet) (immutableMetadata : GroupMetadata)
  (mutableMetadata : GroupMutableMetadata) (proposer : CommitParticipant)

def validateAddProposal (leafNode : LeafNode) : Except CommitValidationError Unit := do
  let addedInboxId ← inboxIdFromCredential ctx leafNode.credential
  let inbox : Inbox := ⟨addedInboxId, false, false, false, some proposer⟩
  let isDmAdd := immutableMetadata.dmMembers.any fun dm =>
    (addedInboxId == dm.memberOneInboxId || addedInboxId == dm.memberTwoInboxId) &&
      addedInboxId != proposer.inboxId
  rejectIf (!policySet.addMemberPolicy.evaluate proposer inbox && !isDmAdd) .insufficientPermissions

def validateRemoveProposal (removed : LeafNodeIndex) : Except CommitValidationError Unit := do
  let removedMember ← okOr (group.memberAt removed) .subjectDoesNotExist
  let removedInboxId ← inboxIdFromCredential ctx removedMember.credential
  rejectIf (mutableMetadata.isSuperAdmin removedInboxId) .insufficientPermissions
  let removedInbox :=
    buildInboxWithProposer removedInboxId immutableMetadata mutableMetadata proposer
  rejectIf (!policySet.removeMemberPolicy.evaluate proposer removedInbox) .insufficientPermissions

def validateFieldChange (change : MetadataFieldChange) : Except CommitValidationError Unit :=
  match policySet.updateMetadataPolicy.get change.fieldName with
  | some policy => rejectIf (!policy.evaluate proposer) .insufficientPermissions
  | none => .ok ()

def validateMetadataChanges (changes : MutableMetadataValidationInfo) :
    Except CommitValidationError Unit := do
  changes.metadataFieldChanges.forM (validateFieldChange policySet proposer)
  rejectIf (!changes.adminsAdded.isEmpty && !policySet.addAdminPolicy.evaluate proposer)
    .insufficientPermissions
  rejectIf (!changes.adminsRemoved.isEmpty && !policySet.removeAdminPolicy.evaluate proposer)
    .insufficientPermissions
  rejectIf ((!changes.superAdminsAdded.isEmpty || !changes.superAdminsRemoved.isEmpty) &&
    !proposer.isSuperAdmin) .insufficientPermissions

def validateMutableMetadata (newExtensions : Extensions) : Except CommitValidationError Unit :=
  match findMutableMetadataExtension group.extensions,
    findMutableMetadataExtension newExtensions with
  | some _, none => .error .insufficientPermissions
  | some oldMeta, some newMeta =>
    if oldMeta = newMeta then .ok ()
    else do
      let changes ← extractMetadataChanges ctx immutableMetadata mutableMetadata group.extensions
        newExtensions
      validateMetadataChanges policySet proposer changes
  | none, _ => .ok ()

/-- Where the permissions of the new extensions are missing or malformed, they count as the old. -/
def validatePermissions (newExtensions : Extensions) : Except CommitValidationError Unit :=
  if group.extensions.isMigrated then
    [groupPermissionsExtensionId, mutableMetadataExtensionId, groupMembershipExtensionId].forM
      fun extensionType => rejectIf (newExtensions.findUnknownExtension extensionType).isSome
        .insufficientPermissions
  else do
    let oldPermissions ←
      (decodeGroupMutablePermissions ctx group.extensions).mapError .groupMutablePermissions
    let changed := match extractPermissionsChanged ctx oldPermissions newExtensions with
      | .ok changed => changed
      | .error _ => false
    rejectIf (!proposer.isSuperAdmin && changed) .insufficientPermissions

def validateGroupContextExtensions (newExtensions : Extensions) :
    Except CommitValidationError Unit := do
  validateMutableMetadata ctx group policySet immutableMetadata mutableMetadata proposer
    newExtensions
  validatePermissions ctx group proposer newExtensions

def validateUpdateProposal (leafNode : LeafNode) : Except CommitValidationError Unit := do
  let newInboxId ← inboxIdFromCredential ctx leafNode.credential
  rejectIf (newInboxId != proposer.inboxId) .actorNotMember

def validateProposal (queued : QueuedProposal) : Except CommitValidationError Unit := do
  let proposer ← extractProposer ctx group immutableMetadata mutableMetadata queued
  match queued.proposal with
  | .add leafNode => validateAddProposal ctx policySet immutableMetadata proposer leafNode
  | .remove removed =>
    validateRemoveProposal ctx group policySet immutableMetadata mutableMetadata proposer removed
  | .groupContextExtensions newExtensions =>
    validateGroupContextExtensions ctx group policySet immutableMetadata mutableMetadata proposer
      newExtensions
  | .update leafNode => validateUpdateProposal ctx proposer leafNode
  | .appDataUpdate componentId operation => do
    let registry ← (ctx.appData.loadComponentRegistry group.extensions).mapError .componentSource
    ctx.appData.validateOneAppDataUpdate componentId operation proposer registry group.extensions
  | proposal => .error (.unsupportedProposalType proposal.proposalType)

end Validate

section Checks

variable {Key Version Registry : Type} (ctx : Context Key Version Registry) (commit : StagedCommit)
  (committerLeafIndex : LeafNodeIndex) (group : OpenMlsGroup)

/-- The part of the validation of a commit that reads extensions and evaluates the policies: what
it reads has to be there, and the policies have to permit the changes. -/
def checkExtensionsAndPolicies : Except CommitValidationError Unit := do
  let immutableMetadata ← extractGroupMetadata ctx group.extensions
  let mutableMetadata ← extractGroupMutableMetadata ctx group.extensions
  let groupPermissions ← extractGroupPermissions ctx group.extensions
  let (info, _) ← metadataValidation ctx commit group immutableMetadata mutableMetadata
  let permissionsChanged ←
    (if group.extensions.isMigrated then .ok false
      else extractPermissionsChanged ctx groupPermissions commit.groupContextExtensions)
  let (actor, proposers) ← extractCommitterAndProposers ctx group immutableMetadata mutableMetadata
    commit committerLeafIndex
  let changes ← getProposalChanges ctx group immutableMetadata mutableMetadata commit
  let oldGroupMembership ← extractGroupMembership ctx group.extensions
  let newGroupMembership ← getLatestGroupMembership ctx commit
  let membershipDiff := oldGroupMembership.diff newGroupMembership
  let addedInboxes ← attributeInboxes immutableMetadata mutableMetadata group.extensions.isMigrated
    changes.gceProposer changes.addedInboxProposers membershipDiff.addedInboxes
  let removedInboxes ← attributeInboxes immutableMetadata mutableMetadata
    group.extensions.isMigrated changes.gceProposer changes.removedInboxProposers
    membershipDiff.removedInboxes
  let verifiedCommit : ValidatedCommit := {
    actor, proposers, addedInboxes, removedInboxes, permissionsChanged
    readdedInstallations := ∅
    metadataValidationInfo := info
    installationsChanged := changes.addedInstallations ≠ ∅ || changes.removedInstallations ≠ ∅
    dmMembers := immutableMetadata.dmMembers }
  rejectIf (!groupPermissions.policies.evaluateCommit verifiedCommit) .insufficientPermissions

variable {ctx commit committerLeafIndex group} {order : IterOrder} {db db' : Database}

theorem checkExtensionsAndPolicies_of_eq_ok {validated : ValidatedCommit}
    (h : (ValidatedCommit.fromStagedCommit ctx order commit committerLeafIndex group).outcome db =
      (.ok validated, db'))
    (hsteady : isBootstrapCommit commit group.extensions = false)
    (hunmigrated : group.extensions.isMigrated = false) :
    checkExtensionsAndPolicies ctx commit committerLeafIndex group = .ok () := by
  have ⟨reads, haccept, hattributes, hdm⟩ :=
    ValidatedCommit.accept_and_attributes_of_eq_ok h hsteady
  have hpolicies := haccept.policies
  rw [checkExtensionsAndPolicies, haccept.immutableMetadata, ok_bind, haccept.mutableMetadata,
    ok_bind, haccept.groupPermissions, ok_bind, haccept.metadata, ok_bind]
  simp only [hunmigrated, Bool.false_eq_true, if_false, haccept.permissionsChanged hunmigrated,
    haccept.participants, haccept.changes, haccept.expected.old, haccept.expected.new, ok_bind]
  rw [← hunmigrated, hattributes.addedInboxes, ok_bind, hattributes.removedInboxes, ok_bind,
    rejectIf_eq_ok, Bool.not_eq_false', ← hpolicies, ← hdm, ← haccept.addedInboxes,
    ← haccept.removedInboxes]
  rfl

end Checks

/-- A commit of one proposal, which replaces the extensions, made by the member that proposes it. -/
def soleCommit (leafIndex : LeafNodeIndex) (extensions : Extensions) : StagedCommit where
  queuedProposals := [⟨.groupContextExtensions extensions, .member leafIndex⟩]
  groupContextExtensions := extensions

def soleSummary (proposer : CommitParticipant) (info : MutableMetadataValidationInfo)
    (permissionsChanged : Bool) (dmMembers : Option DmMembers) : ValidatedCommit where
  actor := proposer
  proposers := [proposer]
  addedInboxes := []
  removedInboxes := []
  readdedInstallations := ∅
  metadataValidationInfo := info
  installationsChanged := false
  permissionsChanged
  dmMembers

def policyForUnrecognizedField (fieldName : String) : MetadataPolicies :=
  if PolicySet.superAdminMetadataPrefix.toList.isPrefixOf fieldName.toList then
    .standard .allowIfActorSuperAdmin
  else .standard .allowIfActorAdminOrSuperAdmin

/-- What the commit of a proposal needs beyond what the proposal was validated on. -/
structure Committable {Key Version Registry : Type} (ctx : Context Key Version Registry)
    (roles : Roles) (proposer : CommitParticipant) (extensions : Extensions) : Prop where
  permissions : ∃ permissions, decodeGroupMutablePermissions ctx extensions = .ok permissions
  membership : ∃ membership, extractGroupMembership ctx extensions = .ok membership
  unrecognizedFields : ∀ bytes metadata, findMutableMetadataExtension extensions = some bytes →
    decodeGroupMutableMetadata ctx bytes = .ok metadata →
      ∀ change ∈ mutableMetadataFieldChanges roles.metadata metadata,
        roles.permissions.policies.updateMetadataPolicy.get change.fieldName = none →
          (policyForUnrecognizedField change.fieldName).evaluate proposer = true
  superAdminLeft : ∀ bytes metadata, findMutableMetadataExtension extensions = some bytes →
    decodeGroupMutableMetadata ctx bytes = .ok metadata →
      roles.metadata.superAdminList ⊆ metadata.superAdminList ∨
        metadata.superAdminList.length % 2 ^ 32 ≠ 0

section Agreement

variable {Key Version Registry : Type} {ctx : Context Key Version Registry}
  {group : OpenMlsGroup} {leafIndex : LeafNodeIndex} {extensions : Extensions}
  {immutableMetadata : GroupMetadata} {roles : Roles} {proposer : CommitParticipant}

section Fields

variable {policies : PolicySet} {info : MutableMetadataValidationInfo}

theorem validateFieldChange_eq_ok {change : MetadataFieldChange} :
    validateFieldChange policies proposer change = .ok () ↔ ∀ policy,
      policies.updateMetadataPolicy.get change.fieldName = some policy →
        policy.evaluate proposer = true := by
  unfold validateFieldChange
  cases policies.updateMetadataPolicy.get change.fieldName <;> simp

theorem validateMetadataChanges_eq_ok :
    validateMetadataChanges policies proposer info = .ok () ↔
      (∀ change ∈ info.metadataFieldChanges, ∀ policy,
        policies.updateMetadataPolicy.get change.fieldName = some policy →
          policy.evaluate proposer = true) ∧
      (info.adminsAdded = [] ∨ policies.addAdminPolicy.evaluate proposer = true) ∧
      (info.adminsRemoved = [] ∨ policies.removeAdminPolicy.evaluate proposer = true) ∧
      (info.superAdminsAdded = [] ∧ info.superAdminsRemoved = [] ∨
        proposer.isSuperAdmin = true) := by
  simp only [validateMetadataChanges, bind_eq_ok, rejectIf_eq_ok, Bool.and_eq_false_iff,
    Bool.or_eq_false_iff, Bool.not_eq_false', List.isEmpty_iff, exists_const, exists_and_right,
    exists_unit_eq_ok, forM_eq_ok, validateFieldChange_eq_ok]

theorem evaluateMetadataPolicy_eq_true {changes : List MetadataFieldChange} :
    PolicySet.evaluateMetadataPolicy changes policies.updateMetadataPolicy proposer = true ↔
      (∀ change ∈ changes, ∀ policy,
        policies.updateMetadataPolicy.get change.fieldName = some policy →
          policy.evaluate proposer = true) ∧
      ∀ change ∈ changes, policies.updateMetadataPolicy.get change.fieldName = none →
        (policyForUnrecognizedField change.fieldName).evaluate proposer = true := by
  simp only [PolicySet.evaluateMetadataPolicy, List.all_eq_true, ← forall₂_and]
  apply forall₂_congr
  intro change _
  cases policies.updateMetadataPolicy.get change.fieldName with
  | none => simp [policyForUnrecognizedField]
  | some policy => simp

end Fields

theorem extractCommitterAndProposers_soleCommit {metadata : GroupMutableMetadata}
    (h : extractCommitParticipant ctx group immutableMetadata metadata leafIndex = .ok proposer) :
    extractCommitterAndProposers ctx group immutableMetadata metadata
      (soleCommit leafIndex extensions) leafIndex = .ok (proposer, [proposer]) := by
  simp [extractCommitterAndProposers, soleCommit, proposerLeaf, h]

theorem getProposalChanges_soleCommit {metadata : GroupMutableMetadata}
    (h : extractCommitParticipant ctx group immutableMetadata metadata leafIndex = .ok proposer) :
    getProposalChanges ctx group immutableMetadata metadata (soleCommit leafIndex extensions) =
      .ok ⟨∅, ∅, [], .empty, .empty, some proposer⟩ := by
  simp [getProposalChanges, soleCommit, ProposalChanges.apply, extractProposer, proposerLeaf, h]

theorem checkExtensionsAndPolicies_soleCommit
    (hunmigrated : group.extensions.isMigrated = false)
    (himmutable : extractGroupMetadata ctx group.extensions = .ok immutableMetadata)
    (hroles : roles.Reads ctx group.extensions)
    (hproposer : extractCommitParticipant ctx group immutableMetadata roles.metadata leafIndex =
      .ok proposer)
    (hmembers : ∀ membership, extractGroupMembership ctx extensions = .ok membership →
      (roles.membership.diff membership).addedInboxes = [] ∧
        (roles.membership.diff membership).removedInboxes = []) :
    checkExtensionsAndPolicies ctx (soleCommit leafIndex extensions) leafIndex group = .ok () ↔
      ∃ info, extractMetadataChanges ctx immutableMetadata roles.metadata group.extensions
          extensions = .ok info ∧
        ∃ changed, extractPermissionsChanged ctx roles.permissions extensions = .ok changed ∧
          (∃ membership, extractGroupMembership ctx extensions = .ok membership) ∧
          roles.permissions.policies.Permits
            (soleSummary proposer info changed immutableMetadata.dmMembers) := by
  have hlatest : getLatestGroupMembership ctx (soleCommit leafIndex extensions) =
      extractGroupMembership ctx extensions := rfl
  simp only [checkExtensionsAndPolicies, himmutable, hroles.metadata, hroles.permissions,
    hroles.membership, ok_bind, metadataValidation, hunmigrated, Bool.false_eq_true, if_false,
    extractCommitterAndProposers_soleCommit hproposer, getProposalChanges_soleCommit hproposer,
    hlatest, bind_assoc, pure_bind, bind_eq_ok, rejectIf_eq_ok, Bool.not_eq_false']
  constructor
  · rintro ⟨info, hinfo, changed, hchanged, membership, hmembership, added, hadded, removed,
      hremoved, hevaluate⟩
    rw [(hmembers membership hmembership).1] at hadded
    rw [(hmembers membership hmembership).2] at hremoved
    cases hadded
    cases hremoved
    exact ⟨info, hinfo, changed, hchanged, ⟨membership, hmembership⟩,
      PolicySet.evaluateCommit_iff.mp hevaluate⟩
  · rintro ⟨info, hinfo, changed, hchanged, ⟨membership, hmembership⟩, hpermits⟩
    refine ⟨info, hinfo, changed, hchanged, membership, hmembership, [], ?_, [], ?_,
      PolicySet.evaluateCommit_iff.mpr hpermits⟩
    · rw [(hmembers membership hmembership).1]
      rfl
    · rw [(hmembers membership hmembership).2]
      rfl

theorem validateMutableMetadata_eq_ok (hunmigrated : group.extensions.isMigrated = false)
    {policies : PolicySet} {metadata : GroupMutableMetadata}
    (hmetadata : extractGroupMutableMetadata ctx group.extensions = .ok metadata) :
    validateMutableMetadata ctx group policies immutableMetadata metadata proposer extensions =
        .ok () ↔
      ∃ info, extractMetadataChanges ctx immutableMetadata metadata group.extensions extensions =
          .ok info ∧ validateMetadataChanges policies proposer info = .ok () := by
  have ⟨bytes, hbytes, _⟩ := (extractGroupMutableMetadata_eq_ok hunmigrated).mp hmetadata
  unfold validateMutableMetadata
  rw [hbytes]
  cases hnew : findMutableMetadataExtension extensions with
  | none => simp [extractMetadataChanges, hnew]
  | some newMeta =>
    by_cases heq : bytes = newMeta
    · simp [extractMetadataChanges, hbytes, hnew, heq, validateMetadataChanges_eq_ok]
    · simp [heq]

theorem validatePermissions_eq_ok (hunmigrated : group.extensions.isMigrated = false)
    {permissions : GroupMutablePermissions}
    (hpermissions : extractGroupPermissions ctx group.extensions = .ok permissions) :
    validatePermissions ctx group proposer extensions = .ok () ↔
      proposer.isSuperAdmin = true ∨ ∀ changed,
        extractPermissionsChanged ctx permissions extensions = .ok changed → changed = false := by
  have hdecode : (decodeGroupMutablePermissions ctx group.extensions).mapError
      CommitValidationError.groupMutablePermissions = .ok permissions := by
    simpa [extractGroupPermissions, hunmigrated] using hpermissions
  simp only [validatePermissions, hunmigrated, Bool.false_eq_true, if_false, hdecode, ok_bind,
    rejectIf_eq_ok, Bool.and_eq_false_iff, Bool.not_eq_false']
  cases extractPermissionsChanged ctx permissions extensions <;> simp

theorem numSuperAdmins_pos {n : Nat} : UInt32.ofNat n > 0 ↔ n % 2 ^ 32 ≠ 0 := by
  rw [gt_iff_lt, UInt32.lt_iff_toNat_lt, UInt32.toNat_ofNat']
  simp [Nat.pos_iff_ne_zero]

theorem superAdminLeft_iff {info : MutableMetadataValidationInfo} {old new : GroupMutableMetadata}
    (hdescribes : info.Describes immutableMetadata old new) :
    info.superAdminsRemoved = [] ∨ info.numSuperAdmins > 0 ↔
      old.superAdminList ⊆ new.superAdminList ∨ new.superAdminList.length % 2 ^ 32 ≠ 0 := by
  rw [hdescribes.superAdminsRemoved, getRemovedMembers_eq_nil]
  cases hdescribes.numSuperAdmins with
  | inl heq =>
    subst heq
    simp
  | inr hcount => rw [hcount, numSuperAdmins_pos]

theorem permits_soleSummary_iff {policies : PolicySet} {info : MutableMetadataValidationInfo}
    {old new : GroupMutableMetadata} (hdescribes : info.Describes immutableMetadata old new)
    {changed : Bool} {dmMembers : Option DmMembers} :
    policies.Permits (soleSummary proposer info changed dmMembers) ↔
      validateMetadataChanges policies proposer info = .ok () ∧
      (∀ change ∈ mutableMetadataFieldChanges old new,
        policies.updateMetadataPolicy.get change.fieldName = none →
          (policyForUnrecognizedField change.fieldName).evaluate proposer = true) ∧
      (old.superAdminList ⊆ new.superAdminList ∨ new.superAdminList.length % 2 ^ 32 ≠ 0) ∧
      (changed = false ∨ proposer.isSuperAdmin = true) := by
  rw [validateMetadataChanges_eq_ok, ← hdescribes.fields, ← superAdminLeft_iff hdescribes]
  constructor
  · intro h
    have ⟨hlisted, hunlisted⟩ := evaluateMetadataPolicy_eq_true.mp h.metadataChanges
    have hadded := h.addedSuperAdmins
    have hremoved := h.removedSuperAdmins
    simp only [soleSummary] at hadded hremoved
    refine ⟨⟨hlisted, h.addedAdmins, h.removedAdmins, ?_⟩, hunlisted, ?_, h.permissions⟩
    · tauto
    · exact hremoved.imp id And.right
  · rintro ⟨⟨hlisted, haddAdmin, hremoveAdmin, hsuper⟩, hunlisted, hleft, hpermissions⟩
    exact {
      addedInboxes := .inl rfl
      removedInboxes := rfl
      noSuperAdminRemoved := by simp [soleSummary]
      metadataChanges := evaluateMetadataPolicy_eq_true.mpr ⟨hlisted, hunlisted⟩
      addedAdmins := haddAdmin
      removedAdmins := hremoveAdmin
      addedSuperAdmins := hsuper.imp And.left id
      removedSuperAdmins := by
        simp only [soleSummary]
        tauto
      permissions := hpermissions }

section Sole

variable (hunmigrated : group.extensions.isMigrated = false)
  (himmutable : extractGroupMetadata ctx group.extensions = .ok immutableMetadata)
  (hroles : roles.Reads ctx group.extensions)
  (hproposer : extractCommitParticipant ctx group immutableMetadata roles.metadata leafIndex =
    .ok proposer)
  (hmembers : ∀ membership, extractGroupMembership ctx extensions = .ok membership →
    (roles.membership.diff membership).addedInboxes = [] ∧
      (roles.membership.diff membership).removedInboxes = [])

include hunmigrated hroles hproposer in
theorem validateProposal_eq_ok :
    validateProposal ctx group roles.permissions.policies immutableMetadata roles.metadata
        ⟨.groupContextExtensions extensions, .member leafIndex⟩ = .ok () ↔
      (∃ info, extractMetadataChanges ctx immutableMetadata roles.metadata group.extensions
          extensions = .ok info ∧
        validateMetadataChanges roles.permissions.policies proposer info = .ok ()) ∧
      (proposer.isSuperAdmin = true ∨ ∀ changed,
        extractPermissionsChanged ctx roles.permissions extensions = .ok changed →
          changed = false) := by
  simp only [validateProposal, extractProposer, proposerLeaf, ok_bind, hproposer,
    validateGroupContextExtensions, bind_eq_ok, exists_and_right, exists_const,
    validateMutableMetadata_eq_ok hunmigrated hroles.metadata,
    validatePermissions_eq_ok hunmigrated hroles.permissions]

include hunmigrated himmutable hroles hproposer hmembers in
theorem checkExtensionsAndPolicies_soleCommit_iff :
    checkExtensionsAndPolicies ctx (soleCommit leafIndex extensions) leafIndex group = .ok () ↔
      validateProposal ctx group roles.permissions.policies immutableMetadata roles.metadata
          ⟨.groupContextExtensions extensions, .member leafIndex⟩ = .ok () ∧
        Committable ctx roles proposer extensions := by
  rw [checkExtensionsAndPolicies_soleCommit hunmigrated himmutable hroles hproposer hmembers,
    validateProposal_eq_ok hunmigrated hroles hproposer]
  constructor
  · rintro ⟨info, hinfo, changed, hchanged, hmembership, hpermits⟩
    obtain ⟨bytes, metadata, hbytes, hdecode, hdescribes⟩ :=
      extractMetadataChanges_describes hunmigrated hroles.metadata hinfo
    obtain ⟨hvalid, hunlisted, hleft, hpermissions⟩ :=
      (permits_soleSummary_iff hdescribes).mp hpermits
    have hunique : ∀ bytes' metadata', findMutableMetadataExtension extensions = some bytes' →
        decodeGroupMutableMetadata ctx bytes' = .ok metadata' → metadata' = metadata := by
      intro bytes' metadata' hbytes' hdecode'
      cases hbytes.symm.trans hbytes'
      exact Except.ok.inj (hdecode'.symm.trans hdecode)
    refine ⟨⟨⟨info, hinfo, hvalid⟩, ?_⟩, ?_, hmembership, ?_, ?_⟩
    · refine hpermissions.symm.imp id fun hsame changed' hchanged' => ?_
      exact (Except.ok.inj (hchanged'.symm.trans hchanged)).trans hsame
    · simp only [extractPermissionsChanged, bind_eq_ok, mapError_eq_ok] at hchanged
      obtain ⟨permissions, hpermissions, _⟩ := hchanged
      exact ⟨permissions, hpermissions⟩
    · intro bytes' metadata' hbytes' hdecode'
      rw [hunique bytes' metadata' hbytes' hdecode']
      exact hunlisted
    · intro bytes' metadata' hbytes' hdecode'
      rw [hunique bytes' metadata' hbytes' hdecode']
      exact hleft
  · rintro ⟨⟨⟨info, hinfo, hvalid⟩, hpermissions⟩, hcommittable⟩
    obtain ⟨bytes, metadata, hbytes, hdecode, hdescribes⟩ :=
      extractMetadataChanges_describes hunmigrated hroles.metadata hinfo
    obtain ⟨permissions, hdecodes⟩ := hcommittable.permissions
    have hchanged : extractPermissionsChanged ctx roles.permissions extensions =
        .ok (!roles.permissions.policies.eq permissions.policies) := by
      simp [extractPermissionsChanged, hdecodes, Except.mapError]
    refine ⟨info, hinfo, _, hchanged, hcommittable.membership, ?_⟩
    refine (permits_soleSummary_iff hdescribes).mpr ⟨hvalid, ?_, ?_, ?_⟩
    · exact hcommittable.unrecognizedFields bytes metadata hbytes hdecode
    · exact hcommittable.superAdminLeft bytes metadata hbytes hdecode
    · exact hpermissions.symm.imp (fun hsame => hsame _ hchanged) id

include hunmigrated himmutable hroles hproposer hmembers in
/-- The commit of a proposal that was let through passes exactly where nothing is left that only the
commit is checked on; that of a proposal that was rejected is rejected. -/
theorem validateProposal_agrees :
    (validateProposal ctx group roles.permissions.policies immutableMetadata roles.metadata
        ⟨.groupContextExtensions extensions, .member leafIndex⟩ = .ok () →
      (checkExtensionsAndPolicies ctx (soleCommit leafIndex extensions) leafIndex group = .ok () ↔
        Committable ctx roles proposer extensions)) ∧
    (validateProposal ctx group roles.permissions.policies immutableMetadata roles.metadata
        ⟨.groupContextExtensions extensions, .member leafIndex⟩ ≠ .ok () →
      checkExtensionsAndPolicies ctx (soleCommit leafIndex extensions) leafIndex group ≠ .ok () ∧
        ∀ order db db' validated,
          (ValidatedCommit.fromStagedCommit ctx order (soleCommit leafIndex extensions) leafIndex
            group).outcome db ≠ (.ok validated, db')) := by
  have hiff := checkExtensionsAndPolicies_soleCommit_iff hunmigrated himmutable hroles hproposer
    hmembers
  constructor
  · intro haccepted
    rw [hiff, and_iff_right haccepted]
  · intro hrejected
    have hfails : checkExtensionsAndPolicies ctx (soleCommit leafIndex extensions) leafIndex group ≠
        .ok () := fun hok => hrejected (hiff.mp hok).1
    refine ⟨hfails, fun order db db' validated hok => hfails ?_⟩
    have hsteady :
        isBootstrapCommit (soleCommit leafIndex extensions) group.extensions = false := by
      simp [isBootstrapCommit, soleCommit, writesComponentRegistry]
    exact checkExtensionsAndPolicies_of_eq_ok hok hsteady hunmigrated

end Sole

end Agreement

/-! A field without a policy, proposed by an admin and by a member who has no role. -/

namespace Sample

open Mls.Sample Associations.Sample

def themeContext : Context Bytes (List Nat) Unit :=
  contextWith ⟨.ofList [("theme", "dark")], some ⟨[inboxId]⟩, some ⟨[creatorInboxId]⟩⟩

def groupMetadata : GroupMetadata := ⟨.group, creatorInboxId, none⟩

def roles : Roles where
  metadata := ⟨.empty, [inboxId], [creatorInboxId]⟩
  permissions := ⟨{
    addMemberPolicy := .standard .allow
    removeMemberPolicy := .standard .allowIfAdminOrSuperAdmin
    updateMetadataPolicy := .empty
    addAdminPolicy := .standard .allowIfActorSuperAdmin
    removeAdminPolicy := .standard .allowIfActorSuperAdmin
    updatePermissionsPolicy := .standard .allowIfActorSuperAdmin }⟩
  membership := oldMembership

def themeProposal (leafIndex : LeafNodeIndex) : QueuedProposal :=
  ⟨.groupContextExtensions (withMetadata [9]), .member leafIndex⟩

theorem roles_reads : roles.Reads themeContext group.extensions := ⟨rfl, rfl, rfl⟩

theorem themeCommit_keeps_members (membership : GroupMembership)
    (h : extractGroupMembership themeContext (withMetadata [9]) = .ok membership) :
    (roles.membership.diff membership).addedInboxes = [] ∧
      (roles.membership.diff membership).removedInboxes = [] := by
  cases h
  decide

end Sample

open Sample Associations.Sample

theorem validateProposal_agrees_theme :
    validateProposal themeContext group roles.permissions.policies groupMetadata roles.metadata
        (themeProposal 0) = .ok () ∧
      checkExtensionsAndPolicies themeContext (soleCommit 0 (withMetadata [9])) 0 group =
        .ok () := by
  have hproposer : extractCommitParticipant themeContext group groupMetadata roles.metadata 0 =
      .ok (.build inboxId [7] groupMetadata roles.metadata) := rfl
  have haccepted : validateProposal themeContext group roles.permissions.policies groupMetadata
      roles.metadata (themeProposal 0) = .ok () := rfl
  have hcommittable : Committable themeContext roles
      (.build inboxId [7] groupMetadata roles.metadata) (withMetadata [9]) := by
    refine ⟨⟨_, rfl⟩, ⟨_, rfl⟩, ?_, ?_⟩
    · intro bytes metadata hbytes hdecode
      cases hbytes
      cases hdecode
      decide
    · intro bytes metadata hbytes hdecode
      cases hbytes
      cases hdecode
      decide
  refine ⟨haccepted, ?_⟩
  exact ((validateProposal_agrees rfl rfl roles_reads hproposer themeCommit_keeps_members).1
    haccepted).mpr hcommittable

/-- The proposal of a member without a role is let through, and its commit is rejected. -/
theorem validateProposal_disagrees :
    group.extensions.isMigrated = false ∧ roles.Reads themeContext group.extensions ∧
      extractGroupMetadata themeContext group.extensions = .ok groupMetadata ∧
      extractGroupMembership themeContext (withMetadata [9]) = .ok roles.membership ∧
      validateProposal themeContext group roles.permissions.policies groupMetadata roles.metadata
        (themeProposal 1) = .ok () ∧
      checkExtensionsAndPolicies themeContext (soleCommit 1 (withMetadata [9])) 1 group =
        .error .insufficientPermissions :=
  ⟨rfl, ⟨rfl, rfl, rfl⟩, rfl, rfl, rfl, rfl⟩

end LibXmtp.Groups
