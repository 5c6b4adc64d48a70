import LibXmtp.Groups.PendingWelcomes
import LibXmtp.Groups.TreeMembership

namespace LibXmtp.Groups

open LibXmtp.Data LibXmtp.Associations LibXmtp.Db LibXmtp.Mls LibXmtp.AppData

theorem count_eq_one_iff_mem {α : Type} [BEq α] [LawfulBEq α] {as : List α} (h : as.Nodup)
    {a : α} : as.count a = 1 ↔ a ∈ as := by
  constructor
  · intro hcount
    exact List.count_pos_iff.mp (by omega)
  · intro hmem
    exact List.count_eq_one_of_mem h hmem

theorem findSome?_filter_of_none {α β : Type} {p : α → Bool} {f : α → Option β} {as : List α}
    (h : ∀ a ∈ as, p a = false → f a = none) : (as.filter p).findSome? f = as.findSome? f := by
  induction as with
  | nil => rfl
  | cons a as ih =>
    have hrest := ih fun b hb => h b (List.mem_cons_of_mem _ hb)
    cases hp : p a with
    | true => rw [List.filter_cons_of_pos hp, List.findSome?_cons, List.findSome?_cons, hrest]
    | false =>
      rw [List.filter_cons_of_neg (by simp [hp]), hrest, List.findSome?_cons,
        h a List.mem_cons_self hp]

section Replaced

variable (extensions : Extensions) (id : UInt16) (bytes : Bytes)

theorem findUnknownExtension_addOrReplace :
    (extensions.addOrReplace (.unknown id bytes)).findUnknownExtension id = some bytes := by
  rw [Extensions.findUnknownExtension, Extensions.addOrReplace, List.findSome?_append,
    List.findSome?_eq_none_iff.mpr]
  · simp
  · intro extension hmem
    have hkept := (List.mem_filter.mp hmem).2
    cases extension with
    | unknown id' bytes' =>
      have hne : id ≠ id' := by simpa [Extension.sameType] using hkept
      exact if_neg (Ne.symm hne)
    | _ => rfl

theorem appDataDictionary_addOrReplace :
    (extensions.addOrReplace (.unknown id bytes)).appDataDictionary =
      extensions.appDataDictionary := by
  rw [Extensions.appDataDictionary, Extensions.addOrReplace, List.findSome?_append,
    findSome?_filter_of_none]
  · simp [Extensions.appDataDictionary]
  · intro extension _ hdropped
    cases extension <;> simp_all [Extension.sameType]

theorem readFromAppDataDict_addOrReplace (id' : UInt16) :
    readFromAppDataDict id' (extensions.addOrReplace (.unknown id bytes)) =
      readFromAppDataDict id' extensions := by
  rw [readFromAppDataDict, appDataDictionary_addOrReplace, readFromAppDataDict]

end Replaced

section Tree

variable {Key Version Registry : Type} (ctx : Context Key Version Registry) (group : OpenMlsGroup)
  (pendingProposals : List QueuedProposal)

def TreeHas (inboxId : String) : Prop :=
  ∃ leafNode ∈ leavesAfter group pendingProposals, inboxIdOf ctx leafNode = some inboxId

def Adds (inboxId : String) : Prop :=
  ∃ leafNode ∈ addedLeaves pendingProposals, inboxIdOf ctx leafNode = some inboxId

def Removes (inboxId : String) : Prop :=
  ∃ leafNode ∈ removedMembers group pendingProposals, inboxIdOf ctx leafNode = some inboxId

/-- An inbox that is removed is not added as well and loses all its leaves, and one that is neither
has a leaf exactly if it is in the membership. -/
structure InboxesInStep (current : GroupMembership) : Prop where
  removed : ∀ inboxId, Removes ctx group pendingProposals inboxId →
    ¬Adds ctx pendingProposals inboxId ∧ ∀ member ∈ group.members,
      inboxIdOf ctx member.leafNode = some inboxId → member.index ∈ removedLeaves pendingProposals
  untouched : ∀ inboxId, ¬Adds ctx pendingProposals inboxId →
    ¬Removes ctx group pendingProposals inboxId →
      ((current.get inboxId).isSome = true ↔
        ∃ member ∈ group.members, inboxIdOf ctx member.leafNode = some inboxId)

def MembershipFollowsTree (commit : StagedCommit) : Prop :=
  ∃ membership, extractGroupMembership ctx commit.groupContextExtensions = .ok membership ∧
    ∀ inboxId, (membership.get inboxId).isSome = true ↔
      TreeHas ctx group commit.queuedProposals inboxId

variable {ctx group pendingProposals} {inboxId : String}

theorem treeHas_iff : TreeHas ctx group pendingProposals inboxId ↔
    (∃ member ∈ group.members, member.index ∉ removedLeaves pendingProposals ∧
      inboxIdOf ctx member.leafNode = some inboxId) ∨ Adds ctx pendingProposals inboxId := by
  simp only [TreeHas, leavesAfter, List.mem_append, List.mem_map, List.mem_filter,
    decide_eq_true_eq, Adds]
  constructor
  · rintro ⟨_, ⟨member, ⟨hmem, hkept⟩, rfl⟩ | hadded, hinbox⟩
    · exact .inl ⟨member, hmem, hkept, hinbox⟩
    · exact .inr ⟨_, hadded, hinbox⟩
  · rintro (⟨member, hmem, hkept, hinbox⟩ | ⟨leafNode, hadded, hinbox⟩)
    · exact ⟨member.leafNode, .inl ⟨member, ⟨hmem, hkept⟩, rfl⟩, hinbox⟩
    · exact ⟨leafNode, .inr hadded, hinbox⟩

theorem memberAt_eq_some_iff {index : LeafNodeIndex} {leafNode : LeafNode} :
    group.memberAt index = some leafNode ↔ ⟨index, leafNode⟩ ∈ group.members := by
  simp only [OpenMlsGroup.memberAt, Option.map_eq_some_iff]
  constructor
  · rintro ⟨member, hfind, rfl⟩
    have hindex : member.index = index := by simpa using List.find?_some hfind
    exact hindex ▸ List.mem_of_find?_eq_some hfind
  · intro hmem
    have hsome : (group.members.find? (·.index = index)).isSome := by
      rw [List.find?_isSome]
      exact ⟨_, hmem, by simp⟩
    have ⟨member, hfind⟩ := Option.isSome_iff_exists.mp hsome
    have hindex : member.index = index := by simpa using List.find?_some hfind
    have heq := List.inj_on_of_nodup_map group.distinct (List.mem_of_find?_eq_some hfind) hmem
      hindex
    exact ⟨member, hfind, by rw [heq]⟩

theorem mem_removedMembers_iff {leafNode : LeafNode} :
    leafNode ∈ removedMembers group pendingProposals ↔
      ∃ member ∈ group.members, member.index ∈ removedLeaves pendingProposals ∧
        member.leafNode = leafNode := by
  simp only [removedMembers, List.mem_filterMap, memberAt_eq_some_iff]
  constructor
  · rintro ⟨index, hremoved, hmem⟩
    exact ⟨_, hmem, hremoved, rfl⟩
  · rintro ⟨member, hmem, hremoved, rfl⟩
    exact ⟨member.index, hremoved, hmem⟩

theorem inboxesInStep_iff {current : GroupMembership} :
    InboxesInStep ctx group pendingProposals current ↔
      ∀ inboxId, ((current.get inboxId).isSome = true ∨ Adds ctx pendingProposals inboxId) ∧
        ¬Removes ctx group pendingProposals inboxId ↔
          TreeHas ctx group pendingProposals inboxId := by
  have hstays {inboxId : String} (hremoves : ¬Removes ctx group pendingProposals inboxId)
      {member : GroupMember} (hmem : member ∈ group.members)
      (hinbox : inboxIdOf ctx member.leafNode = some inboxId) :
      member.index ∉ removedLeaves pendingProposals := fun hindex =>
    hremoves ⟨_, mem_removedMembers_iff.mpr ⟨member, hmem, hindex, rfl⟩, hinbox⟩
  constructor
  · intro h inboxId
    rw [treeHas_iff]
    by_cases hremoves : Removes ctx group pendingProposals inboxId
    · have ⟨hadds, hall⟩ := h.removed inboxId hremoves
      constructor
      · intro hkept
        exact absurd hremoves hkept.2
      · rintro (⟨member, hmem, hkept, hinbox⟩ | hadded)
        · exact absurd (hall member hmem hinbox) hkept
        · exact absurd hadded hadds
    · by_cases hadds : Adds ctx pendingProposals inboxId
      · exact iff_of_true ⟨.inr hadds, hremoves⟩ (.inr hadds)
      · have huntouched := h.untouched inboxId hadds hremoves
        simp only [hadds, or_false, hremoves, not_false_eq_true, and_true]
        rw [huntouched]
        constructor
        · intro ⟨member, hmem, hinbox⟩
          exact ⟨member, hmem, hstays hremoves hmem hinbox, hinbox⟩
        · intro ⟨member, hmem, _, hinbox⟩
          exact ⟨member, hmem, hinbox⟩
  · intro h
    constructor
    · intro inboxId hremoves
      have hgone : ¬TreeHas ctx group pendingProposals inboxId := fun htree =>
        ((h inboxId).mpr htree).2 hremoves
      rw [treeHas_iff, not_or] at hgone
      refine ⟨hgone.2, ?_⟩
      intro member hmem hinbox
      by_contra hkept
      exact hgone.1 ⟨member, hmem, hkept, hinbox⟩
    · intro inboxId hadds hremoves
      have htree := h inboxId
      rw [treeHas_iff] at htree
      simp only [hadds, or_false, hremoves, not_false_eq_true, and_true] at htree
      rw [htree]
      constructor
      · intro ⟨member, hmem, _, hinbox⟩
        exact ⟨member, hmem, hinbox⟩
      · intro ⟨member, hmem, hinbox⟩
        exact ⟨member, hmem, hstays hremoves hmem hinbox, hinbox⟩

end Tree

section Read

variable {Key Version Registry : Type} (c : Committer Key Version Registry)

def legacyMembership (ctx : Context Key Version Registry) (extensions : Extensions) :
    Except CommitValidationError GroupMembership := do
  let bytes ← okOr (extensions.findUnknownExtension groupMembershipExtensionId)
    .missingGroupMembership
  let proto ← okOr (ctx.codec.decodeGroupMembership bytes) .protoDecode
  return ⟨proto.members, proto.failedInstallations⟩

theorem extractGroupMembership_eq (extensions : Extensions) :
    extractGroupMembership c.ctx extensions =
      match membershipOfComponents c.wire fun id => readFromAppDataDict id extensions with
      | .ok (some proto) => .ok ⟨proto.members, proto.failedInstallations⟩
      | .ok none => legacyMembership c.ctx extensions
      | .error error => .error (.groupMutableMetadata (c.fromComponentSource error)) := by
  rw [← readGroupMembershipFromDict_eq, extractGroupMembership, c.readGroupMembershipFromDict]
  by_cases hmigrated : extensions.isMigrated = true
  · rw [if_pos hmigrated]
    cases readGroupMembershipFromDict c.wire extensions with
    | error error => rfl
    | ok proto => cases proto <;> rfl
  · have hread : readGroupMembershipFromDict c.wire extensions = .ok none := by
      rw [readGroupMembershipFromDict, if_neg hmigrated]
    rw [if_neg hmigrated, hread]
    rfl

theorem legacyMembership_built (extensions : Extensions) (membership : GroupMembership) :
    ∃ decoded, legacyMembership c.ctx
        (extensions.addOrReplace (buildGroupMembershipExtension c membership)) = .ok decoded ∧
      decoded.members.Equiv membership.members := by
  have ⟨decoded, hdecode, hmembers, _⟩ :=
    c.decode_encode ⟨membership.members, membership.failedInstallations⟩
  refine ⟨⟨decoded.members, decoded.failedInstallations⟩, ?_, hmembers⟩
  rw [legacyMembership, buildGroupMembershipExtension, findUnknownExtension_addOrReplace]
  simp [hdecode]

end Read

section Update

variable {Key Version Registry : Type} {c : Committer Key Version Registry}
  {current membership : GroupMembership} {changes : PendingChanges} {inboxId : String}

theorem isSome_get_foldl_remove (inboxIds : List String) (membership : GroupMembership) :
    ((inboxIds.foldl GroupMembership.remove membership).get inboxId).isSome =
      (decide (inboxId ∉ inboxIds) && (membership.get inboxId).isSome) := by
  induction inboxIds generalizing membership with
  | nil => simp
  | cons i inboxIds ih =>
    rw [List.foldl_cons, ih, GroupMembership.isSome_get_remove]
    by_cases hi : i = inboxId
    · simp [hi]
    · have hbeq : (i == inboxId) = false := beq_false_of_ne hi
      simp [hbeq, Ne.symm hi]

theorem isSome_get_of_foldlM_addLatest {updates : IdentityUpdates} {inboxIds : List String}
    (h : inboxIds.foldlM (addLatest updates) current = .ok membership) :
    (membership.get inboxId).isSome =
      (decide (inboxId ∈ inboxIds) || (current.get inboxId).isSome) := by
  induction inboxIds generalizing current with
  | nil =>
    rw [List.foldlM_nil, pure_eq_ok] at h
    simp [h]
  | cons i inboxIds ih =>
    simp only [List.foldlM_cons, addLatest, bind_eq_ok, pure_eq_ok] at h
    obtain ⟨_, ⟨sequenceId, _, rfl⟩, hrest⟩ := h
    rw [ih hrest, GroupMembership.isSome_get_add]
    by_cases hi : i = inboxId
    · simp [hi]
    · have hbeq : (i == inboxId) = false := beq_false_of_ne hi
      simp [hbeq, Ne.symm hi]

theorem isSome_get_updatedMembership {order : IterOrder} {db db' : Database}
    (h : (updatedMembership c order current changes).outcome db = (.ok membership, db')) :
    (membership.get inboxId).isSome = true ↔
      ((current.get inboxId).isSome = true ∨ inboxId ∈ changes.inboxIdsToAdd) ∧
        inboxId ∉ changes.inboxIdsToRemove := by
  have hmembers : ∃ added, (membership.get inboxId).isSome =
        ((changes.inboxIdsToRemove.foldl GroupMembership.remove added).get inboxId).isSome ∧
      (added.get inboxId).isSome =
        (decide (inboxId ∈ changes.inboxIdsToAdd) || (current.get inboxId).isSome) := by
    by_cases hempty : changes.inboxIdsToAdd.isEmpty = true
    · simp only [updatedMembership, hempty, if_true, pure_bind, Session.outcome_pure_eq_ok] at h
      refine ⟨current, by rw [← h.1], by simp [List.isEmpty_iff.mp hempty]⟩
    · simp only [updatedMembership, hempty, if_false, Session.outcome_bind_eq_ok,
        Session.outcome_pure_eq_ok, Bool.false_eq_true] at h
      obtain ⟨_, _, _, _, _, _, added, _, hadded, _, _, _, rfl, _⟩ := h
      exact ⟨added, rfl, isSome_get_of_foldlM_addLatest (congrArg Prod.fst hadded)⟩
  have ⟨added, hremoved, hadded⟩ := hmembers
  rw [hremoved, isSome_get_foldl_remove, hadded]
  simp only [Bool.and_eq_true, decide_eq_true_eq, Bool.or_eq_true, and_comm, or_comm]

end Update

def Proposal.changesMembers : Proposal → Bool
  | .add _ | .remove _ | .appDataUpdate _ _ => true
  | _ => false

section Commit

variable {Key Version Registry : Type} {c : Committer Key Version Registry} {group : OpenMlsGroup}
  {epoch : Nat} {pendingProposals : List QueuedProposal} {changes : PendingChanges}
  {membership : GroupMembership} {published : PublishIntentData}

theorem isGroupContextExtensions_of_changesMembers {proposal : Proposal}
    (h : proposal.changesMembers = true) : proposal.isGroupContextExtensions = false := by
  cases proposal <;> first | rfl | cases h

theorem hasMembership_of_changesMembers {queued : QueuedProposal}
    (h : queued.proposal.changesMembers = true) : hasMembership c membership queued = false := by
  rw [hasMembership]
  cases hproposal : queued.proposal with
  | groupContextExtensions extensions => rw [hproposal] at h; cases h
  | _ => rfl

theorem proposedExtensions_of_changesMembers
    (h : ∀ queued ∈ pendingProposals, queued.proposal.changesMembers = true) :
    proposedExtensions pendingProposals = none := by
  rw [proposedExtensions, List.findSome?_eq_none_iff]
  intro queued hmem
  have hchanges := h queued hmem
  cases hproposal : queued.proposal with
  | groupContextExtensions extensions => rw [hproposal] at hchanges; cases hchanges
  | _ => rfl

theorem filter_keepsMembership
    (h : ∀ queued ∈ pendingProposals, queued.proposal.changesMembers = true) :
    pendingProposals.filter (keepsMembership c membership) = pendingProposals := by
  rw [List.filter_eq_self]
  intro queued hmem
  rw [keepsMembership, isGroupContextExtensions_of_changesMembers (h queued hmem)]
  rfl

theorem newExtensions_eq (hmigrated : group.extensions.isMigrated = false)
    (h : ∀ queued ∈ pendingProposals, queued.proposal.changesMembers = true) :
    newExtensions c group pendingProposals changes membership =
      group.extensions.addOrReplace (buildGroupMembershipExtension c membership) := by
  simp [newExtensions, hmigrated, proposedExtensions_of_changesMembers h]

theorem extractGroupMembership_addOrReplace {extensions : Extensions}
    (hmigrated : extensions.isMigrated = false) (membership : GroupMembership) :
    ∃ decoded, extractGroupMembership c.ctx
        (extensions.addOrReplace (buildGroupMembershipExtension c membership)) = .ok decoded ∧
      decoded.members.Equiv membership.members := by
  have hcomponents : membershipOfComponents c.wire (fun id => readFromAppDataDict id
      (extensions.addOrReplace (buildGroupMembershipExtension c membership))) = .ok none := by
    rw [isMigrated_eq] at hmigrated
    simp [membershipOfComponents, buildGroupMembershipExtension,
      readFromAppDataDict_addOrReplace, hmigrated]
  rw [extractGroupMembership_eq, hcomponents]
  exact legacyMembership_built c extensions membership

theorem keepsMembership_proposed {queued : QueuedProposal}
    (hmigrated : group.extensions.isMigrated = false)
    (h : queued.proposal = .groupContextExtensions
      (group.extensions.addOrReplace (buildGroupMembershipExtension c membership))) :
    keepsMembership c membership queued = true := by
  have ⟨decoded, hextract, hmembers⟩ :=
    extractGroupMembership_addOrReplace (c := c) hmigrated membership
  simp only [keepsMembership, hasMembership, h, hextract, toOption_ok, Option.map_some,
    Option.getD_some, hmembers.eq_true, Bool.or_true]

/-- What has been published is a commit that accepts what is pending, and, for a change of the
members of a group that is not migrated, the proposal of the new membership. -/
structure Committed (c : Committer Key Version Registry) (group : OpenMlsGroup)
    (pendingProposals : List QueuedProposal) (changes : PendingChanges)
    (membership : GroupMembership) (published : PublishIntentData)
    (updates : Option AppDataUpdates) (welcome : Option Bytes)
    (proposals : List QueuedProposal) : Prop where
  accumulated : pendingAppDataUpdates c.host group.extensions pendingProposals = .ok updates
  built : Built group (pendingProposals ++ proposals) updates welcome published.stagedCommit
  action : published.postCommitAction = welcome.map (.sendWelcomes changes.installationsToWelcome)
  proposed :
    if (!changes.inboxIdsToAdd.isEmpty || !changes.inboxIdsToRemove.isEmpty) &&
        !group.extensions.isMigrated then
      ∃ queued, proposals = [queued] ∧ queued.proposal = .groupContextExtensions
        (group.extensions.addOrReplace (buildGroupMembershipExtension c membership))
    else proposals = []

theorem publishData_eq_ok {proposals : List Bytes} {bundle : CommitMessageBundle}
    (h : publishData epoch changes proposals bundle = .ok published) :
    bundle.stagedCommit = some published.stagedCommit ∧ published.postCommitAction =
      bundle.welcome.map (.sendWelcomes changes.installationsToWelcome) := by
  simp only [publishData, bind_eq_ok, okOr_eq_ok, pure_eq_ok] at h
  obtain ⟨commit, hcommit, rfl⟩ := h
  exact ⟨hcommit, rfl⟩

theorem appDataUpdates_append_of_not_update {queued : QueuedProposal} {extensions : Extensions}
    (h : queued.proposal = .groupContextExtensions extensions) :
    appDataUpdates (pendingProposals ++ [queued]) = appDataUpdates pendingProposals := by
  simp [appDataUpdates, h]

theorem committed_of_eq_ok (hopenMls : c.openMls.Conforms)
    (hpending : ∀ queued ∈ pendingProposals, queued.proposal.changesMembers = true)
    (h : commitWithMembership c group epoch pendingProposals changes membership =
      .ok published) :
    ∃ updates welcome proposals,
      Committed c group pendingProposals changes membership published updates welcome
        proposals := by
  have hnone : pendingProposals.any (hasMembership c membership) = false := by
    rw [List.any_eq_false]
    intro queued hmem
    simp [hasMembership_of_changesMembers (hpending queued hmem)]
  simp only [commitWithMembership, hnone, Bool.and_false, Bool.not_false, Bool.and_true] at h
  split at h
  · rename_i hchanged
    have hmigrated : group.extensions.isMigrated = false := by
      simpa using (Bool.and_eq_true_iff.mp hchanged).2
    simp only [bind_eq_ok, buildCommitWithPendingAppDataUpdates, mapError_eq_ok] at h
    obtain ⟨⟨payload, queued⟩, hproposed, bundle, ⟨updates, hupdates, hbuild⟩, hpublish⟩ := h
    obtain ⟨hcommit, haction⟩ := publishData_eq_ok hpublish
    rw [newExtensions_eq hmigrated hpending] at hproposed
    have hqueued := hopenMls.proposed _ _ _ _ hproposed
    have hbuilt := hopenMls.built _ _ _ _ _ _ hbuild hcommit
    have hfilter : [queued].filter (keepsMembership c membership) = [queued] := by
      simp [keepsMembership_proposed hmigrated hqueued]
    rw [List.filter_append, filter_keepsMembership hpending, hfilter] at hbuilt
    rw [pendingAppDataUpdates, appDataUpdates_append_of_not_update hqueued] at hupdates
    refine ⟨updates, bundle.welcome, [queued], hupdates, hbuilt, haction, ?_⟩
    rw [if_pos hchanged]
    exact ⟨queued, rfl, hqueued⟩
  · rename_i hsteady
    simp only [bind_eq_ok, buildCommitWithPendingAppDataUpdates, mapError_eq_ok] at h
    obtain ⟨bundle, ⟨updates, hupdates, hbuild⟩, hpublish⟩ := h
    obtain ⟨hcommit, haction⟩ := publishData_eq_ok hpublish
    have hbuilt := hopenMls.built _ _ _ _ _ _ hbuild hcommit
    rw [List.filter_eq_self.mpr] at hbuilt
    · refine ⟨updates, bundle.welcome, [], hupdates, ?_, haction, ?_⟩
      · rwa [List.append_nil]
      · rw [if_neg hsteady]
    · intro queued hmem
      rw [keepsMembership, isGroupContextExtensions_of_changesMembers (hpending queued hmem)]
      simp

namespace Committed

variable {updates : Option AppDataUpdates} {welcome : Option Bytes}
  {proposals : List QueuedProposal} {inboxId : String} {current : GroupMembership}

theorem proposals_cases (h : Committed c group pendingProposals changes membership published
    updates welcome proposals) :
    proposals = [] ∨ ∃ queued, proposals = [queued] ∧ queued.proposal = .groupContextExtensions
      (group.extensions.addOrReplace (buildGroupMembershipExtension c membership)) := by
  have hproposed := h.proposed
  split at hproposed
  · exact .inr hproposed
  · exact .inl hproposed

theorem addedLeaves_eq (h : Committed c group pendingProposals changes membership published
    updates welcome proposals) : addedLeaves proposals = [] ∧ removedLeaves proposals = [] := by
  rcases h.proposals_cases with rfl | ⟨queued, rfl, hqueued⟩
  · exact ⟨rfl, rfl⟩
  · simp [addedLeaves, removedLeaves, hqueued]

theorem mem_addedLeaves (h : Committed c group pendingProposals changes membership published
    updates welcome proposals) {leafNode : LeafNode} :
    leafNode ∈ addedLeaves published.stagedCommit.queuedProposals ↔
      leafNode ∈ addedLeaves pendingProposals := by
  rw [h.built.added, addedLeaves_append, h.addedLeaves_eq.1, List.append_nil]

theorem treeHas_iff (h : Committed c group pendingProposals changes membership published
    updates welcome proposals) :
    TreeHas c.ctx group published.stagedCommit.queuedProposals inboxId ↔
      TreeHas c.ctx group pendingProposals inboxId := by
  simp only [Groups.treeHas_iff, Adds, h.mem_addedLeaves, h.built.removed, removedLeaves_append,
    h.addedLeaves_eq.2, List.append_nil]

theorem base_eq (hpending : ∀ queued ∈ pendingProposals, queued.proposal.changesMembers = true)
    (h : Committed c group pendingProposals changes membership published updates welcome
      proposals) :
    (proposedExtensions (pendingProposals ++ proposals)).getD group.extensions =
      if (!changes.inboxIdsToAdd.isEmpty || !changes.inboxIdsToRemove.isEmpty) &&
          !group.extensions.isMigrated then
        group.extensions.addOrReplace (buildGroupMembershipExtension c membership)
      else group.extensions := by
  have hproposed := h.proposed
  rw [proposedExtensions, List.findSome?_append]
  change ((proposedExtensions pendingProposals).or _).getD _ = _
  rw [proposedExtensions_of_changesMembers hpending, Option.none_or]
  split at hproposed
  · rename_i hchanged
    obtain ⟨queued, rfl, hqueued⟩ := hproposed
    simp [hqueued, hchanged]
  · rename_i hsteady
    subst hproposed
    rw [if_neg hsteady]
    rfl

theorem components_eq
    (hpending : ∀ queued ∈ pendingProposals, queued.proposal.changesMembers = true)
    (h : Committed c group pendingProposals changes membership published updates welcome
      proposals) :
    (fun id => readFromAppDataDict id published.stagedCommit.groupContextExtensions) =
      AppDataUpdates.post updates group.extensions := by
  funext id
  rw [h.built.dictionary, h.base_eq hpending, AppDataUpdates.post, AppDataUpdates.post]
  split
  · rw [buildGroupMembershipExtension, readFromAppDataDict_addOrReplace]
  · rfl

theorem legacyMembership_eq
    (hpending : ∀ queued ∈ pendingProposals, queued.proposal.changesMembers = true)
    (h : Committed c group pendingProposals changes membership published updates welcome
      proposals) :
    legacyMembership c.ctx published.stagedCommit.groupContextExtensions =
      legacyMembership c.ctx
        (if (!changes.inboxIdsToAdd.isEmpty || !changes.inboxIdsToRemove.isEmpty) &&
            !group.extensions.isMigrated then
          group.extensions.addOrReplace (buildGroupMembershipExtension c membership)
        else group.extensions) := by
  rw [legacyMembership, h.built.legacyExtensions, h.base_eq hpending, legacyMembership]

end Committed

end Commit

section Step

variable {Key Version Registry : Type} (c : Committer Key Version Registry) (group : OpenMlsGroup)
  (pendingProposals : List QueuedProposal)

def HasInboxesOfTree (members : HashMap String UInt64) : Prop :=
  ∀ inboxId, (members.get inboxId).isSome = true ↔ TreeHas c.ctx group pendingProposals inboxId

/-- What is pending leaves the membership in step with the tree: where the pending updates leave
a dictionary that holds the membership, it has the inboxes of the tree, and so has the legacy
extension of a migrated group without one; in the other groups the inboxes are in step. -/
def MembershipInStep : Prop :=
  ∀ current updates, extractGroupMembership c.ctx group.extensions = .ok current →
    pendingAppDataUpdates c.host group.extensions pendingProposals = .ok updates →
      match membershipOfComponents c.wire (AppDataUpdates.post updates group.extensions) with
      | .ok (some proto) => HasInboxesOfTree c group pendingProposals proto.members
      | .ok none =>
        if group.extensions.isMigrated then
          ∃ membership, legacyMembership c.ctx group.extensions = .ok membership ∧
            HasInboxesOfTree c group pendingProposals membership.members
        else InboxesInStep c.ctx group pendingProposals current
      | .error _ => False

variable {c group pendingProposals} {current membership : GroupMembership}
  {changes : PendingChanges} {published : PublishIntentData} {updates : Option AppDataUpdates}
  {welcome : Option Bytes} {proposals : List QueuedProposal} {inboxId : String}

theorem mem_inboxIdsToAdd_iff
    (h : Collected c group current {} pendingProposals changes) :
    inboxId ∈ changes.inboxIdsToAdd ↔
      current.get inboxId = none ∧ Adds c.ctx pendingProposals inboxId := by
  have hmem : inboxId ∈ changes.inboxIdsToAdd ↔ some inboxId ∈ changes.inboxIdsToAdd.map some := by
    simp
  rw [hmem, h.toAdd, List.map_nil, List.nil_append, firstAdded, mem_map_firstByKey]
  simp only [List.map_nil, List.not_mem_nil, not_false_eq_true, true_and, List.mem_map,
    List.mem_filter, Adds]
  constructor
  · rintro ⟨leafNode, ⟨hadded, hfresh⟩, hinbox⟩
    exact ⟨isFresh_iff.mp hfresh inboxId hinbox, leafNode, hadded, hinbox⟩
  · rintro ⟨hnone, leafNode, hadded, hinbox⟩
    refine ⟨leafNode, ⟨hadded, isFresh_iff.mpr ?_⟩, hinbox⟩
    intro inboxId' hinbox'
    rw [hinbox, Option.some.injEq] at hinbox'
    exact hinbox' ▸ hnone

theorem mem_inboxIdsToRemove_iff (h : Collected c group current {} pendingProposals changes) :
    inboxId ∈ changes.inboxIdsToRemove ↔ Removes c.ctx group pendingProposals inboxId := by
  have hmem : inboxId ∈ changes.inboxIdsToRemove ↔
      some inboxId ∈ changes.inboxIdsToRemove.map some := by simp
  rw [hmem, h.toRemove, List.map_nil, List.nil_append, firstRemoved, mem_map_firstByKey]
  simp [Removes]

theorem Committed.isSome_get_legacyMembership
    (hpending : ∀ queued ∈ pendingProposals, queued.proposal.changesMembers = true)
    (hcurrent : extractGroupMembership c.ctx group.extensions = .ok current)
    (hcollected : Collected c group current {} pendingProposals changes)
    (hmembership : ∀ inboxId, (membership.get inboxId).isSome = true ↔
      ((current.get inboxId).isSome = true ∨ inboxId ∈ changes.inboxIdsToAdd) ∧
        inboxId ∉ changes.inboxIdsToRemove)
    (hmigrated : group.extensions.isMigrated = false)
    (h : Committed c group pendingProposals changes membership published updates welcome
      proposals) :
    ∃ legacy, legacyMembership c.ctx published.stagedCommit.groupContextExtensions = .ok legacy ∧
      ∀ inboxId, (legacy.get inboxId).isSome = true ↔
        ((current.get inboxId).isSome = true ∨ Adds c.ctx pendingProposals inboxId) ∧
          ¬Removes c.ctx group pendingProposals inboxId := by
  have hinboxes : ∀ inboxId, (membership.get inboxId).isSome = true ↔
      ((current.get inboxId).isSome = true ∨ Adds c.ctx pendingProposals inboxId) ∧
        ¬Removes c.ctx group pendingProposals inboxId := by
    intro inboxId
    rw [hmembership, mem_inboxIdsToAdd_iff hcollected, mem_inboxIdsToRemove_iff hcollected]
    cases current.get inboxId <;> simp
  rw [h.legacyMembership_eq hpending]
  split
  · have ⟨decoded, hdecoded, hequiv⟩ := legacyMembership_built c group.extensions membership
    refine ⟨decoded, hdecoded, ?_⟩
    intro inboxId
    rw [← hinboxes, GroupMembership.get, hequiv.get, GroupMembership.get]
  · rename_i hsteady
    have hnone : changes.inboxIdsToAdd = [] ∧ changes.inboxIdsToRemove = [] := by
      simpa [hmigrated] using hsteady
    refine ⟨current, ?_, ?_⟩
    · rw [extractGroupMembership_eq] at hcurrent
      rw [isMigrated_eq] at hmigrated
      simpa [membershipOfComponents, hmigrated] using hcurrent
    · intro inboxId
      rw [← hinboxes, hmembership, hnone.1, hnone.2]
      simp

theorem Committed.membershipFollowsTree_iff
    (hpending : ∀ queued ∈ pendingProposals, queued.proposal.changesMembers = true)
    (hcurrent : extractGroupMembership c.ctx group.extensions = .ok current)
    (hcollected : Collected c group current {} pendingProposals changes)
    (hmembership : ∀ inboxId, (membership.get inboxId).isSome = true ↔
      ((current.get inboxId).isSome = true ∨ inboxId ∈ changes.inboxIdsToAdd) ∧
        inboxId ∉ changes.inboxIdsToRemove)
    (h : Committed c group pendingProposals changes membership published updates welcome
      proposals) :
    MembershipFollowsTree c.ctx group published.stagedCommit ↔
      MembershipInStep c group pendingProposals := by
  have hstep : MembershipInStep c group pendingProposals ↔
      match membershipOfComponents c.wire (AppDataUpdates.post updates group.extensions) with
      | .ok (some proto) => HasInboxesOfTree c group pendingProposals proto.members
      | .ok none =>
        if group.extensions.isMigrated then
          ∃ membership, legacyMembership c.ctx group.extensions = .ok membership ∧
            HasInboxesOfTree c group pendingProposals membership.members
        else InboxesInStep c.ctx group pendingProposals current
      | .error _ => False := by
    constructor
    · intro hall
      exact hall current updates hcurrent h.accumulated
    · intro hone current' updates' hcurrent' hupdates'
      rw [hcurrent, Except.ok.injEq] at hcurrent'
      rw [h.accumulated, Except.ok.injEq] at hupdates'
      subst hcurrent' hupdates'
      exact hone
  rw [hstep, MembershipFollowsTree, extractGroupMembership_eq, h.components_eq hpending]
  simp only [h.treeHas_iff]
  cases membershipOfComponents c.wire (AppDataUpdates.post updates group.extensions) with
  | error error => simp
  | ok proto =>
    cases proto with
    | some proto => simp [HasInboxesOfTree, GroupMembership.get]
    | none =>
      cases hmigrated : group.extensions.isMigrated with
      | true =>
        rw [h.legacyMembership_eq hpending, if_pos rfl]
        simp [hmigrated, HasInboxesOfTree, GroupMembership.get]
      | false =>
        obtain ⟨legacy, hlegacy, hinboxes⟩ :=
          h.isSome_get_legacyMembership hpending hcurrent hcollected hmembership hmigrated
        rw [if_neg (by simp), inboxesInStep_iff]
        simp only [hlegacy, Except.ok.injEq, exists_eq_left', hinboxes]

theorem Committed.welcomesEachAdded_iff
    (hcurrent : extractGroupMembership c.ctx group.extensions = .ok current)
    (hcollected : Collected c group current {} pendingProposals changes)
    (h : Committed c group pendingProposals changes membership published updates welcome
      proposals) :
    published.WelcomesEachAdded ↔ AddsOnePerNewInbox c group pendingProposals := by
  have hkeys : ∀ leafNode ∈ addedLeaves pendingProposals,
      ∀ leafNode' ∈ addedLeaves pendingProposals,
        leafNode.signatureKey = leafNode'.signatureKey → leafNode = leafNode' := by
    intro leafNode hmem leafNode' hmem'
    exact List.inj_on_of_nodup_map h.built.addedDistinct (h.mem_addedLeaves.mpr hmem)
      (h.mem_addedLeaves.mpr hmem')
  have hids : addedLeaves pendingProposals ≠ [] → published.welcomedIds =
      ((firstAdded c current [] (addedLeaves pendingProposals)).filterMap
        (installationOf c)).map Installation.installationKey := by
    intro hadded
    have ⟨leafNode, hmem⟩ := List.exists_mem_of_ne_nil _ hadded
    have hwelcome : welcome.isSome = true :=
      h.built.welcomed.mpr (List.ne_nil_of_mem (h.mem_addedLeaves.mpr hmem))
    have ⟨bytes, hbytes⟩ := Option.isSome_iff_exists.mp hwelcome
    simp [PublishIntentData.welcomedIds, h.action, hbytes, PostCommitAction.installations,
      hcollected.toWelcome]
  have hwelcomes : published.WelcomesEachAdded ↔ ∀ leafNode ∈ addedLeaves pendingProposals,
      leafNode ∈ firstAdded c current [] (addedLeaves pendingProposals) ∧
        (installationOf c leafNode).isSome := by
    simp only [PublishIntentData.WelcomesEachAdded, h.mem_addedLeaves]
    apply forall_congr'
    intro leafNode
    apply imp_congr_right
    intro hmem
    rw [hids (List.ne_nil_of_mem hmem), count_eq_one_iff_mem (nodup_welcomed hkeys),
      mem_welcomed_iff hkeys hmem]
  rw [hwelcomes]
  constructor
  · intro hall
    have ⟨hsingle, hfresh⟩ := subset_firstAdded_iff.mp fun leafNode hmem => (hall leafNode hmem).1
    refine ⟨hsingle, ?_, fun leafNode hmem => (hall leafNode hmem).2⟩
    intro current' hcurrent' leafNode hmem inboxId hinbox
    rw [hcurrent, Except.ok.injEq] at hcurrent'
    exact hcurrent' ▸ isFresh_iff.mp (hfresh leafNode hmem) inboxId hinbox
  · intro hadds leafNode hmem
    have hsubset := subset_firstAdded_iff.mpr ⟨hadds.single, fun leafNode hmem =>
      isFresh_iff.mpr (hadds.fresh current hcurrent leafNode hmem)⟩
    exact ⟨hsubset hmem, hadds.convertible leafNode hmem⟩

end Step

/-- The commit of what is pending welcomes everyone it adds and leads to the membership of the
tree exactly when every pending Add is alone in adding to an inbox that is new, and what is pending
leaves the membership in step with the tree. -/
theorem commitPendingProposals_iff {Key Version Registry : Type}
    {c : Committer Key Version Registry} {group : OpenMlsGroup} {epoch : Nat}
    {pendingProposals : List QueuedProposal} {order : IterOrder} {data : Bytes}
    {db db' : Database} {published : PublishIntentData} (hopenMls : c.openMls.Conforms)
    (hpending : ∀ queued ∈ pendingProposals, queued.proposal.changesMembers = true)
    (h : (commitPendingProposals c group epoch pendingProposals order data).outcome db =
      (.ok (some published), db')) :
    published.WelcomesEachAdded ∧ MembershipFollowsTree c.ctx group published.stagedCommit ↔
      AddsOnePerNewInbox c group pendingProposals ∧
        MembershipInStep c group pendingProposals := by
  rw [commitPendingProposals, Session.outcome_ofExcept_bind_eq_ok] at h
  have ⟨_, _, h⟩ := h
  split at h
  · rw [Session.outcome_pure_eq_ok] at h
    exact absurd h.1 (by simp)
  · rw [Session.outcome_ofExcept_bind_eq_ok] at h
    have ⟨current, hcurrent, h⟩ := h
    rw [Session.outcome_ofExcept_bind_eq_ok] at h
    have ⟨changes, hchanges, h⟩ := h
    rw [Session.outcome_bind_eq_ok] at h
    have ⟨membership, _, hmembership, h⟩ := h
    rw [Session.outcome_ofExcept_bind_eq_ok] at h
    have ⟨published', hcommit, h⟩ := h
    rw [Session.outcome_pure_eq_ok, Option.some.injEq] at h
    rw [h.1] at hcommit
    rw [mapError_eq_ok] at hcurrent
    have hcollected := collected_of_foldlM pendingProposals hchanges
    have ⟨updates, welcome, proposals, hcommitted⟩ :=
      committed_of_eq_ok hopenMls hpending hcommit
    exact and_congr (hcommitted.welcomesEachAdded_iff hcurrent hcollected)
      (hcommitted.membershipFollowsTree_iff hpending hcurrent hcollected fun inboxId =>
        isSome_get_updatedMembership hmembership)

/-! A migrated group of one inbox, whose commits add a second installation of that inbox, or the
first one of another. -/

namespace PendingSample

open Groups.Sample Mls.Sample Associations.Sample

def packMembership (membership : Proto.GroupMembership) : Bytes :=
  (Nat.digits 256 (Encodable.encode
    (membership.members.entries, membership.failedInstallations))).map UInt8.ofNat

def unpackMembership (bytes : Bytes) : Option Proto.GroupMembership :=
  ((Encodable.decode (Nat.ofDigits 256 (bytes.map UInt8.toNat)) :
    Option (List (String × UInt64) × List Bytes))).map fun (entries, failedInstallations) =>
      ⟨.ofList entries, failedInstallations⟩

theorem unpackMembership_packMembership (membership : Proto.GroupMembership) :
    ∃ decoded, unpackMembership (packMembership membership) = some decoded ∧
      decoded.members.Equiv membership.members ∧
      decoded.failedInstallations = membership.failedInstallations := by
  have hdigits : ((Nat.digits 256 (Encodable.encode (membership.members.entries,
      membership.failedInstallations))).map UInt8.ofNat).map UInt8.toNat =
        Nat.digits 256 (Encodable.encode (membership.members.entries,
          membership.failedInstallations)) := by
    rw [List.map_map]
    refine (List.map_congr_left fun digit hdigit => ?_).trans (List.map_id _)
    simp only [Function.comp_apply, UInt8.toNat_ofNat']
    exact Nat.mod_eq_of_lt (Nat.digits_lt_base (by decide) hdigit)
  refine ⟨⟨.ofList membership.members.entries, membership.failedInstallations⟩, ?_,
    HashMap.ofList_equiv_of_perm (.refl _), rfl⟩
  rw [unpackMembership, packMembership, hdigits, Nat.ofDigits_digits, Encodable.encodek,
    Option.map_some]

def updateDictionary (updates : Option AppDataUpdates) (extensions : Extensions) : Extensions :=
  match updates with
  | none => extensions
  | some updates => extensions.addOrReplace (.appDataDictionary (updates.entries.foldr
      (fun (id, value) dictionary => value.elim (dictionary.remove id) (dictionary.insert id))
      (extensions.appDataDictionary.getD .empty)))

theorem findUnknownExtension_updateDictionary (updates : Option AppDataUpdates)
    (extensions : Extensions) (id : UInt16) :
    (updateDictionary updates extensions).findUnknownExtension id =
      extensions.findUnknownExtension id := by
  cases updates with
  | none => rfl
  | some updates =>
    rw [updateDictionary, Extensions.findUnknownExtension, Extensions.addOrReplace,
      List.findSome?_append, findSome?_filter_of_none]
    · simp [Extensions.findUnknownExtension]
    · intro extension _ hdropped
      cases extension <;> simp_all [Extension.sameType]

theorem get_foldr_entries (entries : List (UInt16 × Option Bytes))
    (dictionary : HashMap UInt16 Bytes) (id : UInt16) :
    (entries.foldr (fun (id, value) dictionary =>
      value.elim (dictionary.remove id) (dictionary.insert id)) dictionary).get id =
        ((entries.find? (·.1 = id)).map Prod.snd).getD (dictionary.get id) := by
  induction entries with
  | nil => rfl
  | cons entry entries ih =>
    have ⟨id', value⟩ := entry
    by_cases hid : id' = id
    · subst hid
      cases value <;> simp
    · have hbeq : (id' == id) = false := beq_false_of_ne hid
      cases value <;> simp [hid, hbeq, ih]

theorem readFromAppDataDict_updateDictionary (updates : Option AppDataUpdates)
    (extensions : Extensions) (id : UInt16) :
    readFromAppDataDict id (updateDictionary updates extensions) =
      AppDataUpdates.post updates extensions id := by
  cases updates with
  | none => rfl
  | some updates =>
    have hfind (dictionary : HashMap UInt16 Bytes) :
        (extensions.addOrReplace (.appDataDictionary dictionary)).appDataDictionary =
          some dictionary := by
      rw [Extensions.appDataDictionary, Extensions.addOrReplace, List.findSome?_append,
        List.findSome?_eq_none_iff.mpr]
      · simp
      · intro extension hmem
        have hkept := (List.mem_filter.mp hmem).2
        cases extension with
        | appDataDictionary _ => exact absurd hkept (by simp [Extension.sameType])
        | _ => rfl
    rw [readFromAppDataDict, updateDictionary, hfind, AppDataUpdates.post, readFromAppDataDict]
    simp only [Option.bind_eq_bind, Option.bind_some, get_foldr_entries, AppDataUpdates.value]
    cases updates.entries.find? (·.1 = id) <;> cases extensions.appDataDictionary <;> rfl

def commitOf (group : OpenMlsGroup) (accepted : List QueuedProposal)
    (updates : Option AppDataUpdates) : CommitMessageBundle where
  commit := [1]
  welcome := if addedLeaves accepted = [] then none else some [2]
  stagedCommit := some ⟨accepted,
    updateDictionary updates ((proposedExtensions accepted).getD group.extensions)⟩

def openMls : OpenMls where
  proposeGroupContextExtensions _ extensions :=
    .ok ([3], ⟨.groupContextExtensions extensions, .member 0⟩)
  buildCommit group pendingProposals updates keep :=
    if ((addedLeaves (pendingProposals.filter keep)).map LeafNode.signatureKey).Nodup then
      .ok (commitOf group (pendingProposals.filter keep) updates)
    else .error .commitToPendingProposals

theorem openMls_conforms : openMls.Conforms where
  proposed group extensions payload queued h := by
    cases h
    rfl
  built group pendingProposals updates keep bundle commit h hcommit := by
    simp only [openMls] at h
    split at h
    · rename_i hdistinct
      cases h
      cases hcommit
      exact {
        added := fun _ => .rfl
        addedDistinct := hdistinct
        removed := fun _ => .rfl
        legacyExtensions := findUnknownExtension_updateDictionary _ _
        dictionary := readFromAppDataDict_updateDictionary _ _
        welcomed := by simp [commitOf] }
    · cases h

def wire : MembershipWire where
  toWire := bareHost.toWire
  hex := .lower
  decodeGroupMembershipEntry
    | [sequenceId] => some (some ⟨sequenceId.toUInt64, []⟩)
    | _ => none

def pendingContext : Context Bytes (List Nat) Unit :=
  { context with
    api := ⟨fun _ => some [], fun _ _ h => by simp [← Option.some.inj h]⟩
    codec := { groupCodec with decodeGroupMembership := unpackMembership }
    appData := { appData with
      readGroupMembershipFromDict := fun extensions =>
        (readGroupMembershipFromDict wire extensions).mapError fun _ => .missingExtension } }

def committer : Committer Bytes (List Nat) Unit where
  ctx := pendingContext
  host := bareHost
  wire := wire
  fromComponentSource _ := .missingExtension
  readGroupMembershipFromDict _ := rfl
  encodeGroupMembership := packMembership
  decode_encode := unpackMembership_packMembership
  decodeCommitPendingProposalsData bytes := if bytes = [1] then some true else none
  store := ⟨[7], fun _ => some []⟩
  keyPackage leafNode := ⟨leafNode, [], .ok none, .ok none, [.appDataDictionary]⟩
  keyPackage_leafNode _ := rfl
  openMls := openMls

def entryKey (inboxId : String) : Bytes := 0 :: (Hex.lower.decode inboxId).getD []

def pendingGroup : OpenMlsGroup where
  groupId := List.replicate 16 0
  extensions := [.appDataDictionary (.ofList [(ComponentId.componentRegistry, [0]),
    (ComponentId.groupMembership, [35] ++ entryKey inboxId ++ [1, 2])])]
  members := [⟨0, ⟨.basic [1], [7]⟩⟩]
  distinct := by decide

def growing : List QueuedProposal := [⟨.add ⟨.basic [1], [9]⟩, .member 0⟩]

def joining : List QueuedProposal :=
  [⟨.add ⟨.basic [2], [8]⟩, .member 0⟩,
    ⟨.appDataUpdate ComponentId.groupMembership
      (.update ([36, 0] ++ entryKey otherInboxId ++ [1, 3])), .member 0⟩]

theorem published_of_check (pendingProposals : List QueuedProposal)
    (check : PublishIntentData → Bool)
    (h : ((commitPendingProposals committer pendingGroup 5 pendingProposals order []).outcome
      database).1.toOption.any (fun published => published.any check) = true) :
    ∃ published db', (commitPendingProposals committer pendingGroup 5 pendingProposals order
      []).outcome database = (.ok (some published), db') ∧ check published = true := by
  have ⟨published, hpublished, hcheck⟩ := exists_of_any h
  cases published with
  | none => cases hcheck
  | some published => exact ⟨published, _, Prod.ext hpublished rfl, hcheck⟩

theorem addedLeaves_joining : addedLeaves joining = [⟨.basic [2], [8]⟩] := rfl

set_option maxRecDepth 10000 in
theorem extractGroupMembership_pendingGroup :
    extractGroupMembership committer.ctx pendingGroup.extensions =
      .ok ⟨.ofList [(inboxId, 2)], []⟩ := rfl

set_option maxRecDepth 10000 in
theorem membershipOfComponents_joining {updates : Option AppDataUpdates}
    (h : pendingAppDataUpdates committer.host pendingGroup.extensions joining = .ok updates) :
    membershipOfComponents committer.wire (AppDataUpdates.post updates pendingGroup.extensions) =
      .ok (some ⟨.ofList [(otherInboxId, 3), (inboxId, 2)], []⟩) := by
  cases h
  rfl

theorem treeHas_joining_iff {inbox : String} :
    TreeHas committer.ctx pendingGroup joining inbox ↔ inboxId = inbox ∨ otherInboxId = inbox := by
  have hmember : inboxIdOf committer.ctx ⟨.basic [1], [7]⟩ = some inboxId := rfl
  have hadded : inboxIdOf committer.ctx ⟨.basic [2], [8]⟩ = some otherInboxId := rfl
  have hremoved : removedLeaves joining = [] := rfl
  rw [treeHas_iff, hremoved, Adds, addedLeaves_joining]
  simp [pendingGroup, hmember, hadded]

end PendingSample

open PendingSample Mls.Sample Associations.Sample

theorem commitPendingProposals_iff_joining :
    ∃ published db', (commitPendingProposals committer pendingGroup 5 joining order []).outcome
        Groups.Sample.database = (.ok (some published), db') ∧
      published.WelcomesEachAdded ∧
        MembershipFollowsTree pendingContext pendingGroup published.stagedCommit := by
  have ⟨published, db', h, _⟩ :=
    published_of_check joining (fun _ => true) (by decide +kernel)
  refine ⟨published, db', h, (commitPendingProposals_iff openMls_conforms (by decide) h).mpr ?_⟩
  constructor
  · refine ⟨?_, ?_, ?_⟩
    · simp [addedLeaves_joining]
    · intro current hcurrent leafNode hmem inbox hinbox
      cases extractGroupMembership_pendingGroup.symm.trans hcurrent
      cases List.mem_singleton.mp hmem
      cases hinbox
      decide
    · simp only [addedLeaves_joining, List.mem_singleton, forall_eq]
      decide
  · intro current updates _ hupdates
    rw [membershipOfComponents_joining hupdates]
    intro inbox
    rw [treeHas_joining_iff, HashMap.ofList]
    simp only [List.foldl_cons, List.foldl_nil, HashMap.get_insert, beq_iff_eq]
    split
    · simp [*]
    · split <;> simp [*, HashMap.get]

/-- Another installation of an inbox that is a member joins the tree and is welcomed by nobody. -/
theorem commitPendingProposals_not_welcoming :
    ∃ published db', (commitPendingProposals committer pendingGroup 5 growing order []).outcome
        Groups.Sample.database = (.ok (some published), db') ∧
      ⟨.basic [1], [9]⟩ ∈ addedLeaves published.stagedCommit.queuedProposals ∧
      published.welcomedIds = [] ∧ ¬published.WelcomesEachAdded := by
  have ⟨published, db', h, hcheck⟩ := published_of_check growing (fun published =>
    decide (⟨.basic [1], [9]⟩ ∈ addedLeaves published.stagedCommit.queuedProposals ∧
      published.welcomedIds = [])) (by decide +kernel)
  have ⟨hadded, hnone⟩ := of_decide_eq_true hcheck
  refine ⟨published, db', h, hadded, hnone, ?_⟩
  intro hwelcomes
  have hone := hwelcomes _ hadded
  rw [hnone] at hone
  exact absurd hone (by decide)

end LibXmtp.Groups
