import LibXmtp.AppData.Accumulate
import LibXmtp.Groups.CommitPendingProposals

/-! Whom the commit of the pending proposals welcomes, and how the membership it leads to goes
with the tree. -/

namespace LibXmtp.Groups

open LibXmtp.Data LibXmtp.Associations LibXmtp.Db LibXmtp.Mls LibXmtp.AppData

section Lists

variable {Key Version Registry : Type} (ctx : Context Key Version Registry) (group : OpenMlsGroup)
  (queued : List QueuedProposal)

def inboxIdOf (leafNode : LeafNode) : Option String :=
  (inboxIdFromCredential ctx leafNode.credential).toOption

def addedLeaves : List LeafNode :=
  queued.filterMap fun queued =>
    match queued.proposal with
    | .add leafNode => some leafNode
    | _ => none

def removedLeaves : List LeafNodeIndex :=
  queued.filterMap fun queued =>
    match queued.proposal with
    | .remove removed => some removed
    | _ => none

def removedMembers : List LeafNode := (removedLeaves queued).filterMap group.memberAt

def leavesAfter : List LeafNode :=
  (group.members.filter (·.index ∉ removedLeaves queued)).map GroupMember.leafNode ++
    addedLeaves queued

end Lists

section Append

variable (queued queued' : List QueuedProposal)

@[simp] theorem addedLeaves_append :
    addedLeaves (queued ++ queued') = addedLeaves queued ++ addedLeaves queued' :=
  List.filterMap_append

@[simp] theorem removedLeaves_append :
    removedLeaves (queued ++ queued') = removedLeaves queued ++ removedLeaves queued' :=
  List.filterMap_append

@[simp] theorem removedMembers_append (group : OpenMlsGroup) :
    removedMembers group (queued ++ queued') =
      removedMembers group queued ++ removedMembers group queued' := by
  simp [removedMembers, List.filterMap_append]

end Append

/-- What a built commit does with the proposals it accepts: it takes every Add, for leaves whose
keys differ, and removes the leaves that are to be removed; and the extensions it leads to are
those it proposes, or the group's, with the dictionary updated. -/
structure Built (group : OpenMlsGroup) (accepted : List QueuedProposal)
    (updates : Option AppDataUpdates) (welcome : Option Bytes) (commit : StagedCommit) : Prop where
  added : ∀ leafNode, leafNode ∈ addedLeaves commit.queuedProposals ↔
    leafNode ∈ addedLeaves accepted
  addedDistinct : ((addedLeaves commit.queuedProposals).map LeafNode.signatureKey).Nodup
  removed : ∀ index, index ∈ removedLeaves commit.queuedProposals ↔ index ∈ removedLeaves accepted
  legacyExtensions : ∀ id, commit.groupContextExtensions.findUnknownExtension id =
    ((proposedExtensions accepted).getD group.extensions).findUnknownExtension id
  dictionary : ∀ id, readFromAppDataDict id commit.groupContextExtensions =
    AppDataUpdates.post updates ((proposedExtensions accepted).getD group.extensions) id
  welcomed : welcome.isSome = true ↔ addedLeaves commit.queuedProposals ≠ []

/-- What `openmls` documents of the proposals and commits it makes. -/
structure OpenMls.Conforms (openMls : OpenMls) : Prop where
  proposed : ∀ group extensions payload queued,
    openMls.proposeGroupContextExtensions group extensions = .ok (payload, queued) →
      queued.proposal = .groupContextExtensions extensions
  built : ∀ group pendingProposals updates keep bundle commit,
    openMls.buildCommit group pendingProposals updates keep = .ok bundle →
      bundle.stagedCommit = some commit →
        Built group (pendingProposals.filter keep) updates bundle.welcome commit

section Changes

variable {Key Version Registry : Type} (c : Committer Key Version Registry) (group : OpenMlsGroup)
  (current : GroupMembership)

def isFresh (leafNode : LeafNode) : Bool :=
  (inboxIdOf c.ctx leafNode).all fun inboxId => (current.get inboxId).isNone

/-- The leaves taken for welcomes out of those added: the first of each fresh inbox. -/
def firstAdded (seen : List String) (added : List LeafNode) : List LeafNode :=
  firstByKey (inboxIdOf c.ctx) (seen.map some) (added.filter (isFresh c current))

def firstRemoved (seen : List String) (removed : List LeafNode) : List LeafNode :=
  firstByKey (inboxIdOf c.ctx) (seen.map some) removed

structure Collected (changes : PendingChanges) (queued : List QueuedProposal)
    (changes' : PendingChanges) : Prop where
  toAdd : changes'.inboxIdsToAdd.map some = changes.inboxIdsToAdd.map some ++
    (firstAdded c current changes.inboxIdsToAdd (addedLeaves queued)).map (inboxIdOf c.ctx)
  toRemove : changes'.inboxIdsToRemove.map some = changes.inboxIdsToRemove.map some ++
    (firstRemoved c changes.inboxIdsToRemove (removedMembers group queued)).map (inboxIdOf c.ctx)
  toWelcome : changes'.installationsToWelcome = changes.installationsToWelcome ++
    (firstAdded c current changes.inboxIdsToAdd (addedLeaves queued)).filterMap (installationOf c)
  readable : ∀ leafNode ∈ addedLeaves queued ++ removedMembers group queued,
    ∃ inboxId, inboxIdOf c.ctx leafNode = some inboxId

variable {c group current} {changes changes' changes'' : PendingChanges}
  {queued queued' : List QueuedProposal}

theorem Collected.nil : Collected c group current changes [] changes where
  toAdd := by simp [addedLeaves, firstAdded]
  toRemove := by simp [removedMembers, removedLeaves, firstRemoved]
  toWelcome := by simp [addedLeaves, firstAdded]
  readable := by simp [addedLeaves, removedMembers, removedLeaves]

theorem firstAdded_append {seen seen' : List String} {added added' : List LeafNode}
    (h : seen'.map some =
      seen.map some ++ (firstAdded c current seen added).map (inboxIdOf c.ctx)) :
    firstAdded c current seen (added ++ added') =
      firstAdded c current seen added ++ firstAdded c current seen' added' := by
  rw [firstAdded, List.filter_append, firstByKey_append]
  exact congrArg (_ ++ firstByKey (inboxIdOf c.ctx) · _) h.symm

theorem firstRemoved_append {seen seen' : List String} {removed removed' : List LeafNode}
    (h : seen'.map some = seen.map some ++ (firstRemoved c seen removed).map (inboxIdOf c.ctx)) :
    firstRemoved c seen (removed ++ removed') =
      firstRemoved c seen removed ++ firstRemoved c seen' removed' := by
  rw [firstRemoved, firstByKey_append]
  exact congrArg (_ ++ firstByKey (inboxIdOf c.ctx) · _) h.symm

theorem Collected.append (h : Collected c group current changes queued changes')
    (h' : Collected c group current changes' queued' changes'') :
    Collected c group current changes (queued ++ queued') changes'' where
  toAdd := by
    rw [addedLeaves_append, firstAdded_append h.toAdd, h'.toAdd, h.toAdd, List.map_append,
      List.append_assoc]
  toRemove := by
    rw [removedMembers_append, firstRemoved_append h.toRemove, h'.toRemove, h.toRemove,
      List.map_append, List.append_assoc]
  toWelcome := by
    rw [addedLeaves_append, firstAdded_append h.toAdd, h'.toWelcome, h.toWelcome,
      List.filterMap_append, List.append_assoc]
  readable := by
    intro leafNode hmem
    simp only [addedLeaves_append, removedMembers_append, List.mem_append] at hmem
    rcases hmem with (hmem | hmem) | (hmem | hmem)
    · exact h.readable leafNode (List.mem_append_left _ hmem)
    · exact h'.readable leafNode (List.mem_append_left _ hmem)
    · exact h.readable leafNode (List.mem_append_right _ hmem)
    · exact h'.readable leafNode (List.mem_append_right _ hmem)

theorem pendingInboxId_eq_ok {leafNode : LeafNode} {inboxId : String} :
    pendingInboxId c leafNode = .ok inboxId ↔ inboxIdOf c.ctx leafNode = some inboxId := by
  rw [pendingInboxId, mapError_eq_ok, inboxIdOf]
  cases inboxIdFromCredential c.ctx leafNode.credential <;> simp [Except.toOption]

theorem collected_add {q : QueuedProposal} {leafNode : LeafNode} (hq : q.proposal = .add leafNode)
    (h : changes.apply c group current q = .ok changes') :
    Collected c group current changes [q] changes' := by
  simp only [PendingChanges.apply, hq, bind_eq_ok, pendingInboxId_eq_ok] at h
  obtain ⟨inboxId, hinbox, h⟩ := h
  have hadded : addedLeaves [q] = [leafNode] := by simp [addedLeaves, hq]
  have hremoved : removedMembers group [q] = [] := by simp [removedMembers, removedLeaves, hq]
  have hfresh : isFresh c current leafNode = (current.get inboxId).isNone := by
    simp [isFresh, hinbox]
  have hfirst : firstAdded c current changes.inboxIdsToAdd [leafNode] =
      if inboxId ∉ changes.inboxIdsToAdd ∧ (current.get inboxId).isNone then [leafNode]
      else [] := by
    rw [firstAdded, List.filter_cons, hfresh]
    cases (current.get inboxId).isNone <;> simp [firstByKey, hinbox]
  have hreadable : ∀ leaf ∈ addedLeaves [q] ++ removedMembers group [q],
      ∃ inboxId, inboxIdOf c.ctx leaf = some inboxId := by
    simp [hadded, hremoved, hinbox]
  by_cases hnew : inboxId ∉ changes.inboxIdsToAdd ∧ (current.get inboxId).isNone
  · rw [if_pos hnew, pure_eq_ok] at h
    rw [if_pos hnew] at hfirst
    subst h
    refine ⟨?_, ?_, ?_, hreadable⟩
    · rw [hadded, hfirst]
      simp [hinbox]
    · simp [hremoved, firstRemoved]
    · rw [hadded, hfirst]
      cases hinst : installationOf c leafNode <;> simp [hinst]
  · rw [if_neg hnew, pure_eq_ok] at h
    rw [if_neg hnew] at hfirst
    subst h
    refine ⟨?_, ?_, ?_, hreadable⟩
    · simp [hadded, hfirst]
    · simp [hremoved, firstRemoved]
    · simp [hadded, hfirst]

theorem collected_remove {q : QueuedProposal} {removed : LeafNodeIndex}
    (hq : q.proposal = .remove removed) (h : changes.apply c group current q = .ok changes') :
    Collected c group current changes [q] changes' := by
  have hadded : addedLeaves [q] = [] := by simp [addedLeaves, hq]
  have hremoved : removedMembers group [q] = (group.memberAt removed).toList := by
    simp only [removedMembers, removedLeaves, List.filterMap_cons, hq, List.filterMap_nil]
    cases group.memberAt removed <;> rfl
  simp only [PendingChanges.apply, hq] at h
  cases hmember : group.memberAt removed with
  | none =>
    rw [hmember, Except.ok.injEq] at h
    subst h
    refine ⟨?_, ?_, ?_, ?_⟩ <;> simp [hadded, hremoved, hmember, firstAdded, firstRemoved]
  | some leafNode =>
    simp only [hmember, bind_eq_ok, pendingInboxId_eq_ok] at h
    have ⟨inboxId, hinbox, h⟩ := h
    rw [hmember] at hremoved
    refine ⟨?_, ?_, ?_, ?_⟩
    · split at h <;> (rw [pure_eq_ok] at h; subst h; simp [hadded, firstAdded])
    · split at h
      · rename_i hnew
        rw [pure_eq_ok] at h
        subst h
        simp [hremoved, firstRemoved, firstByKey, hinbox, hnew]
      · rename_i hold
        rw [pure_eq_ok] at h
        subst h
        simp [hremoved, firstRemoved, firstByKey, hinbox, not_not.mp hold]
    · split at h <;> (rw [pure_eq_ok] at h; subst h; simp [hadded, firstAdded])
    · simp [hadded, hremoved, hinbox]

theorem collected_one {q : QueuedProposal} (h : changes.apply c group current q = .ok changes') :
    Collected c group current changes [q] changes' := by
  cases hq : q.proposal with
  | add leafNode => exact collected_add hq h
  | remove removed => exact collected_remove hq h
  | _ =>
    simp only [PendingChanges.apply, hq, Except.ok.injEq] at h
    subst h
    constructor <;>
      simp [addedLeaves, removedMembers, removedLeaves, hq, firstAdded, firstRemoved]

theorem collected_of_foldlM (queued : List QueuedProposal)
    (h : queued.foldlM (PendingChanges.apply c group current) changes = .ok changes') :
    Collected c group current changes queued changes' := by
  induction queued generalizing changes with
  | nil =>
    rw [List.foldlM_nil, pure_eq_ok] at h
    subst h
    exact .nil
  | cons q queued ih =>
    rw [List.foldlM_cons, bind_eq_ok] at h
    have ⟨changes₁, hone, hrest⟩ := h
    exact (collected_one hone).append (ih hrest)

end Changes

section Welcomes

variable {Key Version Registry : Type} (c : Committer Key Version Registry) (group : OpenMlsGroup)
  (pendingProposals : List QueuedProposal)

def PublishIntentData.welcomedIds (data : PublishIntentData) : List Bytes :=
  ((data.postCommitAction.map PostCommitAction.installations).getD []).map
    Installation.installationKey

/-- Every installation the commit adds is welcomed, and once. -/
def PublishIntentData.WelcomesEachAdded (data : PublishIntentData) : Prop :=
  ∀ leafNode ∈ addedLeaves data.stagedCommit.queuedProposals,
    data.welcomedIds.count leafNode.signatureKey = 1

/-- Every pending Add is the only one of its inbox, which is new to the membership, and its key
package makes an installation. -/
structure AddsOnePerNewInbox : Prop where
  single : ∀ leafNode ∈ addedLeaves pendingProposals, ∀ leafNode' ∈ addedLeaves pendingProposals,
    inboxIdOf c.ctx leafNode = inboxIdOf c.ctx leafNode' → leafNode = leafNode'
  fresh : ∀ current, extractGroupMembership c.ctx group.extensions = .ok current →
    ∀ leafNode ∈ addedLeaves pendingProposals, ∀ inboxId,
      inboxIdOf c.ctx leafNode = some inboxId → current.get inboxId = none
  convertible : ∀ leafNode ∈ addedLeaves pendingProposals, (installationOf c leafNode).isSome

variable {c group pendingProposals} {current : GroupMembership}

theorem installationKey_of_installationOf {leafNode : LeafNode} {installation : Installation}
    (h : installationOf c leafNode = some installation) :
    installation.installationKey = leafNode.signatureKey := by
  simp only [installationOf, Option.bind_eq_bind, Option.bind_eq_some_iff] at h
  obtain ⟨_, _, h⟩ := h
  cases hpackage : Installation.fromVerifiedKeyPackage (c.keyPackage leafNode) with
  | error error => simp [hpackage, Except.toOption] at h
  | ok made =>
    rw [hpackage, toOption_ok, Option.some.injEq] at h
    subst h
    rw [Installation.installationKey_of_eq_ok hpackage, c.keyPackage_leafNode]

theorem map_installationKey_filterMap (leaves : List LeafNode) :
    (leaves.filterMap (installationOf c)).map Installation.installationKey =
      (leaves.filter fun leafNode => (installationOf c leafNode).isSome).map
        LeafNode.signatureKey := by
  induction leaves with
  | nil => rfl
  | cons leafNode leaves ih =>
    cases h : installationOf c leafNode with
    | none => simp [h, ih]
    | some installation =>
      simp [h, ih, installationKey_of_installationOf h]

theorem firstAdded_subset {seen : List String} {added : List LeafNode} :
    firstAdded c current seen added ⊆ added := fun _ h =>
  List.mem_of_mem_filter (mem_of_mem_firstByKey h)

theorem nodup_welcomed {added : List LeafNode}
    (hkeys : ∀ leafNode ∈ added, ∀ leafNode' ∈ added,
      leafNode.signatureKey = leafNode'.signatureKey → leafNode = leafNode') :
    (((firstAdded c current [] added).filterMap (installationOf c)).map
      Installation.installationKey).Nodup := by
  rw [map_installationKey_filterMap]
  have hnodup : (firstAdded c current [] added).Nodup :=
    List.Nodup.of_map _ (nodup_map_firstByKey _ _)
  apply List.Nodup.map_on _ (hnodup.filter _)
  intro leafNode hmem leafNode' hmem'
  exact hkeys leafNode (firstAdded_subset (List.mem_of_mem_filter hmem)) leafNode'
    (firstAdded_subset (List.mem_of_mem_filter hmem'))

theorem mem_welcomed_iff {added : List LeafNode}
    (hkeys : ∀ leafNode ∈ added, ∀ leafNode' ∈ added,
      leafNode.signatureKey = leafNode'.signatureKey → leafNode = leafNode')
    {leafNode : LeafNode} (hmem : leafNode ∈ added) :
    leafNode.signatureKey ∈ ((firstAdded c current [] added).filterMap (installationOf c)).map
      Installation.installationKey ↔
      leafNode ∈ firstAdded c current [] added ∧ (installationOf c leafNode).isSome := by
  rw [map_installationKey_filterMap, List.mem_map]
  constructor
  · intro ⟨leafNode', hwelcomed, hkey⟩
    have ⟨hfirst, hsome⟩ := List.mem_filter.mp hwelcomed
    have heq := hkeys leafNode' (firstAdded_subset hfirst) leafNode hmem hkey
    exact heq ▸ ⟨hfirst, hsome⟩
  · intro h
    exact ⟨leafNode, List.mem_filter.mpr h, rfl⟩

theorem subset_firstAdded_iff {added : List LeafNode} :
    added ⊆ firstAdded c current [] added ↔
      (∀ leafNode ∈ added, ∀ leafNode' ∈ added,
        inboxIdOf c.ctx leafNode = inboxIdOf c.ctx leafNode' → leafNode = leafNode') ∧
      ∀ leafNode ∈ added, isFresh c current leafNode = true := by
  have hfilter (h : ∀ leafNode ∈ added, isFresh c current leafNode = true) :
      firstAdded c current [] added = firstByKey (inboxIdOf c.ctx) [] added := by
    rw [firstAdded, List.filter_eq_self.mpr h, List.map_nil]
  constructor
  · intro h
    have hfresh : ∀ leafNode ∈ added, isFresh c current leafNode = true := by
      intro leafNode hmem
      exact (List.mem_filter.mp (mem_of_mem_firstByKey (h hmem))).2
    rw [hfilter hfresh] at h
    exact ⟨subset_firstByKey_iff.mp h, hfresh⟩
  · intro ⟨hsingle, hfresh⟩
    rw [hfilter hfresh]
    exact subset_firstByKey_iff.mpr hsingle

theorem isFresh_iff {leafNode : LeafNode} :
    isFresh c current leafNode = true ↔
      ∀ inboxId, inboxIdOf c.ctx leafNode = some inboxId → current.get inboxId = none := by
  cases h : inboxIdOf c.ctx leafNode <;> simp [isFresh, h]

end Welcomes

end LibXmtp.Groups
