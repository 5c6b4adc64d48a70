import LibXmtp.Groups.TreeMembership

namespace LibXmtp.Groups

open LibXmtp.Data LibXmtp.Associations LibXmtp.Db LibXmtp.Mls

section Changes

variable {immutableMetadata : GroupMetadata} {old new : GroupMutableMetadata}

theorem getAddedMembers_eq_nil {xs ys : List String} :
    getAddedMembers immutableMetadata old xs ys = [] ↔ ys ⊆ xs := by
  simp [getAddedMembers, List.subset_def]

theorem getRemovedMembers_eq_nil {xs ys : List String} :
    getRemovedMembers immutableMetadata old xs ys = [] ↔ xs ⊆ ys := by
  simp [getRemovedMembers, List.subset_def]

theorem mutableMetadataFieldChanges_self (metadata : GroupMutableMetadata) :
    mutableMetadataFieldChanges metadata metadata = [] := by
  simp [mutableMetadataFieldChanges]

/-- The changes from one metadata to another. Where nothing changed, nothing was counted. -/
structure MutableMetadataValidationInfo.Describes (immutableMetadata : GroupMetadata)
    (old new : GroupMutableMetadata) (info : MutableMetadataValidationInfo) : Prop where
  fields : info.metadataFieldChanges = mutableMetadataFieldChanges old new
  adminsAdded : info.adminsAdded =
    getAddedMembers immutableMetadata old old.adminList new.adminList
  adminsRemoved : info.adminsRemoved =
    getRemovedMembers immutableMetadata old old.adminList new.adminList
  superAdminsAdded : info.superAdminsAdded =
    getAddedMembers immutableMetadata old old.superAdminList new.superAdminList
  superAdminsRemoved : info.superAdminsRemoved =
    getRemovedMembers immutableMetadata old old.superAdminList new.superAdminList
  numSuperAdmins : new = old ∨ info.numSuperAdmins = .ofNat new.superAdminList.length

end Changes

section Reads

variable {Key Version Registry : Type} {ctx : Context Key Version Registry}
  {extensions extensions' : Extensions}

theorem extractGroupMutableMetadata_eq_ok (h : extensions.isMigrated = false)
    {metadata : GroupMutableMetadata} :
    extractGroupMutableMetadata ctx extensions = .ok metadata ↔
      ∃ bytes, findMutableMetadataExtension extensions = some bytes ∧
        decodeGroupMutableMetadata ctx bytes = .ok metadata := by
  simp [extractGroupMutableMetadata, h]

theorem extractMetadataChanges_describes (h : extensions.isMigrated = false)
    {immutableMetadata : GroupMetadata} {old : GroupMutableMetadata}
    (hold : extractGroupMutableMetadata ctx extensions = .ok old)
    {info : MutableMetadataValidationInfo}
    (hinfo : extractMetadataChanges ctx immutableMetadata old extensions extensions' = .ok info) :
    ∃ bytes new, findMutableMetadataExtension extensions' = some bytes ∧
      decodeGroupMutableMetadata ctx bytes = .ok new ∧
      info.Describes immutableMetadata old new := by
  obtain ⟨bytes, hbytes, hdecode⟩ := (extractGroupMutableMetadata_eq_ok h).mp hold
  simp only [extractMetadataChanges, bind_eq_ok, okOr_eq_ok] at hinfo
  obtain ⟨oldExt, hOld, newExt, hNew, hinfo⟩ := hinfo
  cases hbytes.symm.trans hOld
  by_cases heq : bytes = newExt
  · subst heq
    simp only [if_true, pure_eq_ok] at hinfo
    subst hinfo
    refine ⟨bytes, old, hNew, hdecode, ?_⟩
    exact {
      fields := (mutableMetadataFieldChanges_self old).symm
      adminsAdded := (getAddedMembers_eq_nil.mpr (List.Subset.refl _)).symm
      adminsRemoved := (getRemovedMembers_eq_nil.mpr (List.Subset.refl _)).symm
      superAdminsAdded := (getAddedMembers_eq_nil.mpr (List.Subset.refl _)).symm
      superAdminsRemoved := (getRemovedMembers_eq_nil.mpr (List.Subset.refl _)).symm
      numSuperAdmins := .inl rfl }
  · simp only [if_neg heq, bind_eq_ok, pure_eq_ok] at hinfo
    obtain ⟨new, hnew, hinfo⟩ := hinfo
    subst hinfo
    exact ⟨newExt, new, hNew, hnew, rfl, rfl, rfl, rfl, rfl, .inr rfl⟩

theorem extractPermissionsChanged_eq_ok (h : extensions'.isMigrated = false)
    {old : GroupMutablePermissions} {changed : Bool} :
    extractPermissionsChanged ctx old extensions' = .ok changed ↔
      ∃ new, extractGroupPermissions ctx extensions' = .ok new ∧
        (!old.policies.eq new.policies) = changed := by
  simp [extractPermissionsChanged, extractGroupPermissions, h]

theorem extractGroupMembership_congr (h : extensions.isMigrated = false)
    (h' : extensions'.isMigrated = false)
    (hfind : extensions.findUnknownExtension groupMembershipExtensionId =
      extensions'.findUnknownExtension groupMembershipExtensionId) :
    extractGroupMembership ctx extensions = extractGroupMembership ctx extensions' := by
  simp [extractGroupMembership, h, h', hfind]

end Reads

/-- A proposal that replaces the extensions gives those of the next group. The dictionary is not
replaced along with them: it stays, unless other proposals update it. -/
structure StagedCommit.Resolved (commit : StagedCommit) (existingExtensions : Extensions) :
    Prop where
  replaced : ∀ queued ∈ commit.queuedProposals, ∀ extensions,
    queued.proposal = .groupContextExtensions extensions → ∀ extensionType,
      extensions.findUnknownExtension extensionType =
        commit.groupContextExtensions.findUnknownExtension extensionType
  dictionary : ∀ queued ∈ commit.queuedProposals, ∀ extensions,
    queued.proposal = .groupContextExtensions extensions →
      extensions.appDataDictionary = commit.groupContextExtensions.appDataDictionary ∨
        extensions.appDataDictionary = existingExtensions.appDataDictionary

structure Roles where
  metadata : GroupMutableMetadata
  permissions : GroupMutablePermissions
  membership : GroupMembership

/-- The roles, the policies and the members that are read from the extensions of a group. -/
structure Roles.Reads {Key Version Registry : Type} (ctx : Context Key Version Registry)
    (extensions : Extensions) (roles : Roles) : Prop where
  metadata : extractGroupMutableMetadata ctx extensions = .ok roles.metadata
  permissions : extractGroupPermissions ctx extensions = .ok roles.permissions
  membership : extractGroupMembership ctx extensions = .ok roles.membership

structure Roles.Authorizes (committer : CommitParticipant) (roles roles' : Roles) : Prop where
  superAdmins : roles.metadata.isSuperAdmin committer.inboxId = true ∨
    ∀ inboxId, inboxId ∈ roles'.metadata.superAdminList ↔ inboxId ∈ roles.metadata.superAdminList
  policies : roles.metadata.isSuperAdmin committer.inboxId = true ∨
    roles.permissions.policies.Equiv roles'.permissions.policies
  addedAdmins : roles.permissions.policies.addAdminPolicy.evaluate committer = true ∨
    roles'.metadata.adminList ⊆ roles.metadata.adminList
  removedAdmins : roles.permissions.policies.removeAdminPolicy.evaluate committer = true ∨
    roles.metadata.adminList ⊆ roles'.metadata.adminList
  superAdminsStay : ∀ inboxId ∈ roles.metadata.superAdminList,
    (roles.membership.get inboxId).isSome → (roles'.membership.get inboxId).isSome

section Step

variable {Key Version Registry : Type} {ctx : Context Key Version Registry} {order : IterOrder}
  {commit : StagedCommit} {committerLeafIndex : LeafNodeIndex} {group : OpenMlsGroup}
  {db : Database} {reads : CommitReads Registry} {validated : ValidatedCommit}

theorem CommitParticipant.isSuperAdmin_of_extract {immutableMetadata : GroupMetadata}
    {mutableMetadata : GroupMutableMetadata} {participant : CommitParticipant}
    (h : extractCommitParticipant ctx group immutableMetadata mutableMetadata committerLeafIndex =
      .ok participant) :
    participant.isSuperAdmin = mutableMetadata.isSuperAdmin participant.inboxId := by
  simp only [extractCommitParticipant, CommitParticipant.fromLeafNode, bind_eq_ok, pure_eq_ok] at h
  obtain ⟨_, _, inboxId, _, hparticipant⟩ := h
  subst hparticipant
  rfl

theorem isSuperAdmin_of_attributeInboxes {immutableMetadata : GroupMetadata}
    {mutableMetadata : GroupMutableMetadata} {proposalsEnabled : Bool}
    {gceProposer : Option CommitParticipant} {inboxProposers : HashMap String CommitParticipant}
    {inboxIds : List String} {inboxes : List Inbox}
    (h : attributeInboxes immutableMetadata mutableMetadata proposalsEnabled gceProposer
      inboxProposers inboxIds = .ok inboxes) {inboxId : String} (hmem : inboxId ∈ inboxIds) :
    ∃ inbox ∈ inboxes, inbox.isSuperAdmin = mutableMetadata.isSuperAdmin inboxId := by
  have ⟨inbox, hinbox, heq⟩ := exists_of_mapM_mem h hmem
  refine ⟨inbox, hinbox, ?_⟩
  split at heq
  · cases heq
    rfl
  · split at heq
    · cases heq
    · cases heq
      rfl

theorem getLatestGroupMembership_eq (hresolved : commit.Resolved group.extensions)
    (hold : group.extensions.isMigrated = false)
    (hnew : commit.groupContextExtensions.isMigrated = false) :
    getLatestGroupMembership ctx commit =
      extractGroupMembership ctx commit.groupContextExtensions := by
  unfold getLatestGroupMembership
  generalize hproposed : commit.queuedProposals.findSome? _ = proposed
  cases proposed with
  | none => rfl
  | some extensions =>
    have ⟨queued, hmem, hqueued⟩ := List.exists_of_findSome?_eq_some hproposed
    have hproposal : queued.proposal = .groupContextExtensions extensions := by
      split at hqueued
      · cases hqueued
        assumption
      · cases hqueued
    apply extractGroupMembership_congr _ hnew (hresolved.replaced queued hmem _ hproposal _)
    cases hresolved.dictionary queued hmem _ hproposal with
    | inl hdictionary => simpa [Extensions.isMigrated, hdictionary] using hnew
    | inr hdictionary => simpa [Extensions.isMigrated, hdictionary] using hold

theorem mem_removedInboxes {m new : GroupMembership} {inboxId : String}
    (hm : (m.get inboxId).isSome) (hnew : (new.get inboxId).isSome = false) :
    inboxId ∈ (m.diff new).removedInboxes := by
  simp only [GroupMembership.diff, List.mem_filter, HashMap.mem_keys]
  refine ⟨?_, by simpa using hnew⟩
  rw [HashMap.containsKey_eq_isSome_get]
  exact hm

section Permits

variable {policies : PolicySet} {immutableMetadata : GroupMetadata} {old new : GroupMutableMetadata}
  (hpermits : policies.Permits validated)
  (hdescribes : validated.metadataValidationInfo.Describes immutableMetadata old new)

include hpermits hdescribes

theorem superAdminList_ne_nil (hold : old.superAdminList ≠ []) : new.superAdminList ≠ [] := by
  intro hnew
  cases hpermits.removedSuperAdmins with
  | inl hnone =>
    rw [hdescribes.superAdminsRemoved, getRemovedMembers_eq_nil, hnew] at hnone
    exact hold (List.subset_nil.mp hnone)
  | inr hsome =>
    cases hdescribes.numSuperAdmins with
    | inl heq => exact hold (heq ▸ hnew)
    | inr hcount =>
      have hpositive := hsome.2
      rw [hcount, hnew] at hpositive
      exact absurd hpositive (by decide)

theorem superAdmins_kept (hactor : validated.actor.isSuperAdmin = false) (inboxId : String) :
    inboxId ∈ new.superAdminList ↔ inboxId ∈ old.superAdminList := by
  have hadded := hpermits.addedSuperAdmins
  have hremoved := hpermits.removedSuperAdmins
  simp only [hactor, Bool.false_eq_true, false_and, or_false, hdescribes.superAdminsAdded,
    hdescribes.superAdminsRemoved, getAddedMembers_eq_nil, getRemovedMembers_eq_nil]
    at hadded hremoved
  exact ⟨fun h => hadded h, fun h => hremoved h⟩

end Permits

section Accept

variable (haccept : reads.Accept ctx order commit committerLeafIndex group db validated)

include haccept

theorem CommitReads.Accept.permits : reads.groupPermissions.policies.Permits validated :=
  PolicySet.evaluateCommit_iff.mp haccept.policies

theorem CommitReads.Accept.committer :
    extractCommitParticipant ctx group reads.immutableMetadata reads.mutableMetadata
      committerLeafIndex = .ok validated.actor := by
  have hparticipants := haccept.participants
  simp only [extractCommitterAndProposers, bind_eq_ok, pure_eq_ok, Prod.mk.injEq] at hparticipants
  obtain ⟨_, _, _, _, _, hcommitter, heq, _⟩ := hparticipants
  rw [← heq]
  exact hcommitter

theorem CommitReads.Accept.describes (hold : group.extensions.isMigrated = false) :
    ∃ bytes new, findMutableMetadataExtension commit.groupContextExtensions = some bytes ∧
      decodeGroupMutableMetadata ctx bytes = .ok new ∧
      validated.metadataValidationInfo.Describes reads.immutableMetadata reads.mutableMetadata
        new := by
  have hmetadata := haccept.metadata
  simp only [metadataValidation, hold, Bool.false_eq_true, if_false, bind_eq_ok, pure_eq_ok,
    Prod.mk.injEq] at hmetadata
  obtain ⟨_, hinfo, heq, _⟩ := hmetadata
  subst heq
  exact extractMetadataChanges_describes hold haccept.mutableMetadata hinfo

theorem CommitReads.Accept.superAdminsStay
    (hattributes : reads.expected.Attributes ctx group reads.changes reads.immutableMetadata
      reads.mutableMetadata) {inboxId : String}
    (hinbox : inboxId ∈ reads.mutableMetadata.superAdminList)
    (hmember : (reads.expected.oldGroupMembership.get inboxId).isSome) :
    (reads.expected.newGroupMembership.get inboxId).isSome := by
  by_contra hgone
  have hremoved := mem_removedInboxes hmember (by simpa using hgone)
  have ⟨inbox, hmem, hrole⟩ :=
    isSuperAdmin_of_attributeInboxes hattributes.removedInboxes hremoved
  have hnotSuper := haccept.permits.noSuperAdminRemoved inbox (haccept.removedInboxes ▸ hmem)
  rw [hrole] at hnotSuper
  simp [GroupMutableMetadata.isSuperAdmin, hinbox] at hnotSuper

theorem CommitReads.Accept.authorizes
    (hattributes : reads.expected.Attributes ctx group reads.changes reads.immutableMetadata
      reads.mutableMetadata)
    (hresolved : commit.Resolved group.extensions) (hold : group.extensions.isMigrated = false)
    (hnew : commit.groupContextExtensions.isMigrated = false) :
    ∃ roles roles' : Roles, roles.Reads ctx group.extensions ∧
      roles'.Reads ctx commit.groupContextExtensions ∧
      (roles.metadata.superAdminList ≠ [] → roles'.metadata.superAdminList ≠ []) ∧
      roles.Authorizes validated.actor roles' ∧
      extractCommitParticipant ctx group reads.immutableMetadata roles.metadata
        committerLeafIndex = .ok validated.actor := by
  have hpermits := haccept.permits
  have ⟨bytes, metadata', hbytes, hdecode, hdescribes⟩ := haccept.describes hold
  have hmetadata' := (extractGroupMutableMetadata_eq_ok hnew).mpr ⟨bytes, hbytes, hdecode⟩
  have ⟨permissions', hpermissions', hchanged⟩ :=
    (extractPermissionsChanged_eq_ok hnew).mp (haccept.permissionsChanged hold)
  have hmembership' := haccept.expected.new
  rw [getLatestGroupMembership_eq hresolved hold hnew] at hmembership'
  have hsuper := CommitParticipant.isSuperAdmin_of_extract haccept.committer
  refine ⟨⟨reads.mutableMetadata, reads.groupPermissions, reads.expected.oldGroupMembership⟩,
    ⟨metadata', permissions', reads.expected.newGroupMembership⟩,
    ⟨haccept.mutableMetadata, haccept.groupPermissions, haccept.expected.old⟩,
    ⟨hmetadata', hpermissions', hmembership'⟩, superAdminList_ne_nil hpermits hdescribes, ?_,
    haccept.committer⟩
  constructor
  case superAdmins =>
    rw [← hsuper]
    cases hrole : validated.actor.isSuperAdmin with
    | true => exact .inl rfl
    | false => exact .inr (superAdmins_kept hpermits hdescribes hrole)
  case policies =>
    rw [← hsuper]
    cases hpermits.permissions with
    | inl hsame =>
      rw [hsame, Bool.not_eq_false'] at hchanged
      exact .inr (PolicySet.equiv_of_eq hchanged)
    | inr hrole => exact .inl hrole
  case addedAdmins =>
    rw [or_comm, ← getAddedMembers_eq_nil, ← hdescribes.adminsAdded]
    exact hpermits.addedAdmins
  case removedAdmins =>
    rw [or_comm, ← getRemovedMembers_eq_nil, ← hdescribes.adminsRemoved]
    exact hpermits.removedAdmins
  case superAdminsStay =>
    intro inboxId hinbox hmember
    exact haccept.superAdminsStay hattributes hinbox hmember

end Accept

end Step

/-- A commit as a member receives it, with what it knows of the identity updates by then. -/
structure ReceivedCommit where
  commit : StagedCommit
  committerLeafIndex : LeafNodeIndex
  api : ApiClient
  order : IterOrder
  database : Database

section Runs

variable {Key Version Registry : Type} (ctx : Context Key Version Registry)

/-- A group that is not migrated accepts a commit other than its bootstrap commit, and merges it. -/
structure Accepts (group : OpenMlsGroup) (received : ReceivedCommit) (group' : OpenMlsGroup) :
    Prop where
  unmigrated : group.extensions.isMigrated = false
  steady : isBootstrapCommit received.commit group.extensions = false
  accepted : ∃ validated db', (ValidatedCommit.fromStagedCommit { ctx with api := received.api }
    received.order received.commit received.committerLeafIndex group).outcome received.database =
      (.ok validated, db')
  resolved : received.commit.Resolved group.extensions
  merged : group'.extensions = received.commit.groupContextExtensions
  unmigrated' : group'.extensions.isMigrated = false

/-- The committer changes no more of the roles than its own role before the commit allows. -/
def AuthorizedStep (group : OpenMlsGroup) (received : ReceivedCommit) (group' : OpenMlsGroup) :
    Prop :=
  ∃ roles roles' immutableMetadata committer, Roles.Reads ctx group.extensions roles ∧
    Roles.Reads ctx group'.extensions roles' ∧
    extractGroupMetadata ctx group.extensions = .ok immutableMetadata ∧
    extractCommitParticipant ctx group immutableMetadata roles.metadata
      received.committerLeafIndex = .ok committer ∧
    roles.metadata.superAdminList ≠ [] ∧ roles'.metadata.superAdminList ≠ [] ∧
    roles.Authorizes committer roles'

def HasSuperAdmin (group : OpenMlsGroup) : Prop :=
  ∃ metadata, extractGroupMutableMetadata ctx group.extensions = .ok metadata ∧
    metadata.superAdminList ≠ []

variable {ctx}

theorem Accepts.authorized {group group' : OpenMlsGroup} {received : ReceivedCommit}
    (h : Accepts ctx group received group') (hgroup : HasSuperAdmin ctx group) :
    AuthorizedStep ctx group received group' ∧ HasSuperAdmin ctx group' := by
  have ⟨validated, db', hvalidated⟩ := h.accepted
  have ⟨reads, haccept, hattributes, _⟩ :=
    ValidatedCommit.accept_and_attributes_of_eq_ok hvalidated h.steady
  have ⟨roles, roles', hroles, hroles', hkept, hauthorizes, hcommitter⟩ :=
    haccept.authorizes hattributes h.resolved h.unmigrated (h.merged ▸ h.unmigrated')
  rw [← h.merged] at hroles'
  have ⟨metadata, hmetadata, hne⟩ := hgroup
  have heq : roles.metadata = metadata := Except.ok.inj (hroles.metadata.symm.trans hmetadata)
  have hlast := hkept (heq ▸ hne)
  refine ⟨?_, roles'.metadata, hroles'.metadata, hlast⟩
  exact ⟨roles, roles', reads.immutableMetadata, validated.actor,
    ⟨hroles.metadata, hroles.permissions, hroles.membership⟩,
    ⟨hroles'.metadata, hroles'.permissions, hroles'.membership⟩, haccept.immutableMetadata,
    hcommitter, heq ▸ hne, hlast, hauthorizes⟩

/-- A run from a group with a super admin: every commit of it is authorized, and leaves one. -/
theorem roles_authorized {start group : OpenMlsGroup} {received : List ReceivedCommit}
    (hruns : Runs (Accepts ctx) start received group) (hstart : HasSuperAdmin ctx start) :
    Runs (AuthorizedStep ctx) start received group ∧ HasSuperAdmin ctx group :=
  hruns.refines hstart fun _ _ _ hgroup haccepts => haccepts.authorized hgroup

end Runs

/-! Super admins that promote, demote and remove each other, and an admin that lists one twice. -/

namespace Sample

open Mls.Sample Associations.Sample

noncomputable def receiveFrom (committerLeafIndex : LeafNodeIndex) (commit : StagedCommit) :
    ReceivedCommit :=
  ⟨commit, committerLeafIndex, api, order, database⟩

noncomputable def receive : StagedCommit → ReceivedCommit := receiveFrom 0

def merge (commit : StagedCommit) : OpenMlsGroup :=
  { group with extensions := commit.groupContextExtensions }

def withMetadata (metadata : Bytes) : Extensions :=
  [.immutableMetadata [3], .unknown mutableMetadataExtensionId metadata,
    .unknown groupPermissionsExtensionId [5], .unknown groupMembershipExtensionId [6]]

def contextWith (metadata : Proto.GroupMutableMetadataV1) : Context Bytes (List Nat) Unit :=
  { context with codec := { groupCodec with
      decodeGroupMutableMetadata := fun bytes =>
        if bytes = [9] then some metadata else groupCodec.decodeGroupMutableMetadata bytes } }

def relisting : StagedCommit where
  queuedProposals := [⟨.groupContextExtensions (withMetadata [9]), .member 0⟩]
  groupContextExtensions := withMetadata [9]

def relistingContext : Context Bytes (List Nat) Unit :=
  contextWith ⟨.empty, some ⟨[inboxId]⟩, some ⟨[creatorInboxId, creatorInboxId]⟩⟩

/-- The context where the bytes `[9]`, `[10]` and `[11]` decode to three lists of super admins, and
`[9]` also to the membership without the first one. -/
def elections : Context Bytes (List Nat) Unit :=
  { context with codec := { groupCodec with
      decodeGroupMutableMetadata := fun bytes =>
        if bytes = [9] then some ⟨.empty, some ⟨[]⟩, some ⟨[inboxId]⟩⟩
        else if bytes = [10] then some ⟨.empty, some ⟨[]⟩, some ⟨[inboxId, otherInboxId]⟩⟩
        else if bytes = [11] then some ⟨.empty, some ⟨[]⟩, some ⟨[otherInboxId]⟩⟩
        else none
      decodeGroupMembership := fun bytes =>
        if bytes = [9] then
          some (membershipProto ⟨.ofList [(creatorInboxId, 4), (otherInboxId, 3)], []⟩)
        else groupCodec.decodeGroupMembership bytes } }

def electing (metadata membership : UInt8) : Extensions :=
  [.immutableMetadata [3], .unknown mutableMetadataExtensionId [metadata],
    .unknown groupPermissionsExtensionId [5], .unknown groupMembershipExtensionId [membership]]

def electorate : OpenMlsGroup :=
  { group with extensions := electing 9 6 }

def election (metadata membership : UInt8) (committer : LeafNodeIndex) (rest : List Proposal) :
    StagedCommit where
  queuedProposals := ⟨.groupContextExtensions (electing metadata membership), .member committer⟩ ::
    rest.map (⟨·, .member committer⟩)
  groupContextExtensions := electing metadata membership

def promotion : StagedCommit := election 10 6 0 []

def demotion : StagedCommit := election 11 6 1 []

def farewell : StagedCommit := election 11 9 1 [.remove 0]

theorem accepts_of_check {context : Context Bytes (List Nat) Unit} {commit : StagedCommit}
    {group : OpenMlsGroup} {extensions : Extensions} (committer : LeafNodeIndex)
    (rest : List Proposal)
    (hproposals : commit.queuedProposals =
      ⟨.groupContextExtensions extensions, .member committer⟩ :: rest.map (⟨·, .member committer⟩))
    (hrest : ∀ proposal ∈ rest, ∀ extensions, proposal ≠ .groupContextExtensions extensions)
    (hextensions : commit.groupContextExtensions = extensions)
    (hgroup : group.extensions.isMigrated = false)
    (hsteady : isBootstrapCommit commit group.extensions = false)
    (hunmigrated : extensions.isMigrated = false)
    (h : ((ValidatedCommit.fromStagedCommit { context with api := api } order commit committer
      group).outcome database).1.toOption.any (fun _ => true) = true) :
    Accepts context group (receiveFrom committer commit) (merge commit) := by
  have hgce : ∀ queued ∈ commit.queuedProposals, ∀ extensions',
      queued.proposal = .groupContextExtensions extensions' → extensions' = extensions := by
    rw [hproposals]
    intro queued hqueued extensions' hproposal
    cases List.mem_cons.mp hqueued with
    | inl hfirst =>
      subst hfirst
      cases hproposal
      rfl
    | inr hlater =>
      have ⟨proposal, hmem, heq⟩ := List.mem_map.mp hlater
      subst heq
      exact absurd hproposal (hrest proposal hmem extensions')
  obtain ⟨validated, hvalidated, _⟩ := exists_of_any h
  refine ⟨hgroup, hsteady, ⟨validated, _, Prod.ext hvalidated rfl⟩, ⟨?_, ?_⟩, rfl, ?_⟩
  · intro queued hqueued extensions' hproposal extensionType
    rw [hgce queued hqueued extensions' hproposal]
    exact hextensions ▸ rfl
  · intro queued hqueued extensions' hproposal
    rw [hgce queued hqueued extensions' hproposal]
    exact .inl (hextensions ▸ rfl)
  · show commit.groupContextExtensions.isMigrated = false
    rw [hextensions, hunmigrated]

end Sample

open Sample

theorem roles_authorized_elections :
    Runs (AuthorizedStep elections) electorate
        [receiveFrom 0 promotion, receiveFrom 1 demotion, receiveFrom 1 farewell]
        (merge farewell) ∧
      HasSuperAdmin elections (merge farewell) := by
  have hpromotes : Accepts elections electorate (receiveFrom 0 promotion) (merge promotion) :=
    accepts_of_check 0 [] rfl (by simp) rfl rfl rfl rfl (by decide +kernel)
  have hdemotes : Accepts elections (merge promotion) (receiveFrom 1 demotion) (merge demotion) :=
    accepts_of_check 1 [] rfl (by simp) rfl rfl rfl rfl (by decide +kernel)
  have hremoves : Accepts elections (merge demotion) (receiveFrom 1 farewell) (merge farewell) :=
    accepts_of_check 1 [.remove 0] rfl (by simp) rfl rfl rfl rfl (by decide +kernel)
  exact roles_authorized (.cons hpromotes (.cons hdemotes (.cons hremoves .nil))) ⟨_, rfl, by simp⟩

/-- An admin who is no super admin lists the super admin twice: no inbox is added to the list or
removed from it, and the list is another one. -/
theorem superAdminList_relisted :
    Accepts relistingContext group (receive relisting) (merge relisting) ∧
      ∃ metadata metadata' immutableMetadata committer,
        extractGroupMutableMetadata relistingContext group.extensions = .ok metadata ∧
        extractGroupMutableMetadata relistingContext (merge relisting).extensions = .ok metadata' ∧
        metadata.superAdminList ≠ [] ∧
        extractGroupMetadata relistingContext group.extensions = .ok immutableMetadata ∧
        extractCommitParticipant relistingContext group immutableMetadata metadata
          (receive relisting).committerLeafIndex = .ok committer ∧
        metadata.isSuperAdmin committer.inboxId = false ∧
        metadata'.superAdminList ≠ metadata.superAdminList := by
  refine ⟨accepts_of_check 0 [] rfl (by simp) rfl rfl rfl rfl (by decide +kernel), ?_⟩
  exact ⟨_, _, _, _, rfl, rfl, by simp, rfl, rfl, by decide, by simp⟩

end LibXmtp.Groups
