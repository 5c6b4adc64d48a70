import LibXmtp.Groups.AcceptedCommit
import LibXmtp.Mls.DueInstallations

namespace LibXmtp.Groups

open LibXmtp.Data LibXmtp.Associations LibXmtp.Db LibXmtp.Mls

/-- A commit keeps the installations in the tree in step with the expected diff: what it adds is
expected or was there, what it removes is expected, and what is due to be removed is removed, and
does not come back. -/
structure InStep (expected : InstallationDiff) (tree added removed : Finset Bytes) : Prop where
  added_known : added ⊆ expected.addedInstallations ∪ tree
  removed_expected : removed ⊆ expected.removedInstallations
  due_removed : ∀ i ∈ expected.removedInstallations, i ∈ tree → i ∈ removed
  due_gone : ∀ i ∈ expected.removedInstallations, i ∈ tree → i ∉ (tree \ removed) ∪ added

theorem expectedDiffMatchesCommit_eq_ok {expected : InstallationDiff}
    {changes : InstallationChanges} {tree : Finset Bytes} {x : Unit} :
    expectedDiffMatchesCommit expected changes tree = .ok x ↔
      changes.added ⊆ expected.addedInstallations ∪ tree ∧
        changes.removed = expected.removedInstallations \ changes.failed := by
  simp [expectedDiffMatchesCommit, Finset.sdiff_eq_empty_iff_subset]

theorem extractReaddedInstallations_of_not_superAdmin {actor : CommitParticipant}
    (h : actor.isSuperAdmin = false) (changes : InstallationChanges) :
    extractReaddedInstallations actor changes = (∅, changes) := by
  simp [extractReaddedInstallations, h]

theorem inStep_iff_of_matched {expected : InstallationDiff} {changes : InstallationChanges}
    {tree : Finset Bytes} (h : expectedDiffMatchesCommit expected changes tree = .ok ()) :
    InStep expected tree changes.added changes.removed ↔
      ∀ i ∈ expected.removedInstallations, i ∈ tree → i ∉ changes.failed ∧ i ∉ changes.added := by
  obtain ⟨hadded, hremoved⟩ := expectedDiffMatchesCommit_eq_ok.mp h
  rw [hremoved]
  constructor
  · intro hstep i hi htree
    constructor
    · exact (Finset.mem_sdiff.mp (hstep.due_removed i hi htree)).2
    · intro hi'
      exact hstep.due_gone i hi htree (Finset.mem_union_right _ hi')
  · intro hdue
    have hremove : ∀ i ∈ expected.removedInstallations, i ∈ tree →
        i ∈ expected.removedInstallations \ changes.failed := fun i hi htree =>
      Finset.mem_sdiff.mpr ⟨hi, (hdue i hi htree).1⟩
    refine ⟨hadded, Finset.sdiff_subset, hremove, ?_⟩
    intro i hi htree hi'
    rcases Finset.mem_union.mp hi' with hrest | hback
    · exact (Finset.mem_sdiff.mp hrest).2 (hremove i hi htree)
    · exact (hdue i hi htree).2 hback

section

variable {Key Version Registry : Type} {ctx : Context Key Version Registry} {order : IterOrder}
  {commit : StagedCommit} {committerLeafIndex : LeafNodeIndex} {group : OpenMlsGroup}
  {db db' : Db.Database}

/-- What is due to be removed covers the installations of removed inboxes and those revoked from
updated inboxes. The tree stays in step with it exactly when no installation of the tree that is due
is listed as failed, or added again. -/
theorem inStep_iff {validated : ValidatedCommit}
    (h : (ValidatedCommit.fromStagedCommit ctx order commit committerLeafIndex group).outcome db =
      (.ok validated, db'))
    (hsteady : isBootstrapCommit commit group.extensions = false)
    (hactor : validated.actor.isSuperAdmin = false) :
    ∃ reads : CommitReads Registry,
      reads.Accept ctx order commit committerLeafIndex group db validated ∧
      (Consistent ctx.env db.identityUpdates db →
        Covers ctx.env reads.database.identityUpdates reads.expected.oldGroupMembership
          reads.expected.newGroupMembership reads.expected.expectedInstallationDiff) ∧
      (InStep reads.expected.expectedInstallationDiff group.installations
          reads.changes.addedInstallations reads.changes.removedInstallations ↔
        ∀ i ∈ reads.expected.expectedInstallationDiff.removedInstallations,
          i ∈ group.installations →
            i ∉ reads.expected.newGroupMembership.failedInstallations ∧
              i ∉ reads.changes.addedInstallations) := by
  obtain ⟨reads, haccept⟩ := ValidatedCommit.accept_of_eq_ok h hsteady
  refine ⟨reads, haccept, ?_, ?_⟩
  · intro hdb
    exact (getInstallationDiff_covers hdb haccept.expected.diff).2
  · have hmatched := haccept.matched
    rw [extractReaddedInstallations_of_not_superAdmin hactor] at hmatched
    simpa [CommitReads.installationChanges] using inStep_iff_of_matched hmatched

end

/-! A group of three inboxes, and two commits of its admin that drop one of them. -/

namespace Sample

open Mls.Sample Associations.Sample

def creatorInboxId : String := "0e2928b6d7cf29cacd3b83588629639f43b46eb7b1bb14e738057c68e8d3450e"

def oldMembership : GroupMembership :=
  ⟨.ofList [(creatorInboxId, 4), (inboxId, 2), (otherInboxId, 3)], []⟩

def newMembership (failedInstallations : List Bytes) : GroupMembership :=
  ⟨.ofList [(creatorInboxId, 4), (inboxId, 2)], failedInstallations⟩

def membershipProto (membership : GroupMembership) : Proto.GroupMembership :=
  ⟨membership.members, membership.failedInstallations⟩

def permissions : Proto.PolicySet :=
  ⟨some (.base 1), some (.base 3), .empty, some (.base 3), some (.base 3), some (.base 3)⟩

def groupCodec : GroupCodec where
  decodeInboxId bytes :=
    if bytes = [1] then some inboxId
    else if bytes = [2] then some otherInboxId
    else if bytes = [3] then some creatorInboxId
    else none
  decodeGroupMetadata bytes := if bytes = [3] then some ⟨1, creatorInboxId, none⟩ else none
  decodeGroupMutableMetadata bytes :=
    if bytes = [4] then some ⟨.empty, some ⟨[inboxId]⟩, some ⟨[creatorInboxId]⟩⟩ else none
  decodeGroupMutablePermissions bytes := if bytes = [5] then some ⟨some permissions⟩ else none
  decodeGroupMembership bytes :=
    if bytes = [6] then some (membershipProto oldMembership)
    else if bytes = [7] then some (membershipProto (newMembership []))
    else if bytes = [8] then some (membershipProto (newMembership [[8]]))
    else none

def extensions (membership : UInt8) : Extensions :=
  [.immutableMetadata [3], .unknown mutableMetadataExtensionId [4],
    .unknown groupPermissionsExtensionId [5], .unknown groupMembershipExtensionId [membership]]

def appData : AppData Unit where
  loadComponentRegistry _ := .error .missingExtension
  readGroupMetadataFromDict _ := .ok none
  mergeAppDataIntoMutableMetadata metadata _ := .ok metadata
  readGroupMembershipFromDict _ := .ok none
  membershipPolicySetFromRegistry _ := .error .missingExtension
  readPostCommitComponentBytes _ _ _ _ := .ok none
  validateOneAppDataUpdate _ _ _ _ _ := .error .insufficientPermissions
  validateBootstrapCommit _ _ _ := .error .insufficientPermissions

def api : ApiClient := ⟨fun _ => none, nofun⟩

def context : Context Bytes (List Nat) Unit where
  env := env
  api := api
  codec := groupCodec
  semver := ⟨fun text => (text.splitOn ".").mapM String.toNat?, fun v w => decide (v < w)⟩
  pkgSemver := [1, 0, 0]
  appData := appData

def group : OpenMlsGroup where
  groupId := List.replicate 16 0
  extensions := extensions 6
  members := [⟨0, ⟨.basic [1], [7]⟩⟩, ⟨1, ⟨.basic [2], [8]⟩⟩, ⟨2, ⟨.basic [3], [9]⟩⟩]
  distinct := by decide

def database : Db.Database := ⟨⟨[row 2, row 1, ⟨otherInboxId, 3, [3]⟩], by decide⟩, .empty⟩

def removal : StagedCommit where
  queuedProposals :=
    [⟨.groupContextExtensions (extensions 7), .member 0⟩, ⟨.remove 1, .member 0⟩]
  groupContextExtensions := extensions 7

def excused : StagedCommit where
  queuedProposals := [⟨.groupContextExtensions (extensions 8), .member 0⟩]
  groupContextExtensions := extensions 8

theorem validated_of_check (commit : StagedCommit)
    (h : ((ValidatedCommit.fromStagedCommit context order commit 0 group).outcome
      database).1.toOption.any (fun validated => !validated.actor.isSuperAdmin) = true) :
    ∃ validated db', (ValidatedCommit.fromStagedCommit context order commit 0 group).outcome
      database = (.ok validated, db') ∧ validated.actor.isSuperAdmin = false := by
  obtain ⟨validated, hvalidated, hactor⟩ := exists_of_any h
  exact ⟨validated, _, Prod.ext hvalidated rfl, by simpa using hactor⟩

theorem due_of_excused :
    ((getInstallationDiff env api order oldMembership (newMembership [[8]])
      (oldMembership.diff (newMembership [[8]]))).outcome database).1.toOption.any
        (fun expected => decide ([8] ∈ expected.removedInstallations)) = true := by
  decide +kernel

end Sample

open Sample Mls.Sample

theorem inStep_iff_removal :
    ∃ validated db', (ValidatedCommit.fromStagedCommit context order removal 0 group).outcome
        database = (.ok validated, db') ∧
      ∃ reads : CommitReads Unit, reads.Accept context order removal 0 group database validated ∧
        Covers env reads.database.identityUpdates reads.expected.oldGroupMembership
          reads.expected.newGroupMembership reads.expected.expectedInstallationDiff ∧
        InStep reads.expected.expectedInstallationDiff group.installations
          reads.changes.addedInstallations reads.changes.removedInstallations := by
  obtain ⟨validated, db', h, hactor⟩ := validated_of_check removal (by decide +kernel)
  obtain ⟨reads, haccept, hcovers, hiff⟩ := inStep_iff h (by decide) hactor
  refine ⟨validated, db', h, reads, haccept, hcovers ⟨rfl, nofun⟩, hiff.mpr ?_⟩
  intro i _ _
  have hnew : getLatestGroupMembership context removal = .ok (newMembership []) := rfl
  have hchanges : getProposalChanges context group reads.immutableMetadata reads.mutableMetadata
      removal = .ok ⟨∅, {[8]}, [], .empty, .ofList [(otherInboxId, .build inboxId [7]
        reads.immutableMetadata reads.mutableMetadata)], some (.build inboxId [7]
          reads.immutableMetadata reads.mutableMetadata)⟩ := rfl
  rw [← Except.ok.inj (hnew.symm.trans haccept.expected.new),
    ← Except.ok.inj (hchanges.symm.trans haccept.changes)]
  exact ⟨List.not_mem_nil, Finset.notMem_empty i⟩

/-- The other installation stays in the tree without its inbox: the admin lists it as failed. -/
theorem inStep_fails :
    ∃ validated db', (ValidatedCommit.fromStagedCommit context order excused 0 group).outcome
        database = (.ok validated, db') ∧
      isBootstrapCommit excused group.extensions = false ∧ validated.actor.isSuperAdmin = false ∧
      ∃ reads : CommitReads Unit, reads.Accept context order excused 0 group database validated ∧
        ¬InStep reads.expected.expectedInstallationDiff group.installations
          reads.changes.addedInstallations reads.changes.removedInstallations := by
  obtain ⟨validated, db', h, hactor⟩ := validated_of_check excused (by decide +kernel)
  obtain ⟨reads, haccept⟩ := ValidatedCommit.accept_of_eq_ok h (by decide)
  refine ⟨validated, db', h, by decide, hactor, reads, haccept, fun hstep => ?_⟩
  have hold : extractGroupMembership context group.extensions = .ok oldMembership := rfl
  have hnew : getLatestGroupMembership context excused = .ok (newMembership [[8]]) := rfl
  have hchanges : getProposalChanges context group reads.immutableMetadata reads.mutableMetadata
      excused = .ok ⟨∅, ∅, [], .empty, .empty, some (.build inboxId [7] reads.immutableMetadata
        reads.mutableMetadata)⟩ := rfl
  have hdiff := congrArg Prod.fst haccept.expected.diff
  rw [← Except.ok.inj (hold.symm.trans haccept.expected.old),
    ← Except.ok.inj (hnew.symm.trans haccept.expected.new)] at hdiff
  obtain ⟨expected, hexpected, hdue⟩ := exists_of_any due_of_excused
  rw [← Except.ok.inj (hexpected.symm.trans hdiff),
    ← Except.ok.inj (hchanges.symm.trans haccept.changes)] at hstep
  have hremoved := hstep.due_removed [8] (of_decide_eq_true hdue) (by decide)
  exact Finset.notMem_empty _ hremoved

end LibXmtp.Groups
