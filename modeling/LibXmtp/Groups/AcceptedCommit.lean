import LibXmtp.Groups.CommitValidation

namespace LibXmtp.Groups

open LibXmtp.Data LibXmtp.Associations LibXmtp.Db LibXmtp.Mls

/-- What the validation reads from a group, a commit and the identity updates, and the database it
has once it knows the expected diff. -/
structure CommitReads (Registry : Type) where
  immutableMetadata : GroupMetadata
  mutableMetadata : GroupMutableMetadata
  groupPermissions : GroupMutablePermissions
  migratedRegistry : Option Registry
  changes : ProposalChanges
  expected : ExpectedDiff
  database : Database

variable {Key Version Registry : Type}

def CommitReads.installationChanges (reads : CommitReads Registry) : InstallationChanges :=
  ⟨reads.changes.addedInstallations, reads.changes.removedInstallations,
    reads.expected.newGroupMembership.failedInstallations.toFinset⟩

structure ExpectedDiff.Reads (ctx : Context Key Version Registry) (order : IterOrder)
    (commit : StagedCommit) (group : OpenMlsGroup) (db : Database) (expected : ExpectedDiff)
    (db' : Database) : Prop where
  old : extractGroupMembership ctx group.extensions = .ok expected.oldGroupMembership
  new : getLatestGroupMembership ctx commit = .ok expected.newGroupMembership
  sequenceIds : validateMembershipDiff expected.oldGroupMembership expected.newGroupMembership
    (expected.oldGroupMembership.diff expected.newGroupMembership) = .ok ()
  diff : (getInstallationDiff ctx.env ctx.api order expected.oldGroupMembership
    expected.newGroupMembership
    (expected.oldGroupMembership.diff expected.newGroupMembership)).outcome db =
      (.ok expected.expectedInstallationDiff, db')

/-- The validation of a commit that is not the bootstrap commit accepts it. -/
structure CommitReads.Accept (ctx : Context Key Version Registry) (order : IterOrder)
    (commit : StagedCommit) (committerLeafIndex : LeafNodeIndex) (group : OpenMlsGroup)
    (db : Database) (reads : CommitReads Registry) (validated : ValidatedCommit) : Prop where
  immutableMetadata : extractGroupMetadata ctx group.extensions = .ok reads.immutableMetadata
  mutableMetadata : extractGroupMutableMetadata ctx group.extensions = .ok reads.mutableMetadata
  groupPermissions : extractGroupPermissions ctx group.extensions = .ok reads.groupPermissions
  metadata : metadataValidation ctx commit group reads.immutableMetadata reads.mutableMetadata =
    .ok (validated.metadataValidationInfo, reads.migratedRegistry)
  limits : validated.metadataValidationInfo.metadataFieldChanges.forM checkCharacterLimit = .ok ()
  permissionsChanged : group.extensions.isMigrated = false →
    extractPermissionsChanged ctx reads.groupPermissions commit.groupContextExtensions =
      .ok validated.permissionsChanged
  participants : extractCommitterAndProposers ctx group reads.immutableMetadata
    reads.mutableMetadata commit committerLeafIndex = .ok (validated.actor, validated.proposers)
  noPsk : rejectPskProposals commit = .ok ()
  appDataUpdates : validateAppDataUpdateProposalsInCommit ctx group reads.immutableMetadata
    reads.mutableMetadata commit reads.migratedRegistry = .ok ()
  changes : getProposalChanges ctx group reads.immutableMetadata reads.mutableMetadata commit =
    .ok reads.changes
  expected : reads.expected.Reads ctx order commit group db reads.database
  matched : expectedDiffMatchesCommit reads.expected.expectedInstallationDiff
    (extractReaddedInstallations validated.actor reads.installationChanges).2
    group.installations = .ok ()
  addedInboxes : validated.addedInboxes = reads.expected.addedInboxes
  removedInboxes : validated.removedInboxes = reads.expected.removedInboxes
  policies : reads.groupPermissions.policies.evaluateCommit validated = true
  minimumVersion : checkMinimumVersion ctx
    validated.metadataValidationInfo.minimumSupportedProtocolVersion = .ok ()

variable {ctx : Context Key Version Registry} {order : IterOrder} {commit : StagedCommit}
  {committerLeafIndex : LeafNodeIndex} {group : OpenMlsGroup} {db db' : Database}

/-- The inboxes of an expected diff, each with who proposed to add or remove it. -/
structure ExpectedDiff.Attributes (ctx : Context Key Version Registry) (group : OpenMlsGroup)
    (changes : ProposalChanges) (expected : ExpectedDiff) (immutableMetadata : GroupMetadata)
    (mutableMetadata : GroupMutableMetadata) : Prop where
  groupMetadata : extractGroupMetadata ctx group.extensions = .ok immutableMetadata
  groupMutableMetadata : extractGroupMutableMetadata ctx group.extensions = .ok mutableMetadata
  addedInboxes : attributeInboxes immutableMetadata mutableMetadata group.extensions.isMigrated
    changes.gceProposer changes.addedInboxProposers
    (expected.oldGroupMembership.diff expected.newGroupMembership).addedInboxes =
      .ok expected.addedInboxes
  removedInboxes : attributeInboxes immutableMetadata mutableMetadata group.extensions.isMigrated
    changes.gceProposer changes.removedInboxProposers
    (expected.oldGroupMembership.diff expected.newGroupMembership).removedInboxes =
      .ok expected.removedInboxes

theorem ExpectedDiff.reads_of_eq_ok {changes : ProposalChanges} {expected : ExpectedDiff}
    (h : (ExpectedDiff.fromStagedCommitWithProposers ctx order commit group changes).outcome db =
      (.ok expected, db')) :
    expected.Reads ctx order commit group db db' ∧
      ∃ immutableMetadata mutableMetadata,
        expected.Attributes ctx group changes immutableMetadata mutableMetadata := by
  simp only [ExpectedDiff.fromStagedCommitWithProposers,
    ExpectedDiff.extractExpectedDiffWithProposers, Session.outcome_ofExcept_bind_eq_ok] at h
  obtain ⟨im, him, mm, hmm, _, _, _, _, old, hold, new, hnew, ⟨⟩, hids, added, hadded, removed,
    hremoved, h⟩ := h
  obtain ⟨E, m, hE, hresult⟩ := Session.outcome_bind_eq_ok.mp h
  rw [Session.outcome_mapError_eq_ok] at hE
  obtain ⟨rfl, rfl⟩ := Session.outcome_pure_eq_ok.mp hresult
  exact ⟨⟨hold, hnew, hids, hE⟩, im, mm, him, hmm, hadded, hremoved⟩

theorem policySet_eq {permissions policySet : GroupMutablePermissions}
    (h : extractGroupPermissions ctx group.extensions = .ok permissions)
    (hset : (if group.extensions.isMigrated then .ok permissions
      else extractGroupPermissions ctx group.extensions) = .ok policySet) :
    policySet = permissions := by
  split at hset
  · exact (Except.ok.inj hset).symm
  · exact Except.ok.inj (hset.symm.trans h)

theorem ValidatedCommit.accept_and_attributes_of_eq_ok {validated : ValidatedCommit}
    (h : (ValidatedCommit.fromStagedCommit ctx order commit committerLeafIndex group).outcome db =
      (.ok validated, db'))
    (hsteady : isBootstrapCommit commit group.extensions = false) :
    ∃ reads : CommitReads Registry,
      reads.Accept ctx order commit committerLeafIndex group db validated ∧
        reads.expected.Attributes ctx group reads.changes reads.immutableMetadata
          reads.mutableMetadata ∧
        validated.dmMembers = reads.immutableMetadata.dmMembers := by
  simp only [ValidatedCommit.fromStagedCommit, hsteady, validateSteadyState,
    Session.outcome_ofExcept_bind_eq_ok, Bool.false_eq_true, if_false] at h
  obtain ⟨_, _, im, him, mm, hmm, permissions, hpermissions, ⟨info, registry⟩, hinfo, ⟨⟩, hlimits,
    permissionsChanged, hchanged, ⟨actor, proposers⟩, hparticipants, ⟨⟩, hpsk, ⟨⟩, happData,
    changes, hchanges, h⟩ := h
  obtain ⟨expected, m, hexpected, h⟩ := Session.outcome_bind_eq_ok.mp h
  obtain ⟨⟨⟩, hmatched, h⟩ := Session.outcome_ofExcept_bind_eq_ok.mp h
  obtain ⟨_, m', _, h⟩ := Session.outcome_bind_eq_ok.mp h
  simp only [Session.outcome_ofExcept_bind_eq_ok] at h
  obtain ⟨policySet, hset, _, hpolicies, ⟨⟩, hversion, h⟩ := h
  obtain ⟨rfl, rfl⟩ := Session.outcome_pure_eq_ok.mp h
  cases policySet_eq hpermissions hset
  obtain ⟨hreads, im', mm', hattributes⟩ := ExpectedDiff.reads_of_eq_ok hexpected
  cases Except.ok.inj (him.symm.trans hattributes.groupMetadata)
  cases Except.ok.inj (hmm.symm.trans hattributes.groupMutableMetadata)
  refine ⟨⟨im, mm, permissions, registry, changes, expected, m⟩, ?_, hattributes, rfl⟩
  exact {
    immutableMetadata := him
    mutableMetadata := hmm
    groupPermissions := hpermissions
    metadata := hinfo
    limits := hlimits
    permissionsChanged := fun hmigrated => by simpa [hmigrated] using hchanged
    participants := hparticipants
    noPsk := hpsk
    appDataUpdates := happData
    changes := hchanges
    expected := hreads
    matched := hmatched
    addedInboxes := rfl
    removedInboxes := rfl
    policies := by simpa using hpolicies
    minimumVersion := hversion }

theorem ValidatedCommit.accept_of_eq_ok {validated : ValidatedCommit}
    (h : (ValidatedCommit.fromStagedCommit ctx order commit committerLeafIndex group).outcome db =
      (.ok validated, db'))
    (hsteady : isBootstrapCommit commit group.extensions = false) :
    ∃ reads : CommitReads Registry,
      reads.Accept ctx order commit committerLeafIndex group db validated := by
  have ⟨reads, haccept, _, _⟩ := ValidatedCommit.accept_and_attributes_of_eq_ok h hsteady
  exact ⟨reads, haccept⟩

end LibXmtp.Groups
