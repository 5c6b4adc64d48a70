import LibXmtp.Groups.PendingWelcomes
import LibXmtp.Groups.TreeMembership
import LibXmtp.Mls.NetworkLog

namespace LibXmtp.Groups

open LibXmtp.Data LibXmtp.Associations LibXmtp.Db LibXmtp.Mls

/-- A client: what it sees of the network's identity updates, and the order it iterates in. -/
structure Peer where
  log : IdentityUpdates
  api : ApiClient
  order : IterOrder

structure VersionedPeer (Version : Type) extends Peer where
  pkgSemver : Version

section Diff

variable {Key : Type} (env : Env Key) (log : IdentityUpdates)

/-- The members are there with updates of the network, and one whose updates were not read yet is
not removed. -/
structure Published (old new : GroupMembership) : Prop where
  oldValid : ∀ inboxId j, old.get inboxId = some j → j ≠ 0 → Valid env log inboxId (asI64 j)
  newValid : ∀ inboxId k, new.get inboxId = some k → Valid env log inboxId (asI64 k)
  started : ∀ inboxId, old.get inboxId = some 0 → (new.get inboxId).isSome

structure Tracks (m : GroupMembership) (peer : Peer) (db : Database) : Prop where
  follows : Follows log peer.log
  serves : peer.api.Serves peer.log
  client : Client env peer.log db
  knows : Knows db m

def TracksBoth (old new : GroupMembership) (peer : Peer) (db : Database) : Prop :=
  Tracks env log old peer db ∧ Tracks env log new peer db

/-- The network shows the client the updates of the members. -/
def Reaches (m : GroupMembership) (peer : Peer) : Prop :=
  ∀ inboxId k, m.get inboxId = some k → HasUpdate peer.log inboxId (asI64 k)

variable {env log} {old new : GroupMembership}

theorem Tracks.hasUpdate {m : GroupMembership} {peer : Peer} {db : Database}
    (h : Tracks env log m peer db) {inboxId : String} {k : UInt64} (hk : m.get inboxId = some k)
    (hne : k ≠ 0) : HasUpdate peer.log inboxId (asI64 k) :=
  (h.knows inboxId k hk hne).of_follows h.client.follows

theorem Published.reaches (hpos : ∀ u ∈ log.rows, 0 < u.sequenceId) (h : Published env log old new)
    {peer : Peer} {db : Database} (hboth : TracksBoth env log old new peer db) :
    Reaches new peer := by
  intro inboxId k hk
  apply hboth.2.hasUpdate hk
  rintro rfl
  exact absurd ((h.newValid _ _ hk).hasUpdate.pos hpos) (lt_irrefl _)

end Diff

section Verdict

variable {Key Version Registry : Type} (ctx : Context Key Version Registry)

def Context.servedBy (peer : Peer) : Context Key Version Registry := { ctx with api := peer.api }

variable {ctx} {log : IdentityUpdates} {old new : GroupMembership}

variable {group : OpenMlsGroup} {commit : StagedCommit}

/-- The client can validate the commit: it knows the members of the group, and the network shows it
the updates of the members the commit leads to. -/
structure Ready (ctx : Context Key Version Registry) (log : IdentityUpdates) (group : OpenMlsGroup)
    (commit : StagedCommit) (peer : Peer) (db : Database) : Prop where
  follows : Follows log peer.log
  serves : peer.api.Serves peer.log
  client : Client ctx.env peer.log db
  knows : ∀ old, extractGroupMembership ctx group.extensions = .ok old → Knows db old
  reaches : ∀ new, getLatestGroupMembership ctx commit = .ok new → Reaches new peer

def Sound (ctx : Context Key Version Registry) (log : IdentityUpdates) (group : OpenMlsGroup)
    (commit : StagedCommit) : Prop :=
  ∀ old new, extractGroupMembership ctx group.extensions = .ok old →
    getLatestGroupMembership ctx commit = .ok new → Published ctx.env log old new

/-- The client can go on, and knows the members that an accepted commit leads to. -/
structure Judged (ctx : Context Key Version Registry) (log : IdentityUpdates)
    (group : OpenMlsGroup) (commit : StagedCommit) (r : Except CommitValidationError ValidatedCommit)
    (peer : Peer) (db : Database) : Prop where
  ready : Ready ctx log group commit peer db
  knows : ∀ validated, r = .ok validated → ∀ new, getLatestGroupMembership ctx commit = .ok new →
    Knows db new

theorem Ready.rejected {peer : Peer} {db : Database} (h : Ready ctx log group commit peer db)
    (e : CommitValidationError) : Judged ctx log group commit (.error e) peer db where
  ready := h
  knows := by rintro _ ⟨⟩

section Versions

variable (ctx group commit)

def Context.runBy (peer : VersionedPeer Version) : Context Key Version Registry :=
  { ctx with api := peer.api, pkgSemver := peer.pkgSemver }

/-- A version floor that the commit is checked against: that of the migrated group, or the one the
commit leads to. -/
inductive IsFloor : String → Prop
  | committed {dictionary : HashMap UInt16 Bytes} {bytes : Bytes} {floor : String}
      (hmigrated : group.extensions.isMigrated = true)
      (hdictionary : group.extensions.appDataDictionary = some dictionary)
      (hbytes : dictionary.get ComponentId.minSupportedProtocolVersion = some bytes)
      (hfloor : utf8 bytes = some floor) : IsFloor floor
  | ledTo {immutableMetadata : GroupMetadata} {mutableMetadata : GroupMutableMetadata}
      {info : MutableMetadataValidationInfo} {registry : Option Registry} {floor : String}
      (himmutable : extractGroupMetadata ctx group.extensions = .ok immutableMetadata)
      (hmutable : extractGroupMutableMetadata ctx group.extensions = .ok mutableMetadata)
      (hinfo : metadataValidation ctx commit group immutableMetadata mutableMetadata =
        .ok (info, registry))
      (hfloor : info.minimumSupportedProtocolVersion = some floor) : IsFloor floor

def SameSide (version : Version) : Prop :=
  ∀ floor, IsFloor ctx group commit floor → ∀ floorVersion, ctx.semver.parse floor = some floorVersion →
    ctx.semver.lt version floorVersion = ctx.semver.lt ctx.pkgSemver floorVersion

variable {ctx group commit}

theorem SameSide.committedFloorExceeding {peer : VersionedPeer Version}
    (h : SameSide ctx group commit peer.pkgSemver) (hmigrated : group.extensions.isMigrated = true) :
    committedFloorExceeding (ctx.runBy peer) group.extensions =
      committedFloorExceeding ctx group.extensions := by
  rw [Groups.committedFloorExceeding, Groups.committedFloorExceeding]
  cases hdictionary : group.extensions.appDataDictionary with
  | none => rfl
  | some dictionary =>
    cases hbytes : dictionary.get ComponentId.minSupportedProtocolVersion with
    | none => simp [hbytes]
    | some bytes =>
      cases hfloor : utf8 bytes with
      | none => simp [hbytes, hfloor]
      | some floor =>
        cases hversion : ctx.semver.parse floor with
        | none => simp [hbytes, hfloor, Context.runBy, hversion]
        | some version =>
          have hside := h floor (.committed hmigrated hdictionary hbytes hfloor) version hversion
          simp [hbytes, hfloor, Context.runBy, hversion, hside]

theorem SameSide.fromStagedCommit {peer : VersionedPeer Version}
    (h : SameSide ctx group commit peer.pkgSemver) (committerLeafIndex : LeafNodeIndex) :
    ValidatedCommit.fromStagedCommit (ctx.runBy peer) peer.order commit committerLeafIndex group =
      ValidatedCommit.fromStagedCommit (ctx.servedBy peer.toPeer) peer.order commit
        committerLeafIndex group := by
  have hfloor : (if group.extensions.isMigrated then
        Groups.committedFloorExceeding (ctx.runBy peer) group.extensions else none) =
      if group.extensions.isMigrated then
        Groups.committedFloorExceeding (ctx.servedBy peer.toPeer) group.extensions else none := by
    split
    next hmigrated => exact h.committedFloorExceeding hmigrated
    next => rfl
  unfold ValidatedCommit.fromStagedCommit
  dsimp only
  rw [hfloor]
  refine bind_congr fun _ => Session.ofExcept_bind_congr fun immutableMetadata himmutable =>
    Session.ofExcept_bind_congr fun mutableMetadata hmutable => ?_
  by_cases hbootstrap : isBootstrapCommit commit group.extensions = true
  · rw [if_pos hbootstrap, if_pos hbootstrap]
    rfl
  · rw [if_neg hbootstrap, if_neg hbootstrap]
    unfold validateSteadyState
    refine bind_congr fun _ => Session.ofExcept_bind_congr fun metadata hmetadata => ?_
    obtain ⟨info, registry⟩ := metadata
    have hversion : checkMinimumVersion (ctx.runBy peer) info.minimumSupportedProtocolVersion =
        checkMinimumVersion (ctx.servedBy peer.toPeer) info.minimumSupportedProtocolVersion := by
      cases hmin : info.minimumSupportedProtocolVersion with
      | none => rfl
      | some floor =>
        have hside := h floor (.ledTo himmutable hmutable hmetadata hmin)
        rw [checkMinimumVersion, checkMinimumVersion]
        cases hparse : ctx.semver.parse floor with
        | none => simp [Context.runBy, Context.servedBy, hparse]
        | some version => simp [Context.runBy, Context.servedBy, hparse, hside version hparse]
    dsimp only
    rw [hversion]
    rfl

end Versions

end Verdict

/-- A member with its copy of the group, what it has seen of the network, and its verdicts so far. -/
structure Replica where
  group : OpenMlsGroup
  log : IdentityUpdates
  db : Database
  verdicts : List (Except CommitValidationError ValidatedCommit)

section Runs

variable {Key Version Registry : Type} (ctx : Context Key Version Registry)
  (merge : OpenMlsGroup → StagedCommit → OpenMlsGroup)

/-- A commit that is accepted is merged, and one that is rejected leaves the group as it was. -/
def Replica.receive (replica : Replica) (peer : VersionedPeer Version) (commit : StagedCommit)
    (committerLeafIndex : LeafNodeIndex) : Replica :=
  let outcome := (ValidatedCommit.fromStagedCommit (ctx.runBy peer) peer.order commit
    committerLeafIndex replica.group).outcome replica.db
  { group := if outcome.1.isOk then merge replica.group commit else replica.group
    log := peer.log
    db := outcome.2
    verdicts := replica.verdicts ++ [outcome.1] }

variable (log : IdentityUpdates)

structure Replica.Tracked (replica : Replica) : Prop where
  follows : Follows log replica.log
  client : Client ctx.env replica.log replica.db
  knows : ∀ m, extractGroupMembership ctx replica.group.extensions = .ok m → Knows replica.db m

/-- The commit as the member receives it, when it may see more of the network than before. -/
structure Replica.Sees (replica : Replica) (peer : VersionedPeer Version) (commit : StagedCommit) :
    Prop where
  follows : Follows log peer.log
  grown : Follows peer.log replica.log
  serves : peer.api.Serves peer.log
  reaches : ∀ new, getLatestGroupMembership ctx commit = .ok new → Reaches new peer.toPeer
  sameSide : SameSide ctx replica.group commit peer.pkgSemver
  steady : isBootstrapCommit commit replica.group.extensions = false
  sound : Sound ctx log replica.group commit
  merged : getLatestGroupMembership ctx commit =
    extractGroupMembership ctx (merge replica.group commit).extensions

/-- The members start in one group and receive the same commits, each with a database, a cache, an
order and a version of its own, and at its own time. -/
inductive Replica.Reachable {ι : Type} : (ι → Replica) → Prop
  | start {replicas : ι → Replica} (group : OpenMlsGroup)
      (hgroup : ∀ i, (replicas i).group = group) (hverdicts : ∀ i, (replicas i).verdicts = [])
      (htracked : ∀ i, (replicas i).Tracked ctx log) : Replica.Reachable replicas
  | receive {replicas : ι → Replica} (peers : ι → VersionedPeer Version) (commit : StagedCommit)
      (committerLeafIndex : LeafNodeIndex) (h : Replica.Reachable replicas)
      (hsees : ∀ i, (replicas i).Sees ctx merge log (peers i) commit) :
      Replica.Reachable fun i => (replicas i).receive ctx merge (peers i) commit committerLeafIndex

variable {ctx merge log}

theorem Replica.Sees.ready {replica : Replica} {peer : VersionedPeer Version} {commit : StagedCommit}
    (h : replica.Sees ctx merge log peer commit) (htracked : replica.Tracked ctx log) :
    Ready ctx log replica.group commit peer.toPeer replica.db where
  follows := h.follows
  serves := h.serves
  client := ⟨htracked.client.consistent, htracked.client.follows.trans h.grown⟩
  knows := htracked.knows
  reaches := h.reaches

end Runs

/-! Two members of a group of two inboxes, whose databases list the updates in another order, and who
iterate in another order and run other versions, both above the floor of the group. -/

namespace AgreementSample

open Mls.Sample Associations.Sample Groups.Sample

def bothMembers : GroupMembership := ⟨.ofList [(inboxId, 2), (otherInboxId, 3)], []⟩

def oneMember : GroupMembership := ⟨.ofList [(inboxId, 2)], []⟩

def agreementCodec : GroupCodec :=
  { groupCodec with
    decodeGroupMutableMetadata := fun bytes =>
      if bytes = [4] then some ⟨.ofList [(MetadataField.minimumSupportedProtocolVersion.asStr, "0.9.0")],
        some ⟨[inboxId]⟩, some ⟨[creatorInboxId]⟩⟩
      else none
    decodeGroupMembership := fun bytes =>
      if bytes = [6] then some (membershipProto bothMembers)
      else if bytes = [7] then some (membershipProto oneMember)
      else none }

def agreementContext : Context Bytes (List Nat) Unit :=
  { context with
    codec := agreementCodec
    semver := { context.semver with
      parse := fun text => if text = "0.9.0" then some [0, 9, 0] else none } }

def pair : OpenMlsGroup where
  groupId := List.replicate 16 0
  extensions := extensions 6
  members := [⟨0, ⟨.basic [1], [7]⟩⟩, ⟨1, ⟨.basic [2], [8]⟩⟩]
  distinct := by decide

def mergeRemovals (group : OpenMlsGroup) (commit : StagedCommit) : OpenMlsGroup where
  groupId := group.groupId
  extensions := commit.groupContextExtensions
  members := group.members.filter (·.index ∉ removedLeaves commit.queuedProposals)
  distinct := group.distinct.sublist (List.filter_sublist.map _)

def network : IdentityUpdates := ⟨[row 1, row 2, ⟨otherInboxId, 3, [3]⟩], by decide⟩

def isNewer (filters : List (String × Option Int)) (u : StoredIdentityUpdate) : Bool :=
  filters.any fun filter => filter.1 == u.inboxId && filter.2.all (decide <| · < u.sequenceId)

theorem isNewer_iff {filters : List (String × Option Int)} {u : StoredIdentityUpdate} :
    isNewer filters u = true ↔ ∃ filter ∈ filters, filter.1 = u.inboxId ∧
      ∀ k, filter.2 = some k → k < u.sequenceId := by
  simp [isNewer, Option.all_eq_true]

def serving (log : IdentityUpdates) : ApiClient where
  getIdentityUpdatesV2 filters := some (log.rows.filter (isNewer filters))
  newer filters updates h u hu := by
    cases h
    exact isNewer_iff.mp (List.mem_filter.mp hu).2

noncomputable def reversedOrder : IterOrder where
  members m := m.entries.reverse
  members_perm m := List.reverse_perm m.entries
  signatures s := s.toList.reverse
  signatures_toFinset s := by rw [List.toFinset_reverse, Finset.toList_toFinset]

noncomputable def peer (first : Bool) : VersionedPeer (List Nat) where
  log := network
  api := serving network
  order := if first then order else reversedOrder
  pkgSemver := if first then [1, 0, 0] else [1, 2, 0]

def started (first : Bool) : Replica where
  group := pair
  log := network
  db := ⟨if first then network else database.identityUpdates, .empty⟩
  verdicts := []

noncomputable def removed (first : Bool) : Replica :=
  (started first).receive agreementContext mergeRemovals (peer first) removal 0

end AgreementSample

end LibXmtp.Groups
