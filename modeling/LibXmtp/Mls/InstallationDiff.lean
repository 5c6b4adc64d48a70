import LibXmtp.Mls.IdentityUpdates
import LibXmtp.Groups.GroupMembership

namespace LibXmtp.Mls

open LibXmtp.Data LibXmtp.Associations LibXmtp.Db LibXmtp.Groups

/-- The network: it is asked for the updates of some inboxes that are newer than the last one
known. -/
structure ApiClient where
  getIdentityUpdatesV2 : List (String × Option Int) → Option (List StoredIdentityUpdate)
  newer : ∀ filters updates, getIdentityUpdatesV2 filters = some updates → ∀ u ∈ updates,
    ∃ filter ∈ filters, filter.1 = u.inboxId ∧ ∀ k, filter.2 = some k → k < u.sequenceId

structure InstallationDiff where
  addedInstallations : Finset Bytes
  removedInstallations : Finset Bytes

def asI64 (sequenceId : UInt64) : Int := sequenceId.toInt64.toInt

def latestSequenceId (updates : IdentityUpdates) (inboxId : String) : Option Int :=
  ((updates.rows.filter fun u => u.inboxId = inboxId).map StoredIdentityUpdate.sequenceId).max?

def filterInboxIdsNeedingUpdates (updates : IdentityUpdates) (filters : List (String × Int)) :
    List String :=
  (filters.filter fun (inboxId, seq) => !(latestSequenceId updates inboxId).any (seq ≤ ·)).map
    Prod.fst

section

variable {Key : Type} (env : Env Key) (api : ApiClient)

def loadIdentityUpdates (inboxIds : List String) : Session Database ClientError Unit :=
  if inboxIds.isEmpty then pure ()
  else do
    let db ← get
    let filters := inboxIds.map fun inboxId => (inboxId, latestSequenceId db.identityUpdates inboxId)
    let updates ← .ofExcept (okOr (api.getIdentityUpdatesV2 filters) .api)
    modify (Database.insertOrIgnoreIdentityUpdates updates)

/-- The diff of an added or updated inbox. The placeholder `0` a group is created with is no
sequence id to start from; a new `0` is passed on, and refused. -/
def inboxDiff (order : IterOrder) (old new : GroupMembership) (inboxId : String) :
    Session Database ClientError AssociationStateDiff :=
  let startingSequenceId :=
    match old.get inboxId with
    | some 0 => none
    | some i => some (asI64 i)
    | none => none
  getAssociationStateDiff env order inboxId startingSequenceId ((new.get inboxId).map asI64)

def removedInboxDiff (order : IterOrder) (old : GroupMembership) (inboxId : String) :
    Session Database ClientError AssociationStateDiff := do
  let state ← getAssociationStateWithVerifier env order inboxId ((old.get inboxId).map asI64)
  return state.asDiff

def getInstallationDiff (order : IterOrder) (old new : GroupMembership) (diff : MembershipDiff) :
    Session Database ClientError InstallationDiff := do
  let addedAndUpdatedMembers := diff.addedInboxes ++ diff.updatedInboxes
  let filters := addedAndUpdatedMembers.map fun inboxId =>
    (inboxId, ((new.get inboxId).map asI64).getD 0)
  let db ← get
  loadIdentityUpdates api (filterInboxIdsNeedingUpdates db.identityUpdates filters)
  let stateDiffs ← addedAndUpdatedMembers.mapM (inboxDiff env order old new)
  let removedDiffs ← diff.removedInboxes.mapM (removedInboxDiff env order old)
  return {
    addedInstallations := (stateDiffs.flatMap AssociationStateDiff.newInstallations).toFinset
    removedInstallations := (stateDiffs.flatMap AssociationStateDiff.removedInstallations ++
      removedDiffs.flatMap AssociationStateDiff.newInstallations).toFinset }

end

end LibXmtp.Mls
