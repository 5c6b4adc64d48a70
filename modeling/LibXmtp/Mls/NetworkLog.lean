import LibXmtp.Data.Agreement
import LibXmtp.Mls.AssociationStateDiff
import LibXmtp.Mls.DueInstallations

namespace LibXmtp.Mls

open LibXmtp.Data LibXmtp.Associations LibXmtp.Db LibXmtp.Groups

structure Follows (log updates : IdentityUpdates) : Prop where
  published : ∀ u ∈ updates.rows, u ∈ log.rows
  complete : ∀ u ∈ updates.rows, ∀ v ∈ log.rows, v.inboxId = u.inboxId →
    v.sequenceId ≤ u.sequenceId → v ∈ updates.rows

def ApiClient.Serves (api : ApiClient) (log : IdentityUpdates) : Prop :=
  ∀ filters, ∃ batch, api.getIdentityUpdatesV2 filters = some batch ∧ ∀ u, u ∈ batch ↔
    u ∈ log.rows ∧ ∃ filter ∈ filters, filter.1 = u.inboxId ∧
      ∀ k, filter.2 = some k → k < u.sequenceId

section

variable {Key : Type} (env : Env Key)

structure Client (log : IdentityUpdates) (db : Database) : Prop where
  consistent : Consistent env db.identityUpdates db
  follows : Follows log db.identityUpdates

structure Valid (updates : IdentityUpdates) (inboxId : String) (k : Int) : Prop where
  hasUpdate : HasUpdate updates inboxId k
  replays : ∃ s, stateAt env updates inboxId k = .ok s

def HasInstallation (updates : IdentityUpdates) (inboxId : String) (k : Int) (i : Bytes) : Prop :=
  ∃ s, stateAt env updates inboxId k = .ok s ∧ s.isMember (.installation i) = true

variable {env}

section Follows

variable {log updates : IdentityUpdates} {inboxId : String} {k : Int}

theorem Follows.trans {updates' : IdentityUpdates} (h : Follows updates updates')
    (h' : Follows log updates) : Follows log updates' where
  published u hu := h'.published u (h.published u hu)
  complete u hu v hv hid hle :=
    h.complete u hu v (h'.complete u (h.published u hu) v hv hid hle) hid hle

theorem HasUpdate.of_follows (h : Follows log updates) (hk : HasUpdate updates inboxId k) :
    HasUpdate log inboxId k := by
  obtain ⟨u, hu, hkey⟩ := hk
  exact ⟨u, h.published u hu, hkey⟩

theorem getIdentityUpdates_of_follows (h : Follows log updates)
    (hk : HasUpdate updates inboxId k) (fromId : Option Int) :
    getIdentityUpdates updates inboxId fromId (some k) =
      getIdentityUpdates log inboxId fromId (some k) := by
  apply eq_of_pairwise_lt pairwise_getIdentityUpdates pairwise_getIdentityUpdates
  intro u
  rw [mem_getIdentityUpdates, mem_getIdentityUpdates]
  constructor
  · rintro ⟨hu, hrest⟩
    exact ⟨h.published u hu, hrest⟩
  · rintro ⟨hu, hid, hfrom, hto⟩
    obtain ⟨v, hv, hkey⟩ := hk
    obtain ⟨hvid, hvk⟩ := Prod.ext_iff.mp hkey
    refine ⟨h.complete v hv u hu (hid.trans hvid.symm) ?_, hid, hfrom, hto⟩
    exact (hto k rfl).trans_eq hvk.symm

theorem stateAt_of_follows (h : Follows log updates) (hk : HasUpdate updates inboxId k) :
    stateAt env updates inboxId k = stateAt env log inboxId k := by
  rw [stateAt, stateAt, getIdentityUpdates_of_follows h hk]

end Follows

section Load

variable {log : IdentityUpdates} {api : ApiClient} {db : Database}

end Load

section Totality

variable {updates : IdentityUpdates} {inboxId : String} {j k : Int}

end Totality

section Membership

variable (env)

/-- The inbox is in the membership, and has the installation at the sequence id it is there with. -/
def Holds (log : IdentityUpdates) (m : GroupMembership) (inboxId : String) (i : Bytes) : Prop :=
  ∃ k, m.get inboxId = some k ∧ HasInstallation env log inboxId (asI64 k) i

/-- A change of the membership to sequence ids of the network that are not lower than before. The
sequence id `0` only stands where the inbox was not read yet. -/
structure Advances (log : IdentityUpdates) (old new : GroupMembership) : Prop where
  oldValid : ∀ inboxId j, old.get inboxId = some j → j ≠ 0 → Valid env log inboxId (asI64 j)
  newValid : ∀ inboxId k, new.get inboxId = some k → old.get inboxId ≠ some k →
    Valid env log inboxId (asI64 k)
  rises : ∀ inboxId j k, old.get inboxId = some j → new.get inboxId = some k → j ≤ k
  started : ∀ inboxId, old.get inboxId = some 0 → (new.get inboxId).isSome

structure Exact (log : IdentityUpdates) (old new : GroupMembership) (diff : InstallationDiff) :
    Prop where
  added : ∀ i, i ∈ diff.addedInstallations ↔
    ∃ inboxId, Holds env log new inboxId i ∧ ¬Holds env log old inboxId i
  removed : ∀ i, i ∈ diff.removedInstallations ↔
    ∃ inboxId, Holds env log old inboxId i ∧ ¬Holds env log new inboxId i

def Knows (db : Database) (m : GroupMembership) : Prop :=
  ∀ inboxId k, m.get inboxId = some k → k ≠ 0 → HasUpdate db.identityUpdates inboxId (asI64 k)

end Membership

section Placeholder

variable {log : IdentityUpdates} {inboxId : String}

theorem HasUpdate.pos (hpos : ∀ u ∈ log.rows, 0 < u.sequenceId) {k : Int}
    (h : HasUpdate log inboxId k) : 0 < k := by
  obtain ⟨u, hu, hkey⟩ := h
  exact (hpos u hu).trans_eq (Prod.ext_iff.mp hkey).2

theorem holds_iff {m : GroupMembership} {k : UInt64} (h : m.get inboxId = some k) (i : Bytes) :
    Holds env log m inboxId i ↔ HasInstallation env log inboxId (asI64 k) i := by
  simp [Holds, h]

end Placeholder

section InboxDiffs

variable {updates : IdentityUpdates} {old new : GroupMembership} {inboxId : String}

end InboxDiffs

section Diff

variable {log updates : IdentityUpdates} {old new : GroupMembership} {inboxId : String}

theorem Valid.of_follows (h : Follows log updates) {k : Int} (hk : HasUpdate updates inboxId k)
    (hvalid : Valid env log inboxId k) : Valid env updates inboxId k where
  hasUpdate := hk
  replays := by
    rw [stateAt_of_follows h hk]
    exact hvalid.replays

theorem mem_removedInboxes :
    inboxId ∈ (old.diff new).removedInboxes ↔
      new.get inboxId = none ∧ ∃ j, old.get inboxId = some j := by
  simp [GroupMembership.diff, GroupMembership.get, HashMap.mem_keys,
    HashMap.containsKey_eq_isSome_get, Option.isSome_iff_exists, and_comm]

section Exact

variable {api : ApiClient} {db : Database}

end Exact

end Diff

end

end LibXmtp.Mls
