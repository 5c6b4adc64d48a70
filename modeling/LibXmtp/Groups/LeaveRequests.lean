import LibXmtp.Data.Result
import LibXmtp.Db.Group
import LibXmtp.Db.PendingRemove
import LibXmtp.Db.Tasks

namespace LibXmtp.Groups

open LibXmtp.Data LibXmtp.Db

structure GroupRoster where
  members : List String
  superAdmins : List String
  isActive : Bool := true

structure LeaveStore where
  roster : GroupRoster
  conversationType : Db.ConversationType := .group
  membershipState : GroupMembershipState := .allowed
  hasPendingLeaveRequest : Option Bool := none
  pendingRemoves : PendingRemoves := .empty
  tasks : TaskTable := .empty

structure LeaveRequest where
  id : Bytes
  senderInboxId : String
  deriving DecidableEq

structure InboxChanges where
  addedInboxes : List String := []
  removedInboxes : List String := []
  superAdminsAdded : List String := []
  superAdminsRemoved : List String := []
  deriving DecidableEq

def GroupRoster.merge (changes : InboxChanges) (inboxId : String) (r : GroupRoster) : GroupRoster where
  members := r.members.filter (!changes.removedInboxes.contains ·) ++ changes.addedInboxes
  superAdmins := r.superAdmins.filter (!changes.superAdminsRemoved.contains ·) ++ changes.superAdminsAdded
  isActive := r.isActive && !changes.removedInboxes.contains inboxId

structure GroupHandle where
  groupId : Bytes
  inboxId : String

namespace GroupHandle

variable (g : GroupHandle)

def pendingRemoveList (s : LeaveStore) : List String :=
  s.pendingRemoves.getPendingRemoveUsers g.groupId

def isInPendingRemove (inboxId : String) (s : LeaveStore) : Bool :=
  s.pendingRemoves.getUserPendingRemoveStatus g.groupId inboxId

def isSuperAdmin (inboxId : String) (s : LeaveStore) : Bool := s.roster.superAdmins.contains inboxId

def updateGroupPendingStatus (hasPendingRemoves : Bool) (s : LeaveStore) : LeaveStore :=
  { s with hasPendingLeaveRequest := some hasPendingRemoves }

def processAdminPendingRemoveActions (s : LeaveStore) : LeaveStore :=
  if !isSuperAdmin g.inboxId s then s
  else if (g.pendingRemoveList s).isEmpty then s
  else if !(g.pendingRemoveList s).contains g.inboxId then updateGroupPendingStatus true s
  else s

def updateOwnMembership (message : LeaveRequest) (s : LeaveStore) : LeaveStore :=
  if message.senderInboxId = g.inboxId then { s with membershipState := .pendingRemove } else s

def storePendingRemove (message : LeaveRequest) (s : LeaveStore) : LeaveStore :=
  let pendingRemove : PendingRemove :=
    { groupId := g.groupId, inboxId := message.senderInboxId, messageId := message.id }
  { s with pendingRemoves := s.pendingRemoves.insertOrIgnore pendingRemove }

def processLeaveRequestMessage (now : Int) (message : LeaveRequest) (s : LeaveStore) : LeaveStore :=
  let s := g.storePendingRemove message (g.updateOwnMembership message s)
  let task := NewTask.build now (.processPendingSelfRemove g.groupId)
  let s := { s with tasks := s.tasks.upsertPendingSelfRemoveTask now g.groupId task }
  g.processAdminPendingRemoveActions s

def cleanPendingRemoveList (removedInboxes : List String) (s : LeaveStore) : LeaveStore :=
  if removedInboxes.isEmpty then s
  else
    { s with pendingRemoves := s.pendingRemoves.deletePendingRemoveUsers g.groupId removedInboxes }

def handleSuperAdminStatusChange (changes : InboxChanges) (s : LeaveStore) : LeaveStore :=
  let wasPromoted := changes.superAdminsAdded.contains g.inboxId
  let wasDemoted := changes.superAdminsRemoved.contains g.inboxId
  if !wasPromoted && !wasDemoted then s
  else if wasPromoted then
    if !(g.pendingRemoveList s).isEmpty && !(g.pendingRemoveList s).contains g.inboxId then
      updateGroupPendingStatus true s
    else s
  else if wasDemoted then updateGroupPendingStatus false s
  else s

def processCommit (changes : InboxChanges) (s : LeaveStore) : LeaveStore :=
  let s := { s with roster := s.roster.merge changes g.inboxId }
  g.handleSuperAdminStatusChange changes (g.cleanPendingRemoveList changes.removedInboxes s)

/-- How far `process_pending_self_removals` has come, with what it has read. The removal and the
cleanup each read and write more than once. -/
inductive RemovalPhase
  | started
  | listed (pendingRemovalList : List String)
  | authorized (pendingRemovalList : List String)
  | removing (validRemovals : List String)
  | cleaning
  | cleanupListed (pendingRemovalList : List String)
  | stale (removedMembers : List String)
  | remaining
  | done
  deriving DecidableEq

def RemovalPhase.held : RemovalPhase → List String
  | .listed pendingRemovalList => pendingRemovalList
  | .authorized pendingRemovalList => pendingRemovalList
  | .removing validRemovals => validRemovals
  | _ => []

def RemovalPhase.Awaits (phase : RemovalPhase) (x : String) : Prop := phase = .started ∨ x ∈ phase.held

/-- What comes next of `process_pending_self_removals`, where nothing fails. -/
def processPendingSelfRemovals (s : LeaveStore) : RemovalPhase → RemovalPhase × LeaveStore
  -- remove_members_pending_removal
  | .started =>
    let pendingRemovalList := g.pendingRemoveList s
    (if pendingRemovalList.isEmpty then .cleaning else .listed pendingRemovalList, s)
  | .listed pendingRemovalList =>
    (if isSuperAdmin g.inboxId s then .authorized pendingRemovalList else .cleaning, s)
  | .authorized pendingRemovalList =>
    let validRemovals := pendingRemovalList.filter s.roster.members.contains
    (if validRemovals.isEmpty then .cleaning else .removing validRemovals, s)
  -- remove_members: the commit removes those that are still members
  | .removing validRemovals =>
    let removedInboxes := validRemovals.filter s.roster.members.contains
    (.cleaning, g.processCommit { removedInboxes } s)
  -- cleanup_pending_removal_list
  | .cleaning =>
    let pendingRemovalList := g.pendingRemoveList s
    if pendingRemovalList.isEmpty then (.done, { s with hasPendingLeaveRequest := some false })
    else (.cleanupListed pendingRemovalList, s)
  | .cleanupListed pendingRemovalList =>
    let removedMembers := pendingRemovalList.filter (!s.roster.members.contains ·)
    (if removedMembers.isEmpty then .remaining else .stale removedMembers, s)
  | .stale removedMembers =>
    let pendingRemoves := s.pendingRemoves.deletePendingRemoveUsers g.groupId removedMembers
    (.remaining, { s with pendingRemoves })
  | .remaining =>
    if (g.pendingRemoveList s).isEmpty then (.done, { s with hasPendingLeaveRequest := some false })
    else (.done, s)
  | .done => (.done, s)

section Effects

variable {g} {s : LeaveStore} {changes : InboxChanges} {message : LeaveRequest} {now : Int} {x : String}

theorem processAdminPendingRemoveActions_eq (g : GroupHandle) (s : LeaveStore) :
    ∃ flag, g.processAdminPendingRemoveActions s = { s with hasPendingLeaveRequest := flag } := by
  unfold processAdminPendingRemoveActions
  split_ifs <;> exact ⟨_, rfl⟩

theorem handleSuperAdminStatusChange_eq (g : GroupHandle) (changes : InboxChanges) (s : LeaveStore) :
    ∃ flag, g.handleSuperAdminStatusChange changes s = { s with hasPendingLeaveRequest := flag } := by
  unfold handleSuperAdminStatusChange
  dsimp only
  split_ifs <;> exact ⟨_, rfl⟩

theorem updateOwnMembership_eq (g : GroupHandle) (message : LeaveRequest) (s : LeaveStore) :
    ∃ state, g.updateOwnMembership message s = { s with membershipState := state } := by
  unfold updateOwnMembership
  split <;> exact ⟨_, rfl⟩

structure Requested (g : GroupHandle) (now : Int) (message : LeaveRequest) (s s' : LeaveStore) : Prop where
  roster : s'.roster = s.roster
  list : ∀ x, x ∈ g.pendingRemoveList s' ↔ x ∈ g.pendingRemoveList s ∨ x = message.senderInboxId
  tasks : s'.tasks = s.tasks.upsertPendingSelfRemoveTask now g.groupId
    (NewTask.build now (.processPendingSelfRemove g.groupId))

theorem requested_processLeaveRequestMessage (g : GroupHandle) (now : Int) (message : LeaveRequest)
    (s : LeaveStore) : g.Requested now message s (g.processLeaveRequestMessage now message s) := by
  unfold processLeaveRequestMessage
  obtain ⟨state, hown⟩ := g.updateOwnMembership_eq message s
  dsimp only
  obtain ⟨flag, hadmin⟩ := g.processAdminPendingRemoveActions_eq
    { g.storePendingRemove message (g.updateOwnMembership message s) with
      tasks := (g.storePendingRemove message (g.updateOwnMembership message s)).tasks.upsertPendingSelfRemoveTask
        now g.groupId (NewTask.build now (.processPendingSelfRemove g.groupId)) }
  rw [hadmin, hown]
  refine ⟨rfl, fun x => ?_, rfl⟩
  simp only [pendingRemoveList, storePendingRemove, PendingRemoves.mem_insertOrIgnore_users, true_and,
    eq_comm]

/-- A commit changes the members, and takes those that it removes off the list. -/
structure Merged (g : GroupHandle) (changes : InboxChanges) (s s' : LeaveStore) : Prop where
  roster : s'.roster = s.roster.merge changes g.inboxId
  list : ∀ x, x ∈ g.pendingRemoveList s' ↔ x ∈ g.pendingRemoveList s ∧ x ∉ changes.removedInboxes
  tasks : s'.tasks = s.tasks

theorem merged_processCommit (g : GroupHandle) (changes : InboxChanges) (s : LeaveStore) :
    g.Merged changes s (g.processCommit changes s) := by
  unfold processCommit
  dsimp only
  obtain ⟨flag, hstatus⟩ := g.handleSuperAdminStatusChange_eq changes
    (g.cleanPendingRemoveList changes.removedInboxes { s with roster := s.roster.merge changes g.inboxId })
  rw [hstatus]
  unfold cleanPendingRemoveList
  split
  · rename_i hnone
    rw [List.isEmpty_iff] at hnone
    exact ⟨rfl, fun x => by simp [pendingRemoveList, hnone], rfl⟩
  · exact ⟨rfl, fun x => PendingRemoves.mem_deletePendingRemoveUsers, rfl⟩

theorem mem_members_merge {r : GroupRoster} {inboxId : String} : x ∈ (r.merge changes inboxId).members ↔
    x ∈ r.members ∧ x ∉ changes.removedInboxes ∨ x ∈ changes.addedInboxes := by
  simp [GroupRoster.merge]

theorem mem_superAdmins_merge {r : GroupRoster} {inboxId : String} :
    x ∈ (r.merge changes inboxId).superAdmins ↔
      x ∈ r.superAdmins ∧ x ∉ changes.superAdminsRemoved ∨ x ∈ changes.superAdminsAdded := by
  simp [GroupRoster.merge]

theorem isActive_merge {r : GroupRoster} {inboxId : String} : (r.merge changes inboxId).isActive = true ↔
    r.isActive = true ∧ inboxId ∉ changes.removedInboxes := by
  simp [GroupRoster.merge]

end Effects

section Removals

variable {g} {s : LeaveStore} {p : RemovalPhase} {x : String}

theorem merged_removing (g : GroupHandle) (s : LeaveStore) (validRemovals : List String) :
    g.Merged { removedInboxes := validRemovals.filter s.roster.members.contains } s
      (g.processPendingSelfRemovals s (.removing validRemovals)).2 := g.merged_processCommit _ s

structure Shrinks (g : GroupHandle) (s s' : LeaveStore) : Prop where
  members : s'.roster.members ⊆ s.roster.members
  superAdmins : s'.roster.superAdmins = s.roster.superAdmins
  active : s'.roster.isActive = true → s.roster.isActive = true
  list : g.pendingRemoveList s' ⊆ g.pendingRemoveList s
  tasks : s'.tasks = s.tasks

theorem Merged.shrinks {changes : InboxChanges} {s' : LeaveStore} (h : g.Merged changes s s')
    (hadded : changes.addedInboxes = []) (hpromoted : changes.superAdminsAdded = [])
    (hdemoted : changes.superAdminsRemoved = []) : g.Shrinks s s' where
  members x hx := by
    rw [h.roster, mem_members_merge, hadded] at hx
    rcases hx with hx | hx
    · exact hx.1
    · cases hx
  superAdmins := by
    rw [h.roster, GroupRoster.merge, hpromoted, hdemoted, List.append_nil]
    exact List.filter_eq_self.mpr fun _ _ => rfl
  active hactive := by
    rw [h.roster, isActive_merge] at hactive
    exact hactive.1
  list x hx := ((h.list x).mp hx).1
  tasks := h.tasks

theorem shrinks_processPendingSelfRemovals (g : GroupHandle) (s : LeaveStore) (p : RemovalPhase) :
    g.Shrinks s (g.processPendingSelfRemovals s p).2 := by
  have hsame (flag : Option Bool) : g.Shrinks s { s with hasPendingLeaveRequest := flag } :=
    ⟨List.Subset.refl _, rfl, id, List.Subset.refl _, rfl⟩
  cases p with
  | removing validRemovals => exact (g.merged_removing s validRemovals).shrinks rfl rfl rfl
  | cleaning =>
    simp only [processPendingSelfRemovals]
    split
    · exact hsame _
    · exact hsame s.hasPendingLeaveRequest
  | stale removedMembers =>
    refine ⟨List.Subset.refl _, rfl, id, fun x hx => ?_, rfl⟩
    exact (PendingRemoves.mem_deletePendingRemoveUsers.mp hx).1
  | remaining =>
    simp only [processPendingSelfRemovals]
    split
    · exact hsame _
    · exact hsame s.hasPendingLeaveRequest
  | _ => exact hsame s.hasPendingLeaveRequest

theorem held_processPendingSelfRemovals (h : x ∈ (g.processPendingSelfRemovals s p).1.held) :
    x ∈ p.held ∨ x ∈ g.pendingRemoveList s := by
  cases p with
  | started =>
    simp only [processPendingSelfRemovals] at h
    split at h
    · cases h
    · exact .inr h
  | listed pendingRemovalList =>
    simp only [processPendingSelfRemovals] at h
    split at h
    · exact .inl h
    · cases h
  | authorized pendingRemovalList =>
    simp only [processPendingSelfRemovals] at h
    split at h
    · cases h
    · exact .inl (List.mem_of_mem_filter h)
  | removing validRemovals => cases h
  | cleaning =>
    simp only [processPendingSelfRemovals] at h
    split at h <;> cases h
  | cleanupListed pendingRemovalList =>
    simp only [processPendingSelfRemovals] at h
    split at h <;> cases h
  | stale removedMembers => cases h
  | remaining =>
    simp only [processPendingSelfRemovals] at h
    split at h <;> cases h
  | done => cases h

theorem awaits_processPendingSelfRemovals (hadmin : isSuperAdmin g.inboxId s = true)
    (hawaits : p.Awaits x) (hlist : x ∈ g.pendingRemoveList s)
    (hmember : x ∈ (g.processPendingSelfRemovals s p).2.roster.members) :
    (g.processPendingSelfRemovals s p).1.Awaits x := by
  rcases hawaits with rfl | hheld
  · simp only [processPendingSelfRemovals]
    split
    · rename_i hnone
      rw [List.isEmpty_iff.mp hnone] at hlist
      cases hlist
    · exact .inr hlist
  · cases p with
    | listed pendingRemovalList =>
      simp only [processPendingSelfRemovals, hadmin, if_true]
      exact .inr hheld
    | authorized pendingRemovalList =>
      have hvalid : x ∈ pendingRemovalList.filter s.roster.members.contains :=
        List.mem_filter.mpr ⟨hheld, List.contains_iff_mem.mpr hmember⟩
      simp only [processPendingSelfRemovals]
      split
      · rename_i hnone
        rw [List.isEmpty_iff.mp hnone] at hvalid
        cases hvalid
      · exact .inr hvalid
    | removing validRemovals =>
      rw [(g.merged_removing s validRemovals).roster, mem_members_merge] at hmember
      rcases hmember with ⟨hmember, hkept⟩ | hadded
      · exact absurd (List.mem_filter.mpr ⟨hheld, List.contains_iff_mem.mpr hmember⟩) hkept
      · cases hadded
    | _ => cases hheld

theorem stale_processPendingSelfRemovals {removed : List String}
    (h : (g.processPendingSelfRemovals s p).1 = .stale removed) (hx : x ∈ removed) :
    x ∉ (g.processPendingSelfRemovals s p).2.roster.members := by
  cases p with
  | cleanupListed pendingRemovalList =>
    simp only [processPendingSelfRemovals] at h ⊢
    split at h
    · cases h
    · cases h
      simpa using (List.mem_filter.mp hx).2
  | started =>
    simp only [processPendingSelfRemovals] at h
    split at h <;> cases h
  | listed pendingRemovalList =>
    simp only [processPendingSelfRemovals] at h
    split at h <;> cases h
  | authorized pendingRemovalList =>
    simp only [processPendingSelfRemovals] at h
    split at h <;> cases h
  | removing validRemovals => cases h
  | cleaning =>
    simp only [processPendingSelfRemovals] at h
    split at h <;> cases h
  | stale removedMembers => cases h
  | remaining =>
    simp only [processPendingSelfRemovals] at h
    split at h <;> cases h
  | done => cases h

theorem left_processPendingSelfRemovals (hlist : x ∈ g.pendingRemoveList s)
    (hleft : x ∉ g.pendingRemoveList (g.processPendingSelfRemovals s p).2) :
    x ∉ (g.processPendingSelfRemovals s p).2.roster.members ∨ ∃ removed, p = .stale removed ∧ x ∈ removed := by
  cases p with
  | removing validRemovals =>
    have hmerged := g.merged_removing s validRemovals
    rw [hmerged.list, not_and, not_not] at hleft
    refine .inl fun hmember => ?_
    rw [hmerged.roster, mem_members_merge] at hmember
    rcases hmember with hmember | hadded
    · exact hmember.2 (hleft hlist)
    · cases hadded
  | stale removedMembers =>
    refine .inr ⟨removedMembers, rfl, ?_⟩
    by_contra hkept
    exact hleft (PendingRemoves.mem_deletePendingRemoveUsers.mpr ⟨hlist, hkept⟩)
  | cleaning =>
    simp only [processPendingSelfRemovals] at hleft
    split at hleft <;> exact absurd hlist hleft
  | remaining =>
    simp only [processPendingSelfRemovals] at hleft
    split at hleft <;> exact absurd hlist hleft
  | _ => exact absurd hlist hleft

def OwnMember (g : GroupHandle) (s : LeaveStore) : Prop :=
  s.roster.isActive = true → g.inboxId ∈ s.roster.members

theorem OwnMember.merged {changes : InboxChanges} {s' : LeaveStore} (h : g.OwnMember s)
    (hmerged : g.Merged changes s s') : g.OwnMember s' := by
  intro hactive
  rw [hmerged.roster] at hactive ⊢
  obtain ⟨hactive, hkept⟩ := isActive_merge.mp hactive
  exact mem_members_merge.mpr (.inl ⟨h hactive, hkept⟩)

theorem OwnMember.processPendingSelfRemovals (h : g.OwnMember s) (p : RemovalPhase) :
    g.OwnMember (g.processPendingSelfRemovals s p).2 := by
  cases p with
  | removing validRemovals => exact h.merged (g.merged_removing s validRemovals)
  | cleaning =>
    simp only [GroupHandle.processPendingSelfRemovals]
    split <;> exact h
  | remaining =>
    simp only [GroupHandle.processPendingSelfRemovals]
    split <;> exact h
  | _ => exact h

end Removals

end GroupHandle

inductive GroupLeaveValidationError
  | dmLeaveForbidden
  | singleMemberLeaveRejected
  | superAdminLeaveForbidden
  | notAGroupMember

inductive LeaveError
  | groupPaused
  | leaveValidation (e : GroupLeaveValidationError)
  | sendMessage

def GroupHandle.leaveGroup (g : GroupHandle) (ensureNotPaused sendMessage : Except LeaveError Unit)
    (s : LeaveStore) : Except LeaveError Bool := do
  ensureNotPaused
  if !s.roster.members.contains g.inboxId then throw (.leaveValidation .notAGroupMember)
  else if s.roster.members.length = 1 then throw (.leaveValidation .singleMemberLeaveRejected)
  else if s.conversationType = .dm then throw (.leaveValidation .dmLeaveForbidden)
  else if isSuperAdmin g.inboxId s then throw (.leaveValidation .superAdminLeaveForbidden)
  else if !g.isInPendingRemove g.inboxId s then
    sendMessage
    return true
  else return false

theorem GroupHandle.leaveGroup_silent {g : GroupHandle} {s : LeaveStore}
    {ensureNotPaused sendMessage : Except LeaveError Unit}
    (h : g.leaveGroup ensureNotPaused sendMessage s = .ok false) :
    g.inboxId ∈ s.roster.members ∧ g.inboxId ∈ g.pendingRemoveList s := by
  obtain ⟨_, -, h⟩ := bind_eq_ok.mp h
  split_ifs at h with hmember hsingle hdm hadmin hlisted
  · obtain ⟨_, -, h⟩ := bind_eq_ok.mp h
    cases h
  · rw [Bool.not_eq_true, Bool.not_eq_false'] at hmember hlisted
    exact ⟨List.contains_iff_mem.mp hmember, PendingRemoves.getUserPendingRemoveStatus_iff.mp hlisted⟩

end LibXmtp.Groups
