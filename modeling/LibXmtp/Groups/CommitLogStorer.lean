import LibXmtp.Groups.CommitLog
import LibXmtp.Groups.ValidatedCommit
import Mathlib.Data.List.Chain
import Mathlib.Logic.Relation

namespace LibXmtp.Groups

open LibXmtp.Data LibXmtp.Types LibXmtp.Db

def ValidatedCommit.debugCommitType (commit : ValidatedCommit) : CommitType :=
  let metadataInfo := commit.metadataValidationInfo
  if !commit.addedInboxes.isEmpty || !commit.removedInboxes.isEmpty ||
      commit.installationsChanged then
    .updateGroupMembership
  else if commit.permissionsChanged then
    .updatePermission
  else if !metadataInfo.adminsAdded.isEmpty || !metadataInfo.adminsRemoved.isEmpty ||
      !metadataInfo.superAdminsAdded.isEmpty || !metadataInfo.superAdminsRemoved.isEmpty then
    .updateAdminList
  else if !metadataInfo.metadataFieldChanges.isEmpty then
    .metadataUpdate
  else
    .keyUpdate

theorem CommitType.toString_injective {t u : CommitType} (h : t.toString = u.toString) : t = u := by
  cases t <;> cases u <;> first | rfl | exact absurd h (by decide)

theorem ValidatedCommit.debugCommitType_ne (commit : ValidatedCommit) :
    commit.debugCommitType ≠ .removedFromGroup := by
  unfold ValidatedCommit.debugCommitType
  simp only
  split
  · exact CommitType.noConfusion
  · split
    · exact CommitType.noConfusion
    · split
      · exact CommitType.noConfusion
      · split <;> exact CommitType.noConfusion

namespace CommitLogStorer

inductive ProcessMessageError
  | wrongEpoch
  | other

inductive ProcessMessageWithAppDataError
  | openMls (error : ProcessMessageError)
  | appDataDecode
  | protocolVersionTooLow
  | resolveAppDataCommit

/-- The errors of a message, as far as the commit log tells them apart. -/
inductive GroupMessageProcessingError
  | openMlsProcessMessage (error : ProcessMessageError)
  | openMlsProcessMessageWithAppData (error : ProcessMessageWithAppDataError)
  | oldEpoch (messageEpoch groupEpoch : UInt64)
  | futureEpoch (messageEpoch groupEpoch : UInt64)
  | commitValidation
  | mergeStagedCommit
  | conversion
  | epochAuthenticatorNotAdvanced (groupId : Bytes) (commitSequenceId : Int64) (epoch : UInt64)
  | other

def GroupMessageProcessingError.commitResult : GroupMessageProcessingError → CommitResult
  | .openMlsProcessMessage .wrongEpoch => .wrongEpoch
  | .openMlsProcessMessageWithAppData (.openMls .wrongEpoch) => .wrongEpoch
  | .openMlsProcessMessageWithAppData (.openMls .other) => .undecryptable
  | .openMlsProcessMessageWithAppData .appDataDecode => .invalid
  | .oldEpoch .. => .wrongEpoch
  | .futureEpoch .. => .wrongEpoch
  | .commitValidation => .invalid
  | .openMlsProcessMessage .other => .undecryptable
  | _ => .unknown

theorem GroupMessageProcessingError.commitResult_ne (error : GroupMessageProcessingError) :
    error.commitResult ≠ .success := by
  cases error with
  | openMlsProcessMessage error => cases error <;> exact CommitResult.noConfusion
  | openMlsProcessMessageWithAppData error =>
    cases error with
    | openMls error => cases error <;> exact CommitResult.noConfusion
    | _ => exact CommitResult.noConfusion
  | _ => exact CommitResult.noConfusion

structure MlsGroup where
  groupId : Bytes
  epoch : UInt64
  epochAuthenticator : Bytes

structure StagedCommits (σ : Type) where
  selfRemoved : σ → Bool
  mergeStagedCommit : MlsGroup → σ → Except GroupMessageProcessingError MlsGroup

structure StagedCommits.Advances {σ : Type} (commits : StagedCommits σ) : Prop where
  groupId : ∀ group staged merged,
    commits.mergeStagedCommit group staged = .ok merged → merged.groupId = group.groupId
  epoch : ∀ group staged merged,
    commits.mergeStagedCommit group staged = .ok merged → merged.epoch = group.epoch + 1

def groupIdTryFrom (bytes : Bytes) : Except GroupMessageProcessingError Bytes :=
  (CommitLogWorker.groupIdTryFrom bytes).mapError fun _ => .conversion

def fromCreationLogged (logs : LocalCommitLogs) (group : MlsGroup) :
    Except CommitLogError LocalCommitLogs := do
  let groupId ← CommitLogWorker.groupIdTryFrom group.groupId
  return LocalCommitLogs.store logs {
    groupId
    commitSequenceId := 0
    lastEpochAuthenticator := []
    commitResult := .success
    appliedEpochNumber := group.epoch.toInt64
    appliedEpochAuthenticator := group.epochAuthenticator
    commitType := some CommitType.groupCreation.toString }

section Processing

variable {σ : Type} (commits : StagedCommits σ)

/-- A merge that does not change the authenticator is refused; one that removes the member leaves it
at the epoch it was in. -/
def mergeStagedCommitLogged (group : MlsGroup) (logs : LocalCommitLogs) (stagedCommit : σ)
    (validatedCommit : ValidatedCommit) (sequenceId : Int64) :
    Except GroupMessageProcessingError (MlsGroup × LocalCommitLogs) := do
  let removedUs := commits.selfRemoved stagedCommit
  let lastEpochNumber := group.epoch.toInt64
  let lastEpochAuthenticator := group.epochAuthenticator
  let merged ← commits.mergeStagedCommit group stagedCommit
  let groupId ← groupIdTryFrom merged.groupId
  if removedUs then
    return (merged, LocalCommitLogs.store logs {
      groupId
      commitSequenceId := sequenceId
      lastEpochAuthenticator
      commitResult := .success
      appliedEpochNumber := lastEpochNumber
      appliedEpochAuthenticator := lastEpochAuthenticator
      commitType := some CommitType.removedFromGroup.toString })
  else if merged.epochAuthenticator = lastEpochAuthenticator then
    .error (.epochAuthenticatorNotAdvanced groupId sequenceId merged.epoch)
  else
    return (merged, LocalCommitLogs.store logs {
      groupId
      commitSequenceId := sequenceId
      lastEpochAuthenticator
      commitResult := .success
      appliedEpochNumber := merged.epoch.toInt64
      appliedEpochAuthenticator := merged.epochAuthenticator
      commitType := some validatedCommit.debugCommitType.toString })

/-- The commits before the one that a welcome is of cannot be processed, and are not logged. -/
def markFailedCommitLogged (group : MlsGroup) (logs : LocalCommitLogs)
    (commitSequenceId commitEpoch : UInt64) (error : GroupMessageProcessingError) :
    Except CommitLogError LocalCommitLogs := do
  let groupId ← CommitLogWorker.groupIdTryFrom group.groupId
  let maybeRecentlyWelcomed := (LocalCommitLogs.getLatestLogForGroup logs groupId).all
    fun latestLog => latestLog.commitType = some CommitType.welcome.toString
  if commitEpoch ≤ group.epoch && maybeRecentlyWelcomed then
    return logs
  else
    return LocalCommitLogs.store logs {
      groupId
      commitSequenceId := commitSequenceId.toInt64
      lastEpochAuthenticator := group.epochAuthenticator
      commitResult := error.commitResult
      appliedEpochNumber := group.epoch.toInt64
      appliedEpochAuthenticator := group.epochAuthenticator
      commitType := none }

/-- A member of a group, with the commit of it that it has processed last. -/
structure Writer where
  group : MlsGroup
  logs : LocalCommitLogs
  lastSequenceId : UInt64

/-- The life of a member that stays in the group: it goes through the commits in their order, and
logs those of its other groups. -/
inductive WriterStep : Writer → Writer → Prop
  | merged {w : Writer} {stagedCommit : σ} {validatedCommit : ValidatedCommit}
    {sequenceId : UInt64} {group : MlsGroup} {logs : LocalCommitLogs}
    (hstays : commits.selfRemoved stagedCommit = false) (horder : w.lastSequenceId < sequenceId)
    (h : mergeStagedCommitLogged commits w.group w.logs stagedCommit validatedCommit
      sequenceId.toInt64 = .ok (group, logs)) : WriterStep w ⟨group, logs, sequenceId⟩
  | failed {w : Writer} {sequenceId commitEpoch : UInt64} {error : GroupMessageProcessingError}
    {logs : LocalCommitLogs} (horder : w.lastSequenceId < sequenceId)
    (h : markFailedCommitLogged w.group w.logs sequenceId commitEpoch error = .ok logs) :
    WriterStep w ⟨w.group, logs, sequenceId⟩
  | otherGroup (w : Writer) {log : NewLocalCommitLog} (h : log.groupId ≠ w.group.groupId) :
    WriterStep w { w with logs := LocalCommitLogs.store w.logs log }

end Processing

structure Continues (previous log : NewLocalCommitLog) : Prop where
  commitSequenceId : previous.commitSequenceId.toUInt64 < log.commitSequenceId.toUInt64
  applied : log.commitResult = .success →
    log.appliedEpochNumber = previous.appliedEpochNumber + 1 ∧
      log.lastEpochAuthenticator = previous.appliedEpochAuthenticator
  notApplied : log.commitResult ≠ .success →
    log.appliedEpochNumber = previous.appliedEpochNumber ∧
      log.appliedEpochAuthenticator = previous.appliedEpochAuthenticator

structure Current (w : Writer) (log : NewLocalCommitLog) : Prop where
  commitSequenceId : log.commitSequenceId.toUInt64 ≤ w.lastSequenceId
  epochNumber : log.appliedEpochNumber = w.group.epoch.toInt64
  epochAuthenticator : log.appliedEpochAuthenticator = w.group.epochAuthenticator

def Writer.ownLogs (w : Writer) : List LocalCommitLog :=
  LocalCommitLogs.getGroupLogs w.logs w.group.groupId

/-- The log of a member that stays in the group: a chain up to the epoch the group is in. -/
structure Recorded (w : Writer) : Prop where
  chain : w.ownLogs.IsChain fun r s => Continues r.toNewLocalCommitLog s.toNewLocalCommitLog
  current : ∃ last, w.ownLogs.getLast? = some last ∧ Current w last.toNewLocalCommitLog
  stays : ∀ log ∈ w.ownLogs, log.commitType ≠ some CommitType.removedFromGroup.toString

section Steps

variable {σ : Type} {commits : StagedCommits σ} {w w' : Writer} {log : NewLocalCommitLog}

theorem Recorded.congr (h : Recorded w) (hlogs : w'.ownLogs = w.ownLogs)
    (hgroup : w'.group = w.group) (horder : w.lastSequenceId ≤ w'.lastSequenceId) :
    Recorded w' := by
  obtain ⟨last, hlast, hcurrent⟩ := h.current
  refine ⟨hlogs ▸ h.chain, ⟨last, hlogs ▸ hlast, ?_, ?_, ?_⟩, hlogs ▸ h.stays⟩
  · exact UInt64.le_trans hcurrent.commitSequenceId horder
  · rw [hgroup]
    exact hcurrent.epochNumber
  · rw [hgroup]
    exact hcurrent.epochAuthenticator

theorem Recorded.store (h : Recorded w) (hgroupId : w'.group.groupId = w.group.groupId)
    (hlogs : w'.logs = LocalCommitLogs.store w.logs log) (hlog : log.groupId = w.group.groupId)
    (hcontinues : ∀ previous, Current w previous → Continues previous log)
    (hcurrent : Current w' log)
    (hstays : log.commitType ≠ some CommitType.removedFromGroup.toString) : Recorded w' := by
  have hown : w'.ownLogs = w.ownLogs ++ [⟨log, w.logs.lastRowid + 1⟩] := by
    rw [Writer.ownLogs, hlogs, hgroupId, LocalCommitLogs.getGroupLogs_store, if_pos hlog]
    rfl
  obtain ⟨last, hlast, hlastCurrent⟩ := h.current
  refine ⟨?_, ⟨⟨log, w.logs.lastRowid + 1⟩, ?_, hcurrent⟩, ?_⟩
  · rw [hown]
    refine h.chain.append (List.isChain_singleton _) fun r hr s hs => ?_
    rw [hlast, Option.mem_some_iff] at hr
    rw [List.head?_singleton, Option.mem_some_iff] at hs
    subst hr hs
    exact hcontinues _ hlastCurrent
  · rw [hown, List.getLast?_concat]
  · rw [hown]
    intro r hr
    rcases List.mem_append.mp hr with hr | hr
    · exact h.stays r hr
    · rw [List.mem_singleton.mp hr]
      exact hstays

theorem groupIdTryFrom_eq_ok {bytes g : Bytes} (h : CommitLogWorker.groupIdTryFrom bytes = .ok g) :
    g = bytes := by
  unfold CommitLogWorker.groupIdTryFrom at h
  split at h
  · exact (Except.ok.inj h).symm
  · cases h

theorem mergeStagedCommitLogged_eq_ok {group merged : MlsGroup} {logs logs' : LocalCommitLogs}
    {staged : σ} {validated : ValidatedCommit} {sequenceId : Int64}
    (hstays : commits.selfRemoved staged = false)
    (h : mergeStagedCommitLogged commits group logs staged validated sequenceId =
      .ok (merged, logs')) :
    commits.mergeStagedCommit group staged = .ok merged ∧
      merged.epochAuthenticator ≠ group.epochAuthenticator ∧
      logs' = LocalCommitLogs.store logs ⟨merged.groupId, sequenceId, group.epochAuthenticator,
        .success, merged.epoch.toInt64, merged.epochAuthenticator,
        some validated.debugCommitType.toString⟩ := by
  unfold mergeStagedCommitLogged at h
  simp only [bind_eq_ok] at h
  obtain ⟨m, hmerge, g, hg, h⟩ := h
  rw [groupIdTryFrom, mapError_eq_ok] at hg
  rw [if_neg (by simp [hstays])] at h
  split at h
  · cases h
  · rename_i hadvanced
    rw [pure_eq_ok, Prod.mk.injEq] at h
    obtain ⟨rfl, rfl⟩ := h
    rw [groupIdTryFrom_eq_ok hg]
    exact ⟨hmerge, hadvanced, rfl⟩

theorem markFailedCommitLogged_eq_ok {group : MlsGroup} {logs logs' : LocalCommitLogs}
    {sequenceId commitEpoch : UInt64} {error : GroupMessageProcessingError}
    (h : markFailedCommitLogged group logs sequenceId commitEpoch error = .ok logs') :
    logs' = logs ∨ logs' = LocalCommitLogs.store logs ⟨group.groupId, sequenceId.toInt64,
      group.epochAuthenticator, error.commitResult, group.epoch.toInt64,
      group.epochAuthenticator, none⟩ := by
  unfold markFailedCommitLogged at h
  simp only [bind_eq_ok] at h
  obtain ⟨g, hg, h⟩ := h
  rw [groupIdTryFrom_eq_ok hg] at h
  split at h
  · exact .inl (pure_eq_ok.mp h).symm
  · exact .inr (pure_eq_ok.mp h).symm

theorem Recorded.step (hmls : commits.Advances) (h : Recorded w) (hstep : WriterStep commits w w') :
    Recorded w' ∧ w'.group.groupId = w.group.groupId := by
  cases hstep with
  | @merged staged validated sequenceId group logs hstays horder hmerged =>
    obtain ⟨hmerge, -, rfl⟩ := mergeStagedCommitLogged_eq_ok hstays hmerged
    have hid := hmls.groupId _ _ _ hmerge
    have hepoch := hmls.epoch _ _ _ hmerge
    refine ⟨h.store hid rfl hid (fun previous hprevious => ?_) ⟨?_, rfl, rfl⟩ ?_, hid⟩
    · refine ⟨?_, fun _ => ⟨?_, hprevious.epochAuthenticator.symm⟩, fun hne => absurd rfl hne⟩
      · rw [UInt64.toUInt64_toInt64]
        exact UInt64.lt_of_le_of_lt hprevious.commitSequenceId horder
      · rw [hprevious.epochNumber, hepoch, UInt64.toInt64_add]
        rfl
    · rw [UInt64.toUInt64_toInt64]
      exact UInt64.le_refl _
    · intro htype
      exact validated.debugCommitType_ne (CommitType.toString_injective (Option.some.inj htype))
  | @failed sequenceId commitEpoch error logs horder hfailed =>
    refine ⟨?_, rfl⟩
    rcases markFailedCommitLogged_eq_ok hfailed with rfl | rfl
    · exact h.congr rfl rfl (UInt64.le_of_lt horder)
    · refine h.store rfl rfl rfl (fun previous hprevious => ?_) ⟨?_, rfl, rfl⟩ (by simp)
      · refine ⟨?_, fun hsuccess => absurd hsuccess error.commitResult_ne, fun _ => ?_⟩
        · rw [UInt64.toUInt64_toInt64]
          exact UInt64.lt_of_le_of_lt hprevious.commitSequenceId horder
        · exact ⟨hprevious.epochNumber.symm, hprevious.epochAuthenticator.symm⟩
      · rw [UInt64.toUInt64_toInt64]
        exact UInt64.le_refl _
  | otherGroup hother =>
    refine ⟨h.congr ?_ rfl (UInt64.le_refl _), rfl⟩
    rw [Writer.ownLogs, LocalCommitLogs.getGroupLogs_store, if_neg hother]
    rfl

theorem recorded_of_creation {logs logs' : LocalCommitLogs} {group : MlsGroup}
    (hnew : ∀ log ∈ logs.rows, log.groupId ≠ group.groupId)
    (h : fromCreationLogged logs group = .ok logs') : Recorded ⟨group, logs', 0⟩ := by
  unfold fromCreationLogged at h
  simp only [bind_eq_ok, pure_eq_ok] at h
  obtain ⟨g, hg, rfl⟩ := h
  rw [groupIdTryFrom_eq_ok hg]
  have hempty : LocalCommitLogs.getGroupLogs logs group.groupId = [] := by
    apply List.filter_eq_nil_iff.mpr
    intro log hlog
    simpa using hnew log hlog
  have hown : (⟨group, LocalCommitLogs.store logs ⟨group.groupId, 0, [], .success,
      group.epoch.toInt64, group.epochAuthenticator, some CommitType.groupCreation.toString⟩, 0⟩ :
      Writer).ownLogs = [⟨⟨group.groupId, 0, [], .success, group.epoch.toInt64,
        group.epochAuthenticator, some CommitType.groupCreation.toString⟩, logs.lastRowid + 1⟩] := by
    rw [Writer.ownLogs, LocalCommitLogs.getGroupLogs_store, if_pos rfl, hempty]
    rfl
  refine ⟨hown ▸ List.isChain_singleton _, ⟨_, by rw [hown]; rfl, ?_, rfl, rfl⟩, ?_⟩
  · exact UInt64.le_refl _
  · rw [hown]
    intro log hlog
    rw [List.mem_singleton.mp hlog]
    exact fun htype => CommitType.noConfusion (CommitType.toString_injective (Option.some.inj htype))

theorem recorded_of_run (hmls : commits.Advances) {logs logs' : LocalCommitLogs} {group : MlsGroup}
    (hnew : ∀ log ∈ logs.rows, log.groupId ≠ group.groupId)
    (hcreated : fromCreationLogged logs group = .ok logs')
    (hrun : Relation.ReflTransGen (WriterStep commits) ⟨group, logs', 0⟩ w) :
    Recorded w ∧ w.group.groupId = group.groupId := by
  induction hrun with
  | refl => exact ⟨recorded_of_creation hnew hcreated, rfl⟩
  | tail _ hstep ih =>
    obtain ⟨hrecorded, hid⟩ := ih.1.step hmls hstep
    exact ⟨hrecorded, hid.trans ih.2⟩

end Steps

end CommitLogStorer

end LibXmtp.Groups
