import LibXmtp.Data.RowLog
import LibXmtp.Db.RefreshState

namespace LibXmtp.Db

open LibXmtp.Data LibXmtp.Types

inductive CommitResult
  | unknown
  | success
  | wrongEpoch
  | undecryptable
  | invalid
  deriving DecidableEq

namespace CommitResult

def applied : Int32 := 1

def toI32 : CommitResult → Int32
  | unknown => 0
  | success => applied
  | wrongEpoch => 2
  | undecryptable => 3
  | invalid => 4

def ofI32 (n : Int32) : CommitResult :=
  if n = applied then success
  else if n = 2 then wrongEpoch
  else if n = 3 then undecryptable
  else if n = 4 then invalid
  else unknown

theorem ofI32_toI32 (result : CommitResult) : ofI32 result.toI32 = result := by
  cases result <;> rfl

end CommitResult

inductive CommitType
  | groupCreation
  | backupRestore
  | welcome
  | keyUpdate
  | metadataUpdate
  | updateGroupMembership
  | updateAdminList
  | updatePermission
  | removedFromGroup

def CommitType.toString : CommitType → String
  | groupCreation => "GroupCreation"
  | backupRestore => "BackupRestore"
  | welcome => "Welcome"
  | keyUpdate => "KeyUpdate"
  | metadataUpdate => "MetadataUpdate"
  | updateGroupMembership => "UpdateGroupMembership"
  | updateAdminList => "UpdateAdminList"
  | updatePermission => "UpdatePermission"
  | removedFromGroup => "RemovedFromGroup"

structure NewLocalCommitLog where
  groupId : Bytes
  commitSequenceId : Int64
  lastEpochAuthenticator : Bytes
  commitResult : CommitResult
  appliedEpochNumber : Int64
  appliedEpochAuthenticator : Bytes
  commitType : Option String
  deriving DecidableEq

structure LocalCommitLog extends NewLocalCommitLog where
  rowid : Nat
  deriving DecidableEq

structure NewRemoteCommitLog where
  logSequenceId : Int64
  groupId : Bytes
  commitSequenceId : Int64
  commitResult : CommitResult
  appliedEpochNumber : Int64
  appliedEpochAuthenticator : Bytes
  deriving DecidableEq

structure RemoteCommitLog extends NewRemoteCommitLog where
  rowid : Nat
  deriving DecidableEq

abbrev LocalCommitLogs := RowLog LocalCommitLog.rowid

abbrev RemoteCommitLogs := RowLog RemoteCommitLog.rowid

inductive CommitLogOrder
  | ascendingByRowid
  | descendingByRowid

inductive ConnectionError
  | cursorExceedsI32
  | database
  deriving DecidableEq

def i32Max : Nat := 2147483647

namespace LocalCommitLogs

variable (logs : LocalCommitLogs) (groupId : Bytes)

def store (log : NewLocalCommitLog) : LocalCommitLogs :=
  logs.append (fun rowid => ⟨log, rowid⟩) fun _ => rfl

def getGroupLogs : List LocalCommitLog := logs.select fun log => log.groupId = groupId

def getLatestLogForGroup : Option LocalCommitLog := logs.latest fun log => log.groupId = groupId

def after (cursor : Nat) : List LocalCommitLog :=
  logs.select fun log => log.groupId = groupId && cursor < log.rowid && log.commitSequenceId ≠ 0

def getLocalCommitLogAfterCursor (cursor : Nat) :
    CommitLogOrder → Except ConnectionError (List LocalCommitLog)
  | .ascendingByRowid =>
    if i32Max < cursor then .error .cursorExceedsI32 else .ok (after logs groupId cursor)
  | .descendingByRowid =>
    if i32Max < cursor then .error .cursorExceedsI32 else .ok (after logs groupId cursor).reverse

def getLocalCommitLogCursor : Option Nat :=
  (logs.latest fun log => log.groupId = groupId).map LocalCommitLog.rowid

/-- Where the membership session of the member starts: its last welcome, or the creation of the
group. -/
def getLatestChainStartRowid : Option Nat :=
  (logs.latest fun log => log.groupId = groupId && log.commitSequenceId = 0).map
    LocalCommitLog.rowid

theorem getLatestChainStartRowid_store (log : NewLocalCommitLog) :
    getLatestChainStartRowid (store logs log) groupId =
      if log.groupId = groupId ∧ log.commitSequenceId = 0 then some (logs.lastRowid + 1)
      else getLatestChainStartRowid logs groupId := by
  rw [getLatestChainStartRowid, store, RowLog.latest_append]
  simp only [Bool.and_eq_true, decide_eq_true_eq]
  split
  · rfl
  · rfl

@[simp] theorem mem_after {cursor : Nat} {log : LocalCommitLog} :
    log ∈ after logs groupId cursor ↔
      log ∈ logs.rows ∧ log.groupId = groupId ∧ cursor < log.rowid ∧ log.commitSequenceId ≠ 0 := by
  simp only [after, RowLog.mem_select, Bool.and_eq_true, decide_eq_true_eq, and_assoc]

theorem pairwise_after (cursor : Nat) :
    (after logs groupId cursor).Pairwise fun r s => r.rowid < s.rowid := logs.pairwise_select _

theorem getGroupLogs_store (log : NewLocalCommitLog) :
    getGroupLogs (store logs log) groupId =
      if log.groupId = groupId then getGroupLogs logs groupId ++ [⟨log, logs.lastRowid + 1⟩]
      else getGroupLogs logs groupId := by
  simp only [getGroupLogs, store, RowLog.select, RowLog.rows_append, List.filter_append]
  split
  · rename_i h
    simp [h]
  · rename_i h
    simp [h]

theorem after_eq_filter (cursor : Nat) :
    after logs groupId cursor = (getGroupLogs logs groupId).filter fun log =>
      cursor < log.rowid && log.commitSequenceId ≠ 0 := by
  simp only [after, getGroupLogs, RowLog.select, List.filter_filter]
  apply List.filter_congr
  intro log _
  rw [Bool.and_assoc, Bool.and_comm]

variable {logs groupId} {cursor : Nat} {read : List LocalCommitLog}

theorem getLocalCommitLogAfterCursor_ascending
    (h : getLocalCommitLogAfterCursor logs groupId cursor .ascendingByRowid = .ok read) :
    read = after logs groupId cursor := by
  rw [getLocalCommitLogAfterCursor] at h
  split at h
  · cases h
  · exact (Except.ok.inj h).symm

theorem getLocalCommitLogAfterCursor_descending
    (h : getLocalCommitLogAfterCursor logs groupId cursor .descendingByRowid = .ok read) :
    read = (after logs groupId cursor).reverse := by
  rw [getLocalCommitLogAfterCursor] at h
  split at h
  · cases h
  · exact (Except.ok.inj h).symm

end LocalCommitLogs

namespace RemoteCommitLogs

variable (logs : RemoteCommitLogs) (groupId : Bytes)

def store (log : NewRemoteCommitLog) : RemoteCommitLogs :=
  logs.append (fun rowid => ⟨log, rowid⟩) fun _ => rfl

def ofGroup : List RemoteCommitLog := logs.select fun log => log.groupId = groupId

def getLatestRemoteLogForGroup : Option RemoteCommitLog :=
  (ofGroup logs groupId).maxOn? fun log => log.logSequenceId.toInt

def after (cursor : Nat) : List RemoteCommitLog :=
  logs.select fun log => log.groupId = groupId && cursor < log.rowid && log.commitSequenceId ≠ 0

def getRemoteCommitLogAfterCursor (cursor : Nat) :
    CommitLogOrder → Except ConnectionError (List RemoteCommitLog)
  | .ascendingByRowid =>
    if i32Max < cursor then .error .cursorExceedsI32 else .ok (after logs groupId cursor)
  | .descendingByRowid =>
    if i32Max < cursor then .error .cursorExceedsI32 else .ok (after logs groupId cursor).reverse

@[simp] theorem mem_after {cursor : Nat} {log : RemoteCommitLog} :
    log ∈ after logs groupId cursor ↔
      log ∈ logs.rows ∧ log.groupId = groupId ∧ cursor < log.rowid ∧ log.commitSequenceId ≠ 0 := by
  simp only [after, RowLog.mem_select, Bool.and_eq_true, decide_eq_true_eq, and_assoc]

@[simp] theorem ofGroup_store (log : NewRemoteCommitLog) :
    ofGroup (store logs log) groupId =
      if log.groupId = groupId then ofGroup logs groupId ++ [⟨log, logs.lastRowid + 1⟩]
      else ofGroup logs groupId := by
  simp only [ofGroup, store, RowLog.select, RowLog.rows_append, List.filter_append]
  split
  · rename_i h
    simp [h]
  · rename_i h
    simp [h]

variable {logs groupId} {cursor : Nat} {read : List RemoteCommitLog}

theorem getRemoteCommitLogAfterCursor_descending
    (h : getRemoteCommitLogAfterCursor logs groupId cursor .descendingByRowid = .ok read) :
    read = (after logs groupId cursor).reverse := by
  rw [getRemoteCommitLogAfterCursor] at h
  split at h
  · cases h
  · exact (Except.ok.inj h).symm

end RemoteCommitLogs

end LibXmtp.Db
