import LibXmtp.Data.Session
import LibXmtp.Db.CommitLog

/-! The worker that keeps the commit logs: it publishes the local entries, saves the remote ones
and compares the two. -/

namespace LibXmtp.Groups

open LibXmtp.Data LibXmtp.Types LibXmtp.Db

inductive CommitLogError
  | storage
  | connection (error : ConnectionError)
  | duplicateCommitLogPublicKey
  | api
  | keystore
  | crypto
  | conversion
  | group
  deriving DecidableEq

structure PlaintextCommitLogEntry where
  groupId : Bytes
  commitSequenceId : UInt64
  lastEpochAuthenticator : Bytes
  commitResult : Int32
  appliedEpochNumber : UInt64
  appliedEpochAuthenticator : Bytes

def PlaintextCommitLogEntry.fromLocal (log : LocalCommitLog) : PlaintextCommitLogEntry where
  groupId := log.groupId
  commitSequenceId := log.commitSequenceId.toUInt64
  lastEpochAuthenticator := log.lastEpochAuthenticator
  commitResult := log.commitResult.toI32
  appliedEpochNumber := log.appliedEpochNumber.toUInt64
  appliedEpochAuthenticator := log.appliedEpochAuthenticator

structure RecoverableEd25519Signature where
  bytes : Bytes
  publicKey : Bytes
  deriving DecidableEq

structure PublishCommitLogRequest where
  groupId : Bytes
  serializedCommitLogEntry : Bytes
  signature : RecoverableEd25519Signature
  deriving DecidableEq

structure CommitLogEntry where
  sequenceId : UInt64
  serializedCommitLogEntry : Bytes
  signature : Option RecoverableEd25519Signature

structure QueryCommitLogResponse where
  groupId : Bytes
  commitLogEntries : List CommitLogEntry

structure CommitLogGroup where
  id : Bytes
  commitLogPublicKey : Option Bytes := none
  isCommitLogForked : Option Bool := none

theorem CommitLogGroup.id_forked (isForked : Option Bool) (g : CommitLogGroup) :
    { g with isCommitLogForked := isForked }.id = g.id := rfl

structure StoredGroupCommitLogPublicKey where
  id : Bytes
  commitLogPublicKey : Option Bytes

structure ConversationCursorInfo where
  conversationId : Bytes
  numEntriesPublished : Nat
  lastEntryPublishedSequenceId : Int64
  lastEntryPublishedRowid : Nat

structure CommitLogCrypto where
  encode : PlaintextCommitLogEntry → Bytes
  decode : Bytes → Option PlaintextCommitLogEntry
  sign : (privateKey message : Bytes) → Except CommitLogError Bytes
  toPublicKey : Bytes → Except CommitLogError Bytes
  verifySignature : (message publicKey signature : Bytes) → Bool

/-- The database of the client, and the batches of entries that the server has accepted of it. -/
structure CommitLogStore where
  localCommitLog : LocalCommitLogs := .empty
  remoteCommitLog : RemoteCommitLogs := .empty
  refreshStates : RefreshStates := .empty
  groups : Table CommitLogGroup.id := .empty
  published : List (List PublishCommitLogRequest) := []

namespace CommitLogStore

def remoteCommitLogOriginator : Nat := 100

def cursor (s : CommitLogStore) (id : Bytes) (kind : EntityKind) : Nat :=
  cursorOf id s.refreshStates kind remoteCommitLogOriginator

def setCursor (s : CommitLogStore) (id : Bytes) (kind : EntityKind) (sequenceId : Nat) :
    CommitLogStore :=
  { s with
    refreshStates := upsertCursor id kind ⟨sequenceId, remoteCommitLogOriginator⟩ s.refreshStates }

variable {s : CommitLogStore}

@[simp] theorem localCommitLog_setCursor {id : Bytes} {kind : EntityKind} {n : Nat} :
    (s.setCursor id kind n).localCommitLog = s.localCommitLog := rfl

@[simp] theorem remoteCommitLog_setCursor {id : Bytes} {kind : EntityKind} {n : Nat} :
    (s.setCursor id kind n).remoteCommitLog = s.remoteCommitLog := rfl

@[simp] theorem groups_setCursor {id : Bytes} {kind : EntityKind} {n : Nat} :
    (s.setCursor id kind n).groups = s.groups := rfl

@[simp] theorem published_setCursor {id : Bytes} {kind : EntityKind} {n : Nat} :
    (s.setCursor id kind n).published = s.published := rfl

theorem cursor_setCursor (id id' : Bytes) (kind kind' : EntityKind) (n : Nat) :
    (s.setCursor id' kind n).cursor id kind' =
      if id' = id ∧ kind = kind' then max (s.cursor id kind') n else s.cursor id kind' := by
  rw [cursor, setCursor, cursorOf_upsertCursor]
  simp only [and_true]
  rfl

def lastCursor (id : Bytes) (kind : EntityKind) :
    Session CommitLogStore CommitLogError Nat := do
  let s ← get
  let (last, refreshStates) :=
    getLastCursorForOriginator id kind remoteCommitLogOriginator s.refreshStates
  set { s with refreshStates }
  return last

end CommitLogStore

namespace CommitLogWorker

open CommitLogStore

section Publish

/-- Whether the server has taken a batch, and whether the client learns of it. -/
inductive PublishResponse
  | accepted
  | lost
  | refused

structure PublishCalls where
  conversationIdsForRemoteLogPublish : Except CommitLogError (List StoredGroupCommitLogPublicKey)
  readConversation : Bytes → Except CommitLogError Unit
  getOrCreateSigningKey : StoredGroupCommitLogPublicKey → Except CommitLogError (Option Bytes)
  respond : Nat → List PublishCommitLogRequest → PublishResponse
  updateCursor : ConversationCursorInfo → Except CommitLogError Unit

variable (crypto : CommitLogCrypto) (calls : PublishCalls)

def signEntry (conversation : StoredGroupCommitLogPublicKey) (privateKey : Bytes)
    (entry : PlaintextCommitLogEntry) : Except CommitLogError PublishCommitLogRequest := do
  let serializedCommitLogEntry := crypto.encode entry
  let bytes ← crypto.sign privateKey serializedCommitLogEntry
  let publicKey ← crypto.toPublicKey privateKey
  return { groupId := conversation.id, serializedCommitLogEntry, signature := ⟨bytes, publicKey⟩ }

def signGroupLogs (conversation : StoredGroupCommitLogPublicKey)
    (entries : List PlaintextCommitLogEntry) :
    Except CommitLogError (List PublishCommitLogRequest) := do
  match ← calls.getOrCreateSigningKey conversation with
  | none => return []
  | some privateKey => entries.mapM (signEntry crypto conversation privateKey)

/-- A commit that removed the member is not published, nor the entries that start a chain. -/
def entriesToPublish (logs : List LocalCommitLog) : List PlaintextCommitLogEntry :=
  (logs.filter fun log => log.commitType ≠ some CommitType.removedFromGroup.toString).map .fromLocal

def prepareConversation (conversation : StoredGroupCommitLogPublicKey) :
    Session CommitLogStore CommitLogError
      (Option (ConversationCursorInfo × List PublishCommitLogRequest)) := do
  .ofExcept (calls.readConversation conversation.id)
  let localCommitLogCursor :=
    (LocalCommitLogs.getLocalCommitLogCursor (← get).localCommitLog conversation.id).getD 0
  let publishedCommitLogCursor ← lastCursor conversation.id .commitLogUpload
  if localCommitLogCursor ≤ publishedCommitLogCursor then
    return none
  else
    let logs ← .ofExcept ((LocalCommitLogs.getLocalCommitLogAfterCursor (← get).localCommitLog
      conversation.id publishedCommitLogCursor .ascendingByRowid).mapError .connection)
    let entries := entriesToPublish logs
    match logs.getLast? with
    | none => return none
    | some last =>
      let signedEntries ← .ofExcept (signGroupLogs crypto calls conversation entries)
      return some ({
        conversationId := conversation.id
        numEntriesPublished := entries.length
        lastEntryPublishedSequenceId := (entries.getLast?.map fun entry =>
          entry.commitSequenceId.toInt64).getD 0
        lastEntryPublishedRowid := last.rowid }, signedEntries)

def preparePublishCommitLogInfo (conversations : List StoredGroupCommitLogPublicKey) :
    Session CommitLogStore CommitLogError
      (List ConversationCursorInfo × List PublishCommitLogRequest) := do
  let prepared ← conversations.mapM (prepareConversation crypto calls)
  return (prepared.reduceOption.map Prod.fst, (prepared.reduceOption.map Prod.snd).flatten)

def publishBatch (index : Nat) (batch : List PublishCommitLogRequest) :
    Session CommitLogStore CommitLogError Unit :=
  match calls.respond index batch with
  | .accepted => modify fun s => { s with published := s.published ++ [batch] }
  | .lost => do
    modify fun s => { s with published := s.published ++ [batch] }
    .ofExcept (.error .api)
  | .refused => .ofExcept (.error .api)

def publishCommitLog (requests : List PublishCommitLogRequest) :
    Session CommitLogStore CommitLogError Unit :=
  (requests.toChunks 10).zipIdx.forM fun (batch, index) => publishBatch calls index batch

def updatePublishCursor (info : ConversationCursorInfo) :
    Session CommitLogStore CommitLogError Unit := do
  .ofExcept (calls.updateCursor info)
  modify fun s => s.setCursor info.conversationId .commitLogUpload info.lastEntryPublishedRowid

def publishCommitLogsToRemote :
    Session CommitLogStore CommitLogError (List ConversationCursorInfo) := do
  let conversations ← .ofExcept calls.conversationIdsForRemoteLogPublish
  let (infos, entries) ← preparePublishCommitLogInfo crypto calls conversations
  if entries = [] then
    return infos
  else
    publishCommitLog calls entries
    infos.forM (updatePublishCursor calls)
    return infos

end Publish

section Save

/-- What a run that saves remote entries meets outside of the database. -/
structure SaveCalls where
  getConversationIdsForRemoteLogDownload : Except CommitLogError (Bytes → Bool)
  queryCommitLog : Except CommitLogError (List QueryCommitLogResponse)
  maybeSharePrivateKey : Bytes → Bytes → Except CommitLogError Unit
  readGroup : Bytes → Except CommitLogError Unit
  storeRemoteCommitLog : NewRemoteCommitLog → Except CommitLogError Unit
  updateCursor : Bytes → Except CommitLogError Unit

variable (crypto : CommitLogCrypto) (calls : SaveCalls)

def verifyCommitLogSignature (entry : CommitLogEntry) (expectedPublicKey : Bytes) : Bool :=
  entry.signature.any fun signature => signature.publicKey = expectedPublicKey &&
    crypto.verifySignature entry.serializedCommitLogEntry expectedPublicKey signature.bytes

/-- An entry is skipped unless it is signed, names the group and follows the latest saved one. -/
def shouldSkipRemoteCommitLogEntry (groupId : Bytes) (latest : Option NewRemoteCommitLog)
    (serializedEntry : CommitLogEntry) (entry : PlaintextCommitLogEntry)
    (consensusPublicKey : Bytes) : Bool :=
  if entry.groupId ≠ groupId || entry.commitSequenceId = 0 then true
  else if !verifyCommitLogSignature crypto serializedEntry consensusPublicKey then true
  else
    match latest with
    | none => false
    | some latest =>
      let isApplied : Bool := entry.commitResult = CommitResult.applied
      entry.commitSequenceId ≤ latest.commitSequenceId.toUInt64 ||
      (isApplied && latest.appliedEpochAuthenticator ≠ [] &&
        entry.lastEpochAuthenticator ≠ latest.appliedEpochAuthenticator) ||
      (isApplied && entry.appliedEpochNumber.toInt64 ≠ latest.appliedEpochNumber + 1) ||
      (!isApplied && (entry.appliedEpochAuthenticator ≠ latest.appliedEpochAuthenticator ||
        entry.appliedEpochNumber.toInt64 ≠ latest.appliedEpochNumber))

def groupIdTryFrom (bytes : Bytes) : Except CommitLogError Bytes :=
  if bytes.length = 16 then .ok bytes else .error .conversion

def newRemoteCommitLog (serializedEntry : CommitLogEntry) (entry : PlaintextCommitLogEntry) :
    NewRemoteCommitLog where
  logSequenceId := serializedEntry.sequenceId.toInt64
  groupId := entry.groupId
  commitSequenceId := entry.commitSequenceId.toInt64
  commitResult := .ofI32 entry.commitResult
  appliedEpochNumber := entry.appliedEpochNumber.toInt64
  appliedEpochAuthenticator := entry.appliedEpochAuthenticator

/-- The latest saved entry is carried along, with the number of entries that have been saved. -/
def saveRemoteCommitLogEntry (groupId consensusPublicKey : Bytes)
    (saved : Option NewRemoteCommitLog × Nat) (commitLogEntry : CommitLogEntry) :
    Session CommitLogStore CommitLogError (Option NewRemoteCommitLog × Nat) :=
  match crypto.decode commitLogEntry.serializedCommitLogEntry with
  | none => return saved
  | some logEntry =>
    if shouldSkipRemoteCommitLogEntry crypto groupId saved.1 commitLogEntry logEntry
        consensusPublicKey then
      return saved
    else do
      let _ ← .ofExcept (groupIdTryFrom logEntry.groupId)
      let log := newRemoteCommitLog commitLogEntry logEntry
      .ofExcept (calls.storeRemoteCommitLog log)
      modify fun s => { s with remoteCommitLog := RemoteCommitLogs.store s.remoteCommitLog log }
      return (some log, saved.2 + 1)

def saveRemoteCommitLogEntries (groupId consensusPublicKey : Bytes)
    (entries : List CommitLogEntry) : Session CommitLogStore CommitLogError Nat := do
  .ofExcept (calls.readGroup groupId)
  let latest := RemoteCommitLogs.getLatestRemoteLogForGroup (← get).remoteCommitLog groupId
  let saved ← entries.foldlM
    (saveRemoteCommitLogEntry crypto calls groupId consensusPublicKey)
    (latest.map RemoteCommitLog.toNewRemoteCommitLog, 0)
  return saved.2

/-- The cursor moves to the last entry, also if that one was not saved; a number that does not fit
into the column is below every cursor. -/
def updateDownloadCursor (groupId : Bytes) (entries : List CommitLogEntry) :
    Session CommitLogStore CommitLogError Unit :=
  match entries.getLast? with
  | none => return
  | some last => do
    .ofExcept (calls.updateCursor groupId)
    modify fun s =>
      if 0 ≤ last.sequenceId.toInt64 then
        s.setCursor groupId .commitLogDownload last.sequenceId.toNat
      else s

def saveRemoteCommitLogEntriesAndUpdateCursors (response : QueryCommitLogResponse)
    (consensusPublicKey : Option Bytes) : Session CommitLogStore CommitLogError Nat := do
  let groupId ← .ofExcept (groupIdTryFrom response.groupId)
  let numEntriesSaved ← match consensusPublicKey with
    | none => pure 0
    | some key => saveRemoteCommitLogEntries crypto calls groupId key response.commitLogEntries
  updateDownloadCursor calls groupId response.commitLogEntries
  return numEntriesSaved

def setGroupCommitLogPublicKey (groupId publicKey : Bytes) :
    Session CommitLogStore CommitLogError Unit := do
  let s ← get
  if s.groups.rows.any fun g => g.id = groupId && g.commitLogPublicKey.isNone then
    set { s with
      groups := s.groups.updateWhere (fun g => g.id = groupId && g.commitLogPublicKey.isNone)
        (f := fun g => { g with commitLogPublicKey := some publicKey }) fun _ => rfl }
  else
    .ofExcept (.error .duplicateCommitLogPublicKey)

/-- The first key that an entry is validly signed with becomes the key of the group. -/
def deriveConsensusPublicKey (response : QueryCommitLogResponse) :
    Session CommitLogStore CommitLogError (Option Bytes) := do
  let groupId ← .ofExcept (groupIdTryFrom response.groupId)
  match response.commitLogEntries.findSome? fun entry => entry.signature.bind fun signature =>
      if verifyCommitLogSignature crypto entry signature.publicKey then some signature.publicKey
      else none with
  | none => return none
  | some publicKey =>
    .ofExcept (calls.maybeSharePrivateKey groupId publicKey)
    setGroupCommitLogPublicKey groupId publicKey
    return some publicKey

def saveResponse (keys : List StoredGroupCommitLogPublicKey)
    (results : List (Bytes × Nat)) (response : QueryCommitLogResponse) :
    Session CommitLogStore CommitLogError (List (Bytes × Nat)) := do
  if response.commitLogEntries = [] then
    return results
  else
    let known := (keys.find? fun c => c.id = response.groupId).bind (·.commitLogPublicKey)
    let consensusPublicKey ← match known with
      | some key => pure (some key)
      | none => deriveConsensusPublicKey crypto calls response
    let numEntries ← saveRemoteCommitLogEntriesAndUpdateCursors crypto calls response
      consensusPublicKey
    return results ++ [(response.groupId, numEntries)]

/-- The keys are read before the server is asked; nothing is asked for without a conversation. -/
def saveRemoteCommitLog : Session CommitLogStore CommitLogError (List (Bytes × Nat)) := do
  let listed ← .ofExcept calls.getConversationIdsForRemoteLogDownload
  let keys := ((← get).groups.rows.filter fun g => listed g.id).map fun g =>
    (⟨g.id, g.commitLogPublicKey⟩ : StoredGroupCommitLogPublicKey)
  keys.forM fun c => discard (lastCursor c.id .commitLogDownload)
  if keys = [] then
    return []
  else
    let responses ← .ofExcept calls.queryCommitLog
    responses.foldlM (saveResponse crypto calls keys) []

end Save

section ForkCheck

/-- The accesses to the database of a fork check, any of which may fail. -/
inductive ForkCheckCall
  | readCursor (kind : EntityKind)
  | readChainStart
  | updateCursor (kind : EntityKind) (rowid : Nat)
  | readLogs
  | readStatus
  | setStatus
  | commit

variable (calls : ForkCheckCall → Except CommitLogError Unit) (id : Bytes)

def readCursor (kind : EntityKind) : Session CommitLogStore CommitLogError Nat := do
  .ofExcept (calls (.readCursor kind))
  lastCursor id kind

def updateForkCheckCursor (kind : EntityKind) (rowid : Nat) :
    Session CommitLogStore CommitLogError Unit := do
  .ofExcept (calls (.updateCursor kind rowid))
  modify fun s => s.setCursor id kind rowid

/-- The mark of a commit that removed the member: nothing of the new epoch is known, so its entry
is not compared. -/
def isTerminal (log : LocalCommitLog) : Bool :=
  log.commitResult = .success && log.appliedEpochAuthenticator = log.lastEpochAuthenticator

def findMatchingRemoteLog (remoteLogs : List RemoteCommitLog) (commitSequenceId : Int64) :
    Option RemoteCommitLog :=
  remoteLogs.find? fun log => log.commitSequenceId = commitSequenceId

/-- The local entries are gone through from the newest on, up to the first that has a remote one. -/
def compareLogs (remoteLogs : List RemoteCommitLog) :
    Bool → List LocalCommitLog → Session CommitLogStore CommitLogError (Option Bool)
  | _, [] => return none
  | isRemoteLogUpToDate, localLog :: localLogs =>
    if isTerminal localLog then do
      updateForkCheckCursor calls id .commitLogForkCheckLocal localLog.rowid
      compareLogs remoteLogs isRemoteLogUpToDate localLogs
    else
      match findMatchingRemoteLog remoteLogs localLog.commitSequenceId with
      | none => compareLogs remoteLogs false localLogs
      | some remoteLog => do
        updateForkCheckCursor calls id .commitLogForkCheckLocal localLog.rowid
        updateForkCheckCursor calls id .commitLogForkCheckRemote remoteLog.rowid
        if localLog.appliedEpochAuthenticator ≠ remoteLog.appliedEpochAuthenticator then
          return some true
        else if isRemoteLogUpToDate then
          return some false
        else
          return none

def getGroupCommitLogForkedStatus : Session CommitLogStore CommitLogError (Option Bool) := do
  .ofExcept (calls .readStatus)
  match (← get).groups.fetch id with
  | none => .ofExcept (.error .storage)
  | some group => return group.isCommitLogForked

def crossChainStart (cursor : Nat) : Session CommitLogStore CommitLogError (Nat × Bool) := do
  .ofExcept (calls .readChainStart)
  match LocalCommitLogs.getLatestChainStartRowid (← get).localCommitLog id with
  | none => return (cursor, false)
  | some rowid =>
    if cursor < rowid then do
      updateForkCheckCursor calls id .commitLogForkCheckLocal rowid
      return (rowid, true)
    else
      return (cursor, false)

def checkConversationForkState : Session CommitLogStore CommitLogError (Option Bool) := do
  let forkCheckLocalCursor ← readCursor calls id .commitLogForkCheckLocal
  let forkCheckRemoteCursor ← readCursor calls id .commitLogForkCheckRemote
  let (localCursor, crossedChainStart) ← crossChainStart calls id forkCheckLocalCursor
  .ofExcept (calls .readLogs)
  let localLogs ← .ofExcept ((LocalCommitLogs.getLocalCommitLogAfterCursor
    (← get).localCommitLog id localCursor .descendingByRowid).mapError .connection)
  let remoteLogs ← .ofExcept ((RemoteCommitLogs.getRemoteCommitLogAfterCursor
    (← get).remoteCommitLog id forkCheckRemoteCursor .descendingByRowid).mapError .connection)
  if localLogs = [] then
    if crossedChainStart then
      return none
    else
      getGroupCommitLogForkedStatus calls id
  else
    compareLogs calls id remoteLogs true localLogs

def setGroupCommitLogForkedStatus (isForked : Option Bool) :
    Session CommitLogStore CommitLogError Unit := do
  .ofExcept (calls .setStatus)
  modify fun s => { s with
    groups := s.groups.updateWhere (fun g => g.id = id)
      (f := fun g => { g with isCommitLogForked := isForked }) (CommitLogGroup.id_forked isForked) }

def updateConversationForkedState : Session CommitLogStore CommitLogError Unit :=
  Session.transaction do
    let isForked ← checkConversationForkState calls id
    setGroupCommitLogForkedStatus calls id isForked
    .ofExcept (calls .commit)

def updateForkedState (listed : Except CommitLogError (Bytes → Bool))
    (calls : Bytes → ForkCheckCall → Except CommitLogError Unit) :
    Session CommitLogStore CommitLogError Unit := do
  let listed ← .ofExcept listed
  let ids := ((← get).groups.rows.filter fun g =>
    listed g.id && g.isCommitLogForked ≠ some true).map CommitLogGroup.id
  ids.forM fun id => updateConversationForkedState (calls id) id

end ForkCheck

end CommitLogWorker

end LibXmtp.Groups
