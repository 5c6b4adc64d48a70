import LibXmtp.Data.Session
import LibXmtp.Db.Group
import LibXmtp.Db.GroupMessage
import LibXmtp.Db.RefreshState
import Mathlib.Data.String.Basic

/-! The processing of a welcome: the checks it passes one after the other, and the transaction that
stores its group. -/

namespace LibXmtp.Groups

open LibXmtp.Data LibXmtp.Db LibXmtp.Types

structure MlsState where
  epoch : Nat
  isActive : Bool
  deriving DecidableEq

structure DecryptedWelcome where
  groupId : Bytes
  epoch : Nat
  conversationType : Db.ConversationType
  dmId : Option String
  creatorInboxId : String
  shouldPublishCommitLog : Bool
  addedMsg : StoredGroupMessage
  messageCursor : Option Nat
  deriving DecidableEq

structure WelcomeMessage where
  cursor : Cursor
  timestamp : Int
  resuming : Bool := false
  content : DecryptedWelcome
  deriving DecidableEq

inductive WelcomeError
  | welcomeAlreadyProcessed (cursor : Cursor)
  | duplicate (item : DuplicateItem)
  | groupNotFound (groupId : Bytes)
  | other (retryable : Bool)
  deriving DecidableEq

def WelcomeError.isRetryable : WelcomeError → Bool
  | welcomeAlreadyProcessed _ => false
  | duplicate _ => false
  | groupNotFound _ => false
  | other retryable => retryable

/-- What the processing of a welcome calls and does not decide itself, and the database. -/
inductive WelcomeCall
  | lastSequenceId
  | findGroupBySequenceId
  | fromWelcomeProto
  | checkInitialMembership
  | findGroup
  | newCached
  | isActive
  | epoch
  | updateCursor
  | extractGroupMetadata
  | oneshotProcessWelcome
  | fromWelcome
  | validateDmGroup
  | updateGroupMembership
  | insertOrReplaceGroup
  | stitchDmConsent
  | storeMessage
  | updateConsent
  | updateGroupCursor
  | markReaddRequests
  | updateFailedCursor
  | transaction
  deriving DecidableEq

structure WelcomeStore where
  mls : Bytes → Option MlsState
  groups : GroupTable
  consents : ConsentTable
  messages : Table StoredGroupMessage.id
  refreshStates : RefreshStates

def WelcomeStore.isActive (s : WelcomeStore) (groupId : Bytes) : Bool :=
  (s.groups.fetch groupId).any (·.membershipState ≠ .restored) &&
    (s.mls groupId).any MlsState.isActive

structure WelcomeContext where
  installationId : Bytes
  inboxId : String
  now : Int64
  calls : WelcomeCall → Except WelcomeError Unit

def mlsCommits : Nat := 0

structure XmtpWelcome where
  welcome : WelcomeMessage
  cursorIncrement : Bool

abbrev WelcomeSession := Session WelcomeStore WelcomeError

namespace XmtpWelcome

variable (ctx : WelcomeContext) (this : XmtpWelcome)

def call (name : WelcomeCall) : WelcomeSession Unit := .ofExcept (ctx.calls name)

def lastSequenceId : WelcomeSession Nat := do
  call ctx .lastSequenceId
  let s ← get
  let (last, refreshStates) := getLastCursorForOriginator ctx.installationId .welcome
    this.welcome.cursor.originatorId s.refreshStates
  set { s with refreshStates }
  return last

def updateCursor (name : WelcomeCall) : WelcomeSession Unit := do
  call ctx name
  modify fun s => { s with
    refreshStates := Db.updateCursor ctx.installationId .welcome this.welcome.cursor
      s.refreshStates }

def isReaddAfterLeaving (existingGroup : Option StoredGroup) : Bool :=
  existingGroup.any fun g => g.membershipState = .pendingRemove &&
    g.sequenceId.any (· < asBigInt this.welcome.cursor.sequenceId)

def toStore (membershipState : GroupMembershipState) : WelcomeSession StoredGroup :=
  let content := this.welcome.content
  let group : StoredGroup := {
    id := content.groupId
    createdAtNs := ctx.now.toInt
    membershipState
    sequenceId := some (asBigInt this.welcome.cursor.sequenceId)
    originatorId := some this.welcome.cursor.originatorId
    conversationType := content.conversationType
    dmId := content.dmId
    shouldPublishCommitLog := content.shouldPublishCommitLog }
  match content.conversationType with
  | .group => pure group
  | .dm => do
    call ctx .validateDmGroup
    return { group with lastMessageNs := some this.welcome.timestamp }
  -- Sync groups are always allowed; a oneshot group does not get here.
  | .sync | .oneshot => pure { group with membershipState := .allowed }

def updateGroupMembership (readd : Bool) : WelcomeSession Unit :=
  if readd then do
    call ctx .updateGroupMembership
    modify fun s => { s with
      groups := s.groups.updateGroupMembership this.welcome.content.groupId .allowed }
  else pure ()

def insertOrReplaceGroup (group : StoredGroup) : WelcomeSession StoredGroup := do
  call ctx .insertOrReplaceGroup
  let s ← get
  let (stored, groups) := s.groups.insertOrReplaceGroup group
  set { s with groups }
  .ofExcept (stored.mapError .duplicate)

/-- The last record of the query, that is the oldest that any group of the direct messages has. Its
rows come in the order of their key, and stay in it where they have one time. -/
def findConsentByDmId (s : WelcomeStore) (dmId : String) : Option StoredConsentRecord :=
  let entities := (s.groups.rows.filter fun g => g.dmId = some dmId).map fun g =>
    Hex.lower.encode g.id
  let records := s.consents.rows.filter fun r =>
    r.entity ∈ entities && r.entityType = .conversationId
  ((records.insertionSort fun r r' => r.entity ≤ r'.entity).insertionSort fun r r' =>
    r'.consentedAtNs ≤ r.consentedAtNs).getLast?

def stitchDmConsent (group : StoredGroup) : WelcomeSession Unit := do
  call ctx .stitchDmConsent
  modify fun s =>
    match group.dmId.bind (findConsentByDmId s) with
    | none => s
    | some lastConsent =>
      let record := ⟨.conversationId, lastConsent.state, Hex.lower.encode group.id, ctx.now⟩
      { s with consents := (s.consents.insertNewerConsentRecord record).2 }

def storeOrIgnore (message : StoredGroupMessage) : WelcomeSession Unit := do
  call ctx .storeMessage
  modify fun s =>
    if s.messages.rows.any fun stored => stored.id = message.id then s
    else { s with
      messages := s.messages.insertOrIgnore message
      groups := s.groups.updateWhere
        (fun g => g.id = message.groupId && g.lastMessageNs.all (· < message.sentAtNs))
        (f := fun g => { g with lastMessageNs := some message.sentAtNs }) fun _ => rfl }

def updateConsentState (groupId : Bytes) (state : ConsentState) : WelcomeSession Unit := do
  call ctx .updateConsent
  let record := ⟨.conversationId, state, Hex.lower.encode groupId, ctx.now⟩
  modify fun s => { s with
    consents := (s.consents.insertOrReplaceConsentRecords [record]).2 }

/-- A group of our own is allowed, and one that we left has to be accepted once more. -/
def resetConsent (readd : Bool) (groupId : Bytes) : WelcomeSession Unit :=
  if ctx.inboxId = this.welcome.content.creatorInboxId then updateConsentState ctx groupId .allowed
  else if readd then updateConsentState ctx groupId .unknown
  else pure ()

def updateGroupCursor (groupId : Bytes) : WelcomeSession Unit := do
  call ctx .updateGroupCursor
  modify fun s => { s with
    refreshStates := Db.updateCursor groupId .commitMessage
      ⟨this.welcome.content.messageCursor.getD 0, mlsCommits⟩ s.refreshStates }

/-- The first part of the transaction: the welcome is not below the cursor, which may move. -/
def requireProcessing : WelcomeSession Unit := do
  let last ← lastSequenceId ctx this
  if this.welcome.resuming || last < this.welcome.cursor.sequenceId then
    if this.cursorIncrement then updateCursor ctx this .updateCursor
    else pure ()
  else throw (.welcomeAlreadyProcessed this.welcome.cursor)

def storeGroup : WelcomeSession (Bool × StoredGroup) := do
  let content := this.welcome.content
  call ctx .findGroup
  let existingGroup := (← get).groups.fetch content.groupId
  let readd := this.isReaddAfterLeaving existingGroup
  call ctx .fromWelcome
  modify fun s => { s with mls := fun id =>
    if id = content.groupId then some ⟨content.epoch, true⟩ else s.mls id }
  let group ← toStore ctx this (if readd then .allowed else .pending)
  updateGroupMembership ctx this readd
  let stored ← insertOrReplaceGroup ctx group
  return (readd, stored)

def storeRelated (readd : Bool) (stored : StoredGroup) : WelcomeSession Unit := do
  stitchDmConsent ctx stored
  storeOrIgnore ctx { this.welcome.content.addedMsg with groupId := stored.id }
  resetConsent ctx this readd stored.id
  updateGroupCursor ctx this stored.id
  call ctx .markReaddRequests

def commit : WelcomeSession (Option StoredGroup) := do
  requireProcessing ctx this
  call ctx .extractGroupMetadata
  if this.welcome.content.conversationType = .oneshot then
    call ctx .oneshotProcessWelcome
    return none
  else
    let (readd, stored) ← storeGroup ctx this
    storeRelated ctx this readd stored
    return some stored

def commitOrFailForever : WelcomeSession (Except WelcomeError (Option StoredGroup)) :=
  Session.transaction do
    let result ← Session.savepoint (commit ctx this)
    match result with
    | .error e =>
      if !e.isRetryable && this.cursorIncrement then
        updateCursor ctx this .updateFailedCursor
        call ctx .transaction
        return .error e
      else throw e
    | .ok group =>
      call ctx .transaction
      return .ok group

end XmtpWelcome

inductive WelcomePhase
  | start
  | behind
  | unprocessed
  | decrypted
  | found
  | cached
  | joined
  | active
  | validated
  | failing (error : WelcomeError)
  | done (result : Except WelcomeError (Option StoredGroup))

structure WelcomeFlight extends XmtpWelcome where
  phase : WelcomePhase := .start

namespace WelcomeFlight

variable (ctx : WelcomeContext) (f : WelcomeFlight)

def fail (e : WelcomeError) : WelcomePhase :=
  if !e.isRetryable && f.cursorIncrement then .failing e else .done (.error e)

def after (name : WelcomeCall) (failed : WelcomeError → WelcomePhase) (next : WelcomePhase) :
    WelcomePhase :=
  match ctx.calls name with
  | .error e => failed e
  | .ok () => next

def check (s : WelcomeStore) : WelcomePhase :=
  let content := f.welcome.content
  match f.phase with
  | .behind => after ctx .findGroupBySequenceId (fun e => .done (.error e))
    (match s.groups.findGroupBySequenceId f.welcome.cursor with
    | some group => .done (.ok (some group))
    | none => .unprocessed)
  | .unprocessed => after ctx .fromWelcomeProto f.fail
    (after ctx .checkInitialMembership f.fail .decrypted)
  | .decrypted => after ctx .findGroup f.fail
    (if (s.groups.fetch content.groupId).isSome then .found else .validated)
  -- A group that cannot be loaded is only logged.
  | .found => after ctx .newCached (fun _ => .validated)
    (if (s.groups.fetch content.groupId).isSome then .cached else .validated)
  | .cached => after ctx .findGroup f.fail
    (match s.groups.fetch content.groupId with
    | none => f.fail (.groupNotFound content.groupId)
    | some group => if group.membershipState = .restored then .validated else .joined)
  | .joined => after ctx .isActive f.fail
    (match s.mls content.groupId with
    | none => f.fail (.groupNotFound content.groupId)
    | some mlsGroup => if mlsGroup.isActive then .active else .validated)
  | .active => after ctx .epoch f.fail
    (match s.mls content.groupId with
    | none => f.fail (.groupNotFound content.groupId)
    | some mlsGroup =>
      if content.epoch ≤ mlsGroup.epoch then f.fail (.welcomeAlreadyProcessed f.welcome.cursor)
      else .validated)
  | phase => phase

def run (s : WelcomeStore) : WelcomePhase × WelcomeStore :=
  match f.phase with
  | .start =>
    if f.welcome.resuming then (.unprocessed, s)
    else
      match (f.lastSequenceId ctx).outcome s with
      | (.error e, s') => (.done (.error e), s')
      | (.ok last, s') =>
        (if asBigInt f.welcome.cursor.sequenceId ≤ last then .behind else .unprocessed, s')
  | .failing e =>
    match (f.updateCursor ctx .updateCursor).outcome s with
    | (.error e', s') => (.done (.error e'), s')
    | (.ok _, s') => (.done (.error e), s')
  | .validated =>
    match (f.commitOrFailForever ctx).outcome s with
    | (.error e, s') => (.done (.error e), s')
    | (.ok result, s') => (.done result, s')
  | _ => (f.check ctx s, s)

def step (s : WelcomeStore) : WelcomeFlight := { f with phase := (f.run ctx s).1 }

end WelcomeFlight

namespace WelcomeSample

def ctx : WelcomeContext := ⟨[1], "alice", 0, fun _ => .ok ()⟩

def addedMsg : StoredGroupMessage :=
  ⟨[5], [], [], 100, .membershipChange, "bob", .groupUpdated, none⟩

def welcome (sequenceId epoch : Nat) : WelcomeMessage where
  cursor := ⟨sequenceId, 11⟩
  timestamp := 100
  content := ⟨[9], epoch, .group, none, "bob", false, addedMsg, none⟩

def store : WelcomeStore := ⟨fun _ => none, .empty, .empty, .empty, .empty⟩

end WelcomeSample

end LibXmtp.Groups
