import LibXmtp.Db.GroupIntent
import LibXmtp.Db.RefreshState

/-! The sync of a group: processing the messages of the network, publishing intents, and what is
done after a commit. -/

namespace LibXmtp.Groups

open LibXmtp.Data LibXmtp.Types LibXmtp.Db

inductive ContentType
  | application
  | proposal
  | commit
  deriving DecidableEq

/-- What can be read off a protocol message of type `π` without its keys. -/
structure Framing (π : Type) where
  isPrivateMessage : π → Bool
  contentType : π → ContentType
  epoch : π → Nat
  sha256 : π → Bytes

structure GroupMessage (π : Type) where
  cursor : Cursor
  message : π

namespace Framing

variable {π : Type} (framing : Framing π) (envelope : GroupMessage π)

def payloadHash : Bytes := framing.sha256 envelope.message

def isCommit : Bool := framing.contentType envelope.message = .commit

def entityKind : EntityKind :=
  if framing.isCommit envelope then .commitMessage else .applicationMessage

end Framing

/-- The errors of commit validation, as far as the sync tells them apart. -/
inductive CommitValidationFailure
  | protocolVersionTooLow (minVersion : String)
  | other (retryable : Bool)
  deriving DecidableEq

inductive GroupMessageProcessingError
  | storage (error : IntentTable.StorageError)
  | commitValidation (error : CommitValidationFailure)
  | oldEpoch (messageEpoch groupEpoch : Nat)
  | futureEpoch (messageEpoch groupEpoch : Nat)
  | intentMissingStagedCommit
  | intentAlreadyProcessed
  | preCommitProposalPhaseComplete
  | epochIncrementNotAllowed
  | unsupportedMessageType
  | groupPaused
  | wrongEpoch
  | other (retryable : Bool)
  deriving DecidableEq

def CommitValidationFailure.isRetryable : CommitValidationFailure → Bool
  | .protocolVersionTooLow _ => false
  | .other retryable => retryable

def GroupMessageProcessingError.isRetryable : GroupMessageProcessingError → Bool
  | .storage error => error.isRetryable
  | .commitValidation error => error.isRetryable
  | .other retryable => retryable
  | .oldEpoch .. | .futureEpoch .. | .intentMissingStagedCommit | .intentAlreadyProcessed
  | .preCommitProposalPhaseComplete | .epochIncrementNotAllowed | .unsupportedMessageType
  | .groupPaused | .wrongEpoch => false

structure IntentResolutionError where
  processingError : GroupMessageProcessingError
  nextIntentState : IntentState

/-- The storage of one group. The content is all that is stored besides: the messages, and the MLS
group apart from its epoch. -/
structure Database (κ : Type) where
  refreshStates : RefreshStates
  intents : IntentTable
  epoch : Nat
  /-- The intents whose staged commit the MLS group has merged, with the payloads they were
  published in; a history no code reads. -/
  merged : List (Nat × Option Bytes)
  paused : Option String
  failedCommits : List Nat
  maybeForked : Bool
  /-- The intents whose welcomes have been sent, with the actions they were sent for; a history as
  well. -/
  welcomesSent : List (Nat × Bytes)
  content : κ

structure Call (κ : Type) where
  write : κ → κ
  result : Except GroupMessageProcessingError Unit

inductive ProcessedMessageContent
  | applicationMessage
  | proposalMessage
  | externalJoinProposalMessage
  | ownPrivateMessage
  | stagedCommitMessage (senderIsMember : Bool)
  | unexpected

structure Calls (κ : Type) where
  loadMlsGroup : Except GroupMessageProcessingError Unit
  readDb : Except IntentTable.StorageError Unit
  updateCursor : Except IntentTable.StorageError Unit
  updateCursorOnError : Except IntentTable.StorageError Unit
  setGroupPaused : Except IntentTable.StorageError Unit
  markFailedCommitLogged : Except IntentTable.StorageError Unit
  pruneIcebox : Except IntentTable.StorageError Unit
  isActive : Bool
  decodeStagedCommit : Bytes → Except GroupMessageProcessingError Unit
  fromStagedCommit : Except CommitValidationFailure Unit
  mergeApplied : Bool
  mergeStagedCommitLogged : Call κ
  markReaddRequestsAsResponded : Call κ
  saveTranscriptMessage : Call κ
  calculateMessageIdForIntent : Except GroupMessageProcessingError (Option Bytes)
  setDeliveryStatusToPublished : Call κ
  handleMetadataUpdateFromIntent : Call κ
  processMessageWithAppData : Except GroupMessageProcessingError ProcessedMessageContent
  reload : Except GroupMessageProcessingError Unit
  extractMessageSender : Except GroupMessageProcessingError Unit
  committedFloorExceeding : Option String
  /-- The proposals must be enabled, and the proposal must be valid for the policies and the
  metadata of the group, which have to be read. No failure of that is to be retried. -/
  validProposal : Bool
  updateCursorOnInvalid : Except IntentTable.StorageError Unit
  processMessageAgain : Call κ
  storeMessage : Call κ

def Calls.succeeding {κ : Type} (content : ProcessedMessageContent) : Calls κ where
  loadMlsGroup := .ok ()
  readDb := .ok ()
  updateCursor := .ok ()
  updateCursorOnError := .ok ()
  setGroupPaused := .ok ()
  markFailedCommitLogged := .ok ()
  pruneIcebox := .ok ()
  isActive := true
  decodeStagedCommit _ := .ok ()
  fromStagedCommit := .ok ()
  mergeApplied := true
  mergeStagedCommitLogged := ⟨id, .ok ()⟩
  markReaddRequestsAsResponded := ⟨id, .ok ()⟩
  saveTranscriptMessage := ⟨id, .ok ()⟩
  calculateMessageIdForIntent := .ok none
  setDeliveryStatusToPublished := ⟨id, .ok ()⟩
  handleMetadataUpdateFromIntent := ⟨id, .ok ()⟩
  processMessageWithAppData := .ok content
  reload := .ok ()
  extractMessageSender := .ok ()
  committedFloorExceeding := none
  validProposal := true
  updateCursorOnInvalid := .ok ()
  processMessageAgain := ⟨id, .ok ()⟩
  storeMessage := ⟨id, .ok ()⟩

def Database.new {κ : Type} (content : κ) : Database κ where
  refreshStates := .empty
  intents := .empty
  epoch := 0
  merged := []
  paused := none
  failedCommits := []
  maybeForked := false
  welcomesSent := []
  content

namespace MlsSync

variable {π κ : Type} (groupId : Bytes) (framing : Framing π)

def maxPastEpochs : Nat := 3

def maxIntentPublishAttempts : Nat := 3

section Store

variable (envelope : GroupMessage π) (db : Database κ)

def maybeUpdateCursor : Bool × Database κ :=
  let entityKind := framing.entityKind envelope
  let states := updateCursor groupId entityKind envelope.cursor db.refreshStates
  let stored := db.refreshStates.fetch (groupId, entityKind, envelope.cursor.originatorId)
  let updated := envelope.cursor.sequenceId < 2 ^ 63 &&
    stored.all fun state => state.sequenceId < envelope.cursor.sequenceId
  (updated, { db with refreshStates := states })

def getLastCursor : Nat × Database κ :=
  let (last, states) := getLastCursorForOriginator groupId (framing.entityKind envelope)
    envelope.cursor.originatorId db.refreshStates
  (last, { db with refreshStates := states })

end Store

/-- What a call writes stays written if it ends in an error, unless the transaction is rolled
back. -/
def call (c : Call κ) (db : Database κ) : Except GroupMessageProcessingError Unit × Database κ :=
  (c.result, { db with content := c.write db.content })

section Own

variable (calls : Calls κ) (intent : StoredGroupIntent) (envelope : GroupMessage π)

def validateMessageEpoch (groupEpoch messageEpoch : Nat) :
    Except GroupMessageProcessingError Unit :=
  if messageEpoch + maxPastEpochs ≤ groupEpoch then .error (.oldEpoch messageEpoch groupEpoch)
  else if groupEpoch < messageEpoch then .error (.futureEpoch messageEpoch groupEpoch)
  else .ok ()

def withoutCommit : IntentKind → Bool
  | .sendMessage | .proposeMemberUpdate | .proposeGroupContextExtensions => true
  | _ => false

def stageAndValidateIntent (groupEpoch : Nat) : Except IntentResolutionError (Option Bytes) := do
  let messageEpoch := framing.epoch envelope.message
  if intent.kind = .commitPendingProposals ∧ intent.stagedCommit = none ∨
      withoutCommit intent.kind then
    (validateMessageEpoch groupEpoch messageEpoch).mapError fun error => ⟨error, .toPublish⟩
    return none
  else
    match intent.publishedInEpoch with
    | none => return none
    | some _ =>
      rejectIf (messageEpoch < groupEpoch) ⟨.oldEpoch messageEpoch groupEpoch, .toPublish⟩
      rejectIf (groupEpoch < messageEpoch) ⟨.futureEpoch messageEpoch groupEpoch, .toPublish⟩
      let stagedCommit ← okOr intent.stagedCommit ⟨.intentMissingStagedCommit, .error⟩
      (calls.decodeStagedCommit stagedCommit).mapError fun error => ⟨error, .error⟩
      calls.fromStagedCommit.mapError fun error => ⟨.commitValidation error, .error⟩
      return some stagedCommit

def mergeOwnCommit (db : Database κ) : Except GroupMessageProcessingError Unit × Database κ :=
  let (result, db) := call calls.mergeStagedCommitLogged db
  if result.isOk || calls.mergeApplied then
    (result, { db with
      epoch := db.epoch + 1, merged := db.merged ++ [(intent.id, intent.payloadHash)] })
  else (result, db)

def processOwnCommit (db : Database κ) : Except IntentResolutionError Unit × Database κ :=
  match mergeOwnCommit calls intent db with
  | (.error error, db) => (.error ⟨error, .toPublish⟩, db)
  | (.ok (), db) =>
    match call calls.markReaddRequestsAsResponded db with
    | (.error error, db) => (.error ⟨error, .error⟩, db)
    | (.ok (), db) =>
      match call calls.saveTranscriptMessage db with
      | (.error error, db) => (.error ⟨error, .error⟩, db)
      | (.ok (), db) => (.ok (), db)

def processOwnSentMessage (db : Database κ) : Except IntentResolutionError Unit × Database κ :=
  match calls.calculateMessageIdForIntent with
  | .error error => (.error ⟨error, .error⟩, db)
  | .ok none => (.ok (), db)
  | .ok (some _) =>
    match call calls.setDeliveryStatusToPublished db with
    | (.error error, db) => (.error ⟨error, .error⟩, db)
    | (.ok (), db) => (.ok (), db)

def processOwnMessage (commit : Option Bytes) (db : Database κ) :
    Except IntentResolutionError Unit × Database κ :=
  if intent.state = .committed ∨ intent.state = .processed ∨ intent.state = .error then
    (.error ⟨.intentAlreadyProcessed, intent.state⟩, db)
  else if intent.kind = .commitPendingProposals ∧ commit = none then
    (.error ⟨.preCommitProposalPhaseComplete, .toPublish⟩, db)
  else
    match commit with
    | some _ => processOwnCommit calls intent db
    | none => processOwnSentMessage calls db

/-- Whether the message still requires processing. Only a trusted order moves the cursor. -/
def requiresProcessing (trustMessageOrder : Bool) (db : Database κ) :
    Except GroupMessageProcessingError (Bool × Database κ) := do
  if trustMessageOrder then
    calls.updateCursor.mapError .storage
    return maybeUpdateCursor groupId framing envelope db
  else
    let (last, db) := getLastCursor groupId framing envelope db
    return (last < envelope.cursor.sequenceId, db)

/-- The state an intent goes to, with the cause if that is the error state. An error here rolls the
whole transaction back. -/
def nextIntentState (result : Except IntentResolutionError Unit) (db : Database κ) :
    Except GroupMessageProcessingError
      (IntentState × Option GroupMessageProcessingError × Database κ) :=
  match result with
  | .ok () => .ok (.committed, none, db)
  | .error ⟨.commitValidation (.protocolVersionTooLow minVersion), _⟩ =>
    .error (.commitValidation (.protocolVersionTooLow minVersion))
  | .error ⟨error, next⟩ =>
    if error.isRetryable then .error error
    else
      let db := if framing.isCommit envelope ∧ calls.markFailedCommitLogged.isOk then
        { db with failedCommits := db.failedCommits ++ [envelope.cursor.sequenceId] } else db
      .ok (next, if next = .error then some error else none, db)

def setIntentState (next : IntentState) (db : Database κ) :
    Except GroupMessageProcessingError (Database κ) := do
  match next with
  | .toPublish =>
    let intents ← (db.intents.setGroupIntentToPublish intent.id).mapError .storage
    return { db with intents }
  | .committed =>
    let (result, db) := call calls.handleMetadataUpdateFromIntent db
    result
    let intents ← (db.intents.setGroupIntentCommitted intent.id envelope.cursor).mapError .storage
    return { db with intents }
  | .error =>
    let intents ← (db.intents.setGroupIntentError intent.id).mapError .storage
    return { db with intents }
  | .processed =>
    let intents ← (db.intents.setGroupIntentProcessed intent.id).mapError .storage
    return { db with intents }
  | .published | .superseded => return db

def processValidated (validation : Except IntentResolutionError (Option Bytes))
    (db : Database κ) : Except IntentResolutionError Unit × Database κ :=
  match validation with
  | .error error => (.error error, db)
  | .ok commit => processOwnMessage calls intent commit db

/-- The transaction on a message of an own intent, from what its validation has come to. What has
failed for good goes to the state of the intent, and is no error of the transaction. -/
def resolveOwnIntent (trustMessageOrder : Bool)
    (validation : Except IntentResolutionError (Option Bytes)) (db : Database κ) :
    Except GroupMessageProcessingError (Option GroupMessageProcessingError × Database κ) := do
  let (required, db) ← requiresProcessing groupId framing calls envelope trustMessageOrder db
  if required then
    let (result, db) := processValidated calls intent validation db
    let (next, cause, db) ← nextIntentState framing calls envelope result db
    if next = intent.state then return (none, db)
    else
      let db ← setIntentState calls intent envelope next db
      return (if next = IntentState.error then cause else none, db)
  else return (none, db)

end Own

def transaction {α : Type} (body : Database κ → Except GroupMessageProcessingError (α × Database κ))
    (db : Database κ) : Except GroupMessageProcessingError α × Database κ :=
  match body db with
  | .ok (a, db') => (.ok a, db')
  | .error error => (.error error, db)

section External

variable (calls : Calls κ) (envelope : GroupMessage π)

/-- A message that is not valid moves the cursor before it is refused, even outside of a trusted
order. -/
def refuseInvalid (db : Database κ) : Except GroupMessageProcessingError Unit × Database κ :=
  match calls.updateCursorOnInvalid with
  | .error error => (.error (.storage error), db)
  | .ok () =>
    (.error (.commitValidation (.other false)), (maybeUpdateCursor groupId framing envelope db).2)

def validateExternal (content : ProcessedMessageContent) (db : Database κ) :
    Except GroupMessageProcessingError Unit × Database κ :=
  match content with
  | .stagedCommitMessage senderIsMember =>
    if senderIsMember then
      match calls.fromStagedCommit with
      | .ok () => (.ok (), db)
      | .error (.protocolVersionTooLow minVersion) =>
        (.error (.commitValidation (.protocolVersionTooLow minVersion)), db)
      | .error (.other true) => (.error (.commitValidation (.other true)), db)
      | .error (.other false) => refuseInvalid groupId framing calls envelope db
    else (.error (.commitValidation (.other false)), db)
  | .proposalMessage =>
    match calls.committedFloorExceeding with
    | some minVersion => (.error (.commitValidation (.protocolVersionTooLow minVersion)), db)
    | none =>
      if calls.validProposal then (.ok (), db)
      else refuseInvalid groupId framing calls envelope db
  | .applicationMessage | .externalJoinProposalMessage | .ownPrivateMessage | .unexpected =>
    (.ok (), db)

def mergeExternalCommit (db : Database κ) :
    Except GroupMessageProcessingError Unit × Database κ :=
  let (result, db) := call calls.mergeStagedCommitLogged db
  (result, { db with epoch := db.epoch + 1 })

def processExternalMessage (content : ProcessedMessageContent) (db : Database κ) :
    Except GroupMessageProcessingError (Database κ) := do
  calls.extractMessageSender
  match content with
  | .applicationMessage | .proposalMessage =>
    let (result, db) := call calls.storeMessage db
    result
    return db
  | .externalJoinProposalMessage | .ownPrivateMessage => return db
  | .unexpected => .error (.other false)
  | .stagedCommitMessage _ =>
    let (result, db) := mergeExternalCommit calls db
    result
    let (result, db) := call calls.markReaddRequestsAsResponded db
    result
    let (result, db) := call calls.saveTranscriptMessage db
    result
    return db

def applyExternal (trustMessageOrder : Bool) (content : ProcessedMessageContent)
    (db : Database κ) : Except GroupMessageProcessingError (Unit × Database κ) := do
  let (required, db) ← requiresProcessing groupId framing calls envelope trustMessageOrder db
  if required then
    let (result, db) := call calls.processMessageAgain db
    result
    let db ← processExternalMessage calls content db
    return ((), db)
  else return ((), db)

def validateAndProcessExternalMessage (trustMessageOrder : Bool) (db : Database κ) :
    Except GroupMessageProcessingError Unit × Database κ :=
  match (do
    let content ← calls.processMessageWithAppData
    calls.reload
    calls.extractMessageSender
    return content : Except GroupMessageProcessingError ProcessedMessageContent) with
  | .error error => (.error error, db)
  | .ok content =>
    match validateExternal groupId framing calls envelope content db with
    | (.error error, db) => (.error error, db)
    | (.ok (), db) =>
      transaction (applyExternal groupId framing calls envelope trustMessageOrder content) db

end External

section Process

variable (calls : Calls κ) (envelope : GroupMessage π) (trustMessageOrder : Bool)

structure ProcessedMessageOutcome where
  previouslyProcessed : Bool
  intentError : Option GroupMessageProcessingError

/-- The intent a message was published for, if any; nothing for a message at or below the cursor. -/
def lookupIntent (db : Database κ) :
    Except GroupMessageProcessingError (Option (Option StoredGroupIntent)) × Database κ :=
  if !trustMessageOrder && framing.isCommit envelope then (.error .epochIncrementNotAllowed, db)
  else
    match calls.readDb with
    | .error error => (.error (.storage error), db)
    | .ok () =>
      let intent := db.intents.findGroupIntentByPayloadHash (framing.payloadHash envelope)
      let (last, db) := getLastCursor groupId framing envelope db
      if envelope.cursor.sequenceId ≤ last then (.ok none, db) else (.ok (some intent), db)

def processLookedUp (intent : Option StoredGroupIntent) (db : Database κ) :
    Except GroupMessageProcessingError ProcessedMessageOutcome × Database κ :=
  match intent with
  | some intent =>
    let validation := stageAndValidateIntent framing calls intent envelope db.epoch
    match transaction (resolveOwnIntent groupId framing calls intent envelope trustMessageOrder
      validation) db with
    | (.ok intentError, db) => (.ok ⟨false, intentError⟩, db)
    | (.error error, db) => (.error error, db)
  | none =>
    match validateAndProcessExternalMessage groupId framing calls envelope trustMessageOrder db with
    | (.ok (), db) => (.ok ⟨false, none⟩, db)
    | (.error error, db) => (.error error, db)

def processMessageInner (db : Database κ) :
    Except GroupMessageProcessingError ProcessedMessageOutcome × Database κ :=
  match lookupIntent groupId framing calls envelope trustMessageOrder db with
  | (.error error, db) => (.error error, db)
  | (.ok none, db) => (.ok ⟨true, none⟩, db)
  | (.ok (some intent), db) =>
    processLookedUp groupId framing calls envelope trustMessageOrder intent db

/-- An error that is not to be retried moves the cursor all the same. A cursor that cannot be
written is no new error. -/
def updateCursorAfterError (db : Database κ) : Database κ :=
  if calls.updateCursorOnError.isOk then
    let db := (maybeUpdateCursor groupId framing envelope db).2
    if framing.isCommit envelope ∧ calls.markFailedCommitLogged.isOk then
      { db with failedCommits := db.failedCommits ++ [envelope.cursor.sequenceId] }
    else db
  else db

def forkDetection (error : GroupMessageProcessingError) (db : Database κ) : Database κ :=
  if error = .wrongEpoch then
    match validateMessageEpoch db.epoch (framing.epoch envelope.message) with
    | .error (.futureEpoch ..) => { db with maybeForked := true }
    | _ => db
  else db

def postProcessMessage (result : Except GroupMessageProcessingError ProcessedMessageOutcome)
    (db : Database κ) : Except GroupMessageProcessingError ProcessedMessageOutcome × Database κ :=
  match result with
  | .ok outcome =>
    match calls.pruneIcebox with
    | .ok () => (.ok outcome, db)
    | .error error => (.error (.storage error), db)
  | .error (.commitValidation (.protocolVersionTooLow minVersion)) =>
    match calls.setGroupPaused with
    | .ok () => (.error .groupPaused, { db with paused := some minVersion })
    | .error error => (.error (.storage error), db)
  | .error error =>
    let db := if !error.isRetryable && calls.isActive then
      updateCursorAfterError groupId framing calls envelope db else db
    (.error error, forkDetection framing envelope error db)

def processMessage (db : Database κ) :
    Except GroupMessageProcessingError ProcessedMessageOutcome × Database κ :=
  let (last, db) := if trustMessageOrder then getLastCursor groupId framing envelope db else (0, db)
  if trustMessageOrder && envelope.cursor.sequenceId ≤ last then (.ok ⟨false, none⟩, db)
  else
    match calls.loadMlsGroup with
    | .error error => (.error error, db)
    | .ok () =>
      if framing.isPrivateMessage envelope.message then
        let (result, db) := processMessageInner groupId framing calls envelope trustMessageOrder db
        if trustMessageOrder then postProcessMessage groupId framing calls envelope result db
        else (result, db)
      else (.error .unsupportedMessageType, db)

end Process

section Publish

inductive GroupError
  | storage (error : IntentTable.StorageError)
  | uninitializedResult
  | other

structure PublishIntentData (π : Type) where
  payloadsToPublish : List π
  postCommitAction : Option Bytes
  stagedCommit : Option Bytes
  groupEpoch : Nat

structure PublishCalls (π κ : Type) where
  guardViolated : Bool
  writeData : κ → κ
  publishIntentData : Except GroupError (Option (PublishIntentData π))
  calculateMessageIdForIntent : Except GroupError Unit
  setDeliveryStatusToFailed : Except GroupError Unit
  prepareGroupMessages : Except GroupError Unit
  sendGroupMessages : Except GroupError Unit

variable (calls : PublishCalls π κ) (intent : StoredGroupIntent) (db : Database κ)

def getPublishIntentData : Except GroupError (Option (PublishIntentData π)) × Database κ :=
  if intent.kind = .metadataUpdate ∧ calls.guardViolated then
    match db.intents.setGroupIntentSuperseded intent.id with
    | .ok intents => (.ok none, { db with intents })
    | .error error => (.error (.storage error), db)
  else (calls.publishIntentData, { db with content := calls.writeData db.content })

def setGroupIntentErrorAndFailMsg : Except GroupError Unit × Database κ :=
  match db.intents.setGroupIntentError intent.id with
  | .error error => (.error (.storage error), db)
  | .ok intents => (calls.setDeliveryStatusToFailed, { db with intents })

/-- What becomes of an intent after one more attempt has failed, unless it has attempts left. -/
def failPublishAttempt (again : Database κ → Except GroupError Unit × Database κ) :
    Except GroupError Unit × Database κ :=
  if maxIntentPublishAttempts ≤ intent.publishAttempts + 1 then
    match calls.calculateMessageIdForIntent with
    | .error error => (.error error, db)
    | .ok () => setGroupIntentErrorAndFailMsg calls intent db
  else again { db with intents := db.intents.incrementIntentPublishAttemptCount intent.id }

def handlePublishedIntentSendFailure : Except GroupError Unit × Database κ :=
  failPublishAttempt calls intent db fun db =>
    match db.intents.setGroupIntentToPublish intent.id with
    | .error error => (.error (.storage error), db)
    | .ok intents => (.ok (), { db with intents })

/-- An intent that has nothing to publish is processed, unless it has been given up. -/
def skipIntent : Except GroupError Unit × Database κ :=
  if (db.intents.fetch intent.id).any fun intent => intent.state = .toPublish then
    match db.intents.setGroupIntentProcessed intent.id with
    | .error error => (.error (.storage error), db)
    | .ok intents => (.ok (), { db with intents })
  else (.ok (), db)

/-- The intent is stored as published, under the hash of its last payload, before it is sent. The
answer is whether a commit has been staged for it; nothing if there is nothing to send. -/
def prepareIntent : Except GroupError (Option Bool) × Database κ :=
  match getPublishIntentData calls intent db with
  | (.error error, db) =>
    match failPublishAttempt calls intent db fun db => (.ok (), db) with
    | (.ok (), db) => (.error error, db)
    | (.error error, db) => (.error error, db)
  | (.ok none, db) =>
    match skipIntent intent db with
    | (.ok (), db) => (.ok none, db)
    | (.error error, db) => (.error error, db)
  | (.ok (some data), db) =>
    match data.payloadsToPublish.getLast? with
    | none => (.error .uninitializedResult, db)
    | some lastPayload =>
      match db.intents.setGroupIntentPublished intent.id (framing.sha256 lastPayload)
        data.postCommitAction data.stagedCommit data.groupEpoch with
      | .error error => (.error (.storage error), db)
      | .ok intents =>
        let db := { db with intents }
        match calls.prepareGroupMessages with
        | .error error => (.error error, db)
        | .ok () => (.ok (some data.stagedCommit.isSome), db)

def sendIntent : Except GroupError Unit × Database κ :=
  match calls.sendGroupMessages with
  | .ok () => (.ok (), db)
  | .error error =>
    match handlePublishedIntentSendFailure calls intent db with
    | (.ok (), db) => (.error error, db)
    | (.error error, db) => (.error error, db)

def publishAll (calls : StoredGroupIntent → PublishCalls π κ) :
    List StoredGroupIntent → Database κ → Except GroupError Unit × Database κ
  | [], db => (.ok (), db)
  | intent :: intents, db =>
    match prepareIntent framing (calls intent) intent db with
    | (.error error, db) => (.error error, db)
    | (.ok none, db) => publishAll calls intents db
    | (.ok (some hasStagedCommit), db) =>
      match sendIntent (calls intent) intent db with
      | (.error error, db) => (.error error, db)
      | (.ok (), db) => if hasStagedCommit then (.ok (), db) else publishAll calls intents db

def publishIntents (calls : StoredGroupIntent → PublishCalls π κ) (db : Database κ) :
    Except GroupError Unit × Database κ :=
  publishAll framing calls (db.intents.findGroupIntents .toPublish) db

end Publish

section PostCommit

def takePostCommitAction (sendWelcomes : Except GroupError Unit) (intent : StoredGroupIntent)
    (db : Database κ) : Except GroupError Unit × Database κ :=
  match intent.postCommitData with
  | none => (.ok (), db)
  | some action =>
    match sendWelcomes with
    | .error error => (.error error, db)
    | .ok () => (.ok (), { db with welcomesSent := db.welcomesSent ++ [(intent.id, action)] })

def finishIntent (intent : StoredGroupIntent) (db : Database κ) :
    Except GroupError Unit × Database κ :=
  match db.intents.setGroupIntentProcessed intent.id with
  | .error error => (.error (.storage error), db)
  | .ok intents => (.ok (), { db with intents })

def postCommitAll (sendWelcomes : StoredGroupIntent → Except GroupError Unit) :
    List StoredGroupIntent → Database κ → Except GroupError Unit × Database κ
  | [], db => (.ok (), db)
  | intent :: intents, db =>
    match takePostCommitAction (sendWelcomes intent) intent db with
    | (.error error, db) => (.error error, db)
    | (.ok (), db) =>
      match finishIntent intent db with
      | (.error error, db) => (.error error, db)
      | (.ok (), db) => postCommitAll sendWelcomes intents db

def postCommit (sendWelcomes : StoredGroupIntent → Except GroupError Unit) (db : Database κ) :
    Except GroupError Unit × Database κ :=
  postCommitAll sendWelcomes (db.intents.findGroupIntents .committed) db

end PostCommit

end MlsSync

end LibXmtp.Groups
