import LibXmtp.Groups.IntentEffects

namespace LibXmtp.Groups.MlsSync

open LibXmtp.Data LibXmtp.Types LibXmtp.Db

variable {π κ : Type} {groupId : Bytes} {framing : Framing π}

section Effects

variable {db db' db'' : Database κ} {envelope : GroupMessage π}

/-- Nothing of a message is stored: neither the intents nor the MLS group nor the messages have
changed. -/
structure NoEffect (db db' : Database κ) : Prop where
  intents : db'.intents = db.intents
  epoch : db'.epoch = db.epoch
  merged : db'.merged = db.merged
  content : db'.content = db.content

def SameCursors (groupId : Bytes) (db db' : Database κ) : Prop := ∀ kind originator,
  cursorOf groupId db'.refreshStates kind originator =
    cursorOf groupId db.refreshStates kind originator

structure Unaffected (groupId : Bytes) (db db' : Database κ) : Prop extends NoEffect db db' where
  cursors : SameCursors groupId db db'

def lastCursor (groupId : Bytes) (framing : Framing π) (envelope : GroupMessage π)
    (db : Database κ) : Nat :=
  cursorOf groupId db.refreshStates (framing.entityKind envelope) envelope.cursor.originatorId

/-- The cursor of the originator is at the envelope, and every other one is where it was. -/
structure Advanced (groupId : Bytes) (framing : Framing π) (envelope : GroupMessage π)
    (db db' : Database κ) : Prop where
  cursor : lastCursor groupId framing envelope db' = envelope.cursor.sequenceId
  others : ∀ kind originator,
    ¬(framing.entityKind envelope = kind ∧ envelope.cursor.originatorId = originator) →
    cursorOf groupId db'.refreshStates kind originator =
      cursorOf groupId db.refreshStates kind originator

def Grows (groupId : Bytes) (db db' : Database κ) : Prop := ∀ kind originator,
  cursorOf groupId db.refreshStates kind originator ≤
    cursorOf groupId db'.refreshStates kind originator

@[refl] theorem NoEffect.refl (db : Database κ) : NoEffect db db := ⟨rfl, rfl, rfl, rfl⟩

theorem NoEffect.trans (h : NoEffect db db') (h' : NoEffect db' db'') : NoEffect db db'' where
  intents := h'.intents.trans h.intents
  epoch := h'.epoch.trans h.epoch
  merged := h'.merged.trans h.merged
  content := h'.content.trans h.content

@[refl] theorem Unaffected.refl (db : Database κ) : Unaffected groupId db db :=
  ⟨.refl db, fun _ _ => rfl⟩

theorem Unaffected.trans (h : Unaffected groupId db db') (h' : Unaffected groupId db' db'') :
    Unaffected groupId db db'' :=
  ⟨h.toNoEffect.trans h'.toNoEffect, fun kind originator =>
    (h'.cursors kind originator).trans (h.cursors kind originator)⟩

theorem Unaffected.lastCursor_eq (h : Unaffected groupId db db') (envelope : GroupMessage π) :
    lastCursor groupId framing envelope db' = lastCursor groupId framing envelope db :=
  h.cursors _ _

theorem Unaffected.advanced (h : Unaffected groupId db db')
    (hadvanced : Advanced groupId framing envelope db' db'') :
    Advanced groupId framing envelope db db'' :=
  ⟨hadvanced.cursor, fun kind originator hne =>
    (hadvanced.others kind originator hne).trans (h.cursors kind originator)⟩

theorem Advanced.trans (h : Advanced groupId framing envelope db db')
    (h' : Advanced groupId framing envelope db' db'') : Advanced groupId framing envelope db db'' :=
  ⟨h'.cursor, fun kind originator hne =>
    (h'.others kind originator hne).trans (h.others kind originator hne)⟩

theorem Advanced.of_same (h : Advanced groupId framing envelope db db')
    (hstates : db''.refreshStates = db'.refreshStates) :
    Advanced groupId framing envelope db db'' := by
  refine ⟨?_, ?_⟩
  · rw [lastCursor, hstates]
    exact h.cursor
  · rw [hstates]
    exact h.others

theorem Grows.of_same (h : SameCursors groupId db db') : Grows groupId db db' :=
  fun kind originator => (h kind originator).ge

theorem Grows.trans (h : Grows groupId db db') (h' : Grows groupId db' db'') :
    Grows groupId db db'' :=
  fun kind originator => (h kind originator).trans (h' kind originator)

theorem unaffected_getLastCursor (envelope : GroupMessage π) (db : Database κ) :
    Unaffected groupId db (getLastCursor groupId framing envelope db).2 :=
  ⟨⟨rfl, rfl, rfl, rfl⟩, fun kind originator =>
    cursorOf_getLastCursorForOriginator _ db.refreshStates _ kind _ originator⟩

theorem noEffect_maybeUpdateCursor (envelope : GroupMessage π) (db : Database κ) :
    NoEffect db (maybeUpdateCursor groupId framing envelope db).2 := ⟨rfl, rfl, rfl, rfl⟩

theorem grows_maybeUpdateCursor (envelope : GroupMessage π) (db : Database κ) :
    Grows groupId db (maybeUpdateCursor groupId framing envelope db).2 := by
  intro kind originator
  change _ ≤ cursorOf groupId (updateCursor groupId _ _ db.refreshStates) kind originator
  rw [cursorOf_updateCursor]
  split
  · omega
  · exact le_rfl

theorem advanced_maybeUpdateCursor (hfits : envelope.cursor.sequenceId < 2 ^ 63)
    (h : lastCursor groupId framing envelope db ≤ envelope.cursor.sequenceId) :
    Advanced groupId framing envelope db (maybeUpdateCursor groupId framing envelope db).2 := by
  refine ⟨?_, fun kind originator hne => ?_⟩
  · change cursorOf groupId (updateCursor groupId _ _ db.refreshStates) _ _ = _
    rw [cursorOf_updateCursor, if_pos ⟨⟨rfl, rfl, rfl⟩, hfits⟩]
    exact max_eq_right h
  · change cursorOf groupId (updateCursor groupId _ _ db.refreshStates) _ _ = _
    rw [cursorOf_updateCursor, if_neg fun h => hne h.1.2]

theorem maybeUpdateCursor_fst (hfits : envelope.cursor.sequenceId < 2 ^ 63)
    (h : lastCursor groupId framing envelope db < envelope.cursor.sequenceId) :
    (maybeUpdateCursor groupId framing envelope db).1 = true := by
  rw [lastCursor, cursorOf_eq] at h
  simp only [maybeUpdateCursor, decide_eq_true hfits, Bool.true_and]
  cases hfetch : db.refreshStates.fetch
      (groupId, framing.entityKind envelope, envelope.cursor.originatorId) with
  | none => rfl
  | some state =>
    rw [hfetch] at h
    exact decide_eq_true h

theorem maybeUpdateCursor_fst_of_not_fits (hfits : ¬envelope.cursor.sequenceId < 2 ^ 63)
    (db : Database κ) : (maybeUpdateCursor groupId framing envelope db).1 = false := by
  simp only [maybeUpdateCursor, decide_eq_false hfits, Bool.false_and]

end Effects

section Transactions

variable {calls : Calls κ} {envelope : GroupMessage π} {intent : StoredGroupIntent}
  {trust required : Bool} {db db' : Database κ}

theorem requiresProcessing_spec
    (h : requiresProcessing groupId framing calls envelope trust db = .ok (required, db')) :
    NoEffect db db' ∧ Grows groupId db db' ∧
      (lastCursor groupId framing envelope db < envelope.cursor.sequenceId →
        (trust = true → envelope.cursor.sequenceId < 2 ^ 63) → required = true) ∧
      (trust = true →
        (required, db') = maybeUpdateCursor groupId framing envelope db) ∧
      (trust = false → SameCursors groupId db db') := by
  unfold requiresProcessing at h
  cases trust with
  | true =>
    obtain ⟨_, _, h⟩ := bind_eq_ok.mp h
    rw [pure_eq_ok] at h
    have hdb : (maybeUpdateCursor groupId framing envelope db).2 = db' := by rw [h]
    subst hdb
    refine ⟨noEffect_maybeUpdateCursor envelope db, grows_maybeUpdateCursor envelope db,
      fun habove hfits => ?_, fun _ => h.symm, nofun⟩
    rw [← maybeUpdateCursor_fst (hfits rfl) habove, h]
  | false =>
    have hread : Unaffected groupId db (getLastCursor groupId framing envelope db).2 :=
      unaffected_getLastCursor envelope db
    cases h
    exact ⟨hread.toNoEffect, .of_same hread.cursors, fun habove _ => decide_eq_true habove, nofun,
      fun _ => hread.cursors⟩

theorem eq_of_processOwnCommit {result : Except IntentResolutionError Unit}
    (h : processOwnCommit calls intent db = (result, db')) :
    ∃ epoch merged content, db' = { db with epoch, merged, content } := by
  have hown {result : Except GroupMessageProcessingError Unit} {db' : Database κ}
      (h : mergeOwnCommit calls intent db = (result, db')) :
      ∃ epoch merged content, db' = { db with epoch, merged, content } := by
    unfold mergeOwnCommit at h
    dsimp only [call] at h
    split at h
    · cases h
      exact ⟨_, _, _, rfl⟩
    · cases h
      exact ⟨_, _, _, rfl⟩
  unfold processOwnCommit at h
  split at h
  · rename_i hmerge
    cases h
    exact hown hmerge
  · rename_i hmerge
    obtain ⟨epoch, merged, content, rfl⟩ := hown hmerge
    split at h
    · rename_i hreadd
      obtain ⟨-, rfl⟩ := eq_of_call hreadd
      cases h
      exact ⟨_, _, _, rfl⟩
    · rename_i hreadd
      obtain ⟨-, rfl⟩ := eq_of_call hreadd
      split at h
      · rename_i htranscript
        obtain ⟨-, rfl⟩ := eq_of_call htranscript
        cases h
        exact ⟨_, _, _, rfl⟩
      · rename_i htranscript
        obtain ⟨-, rfl⟩ := eq_of_call htranscript
        cases h
        exact ⟨_, _, _, rfl⟩

theorem eq_of_processOwnSentMessage {result : Except IntentResolutionError Unit}
    (h : processOwnSentMessage calls db = (result, db')) :
    ∃ content, db' = { db with content } := by
  unfold processOwnSentMessage at h
  split at h
  · cases h
    exact ⟨_, rfl⟩
  · cases h
    exact ⟨_, rfl⟩
  · split at h
    · rename_i hstatus
      obtain ⟨-, rfl⟩ := eq_of_call hstatus
      cases h
      exact ⟨_, rfl⟩
    · rename_i hstatus
      obtain ⟨-, rfl⟩ := eq_of_call hstatus
      cases h
      exact ⟨_, rfl⟩

theorem eq_of_processValidated {result : Except IntentResolutionError Unit}
    {validation : Except IntentResolutionError (Option Bytes)}
    (h : processValidated calls intent validation db = (result, db')) :
    ∃ epoch merged content, db' = { db with epoch, merged, content } := by
  unfold processValidated at h
  split at h
  · cases h
    exact ⟨_, _, _, rfl⟩
  · unfold processOwnMessage at h
    split at h
    · cases h
      exact ⟨_, _, _, rfl⟩
    · split at h
      · cases h
        exact ⟨_, _, _, rfl⟩
      · split at h
        · exact eq_of_processOwnCommit h
        · obtain ⟨content, rfl⟩ := eq_of_processOwnSentMessage h
          exact ⟨_, _, _, rfl⟩

theorem setIntentState_eq_ok {next : IntentState}
    (h : setIntentState calls intent envelope next db = .ok db') :
    ∃ intents, db' = { db with
      intents
      content := if next = .committed then calls.handleMetadataUpdateFromIntent.write db.content
        else db.content } := by
  cases next with
  | toPublish | error | processed =>
    obtain ⟨intents, _, h⟩ := bind_eq_ok.mp h
    cases h
    exact ⟨intents, rfl⟩
  | committed =>
    obtain ⟨_, _, h⟩ := bind_eq_ok.mp h
    obtain ⟨intents, _, h⟩ := bind_eq_ok.mp h
    cases h
    exact ⟨intents, rfl⟩
  | published | superseded =>
    cases h
    exact ⟨_, rfl⟩

def storedContent (calls : Calls κ) : ProcessedMessageContent → κ → κ
  | .applicationMessage | .proposalMessage => calls.storeMessage.write
  | .externalJoinProposalMessage | .ownPrivateMessage | .unexpected => id
  | .stagedCommitMessage _ => fun content =>
    calls.saveTranscriptMessage.write
      (calls.markReaddRequestsAsResponded.write (calls.mergeStagedCommitLogged.write content))

def storedEpoch (epoch : Nat) : ProcessedMessageContent → Nat
  | .stagedCommitMessage _ => epoch + 1
  | .applicationMessage | .proposalMessage | .externalJoinProposalMessage | .ownPrivateMessage
  | .unexpected => epoch

theorem processExternalMessage_eq_ok {content : ProcessedMessageContent}
    (h : processExternalMessage calls content db = .ok db') :
    db' = { db with
      content := storedContent calls content db.content, epoch := storedEpoch db.epoch content } := by
  obtain ⟨_, _, h⟩ := bind_eq_ok.mp h
  cases content with
  | applicationMessage | proposalMessage =>
    obtain ⟨_, _, h⟩ := bind_eq_ok.mp h
    cases h
    rfl
  | externalJoinProposalMessage | ownPrivateMessage =>
    cases h
    rfl
  | unexpected => cases h
  | stagedCommitMessage senderIsMember =>
    obtain ⟨_, _, h⟩ := bind_eq_ok.mp h
    obtain ⟨_, _, h⟩ := bind_eq_ok.mp h
    obtain ⟨_, _, h⟩ := bind_eq_ok.mp h
    cases h
    rfl

/-- What a message leaves in a database when it is processed: an external message what it says,
and a message of an own intent the state it puts the intent in. What has been applied before an own
message fails for good is kept. -/
inductive Stored (framing : Framing π) (calls : Calls κ) (envelope : GroupMessage π) :
    Option StoredGroupIntent → Database κ → Database κ → Prop
  | external {db db' : Database κ} (content : ProcessedMessageContent) :
      calls.processMessageWithAppData = .ok content →
      db'.intents = db.intents →
      db'.epoch = storedEpoch db.epoch content →
      db'.content = storedContent calls content (calls.processMessageAgain.write db.content) →
      Stored framing calls envelope none db db'
  | own {intent : StoredGroupIntent} {db after db' : Database κ}
      {result : Except IntentResolutionError Unit} (next : IntentState) :
      processValidated calls intent
        (stageAndValidateIntent framing calls intent envelope db.epoch) db = (result, after) →
      (result = .ok () ∧ next = .committed ∨
        ∃ error, result = .error ⟨error, next⟩ ∧ error.isRetryable = false) →
      (next = intent.state ∧ db'.intents = db.intents ∧ db'.content = after.content ∨
        (∃ r, db'.intents.fetch intent.id = some r ∧ r.state = next) ∧
          db'.content = if next = .committed then
            calls.handleMetadataUpdateFromIntent.write after.content else after.content) →
      db'.epoch = after.epoch →
      Stored framing calls envelope (some intent) db db'

theorem next_of_processValidated {result : Except IntentResolutionError Unit} {groupEpoch : Nat}
    {error : GroupMessageProcessingError} {next : IntentState}
    (h : processValidated calls intent
      (stageAndValidateIntent framing calls intent envelope groupEpoch) db = (result, db'))
    (herror : result = .error ⟨error, next⟩) :
    next = .toPublish ∨ next = .error ∨ next = intent.state := by
  have hown {commit : Option Bytes} (h : processOwnMessage calls intent commit db = (result, db')) :
      next = .toPublish ∨ next = .error ∨ next = intent.state := by
    by_cases hstate : intent.state = .committed ∨ intent.state = .processed ∨ intent.state = .error
    · rw [processOwnMessage_settled commit hstate] at h
      cases h
      cases herror
      exact .inr (.inr rfl)
    · obtain ⟨-, -, hok | ⟨error', next', herror', hnext⟩⟩ := processOwnMessage_unsettled hstate h
      · cases hok.symm.trans herror
      · cases herror'.symm.trans herror
        exact hnext.imp id .inl
  rcases stageAndValidateIntent_cases framing calls intent envelope groupEpoch with
    ⟨_, hstage⟩ | ⟨-, hstage⟩ | ⟨-, -, ⟨_, hstage⟩ | ⟨commit, hstage⟩⟩
  · rw [hstage] at h
    cases h
    cases herror
    exact .inl rfl
  · rw [hstage] at h
    exact hown h
  · rw [hstage] at h
    cases h
    cases herror
    exact .inr (.inl rfl)
  · rw [hstage] at h
    exact hown h

/-- How a transaction ends well: the cursor first, and then what the message comes to. -/
structure Processed (groupId : Bytes) (framing : Framing π) (calls : Calls κ)
    (envelope : GroupMessage π) (trust : Bool) (intent : Option StoredGroupIntent) (required : Bool)
    (db base db' : Database κ) : Prop where
  requires : requiresProcessing groupId framing calls envelope trust db = .ok (required, base)
  refreshStates : db'.refreshStates = base.refreshStates
  stored : required = true → Stored framing calls envelope intent base db'
  skipped : required = false → db' = base

theorem processed_resolveOwnIntent {cause : Option GroupMessageProcessingError}
    (h : resolveOwnIntent groupId framing calls intent envelope trust
      (stageAndValidateIntent framing calls intent envelope db.epoch) db = .ok (cause, db')) :
    ∃ required base,
      Processed groupId framing calls envelope trust (some intent) required db base db' := by
  obtain ⟨required, base, hrequired, hrest⟩ := resolveOwnIntent_eq_ok h
  suffices hstored : db'.refreshStates = base.refreshStates ∧
      (required = true → Stored framing calls envelope (some intent) base db') ∧
      (required = false → db' = base) from
    ⟨required, base, hrequired, hstored.1, hstored.2.1, hstored.2.2⟩
  have hbase := (requiresProcessing_spec hrequired).1
  rw [← hbase.epoch] at hrest
  rcases hrest with ⟨rfl, rfl⟩ | ⟨rfl, result, after, next, cause', last, hprocess, hnext, hset⟩
  · exact ⟨rfl, nofun, fun _ => rfl⟩
  · obtain ⟨hresult, failedCommits, rfl⟩ := nextIntentState_eq_ok hnext
    have hkept : after.intents = base.intents ∧ after.refreshStates = base.refreshStates := by
      obtain ⟨epoch, merged, content, rfl⟩ := eq_of_processValidated hprocess
      exact ⟨rfl, rfl⟩
    rcases hset with ⟨hstate, rfl⟩ | ⟨hne, hset⟩
    · exact ⟨hkept.2, fun _ => .own next hprocess hresult (.inl ⟨hstate, hkept.1, rfl⟩) rfl, nofun⟩
    · obtain ⟨intents, hdb⟩ := setIntentState_eq_ok hset
      have hrow : ∃ r, db'.intents.fetch intent.id = some r ∧ r.state = next := by
        have hnext : next = .committed ∨ next = .toPublish ∨ next = .error := by
          rcases hresult with ⟨-, hcommitted⟩ | ⟨error, herror, -⟩
          · exact .inl hcommitted
          · rcases next_of_processValidated hprocess herror with hto | herr | hstate
            · exact .inr (.inl hto)
            · exact .inr (.inr herr)
            · exact absurd hstate hne
        rcases hnext with rfl | rfl | rfl
        · obtain ⟨-, r, -, hsets⟩ := setIntentState_committed hset
          exact ⟨_, hsets.after, rfl⟩
        · obtain ⟨-, r, -, hsets⟩ := setIntentState_toPublish hset
          exact ⟨_, hsets.after, rfl⟩
        · obtain ⟨-, r, hsets⟩ := setIntentState_error hset
          exact ⟨_, hsets.after, rfl⟩
      subst hdb
      exact ⟨hkept.2, fun _ => .own next hprocess hresult (.inr ⟨hrow, rfl⟩) rfl, nofun⟩

theorem processed_applyExternal {content : ProcessedMessageContent}
    (hcontent : calls.processMessageWithAppData = .ok content)
    (h : applyExternal groupId framing calls envelope trust content db = .ok ((), db')) :
    ∃ required base, Processed groupId framing calls envelope trust none required db base db' := by
  obtain ⟨⟨required, base⟩, hrequired, h⟩ := bind_eq_ok.mp h
  suffices hstored : db'.refreshStates = base.refreshStates ∧
      (required = true → Stored framing calls envelope none base db') ∧
      (required = false → db' = base) from
    ⟨required, base, hrequired, hstored.1, hstored.2.1, hstored.2.2⟩
  cases required with
  | true =>
    obtain ⟨_, _, h⟩ := bind_eq_ok.mp h
    obtain ⟨last, hprocess, h⟩ := bind_eq_ok.mp h
    cases h
    obtain rfl := processExternalMessage_eq_ok hprocess
    exact ⟨rfl, fun _ => .external content hcontent rfl rfl rfl, nofun⟩
  | false =>
    cases h
    exact ⟨rfl, nofun, fun _ => rfl⟩

/-- How a transaction or a validation ends that fails: with nothing but the cursor of a message that
is not valid. -/
def Failed (groupId : Bytes) (framing : Framing π) (envelope : GroupMessage π)
    (error : GroupMessageProcessingError) (db db' : Database κ) : Prop :=
  db' = db ∨ error = .commitValidation (.other false) ∧
    db' = (maybeUpdateCursor groupId framing envelope db).2

theorem failed_refuseInvalid {result : Except GroupMessageProcessingError Unit}
    (h : refuseInvalid groupId framing calls envelope db = (result, db')) :
    ∃ error, result = .error error ∧ Failed groupId framing envelope error db db' := by
  unfold refuseInvalid at h
  split at h
  · cases h
    exact ⟨_, rfl, .inl rfl⟩
  · cases h
    exact ⟨_, rfl, .inr ⟨rfl, rfl⟩⟩

theorem validateExternal_spec {content : ProcessedMessageContent}
    {result : Except GroupMessageProcessingError Unit}
    (h : validateExternal groupId framing calls envelope content db = (result, db')) :
    result = .ok () ∧ db' = db ∨
      ∃ error, result = .error error ∧ Failed groupId framing envelope error db db' := by
  have hrefused {error : GroupMessageProcessingError}
      (h : ((.error error, db) : Except GroupMessageProcessingError Unit × Database κ) =
        (result, db')) :
      ∃ error, result = .error error ∧ Failed groupId framing envelope error db db' := by
    cases h
    exact ⟨error, rfl, .inl rfl⟩
  have hvalid (h : ((.ok (), db) : Except GroupMessageProcessingError Unit × Database κ) =
      (result, db')) : result = .ok () ∧ db' = db := by
    cases h
    exact ⟨rfl, rfl⟩
  cases content with
  | stagedCommitMessage senderIsMember =>
    simp only [validateExternal] at h
    split at h
    · split at h
      · exact .inl (hvalid h)
      · exact .inr (hrefused h)
      · exact .inr (hrefused h)
      · exact .inr (failed_refuseInvalid h)
    · exact .inr (hrefused h)
  | proposalMessage =>
    simp only [validateExternal] at h
    split at h
    · exact .inr (hrefused h)
    · split at h
      · exact .inl (hvalid h)
      · exact .inr (failed_refuseInvalid h)
  | applicationMessage | externalJoinProposalMessage | ownPrivateMessage | unexpected =>
    exact .inl (hvalid h)

theorem transaction_cases {α : Type} {result : Except GroupMessageProcessingError α}
    {body : Database κ → Except GroupMessageProcessingError (α × Database κ)}
    (h : transaction body db = (result, db')) :
    (∃ a, result = .ok a ∧ body db = .ok (a, db')) ∨ ∃ error, result = .error error ∧ db' = db := by
  unfold transaction at h
  split at h
  · rename_i a last hbody
    cases h
    exact .inl ⟨a, rfl, hbody⟩
  · rename_i error hbody
    cases h
    exact .inr ⟨error, rfl, rfl⟩

theorem externalMessage_spec {result : Except GroupMessageProcessingError Unit}
    (h : validateAndProcessExternalMessage groupId framing calls envelope trust db = (result, db')) :
    (∃ error, result = .error error ∧ Failed groupId framing envelope error db db') ∨
      ∃ required base, result = .ok () ∧
        Processed groupId framing calls envelope trust none required db base db' := by
  unfold validateAndProcessExternalMessage at h
  split at h
  · cases h
    exact .inl ⟨_, rfl, .inl rfl⟩
  · rename_i content hdecrypted
    obtain ⟨content', hcontent, hdecrypted⟩ := bind_eq_ok.mp hdecrypted
    obtain ⟨_, _, hdecrypted⟩ := bind_eq_ok.mp hdecrypted
    obtain ⟨_, _, hdecrypted⟩ := bind_eq_ok.mp hdecrypted
    cases hdecrypted
    split at h
    · rename_i error mid hvalidate
      cases h
      rcases validateExternal_spec hvalidate with ⟨hok, -⟩ | ⟨error', herror, hfailed⟩
      · cases hok
      · cases herror
        exact .inl ⟨error, rfl, hfailed⟩
    · rename_i mid hvalidate
      rcases validateExternal_spec hvalidate with ⟨-, rfl⟩ | ⟨error', herror, -⟩
      · rcases transaction_cases h with ⟨_, rfl, hbody⟩ | ⟨error, rfl, rfl⟩
        · obtain ⟨required, base, hprocessed⟩ := processed_applyExternal hcontent hbody
          exact .inr ⟨required, base, rfl, hprocessed⟩
        · exact .inl ⟨error, rfl, .inl rfl⟩
      · cases herror

theorem processLookedUp_spec {intent : Option StoredGroupIntent}
    {result : Except GroupMessageProcessingError ProcessedMessageOutcome}
    (h : processLookedUp groupId framing calls envelope trust intent db = (result, db')) :
    (∃ error, result = .error error ∧ Failed groupId framing envelope error db db') ∨
      ∃ outcome required base, result = .ok outcome ∧
        Processed groupId framing calls envelope trust intent required db base db' := by
  unfold processLookedUp at h
  cases intent with
  | some intent =>
    simp only at h
    split at h
    · rename_i cause last htransaction
      cases h
      rcases transaction_cases htransaction with ⟨a, -, hbody⟩ | ⟨error, herror, -⟩
      · obtain ⟨required, base, hprocessed⟩ := processed_resolveOwnIntent hbody
        exact .inr ⟨_, required, base, rfl, hprocessed⟩
      · cases herror
    · rename_i error last htransaction
      cases h
      rcases transaction_cases htransaction with ⟨a, hok, -⟩ | ⟨_, -, rfl⟩
      · cases hok
      · exact .inl ⟨error, rfl, .inl rfl⟩
  | none =>
    simp only at h
    split at h
    · rename_i last hlast
      cases h
      rcases externalMessage_spec hlast with ⟨error, herror, -⟩ | ⟨required, base, -, hprocessed⟩
      · cases herror
      · exact .inr ⟨_, required, base, rfl, hprocessed⟩
    · rename_i error last hlast
      cases h
      rcases externalMessage_spec hlast with ⟨error', herror, hfailed⟩ | ⟨_, _, hok, -⟩
      · cases herror
        exact .inl ⟨error, rfl, hfailed⟩
      · cases hok

end Transactions

section Processing

variable {calls : Calls κ} {envelope : GroupMessage π} {trust : Bool} {db db' : Database κ}
  {result : Except GroupMessageProcessingError ProcessedMessageOutcome}

theorem processMessageInner_cases
    (h : processMessageInner groupId framing calls envelope trust db = (result, db')) :
    Unaffected groupId db db' ∧ ((∃ error, result = .error error) ∨
        envelope.cursor.sequenceId ≤ lastCursor groupId framing envelope db) ∨
      lastCursor groupId framing envelope db < envelope.cursor.sequenceId ∧
        (trust || !framing.isCommit envelope) = true ∧
        ∃ read, Unaffected groupId db read ∧ processLookedUp groupId framing calls envelope trust
          (db.intents.findGroupIntentByPayloadHash (framing.payloadHash envelope)) read =
            (result, db') := by
  have hread : Unaffected groupId db (getLastCursor groupId framing envelope db).2 :=
    unaffected_getLastCursor envelope db
  unfold processMessageInner at h
  cases hlookup : lookupIntent groupId framing calls envelope trust db with
  | mk found read =>
    rw [hlookup] at h
    rcases lookupIntent_cases hlookup with ⟨error, rfl, rfl⟩ |
      ⟨htrust, rfl, ⟨hle, rfl⟩ | ⟨hlt, rfl⟩⟩
    · cases h
      exact .inl ⟨.refl _, .inl ⟨error, rfl⟩⟩
    · cases h
      exact .inl ⟨hread, .inr hle⟩
    · exact .inr ⟨hlt, htrust, _, hread, h⟩

theorem Failed.grows {error : GroupMessageProcessingError}
    (h : Failed groupId framing envelope error db db') : Grows groupId db db' := by
  rcases h with rfl | ⟨-, rfl⟩
  · exact fun _ _ => le_rfl
  · exact grows_maybeUpdateCursor envelope db

theorem processMessageInner_error {error : GroupMessageProcessingError}
    (h : processMessageInner groupId framing calls envelope trust db = (.error error, db')) :
    Unaffected groupId db db' ∨ error = .commitValidation (.other false) ∧ NoEffect db db' ∧
      (envelope.cursor.sequenceId < 2 ^ 63 → Advanced groupId framing envelope db db') := by
  rcases processMessageInner_cases h with ⟨hsame, -⟩ | ⟨hlt, -, read, hread, hprocess⟩
  · exact .inl hsame
  · rcases processLookedUp_spec hprocess with ⟨error', herror, hfailed⟩ | ⟨_, _, _, hok, -⟩
    · cases herror
      rcases hfailed with rfl | ⟨hinvalid, rfl⟩
      · exact .inl hread
      · refine .inr ⟨hinvalid, hread.toNoEffect.trans (noEffect_maybeUpdateCursor envelope read),
          fun hfits => hread.advanced (advanced_maybeUpdateCursor hfits ?_)⟩
        rw [hread.lastCursor_eq]
        exact hlt.le
    · cases hok

theorem processMessageInner_stored {outcome : ProcessedMessageOutcome}
    (habove : lastCursor groupId framing envelope db < envelope.cursor.sequenceId)
    (hfits : trust = true → envelope.cursor.sequenceId < 2 ^ 63)
    (h : processMessageInner groupId framing calls envelope trust db = (.ok outcome, db')) :
    ∃ base, NoEffect db base ∧ Stored framing calls envelope
      (db.intents.findGroupIntentByPayloadHash (framing.payloadHash envelope)) base db' := by
  rcases processMessageInner_cases h with ⟨-, ⟨error, herror⟩ | hle⟩ | ⟨-, -, read, hread, hprocess⟩
  · cases herror
  · exact absurd habove (Nat.not_lt.mpr hle)
  · rcases processLookedUp_spec hprocess with ⟨error, herror, -⟩ |
      ⟨_, required, base, -, hrequires, -, hstored, -⟩
    · cases herror
    · obtain ⟨hbase, -, hrequired, -⟩ := requiresProcessing_spec hrequires
      rw [hread.lastCursor_eq] at hrequired
      exact ⟨base, hread.toNoEffect.trans hbase, hstored (hrequired habove hfits)⟩

theorem processMessageInner_skipped {outcome : ProcessedMessageOutcome}
    (hfits : ¬envelope.cursor.sequenceId < 2 ^ 63)
    (h : processMessageInner groupId framing calls envelope true db = (.ok outcome, db')) :
    NoEffect db db' := by
  rcases processMessageInner_cases h with ⟨hsame, -⟩ | ⟨-, -, read, hread, hprocess⟩
  · exact hsame.toNoEffect
  · rcases processLookedUp_spec hprocess with ⟨error, herror, -⟩ |
      ⟨_, required, base, -, hrequires, -, -, hskipped⟩
    · cases herror
    · obtain ⟨hbase, -, -, htrusted, -⟩ := requiresProcessing_spec hrequires
      have hrequired := congrArg Prod.fst (htrusted rfl)
      rw [hskipped (hrequired.trans (maybeUpdateCursor_fst_of_not_fits hfits read))]
      exact hread.toNoEffect.trans hbase

theorem processMessageInner_advanced {outcome : ProcessedMessageOutcome}
    (hfits : envelope.cursor.sequenceId < 2 ^ 63)
    (habove : lastCursor groupId framing envelope db < envelope.cursor.sequenceId)
    (h : processMessageInner groupId framing calls envelope true db = (.ok outcome, db')) :
    Advanced groupId framing envelope db db' := by
  rcases processMessageInner_cases h with ⟨-, ⟨error, herror⟩ | hle⟩ | ⟨-, -, read, hread, hprocess⟩
  · cases herror
  · exact absurd habove (Nat.not_lt.mpr hle)
  · have hlt : lastCursor groupId framing envelope read < envelope.cursor.sequenceId := by
      rwa [hread.lastCursor_eq]
    rcases processLookedUp_spec hprocess with ⟨error, herror, -⟩ |
      ⟨_, required, base, -, hrequires, hstates, -⟩
    · cases herror
    · obtain ⟨-, -, -, htrusted, -⟩ := requiresProcessing_spec hrequires
      obtain rfl := congrArg Prod.snd (htrusted rfl)
      exact (hread.advanced (advanced_maybeUpdateCursor hfits hlt.le)).of_same hstates

theorem grows_processMessageInner
    (h : processMessageInner groupId framing calls envelope trust db = (result, db')) :
    Grows groupId db db' := by
  rcases processMessageInner_cases h with ⟨hsame, -⟩ | ⟨-, -, read, hread, hprocess⟩
  · exact .of_same hsame.cursors
  · refine Grows.trans (.of_same hread.cursors) ?_
    rcases processLookedUp_spec hprocess with ⟨_, -, hfailed⟩ |
      ⟨_, required, base, -, hrequires, hstates, -⟩
    · exact hfailed.grows
    · obtain ⟨-, hgrows, -⟩ := requiresProcessing_spec hrequires
      intro kind originator
      rw [hstates]
      exact hgrows kind originator

theorem processMessageInner_stream {outcome : ProcessedMessageOutcome}
    (h : processMessageInner groupId framing calls envelope false db = (.ok outcome, db')) :
    SameCursors groupId db db' := by
  rcases processMessageInner_cases h with ⟨hsame, -⟩ | ⟨-, -, read, hread, hprocess⟩
  · exact hsame.cursors
  · rcases processLookedUp_spec hprocess with ⟨error, herror, -⟩ |
      ⟨_, required, base, -, hrequires, hstates, -⟩
    · cases herror
    · obtain ⟨-, -, -, -, hstream⟩ := requiresProcessing_spec hrequires
      intro kind originator
      rw [hstates, hstream rfl kind originator, hread.cursors kind originator]

end Processing

end LibXmtp.Groups.MlsSync
