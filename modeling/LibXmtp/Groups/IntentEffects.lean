import LibXmtp.Groups.MlsSync

namespace LibXmtp.Groups.MlsSync

open LibXmtp.Data LibXmtp.Types LibXmtp.Db IntentTable

variable {π κ : Type} {groupId : Bytes} {framing : Framing π}

def CollisionFree (framing : Framing π) : Prop :=
  ∀ p q, framing.sha256 p = framing.sha256 q → framing.epoch p = framing.epoch q

structure SameIntents (db db' : Database κ) : Prop where
  intents : db'.intents = db.intents
  merged : db'.merged = db.merged
  welcomesSent : db'.welcomesSent = db.welcomesSent
  epoch : db.epoch ≤ db'.epoch

namespace SameIntents

variable {db db' db'' : Database κ}

@[refl] theorem refl (db : Database κ) : SameIntents db db := ⟨rfl, rfl, rfl, le_rfl⟩

theorem trans (h : SameIntents db db') (h' : SameIntents db' db'') : SameIntents db db'' where
  intents := h'.intents.trans h.intents
  merged := h'.merged.trans h.merged
  welcomesSent := h'.welcomesSent.trans h.welcomesSent
  epoch := h.epoch.trans h'.epoch

end SameIntents

theorem sameIntents_getLastCursor (envelope : GroupMessage π) (db : Database κ) :
    SameIntents db (getLastCursor groupId framing envelope db).2 := ⟨rfl, rfl, rfl, le_rfl⟩

theorem sameIntents_maybeUpdateCursor (envelope : GroupMessage π) (db : Database κ) :
    SameIntents db (maybeUpdateCursor groupId framing envelope db).2 := ⟨rfl, rfl, rfl, le_rfl⟩

theorem sameIntents_call (c : Call κ) (db : Database κ) : SameIntents db (call c db).2 :=
  ⟨rfl, rfl, rfl, le_rfl⟩

theorem eq_of_call {c : Call κ} {db db' : Database κ}
    {result : Except GroupMessageProcessingError Unit} (h : call c db = (result, db')) :
    result = c.result ∧ db' = { db with content := c.write db.content } := by
  cases h
  exact ⟨rfl, rfl⟩

theorem sameIntents_of_call {c : Call κ} {db db' : Database κ}
    {result : Except GroupMessageProcessingError Unit} (h : call c db = (result, db')) :
    SameIntents db db' ∧ db'.epoch = db.epoch := by
  obtain ⟨-, rfl⟩ := eq_of_call h
  exact ⟨⟨rfl, rfl, rfl, le_rfl⟩, rfl⟩

section Transactions

variable {calls : Calls κ} {envelope : GroupMessage π} {trust required : Bool}
  {db db' : Database κ}

theorem sameIntents_requiresProcessing
    (h : requiresProcessing groupId framing calls envelope trust db = .ok (required, db')) :
    SameIntents db db' ∧ db'.epoch = db.epoch := by
  unfold requiresProcessing at h
  split at h
  · obtain ⟨_, _, h⟩ := bind_eq_ok.mp h
    cases h
    exact ⟨⟨rfl, rfl, rfl, le_rfl⟩, rfl⟩
  · cases h
    exact ⟨⟨rfl, rfl, rfl, le_rfl⟩, rfl⟩

theorem lookupIntent_cases
    {result : Except GroupMessageProcessingError (Option (Option StoredGroupIntent))}
    (h : lookupIntent groupId framing calls envelope trust db = (result, db')) :
    (∃ error, result = .error error ∧ db' = db) ∨
      (trust || !framing.isCommit envelope) = true ∧
        db' = (getLastCursor groupId framing envelope db).2 ∧
        (envelope.cursor.sequenceId ≤ (getLastCursor groupId framing envelope db).1 ∧
            result = .ok none ∨
          (getLastCursor groupId framing envelope db).1 < envelope.cursor.sequenceId ∧
            result = .ok (some
              (db.intents.findGroupIntentByPayloadHash (framing.payloadHash envelope)))) := by
  unfold lookupIntent at h
  split at h
  · cases h
    exact .inl ⟨_, rfl, rfl⟩
  · rename_i htrust
    have htrust : (trust || !framing.isCommit envelope) = true := by
      cases trust <;> simp_all
    split at h
    · cases h
      exact .inl ⟨_, rfl, rfl⟩
    · cases hread : getLastCursor groupId framing envelope db with
      | mk last read =>
        simp only [hread] at h
        refine .inr ⟨htrust, ?_⟩
        split at h
        · rename_i hle
          cases h
          exact ⟨rfl, .inl ⟨hle, rfl⟩⟩
        · rename_i hlt
          cases h
          exact ⟨rfl, .inr ⟨Nat.lt_of_not_le hlt, rfl⟩⟩

theorem sameIntents_processExternalMessage {content : ProcessedMessageContent}
    (h : processExternalMessage calls content db = .ok db') : SameIntents db db' := by
  unfold processExternalMessage at h
  obtain ⟨_, _, h⟩ := bind_eq_ok.mp h
  cases content with
  | applicationMessage | proposalMessage =>
    obtain ⟨_, _, h⟩ := bind_eq_ok.mp h
    cases h
    exact sameIntents_call _ _
  | externalJoinProposalMessage | ownPrivateMessage =>
    cases h
    rfl
  | unexpected => cases h
  | stagedCommitMessage senderIsMember =>
    obtain ⟨_, _, h⟩ := bind_eq_ok.mp h
    obtain ⟨_, _, h⟩ := bind_eq_ok.mp h
    obtain ⟨_, _, h⟩ := bind_eq_ok.mp h
    cases h
    exact ⟨rfl, rfl, rfl, Nat.le_succ _⟩

theorem sameIntents_applyExternal {content : ProcessedMessageContent}
    (h : applyExternal groupId framing calls envelope trust content db = .ok ((), db')) :
    SameIntents db db' := by
  unfold applyExternal at h
  obtain ⟨⟨required, mid⟩, hrequired, h⟩ := bind_eq_ok.mp h
  have hmid := (sameIntents_requiresProcessing hrequired).1
  cases required with
  | true =>
    obtain ⟨_, _, h⟩ := bind_eq_ok.mp h
    obtain ⟨_, hcontent, h⟩ := bind_eq_ok.mp h
    cases h
    exact (hmid.trans (sameIntents_call _ _)).trans (sameIntents_processExternalMessage hcontent)
  | false =>
    cases h
    exact hmid

theorem sameIntents_transaction {α : Type}
    {body : Database κ → Except GroupMessageProcessingError (α × Database κ)}
    (h : ∀ a db', body db = .ok (a, db') → SameIntents db db') :
    SameIntents db (transaction body db).2 := by
  unfold transaction
  split
  · rename_i a db' hbody
    exact h a db' hbody
  · rfl

theorem sameIntents_refuseInvalid (db : Database κ) :
    SameIntents db (refuseInvalid groupId framing calls envelope db).2 := by
  unfold refuseInvalid
  split
  · rfl
  · exact sameIntents_maybeUpdateCursor _ _

theorem sameIntents_validateExternal (content : ProcessedMessageContent) (db : Database κ) :
    SameIntents db (validateExternal groupId framing calls envelope content db).2 := by
  have hrefuse : SameIntents db (refuseInvalid groupId framing calls envelope db).2 :=
    sameIntents_refuseInvalid db
  cases content with
  | stagedCommitMessage senderIsMember =>
    simp only [validateExternal]
    split
    · split
      · rfl
      · rfl
      · rfl
      · exact hrefuse
    · rfl
  | proposalMessage =>
    simp only [validateExternal]
    split
    · rfl
    · split
      · rfl
      · exact hrefuse
  | applicationMessage | externalJoinProposalMessage | ownPrivateMessage | unexpected => rfl

theorem sameIntents_external (db : Database κ) : SameIntents db
    (validateAndProcessExternalMessage groupId framing calls envelope trust db).2 := by
  unfold validateAndProcessExternalMessage
  split
  · rfl
  · rename_i content _
    have hvalidate : SameIntents db (validateExternal groupId framing calls envelope content db).2 :=
      sameIntents_validateExternal content db
    split
    · rename_i heq
      rwa [heq] at hvalidate
    · rename_i heq
      rw [heq] at hvalidate
      refine hvalidate.trans (sameIntents_transaction fun a db' hbody => ?_)
      exact sameIntents_applyExternal hbody

theorem sameIntents_updateCursorAfterError (db : Database κ) :
    SameIntents db (updateCursorAfterError groupId framing calls envelope db) ∧
      (updateCursorAfterError groupId framing calls envelope db).epoch = db.epoch := by
  unfold updateCursorAfterError
  split
  · dsimp only
    split
    · exact ⟨⟨rfl, rfl, rfl, le_rfl⟩, rfl⟩
    · exact ⟨⟨rfl, rfl, rfl, le_rfl⟩, rfl⟩
  · exact ⟨.refl db, rfl⟩

theorem sameIntents_forkDetection (error : GroupMessageProcessingError) (db : Database κ) :
    SameIntents db (forkDetection framing envelope error db) ∧
      (forkDetection framing envelope error db).epoch = db.epoch := by
  unfold forkDetection
  split
  · split
    · exact ⟨⟨rfl, rfl, rfl, le_rfl⟩, rfl⟩
    · exact ⟨.refl db, rfl⟩
  · exact ⟨.refl db, rfl⟩

theorem sameIntents_postProcessMessage
    (result : Except GroupMessageProcessingError ProcessedMessageOutcome) (db : Database κ) :
    SameIntents db (postProcessMessage groupId framing calls envelope result db).2 ∧
      (postProcessMessage groupId framing calls envelope result db).2.epoch = db.epoch := by
  have hcursor : SameIntents db (updateCursorAfterError groupId framing calls envelope db) ∧
      (updateCursorAfterError groupId framing calls envelope db).epoch = db.epoch :=
    sameIntents_updateCursorAfterError db
  have hfork (error : GroupMessageProcessingError) (db : Database κ) :
      SameIntents db (forkDetection framing envelope error db) ∧
        (forkDetection framing envelope error db).epoch = db.epoch :=
    sameIntents_forkDetection error db
  unfold postProcessMessage
  split
  · split
    · exact ⟨.refl db, rfl⟩
    · exact ⟨.refl db, rfl⟩
  · split
    · exact ⟨⟨rfl, rfl, rfl, le_rfl⟩, rfl⟩
    · exact ⟨.refl db, rfl⟩
  · rename_i error _
    dsimp only
    split
    · exact ⟨hcursor.1.trans (hfork error _).1, (hfork error _).2.trans hcursor.2⟩
    · exact hfork error db

end Transactions

section Rows

def mergesCommit (intent : StoredGroupIntent) : Prop :=
  ¬(intent.kind = .commitPendingProposals ∧ intent.stagedCommit = none ∨
    withoutCommit intent.kind) ∧ intent.publishedInEpoch ≠ none

def Past (framing : Framing π) (epoch : Nat) (r : StoredGroupIntent) : Prop :=
  mergesCommit r → ∀ p, r.payloadHash = some (framing.sha256 p) → framing.epoch p < epoch

def Welcomed (sent : List (Nat × Bytes)) (r : StoredGroupIntent) : Prop :=
  ∀ action, r.postCommitData = some action → (r.id, action) ∈ sent

/-- What may become of the row of an intent, given the epoch the group is in afterwards and the
welcomes that have been sent before. -/
inductive RowMove (framing : Framing π) (epoch : Nat) (sent : List (Nat × Bytes))
    (r : StoredGroupIntent) : StoredGroupIntent → Prop
  | keep : RowMove framing epoch sent r r
  | attempt (publishAttempts : Nat) : r.state = .toPublish ∨ r.state = .published →
      RowMove framing epoch sent r { r with publishAttempts }
  | publish (payloadHash : Bytes) (postCommitData stagedCommit : Option Bytes)
      (publishedInEpoch : Nat) : r.state = .toPublish →
      RowMove framing epoch sent r
        (.setPublished payloadHash postCommitData stagedCommit publishedInEpoch r)
  | giveUp (state : IntentState) : r.state = .toPublish →
      state = .processed ∨ state = .superseded ∨ state = .error →
      RowMove framing epoch sent r { r with state }
  | retract (publishAttempts : Nat) : r.state = .published →
      RowMove framing epoch sent r { r with
        state := .toPublish, payloadHash := none, postCommitData := none, publishedInEpoch := none
        stagedCommit := none, publishAttempts }
  | fail : r.state = .published → RowMove framing epoch sent r { r with state := .error }
  | commit (sequenceId originatorId : Option Nat) : r.state = .published → Past framing epoch r →
      RowMove framing epoch sent r { r with state := .committed, sequenceId, originatorId }
  | finish : r.state = .committed ∨ r.state = .processed → Welcomed sent r →
      RowMove framing epoch sent r { r with state := .processed }

structure Acts (framing : Framing π) (id : Nat) (db db' : Database κ) : Prop where
  row : ∃ r r', Sets db.intents id r r' db'.intents ∧
    RowMove framing db'.epoch db.welcomesSent r r'
  merged : db'.merged = db.merged ∨ ∃ p, framing.epoch p = db.epoch ∧ db.epoch < db'.epoch ∧
    db'.merged = db.merged ++ [(id, some (framing.sha256 p))]
  welcomesSent : db'.welcomesSent = db.welcomesSent
  epoch : db.epoch ≤ db'.epoch

structure SameRest (db db' : Database κ) : Prop where
  merged : db'.merged = db.merged
  welcomesSent : db'.welcomesSent = db.welcomesSent
  epoch : db'.epoch = db.epoch

variable {db db' db'' : Database κ} {r r' : StoredGroupIntent}

theorem SameRest.same (h : SameRest db db') (hintents : db'.intents = db.intents) :
    SameIntents db db' :=
  ⟨hintents, h.merged, h.welcomesSent, h.epoch.ge⟩

theorem Acts.of_sets {id : Nat} (hrest : SameRest db db')
    (hsets : Sets db.intents id r r' db'.intents)
    (hmove : RowMove framing db.epoch db.welcomesSent r r') : Acts framing id db db' where
  row := ⟨r, r', hsets, by rwa [hrest.epoch]⟩
  merged := .inl hrest.merged
  welcomesSent := hrest.welcomesSent
  epoch := hrest.epoch.ge

theorem Acts.keep {id : Nat} (hrow : db.intents.fetch id = some r) (h : SameIntents db db') :
    Acts framing id db db' where
  row := ⟨r, r, ⟨hrow, by rw [h.intents, hrow], fun k _ => by rw [h.intents]⟩, .keep⟩
  merged := .inl h.merged
  welcomesSent := h.welcomesSent
  epoch := h.epoch

theorem Acts.of_same {id : Nat} (hrest : SameRest db db') (hintents : db'.intents = db.intents)
    (h : Acts framing id db' db'') : Acts framing id db db'' := by
  obtain ⟨⟨r, r', hsets, hmove⟩, hmerged, hsent, hepoch⟩ := h
  rw [hintents] at hsets
  rw [hrest.welcomesSent] at hmove hsent
  rw [hrest.merged, hrest.epoch] at hmerged
  rw [hrest.epoch] at hepoch
  exact ⟨⟨r, r', hsets, hmove⟩, hmerged, hsent, hepoch⟩

end Rows

section OwnMessage

variable {calls : Calls κ} {intent : StoredGroupIntent} {envelope : GroupMessage π} {trust : Bool}
  {db db' : Database κ}

variable (framing calls intent envelope) in
theorem stageAndValidateIntent_cases (groupEpoch : Nat) :
    let validation := stageAndValidateIntent framing calls intent envelope groupEpoch
    (∃ error, validation = .error ⟨error, .toPublish⟩) ∨
      ¬mergesCommit intent ∧ validation = .ok none ∨
      mergesCommit intent ∧ framing.epoch envelope.message = groupEpoch ∧
        ((∃ error, validation = .error ⟨error, .error⟩) ∨ ∃ commit, validation = .ok (some commit)) := by
  intro validation
  by_cases hwithout : intent.kind = .commitPendingProposals ∧ intent.stagedCommit = none ∨
      withoutCommit intent.kind
  · have hmerges : ¬mergesCommit intent := fun h => h.1 hwithout
    simp only [validation, stageAndValidateIntent, hwithout, if_true]
    cases validateMessageEpoch groupEpoch (framing.epoch envelope.message) with
    | ok _ => exact .inr (.inl ⟨hmerges, rfl⟩)
    | error error => exact .inl ⟨error, rfl⟩
  · simp only [validation, stageAndValidateIntent, hwithout, if_false]
    cases hpublished : intent.publishedInEpoch with
    | none => exact .inr (.inl ⟨fun h => h.2 hpublished, rfl⟩)
    | some _ =>
      have hmerges : mergesCommit intent := ⟨hwithout, by simp [hpublished]⟩
      rcases Nat.lt_trichotomy (framing.epoch envelope.message) groupEpoch with hlt | heq | hlt
      · exact .inl ⟨_, by simp [hlt]; rfl⟩
      · refine .inr (.inr ⟨hmerges, heq, ?_⟩)
        simp only [heq, Nat.lt_irrefl, decide_false, rejectIf_false, ok_bind]
        cases intent.stagedCommit with
        | none => exact .inl ⟨_, rfl⟩
        | some stagedCommit =>
          simp only [okOr_some, ok_bind]
          cases calls.decodeStagedCommit stagedCommit with
          | error error => exact .inl ⟨error, rfl⟩
          | ok _ =>
            cases calls.fromStagedCommit with
            | error error => exact .inl ⟨_, rfl⟩
            | ok _ => exact .inr ⟨stagedCommit, rfl⟩
      · exact .inl ⟨_, by simp [Nat.lt_asymm hlt, hlt]; rfl⟩

structure Merges (intent : StoredGroupIntent) (db db' : Database κ) : Prop where
  intents : db'.intents = db.intents
  welcomesSent : db'.welcomesSent = db.welcomesSent
  merged : db'.merged = db.merged ∧ db'.epoch = db.epoch ∨
    db'.merged = db.merged ++ [(intent.id, intent.payloadHash)] ∧ db'.epoch = db.epoch + 1

theorem Merges.of_same (h : SameIntents db db' ∧ db'.epoch = db.epoch) : Merges intent db db' :=
  ⟨h.1.intents, h.1.welcomesSent, .inl ⟨h.1.merged, h.2⟩⟩

theorem Merges.trans_same {mid : Database κ} (h : Merges intent db mid)
    (hsame : SameIntents mid db' ∧ db'.epoch = mid.epoch) : Merges intent db db' where
  intents := hsame.1.intents.trans h.intents
  welcomesSent := hsame.1.welcomesSent.trans h.welcomesSent
  merged := by
    rw [hsame.1.merged, hsame.2]
    exact h.merged

theorem Merges.epoch_le (h : Merges intent db db') : db.epoch ≤ db'.epoch := by
  rcases h.merged with ⟨-, hepoch⟩ | ⟨-, hepoch⟩
  · exact hepoch.ge
  · omega

theorem merges_mergeOwnCommit {result : Except GroupMessageProcessingError Unit}
    (h : mergeOwnCommit calls intent db = (result, db')) :
    Merges intent db db' ∧ (result = .ok () → db'.epoch = db.epoch + 1) := by
  unfold mergeOwnCommit at h
  dsimp only [call] at h
  split at h
  · cases h
    exact ⟨⟨rfl, rfl, .inr ⟨rfl, rfl⟩⟩, fun _ => rfl⟩
  · rename_i hnot
    cases h
    refine ⟨⟨rfl, rfl, .inl ⟨rfl, rfl⟩⟩, fun hok => absurd ?_ hnot⟩
    rw [hok, isOk_ok, Bool.true_or]

theorem merges_processOwnCommit {result : Except IntentResolutionError Unit}
    (h : processOwnCommit calls intent db = (result, db')) :
    Merges intent db db' ∧ (result = .ok () ∧ db'.epoch = db.epoch + 1 ∨
      ∃ error next, result = .error ⟨error, next⟩ ∧ (next = .toPublish ∨ next = .error)) := by
  unfold processOwnCommit at h
  split at h
  · rename_i error mid hmerge
    cases h
    exact ⟨(merges_mergeOwnCommit hmerge).1, .inr ⟨error, _, rfl, .inl rfl⟩⟩
  · rename_i mid hmerge
    have ⟨hmid, hepoch⟩ := merges_mergeOwnCommit hmerge
    split at h
    · rename_i error _ hreadd
      cases h
      exact ⟨hmid.trans_same (sameIntents_of_call hreadd), .inr ⟨error, _, rfl, .inr rfl⟩⟩
    · rename_i mid' hreadd
      have hreadd := sameIntents_of_call hreadd
      split at h
      · rename_i error _ htranscript
        cases h
        exact ⟨(hmid.trans_same hreadd).trans_same (sameIntents_of_call htranscript),
          .inr ⟨error, _, rfl, .inr rfl⟩⟩
      · rename_i htranscript
        have htranscript := sameIntents_of_call htranscript
        cases h
        refine ⟨(hmid.trans_same hreadd).trans_same htranscript, .inl ⟨rfl, ?_⟩⟩
        rw [htranscript.2, hreadd.2, hepoch rfl]

theorem sameIntents_processOwnSentMessage {result : Except IntentResolutionError Unit}
    (h : processOwnSentMessage calls db = (result, db')) :
    (SameIntents db db' ∧ db'.epoch = db.epoch) ∧
      (result = .ok () ∨ ∃ error, result = .error ⟨error, .error⟩) := by
  unfold processOwnSentMessage at h
  split at h
  · cases h
    exact ⟨⟨.refl db, rfl⟩, .inr ⟨_, rfl⟩⟩
  · cases h
    exact ⟨⟨.refl db, rfl⟩, .inl rfl⟩
  · split at h
    · rename_i error _ hstatus
      cases h
      exact ⟨sameIntents_of_call hstatus, .inr ⟨error, rfl⟩⟩
    · rename_i hstatus
      cases h
      exact ⟨sameIntents_of_call hstatus, .inl rfl⟩

theorem processOwnMessage_settled (commit : Option Bytes) (hstate : intent.state = .committed ∨
    intent.state = .processed ∨ intent.state = .error) :
    processOwnMessage calls intent commit db =
      (.error ⟨.intentAlreadyProcessed, intent.state⟩, db) := by
  simp only [processOwnMessage, hstate, if_true]

theorem processOwnMessage_unsettled {commit : Option Bytes}
    {result : Except IntentResolutionError Unit}
    (hstate : ¬(intent.state = .committed ∨ intent.state = .processed ∨ intent.state = .error))
    (h : processOwnMessage calls intent commit db = (result, db')) :
    (commit = none → SameIntents db db' ∧ db'.epoch = db.epoch) ∧
      (commit ≠ none → Merges intent db db' ∧
        (result = .ok () → db'.epoch = db.epoch + 1)) ∧
      (result = .ok () ∨ ∃ error next, result = .error ⟨error, next⟩ ∧
        (next = .toPublish ∨ next = .error)) := by
  unfold processOwnMessage at h
  rw [if_neg hstate] at h
  split at h
  · rename_i hphase
    cases h
    exact ⟨fun _ => ⟨.refl db, rfl⟩, fun hne => absurd hphase.2 hne,
      .inr ⟨_, _, rfl, .inl rfl⟩⟩
  · cases commit with
    | some _ =>
      have ⟨hmerges, hresult⟩ := merges_processOwnCommit h
      refine ⟨nofun, fun _ => ⟨hmerges, fun hok => ?_⟩, hresult.imp And.left id⟩
      rcases hresult with ⟨_, hepoch⟩ | ⟨error, next, herror, _⟩
      · exact hepoch
      · rw [herror] at hok
        cases hok
    | none =>
      have ⟨hsame, hresult⟩ := sameIntents_processOwnSentMessage h
      refine ⟨fun _ => hsame, fun hne => absurd rfl hne, hresult.imp id ?_⟩
      rintro ⟨error, rfl⟩
      exact ⟨error, _, rfl, .inr rfl⟩

theorem nextIntentState_eq_ok {result : Except IntentResolutionError Unit} {next : IntentState}
    {cause : Option GroupMessageProcessingError}
    (h : nextIntentState framing calls envelope result db = .ok (next, cause, db')) :
    (result = .ok () ∧ next = .committed ∨
      ∃ error, result = .error ⟨error, next⟩ ∧ error.isRetryable = false) ∧
      ∃ failedCommits, db' = { db with failedCommits } := by
  unfold nextIntentState at h
  split at h
  · cases h
    exact ⟨.inl ⟨rfl, rfl⟩, _, rfl⟩
  · cases h
  · rename_i error next' _
    split at h
    · cases h
    · rename_i hretryable
      simp only [Except.ok.injEq, Prod.mk.injEq] at h
      obtain ⟨rfl, -, rfl⟩ := h
      refine ⟨.inr ⟨error, rfl, by simpa using hretryable⟩, ?_⟩
      split
      · exact ⟨_, rfl⟩
      · exact ⟨_, rfl⟩

theorem nextIntentState_spec {result : Except IntentResolutionError Unit} {next : IntentState}
    {cause : Option GroupMessageProcessingError}
    (h : nextIntentState framing calls envelope result db = .ok (next, cause, db')) :
    SameIntents db db' ∧ db'.epoch = db.epoch ∧
      (result = .ok () ∧ next = .committed ∨ ∃ error, result = .error ⟨error, next⟩) := by
  obtain ⟨hresult, failedCommits, rfl⟩ := nextIntentState_eq_ok h
  refine ⟨⟨rfl, rfl, rfl, le_rfl⟩, rfl, hresult.imp id ?_⟩
  rintro ⟨error, herror, -⟩
  exact ⟨error, herror⟩

theorem setIntentState_toPublish (h : setIntentState calls intent envelope .toPublish db = .ok db') :
    SameRest db db' ∧ ∃ r, r.state = .published ∧ Sets db.intents intent.id r
      { r with
        state := .toPublish, payloadHash := none, postCommitData := none, publishedInEpoch := none
        stagedCommit := none } db'.intents := by
  obtain ⟨intents, hintents, h⟩ := bind_eq_ok.mp h
  cases h
  obtain ⟨r, hstate, hsets⟩ := sets_of_updateIntent (mapError_eq_ok.mp hintents)
  exact ⟨⟨rfl, rfl, rfl⟩, r, of_decide_eq_true hstate, hsets⟩

theorem setIntentState_committed (h : setIntentState calls intent envelope .committed db = .ok db') :
    SameRest db db' ∧ ∃ r, r.state = .published ∧ Sets db.intents intent.id r
      { r with
        state := .committed, sequenceId := some envelope.cursor.sequenceId
        originatorId := some envelope.cursor.originatorId } db'.intents := by
  obtain ⟨_, _, h⟩ := bind_eq_ok.mp h
  obtain ⟨intents, hintents, h⟩ := bind_eq_ok.mp h
  cases h
  obtain ⟨r, hstate, hsets⟩ := sets_of_updateIntent (mapError_eq_ok.mp hintents)
  exact ⟨⟨rfl, rfl, rfl⟩, r, of_decide_eq_true hstate, hsets⟩

theorem setIntentState_error (h : setIntentState calls intent envelope .error db = .ok db') :
    SameRest db db' ∧ ∃ r, Sets db.intents intent.id r { r with state := .error } db'.intents := by
  obtain ⟨intents, hintents, h⟩ := bind_eq_ok.mp h
  cases h
  obtain ⟨r, -, hsets⟩ := sets_of_updateIntent (mapError_eq_ok.mp hintents)
  exact ⟨⟨rfl, rfl, rfl⟩, r, hsets⟩

theorem resolveOwnIntent_eq_ok {validation : Except IntentResolutionError (Option Bytes)}
    {cause : Option GroupMessageProcessingError}
    (h : resolveOwnIntent groupId framing calls intent envelope trust validation db =
      .ok (cause, db')) :
    ∃ required before,
      requiresProcessing groupId framing calls envelope trust db = .ok (required, before) ∧
      (required = false ∧ db' = before ∨
        required = true ∧ ∃ result after next cause last,
          processValidated calls intent validation before = (result, after) ∧
          nextIntentState framing calls envelope result after = .ok (next, cause, last) ∧
          (next = intent.state ∧ db' = last ∨
            next ≠ intent.state ∧ setIntentState calls intent envelope next last = .ok db')) := by
  unfold resolveOwnIntent at h
  obtain ⟨⟨required, before⟩, hrequired, h⟩ := bind_eq_ok.mp h
  refine ⟨required, before, hrequired, ?_⟩
  cases required with
  | false =>
    cases h
    exact .inl ⟨rfl, rfl⟩
  | true =>
    cases hprocess : processValidated calls intent validation before with
    | mk result after =>
      simp only [hprocess, if_true] at h
      obtain ⟨⟨next, cause', last⟩, hnext, h⟩ := bind_eq_ok.mp h
      refine .inr ⟨rfl, result, after, next, cause', last, rfl, hnext, ?_⟩
      simp only at h
      split at h
      · rename_i hstate
        cases h
        exact .inl ⟨hstate, rfl⟩
      · rename_i hstate
        obtain ⟨_, hset, h⟩ := bind_eq_ok.mp h
        cases h
        exact .inr ⟨hstate, hset⟩

theorem resolveOwnIntent_cases {validation : Except IntentResolutionError (Option Bytes)}
    {cause : Option GroupMessageProcessingError}
    (h : resolveOwnIntent groupId framing calls intent envelope trust validation db =
      .ok (cause, db')) :
    SameIntents db db' ∧ db'.epoch = db.epoch ∨
      ∃ before result after last next,
        (SameIntents db before ∧ before.epoch = db.epoch) ∧
        processValidated calls intent validation before = (result, after) ∧
        (SameIntents after last ∧ last.epoch = after.epoch) ∧
        (result = .ok () ∧ next = .committed ∨ ∃ error, result = .error ⟨error, next⟩) ∧
        (next = intent.state ∧ db' = last ∨
          next ≠ intent.state ∧ setIntentState calls intent envelope next last = .ok db') := by
  obtain ⟨required, before, hrequired, hrest⟩ := resolveOwnIntent_eq_ok h
  have hbefore := sameIntents_requiresProcessing hrequired
  rcases hrest with ⟨-, rfl⟩ | ⟨-, result, after, next, cause, last, hprocess, hnext, hset⟩
  · exact .inl hbefore
  · have ⟨hlast, hepoch, hresult⟩ := nextIntentState_spec hnext
    exact .inr ⟨before, result, after, last, next, hbefore, hprocess, ⟨hlast, hepoch⟩, hresult, hset⟩

theorem processValidated_settled {result : Except IntentResolutionError Unit} {groupEpoch : Nat}
    (hstate : intent.state = .committed ∨ intent.state = .processed ∨ intent.state = .error)
    (hhash : intent.payloadHash = some (framing.payloadHash envelope))
    (hpast : intent.state ≠ .error → Past framing groupEpoch intent)
    (h : processValidated calls intent
      (stageAndValidateIntent framing calls intent envelope groupEpoch) db = (result, db')) :
    db' = db ∧ ∃ error next, result = .error ⟨error, next⟩ ∧
      (next = .toPublish ∨ next = intent.state) := by
  have hsettled (commit : Option Bytes) (h : processOwnMessage calls intent commit db = (result, db')) :
      db' = db ∧ ∃ error next, result = .error ⟨error, next⟩ ∧
        (next = .toPublish ∨ next = intent.state) := by
    rw [processOwnMessage_settled commit hstate] at h
    cases h
    exact ⟨rfl, _, _, rfl, .inr rfl⟩
  rcases stageAndValidateIntent_cases framing calls intent envelope groupEpoch with
    ⟨error, hstage⟩ | ⟨-, hstage⟩ |
      ⟨hmerges, hcurrent, ⟨error, hstage⟩ | ⟨commit, hstage⟩⟩
  · rw [hstage] at h
    cases h
    exact ⟨rfl, error, _, rfl, .inl rfl⟩
  · rw [hstage] at h
    exact hsettled none h
  · rw [hstage] at h
    cases h
    -- A commit that is merged is of an epoch before the group's.
    have herror : intent.state = .error := by
      by_contra hne
      have hlt := hpast hne hmerges envelope.message hhash
      omega
    exact ⟨rfl, error, _, rfl, .inr herror.symm⟩
  · rw [hstage] at h
    exact hsettled (some commit) h

theorem processValidated_published {result : Except IntentResolutionError Unit} {groupEpoch : Nat}
    (hstate : intent.state = .published)
    (h : processValidated calls intent
      (stageAndValidateIntent framing calls intent envelope groupEpoch) db = (result, db')) :
    Merges intent db db' ∧
      (db'.epoch ≠ db.epoch → framing.epoch envelope.message = groupEpoch) ∧
      (result = .ok () ∧ (mergesCommit intent →
          framing.epoch envelope.message = groupEpoch ∧ db'.epoch = db.epoch + 1) ∨
        ∃ error next, result = .error ⟨error, next⟩ ∧ (next = .toPublish ∨ next = .error)) := by
  have hrefused {error : GroupMessageProcessingError} {next : IntentState}
      (hnext : next = .toPublish ∨ next = .error)
      (h : ((.error ⟨error, next⟩, db) : Except IntentResolutionError Unit × Database κ) =
        (result, db')) : Merges intent db db' ∧
      (db'.epoch ≠ db.epoch → framing.epoch envelope.message = groupEpoch) ∧
      (result = .ok () ∧ (mergesCommit intent →
          framing.epoch envelope.message = groupEpoch ∧ db'.epoch = db.epoch + 1) ∨
        ∃ error next, result = .error ⟨error, next⟩ ∧ (next = .toPublish ∨ next = .error)) := by
    cases h
    exact ⟨.of_same ⟨.refl db, rfl⟩, fun h => absurd rfl h, .inr ⟨error, next, rfl, hnext⟩⟩
  rcases stageAndValidateIntent_cases framing calls intent envelope groupEpoch with
    ⟨error, hstage⟩ | ⟨hmerges, hstage⟩ |
      ⟨hmerges, hcurrent, ⟨error, hstage⟩ | ⟨commit, hstage⟩⟩
  · rw [hstage] at h
    exact hrefused (.inl rfl) h
  · rw [hstage] at h
    obtain ⟨hnone, -, hresult⟩ := processOwnMessage_unsettled (by simp [hstate]) h
    have hsame := hnone rfl
    exact ⟨.of_same hsame, fun hne => absurd hsame.2 hne,
      hresult.imp (fun hok => ⟨hok, fun h => absurd h hmerges⟩) id⟩
  · rw [hstage] at h
    exact hrefused (.inr rfl) h
  · rw [hstage] at h
    obtain ⟨-, hsome, hresult⟩ := processOwnMessage_unsettled (by simp [hstate]) h
    have ⟨hmerge, hepoch⟩ := hsome (Option.some_ne_none commit)
    exact ⟨hmerge, fun _ => hcurrent,
      hresult.imp (fun hok => ⟨hok, fun _ => ⟨hcurrent, hepoch hok⟩⟩) id⟩

theorem resolveOwnIntent_settled {cause : Option GroupMessageProcessingError}
    (hstate : intent.state = .committed ∨ intent.state = .processed ∨ intent.state = .error)
    (hhash : intent.payloadHash = some (framing.payloadHash envelope))
    (hpast : intent.state ≠ .error → Past framing db.epoch intent)
    (hrow : ∀ r, db.intents.fetch intent.id = some r → r.state ≠ .published)
    (h : resolveOwnIntent groupId framing calls intent envelope trust
      (stageAndValidateIntent framing calls intent envelope db.epoch) db = .ok (cause, db')) :
    SameIntents db db' ∧ db'.epoch = db.epoch := by
  rcases resolveOwnIntent_cases h with hsame |
    ⟨before, result, after, last, next, hbefore, hprocess, hlast, hresult, hset⟩
  · exact hsame
  · obtain ⟨rfl, error, next', rfl, hnext'⟩ := processValidated_settled hstate hhash hpast hprocess
    have hnext : next = next' := by
      rcases hresult with ⟨hok, -⟩ | ⟨error', herror⟩
      · cases hok
      · cases herror
        rfl
    subst hnext
    have hsame : SameIntents db last ∧ last.epoch = db.epoch :=
      ⟨hbefore.1.trans hlast.1, hlast.2.trans hbefore.2⟩
    rcases hset with ⟨-, rfl⟩ | ⟨hne, hset⟩
    · exact hsame
    · rcases hnext' with rfl | heq
      · obtain ⟨-, r, hpublished, hsets⟩ := setIntentState_toPublish hset
        rw [hsame.1.intents] at hsets
        exact absurd hpublished (hrow r hsets.before)
      · exact absurd heq hne

theorem acts_resolveOwnIntent {cause : Option GroupMessageProcessingError}
    (hfree : CollisionFree framing) (hstate : intent.state = .published)
    (hhash : intent.payloadHash = some (framing.payloadHash envelope))
    (hrow : db.intents.fetch intent.id = some intent)
    (h : resolveOwnIntent groupId framing calls intent envelope trust
      (stageAndValidateIntent framing calls intent envelope db.epoch) db = .ok (cause, db')) :
    Acts framing intent.id db db' := by
  rcases resolveOwnIntent_cases h with ⟨hsame, -⟩ |
    ⟨before, result, after, last, next, hbefore, hprocess, hlast, hresult, hset⟩
  · exact .keep hrow hsame
  · have ⟨hmerges, hcurrent, hprocessed⟩ := processValidated_published hstate hprocess
    have hlastMerges : Merges intent db last := by
      refine Merges.trans_same ⟨hmerges.intents.trans hbefore.1.intents,
        hmerges.welcomesSent.trans hbefore.1.welcomesSent, ?_⟩ hlast
      rw [← hbefore.1.merged, ← hbefore.2]
      exact hmerges.merged
    have hmerged : last.merged = db.merged ∨ ∃ p, framing.epoch p = db.epoch ∧
        db.epoch < last.epoch ∧ last.merged = db.merged ++ [(intent.id, some (framing.sha256 p))] := by
      rcases hlastMerges.merged with ⟨hsame, -⟩ | ⟨happend, hepoch⟩
      · exact .inl hsame
      · refine .inr ⟨envelope.message, hcurrent ?_, by omega, by rw [happend, hhash]; rfl⟩
        rw [← hlast.2, hepoch, hbefore.2]
        omega
    have hset' {r r' : StoredGroupIntent} (hrest : SameRest last db')
        (hsets : Sets last.intents intent.id r r' db'.intents)
        (hmove : r = intent → RowMove framing last.epoch db.welcomesSent r r') :
        Acts framing intent.id db db' := by
      rw [hlastMerges.intents] at hsets
      have hr : r = intent := Option.some.inj (hsets.before.symm.trans hrow)
      refine ⟨⟨r, r', hsets, ?_⟩, ?_, hrest.welcomesSent.trans hlastMerges.welcomesSent, ?_⟩
      · rw [hrest.epoch]
        exact hmove hr
      · rw [hrest.merged, hrest.epoch]
        exact hmerged
      · rw [hrest.epoch]
        exact hlastMerges.epoch_le
    have hnext : next = .committed ∧ result = .ok () ∨ next = .toPublish ∨ next = .error := by
      rcases hresult with ⟨hok, rfl⟩ | ⟨error, herror⟩
      · exact .inl ⟨rfl, hok⟩
      · rcases hprocessed with ⟨hok, -⟩ | ⟨error', next', herror', hnext'⟩
        · rw [hok] at herror
          cases herror
        · rw [herror'] at herror
          cases herror
          exact .inr hnext'
    rcases hset with ⟨heq, rfl⟩ | ⟨-, hset⟩
    · have hsets : Sets db.intents intent.id intent intent db'.intents := by
        rw [hlastMerges.intents]
        exact ⟨hrow, hrow, fun _ _ => rfl⟩
      exact ⟨⟨intent, intent, hsets, .keep⟩, hmerged, hlastMerges.welcomesSent,
        hlastMerges.epoch_le⟩
    · rcases hnext with ⟨rfl, hok⟩ | rfl | rfl
      · obtain ⟨hrest, r, hr, hsets⟩ := setIntentState_committed hset
        refine hset' hrest hsets ?_
        rintro rfl
        refine .commit _ _ hr fun hcommit p hp => ?_
        rcases hprocessed with ⟨-, hepoch⟩ | ⟨error, next, herror, -⟩
        · have ⟨hmessage, hafter⟩ := hepoch hcommit
          have hsame : framing.epoch p = framing.epoch envelope.message :=
            hfree p envelope.message (Option.some.inj (hp.symm.trans hhash))
          rw [hsame, hmessage, hlast.2, hafter, hbefore.2]
          omega
        · rw [hok] at herror
          cases herror
      · obtain ⟨hrest, r, hr, hsets⟩ := setIntentState_toPublish hset
        exact hset' hrest hsets fun _ => .retract r.publishAttempts hr
      · obtain ⟨hrest, r, hsets⟩ := setIntentState_error hset
        refine hset' hrest hsets ?_
        rintro rfl
        exact .fail hstate

end OwnMessage

section Publish

variable {calls : PublishCalls π κ} {intent : StoredGroupIntent} {db db' : Database κ}
  {r : StoredGroupIntent}

theorem getPublishIntentData_spec {result : Except GroupError (Option (PublishIntentData π))}
    (h : getPublishIntentData calls intent db = (result, db')) :
    SameRest db db' ∧ (db'.intents = db.intents ∨ result = .ok none ∧ ∃ r, r.state = .toPublish ∧
      Sets db.intents intent.id r { r with state := .superseded } db'.intents) := by
  unfold getPublishIntentData at h
  split at h
  · split at h
    · rename_i intents hset
      cases h
      obtain ⟨r, hstate, hsets⟩ := sets_of_updateIntent hset
      exact ⟨⟨rfl, rfl, rfl⟩, .inr ⟨rfl, r, of_decide_eq_true hstate, hsets⟩⟩
    · cases h
      exact ⟨⟨rfl, rfl, rfl⟩, .inl rfl⟩
  · cases h
    exact ⟨⟨rfl, rfl, rfl⟩, .inl rfl⟩

theorem failPublishAttempt_cases {result : Except GroupError Unit}
    {again : Database κ → Except GroupError Unit × Database κ}
    (h : failPublishAttempt calls intent db again = (result, db')) :
    db' = db ∨
      SameRest db db' ∧ (∃ r, Sets db.intents intent.id r { r with state := .error } db'.intents) ∨
      again { db with intents := db.intents.incrementIntentPublishAttemptCount intent.id } =
        (result, db') := by
  unfold failPublishAttempt at h
  split at h
  · split at h
    · cases h
      exact .inl rfl
    · unfold setGroupIntentErrorAndFailMsg at h
      split at h
      · cases h
        exact .inl rfl
      · rename_i intents hset
        cases h
        obtain ⟨r, -, hsets⟩ := sets_of_updateIntent hset
        exact .inr (.inl ⟨⟨rfl, rfl, rfl⟩, r, hsets⟩)
  · exact .inr (.inr h)

theorem skipIntent_cases {result : Except GroupError Unit} (hrow : db.intents.fetch intent.id = some r)
    (h : skipIntent intent db = (result, db')) :
    db' = db ∨ r.state = .toPublish ∧ SameRest db db' ∧
      Sets db.intents intent.id r { r with state := .processed } db'.intents := by
  unfold skipIntent at h
  rw [hrow, Option.any_some] at h
  split at h
  · rename_i hstate
    split at h
    · cases h
      exact .inl rfl
    · rename_i intents hset
      cases h
      obtain ⟨r', -, hsets⟩ := sets_of_updateIntent hset
      obtain rfl : r' = r := Option.some.inj (hsets.before.symm.trans hrow)
      exact .inr ⟨of_decide_eq_true hstate, ⟨rfl, rfl, rfl⟩, hsets⟩
  · cases h
    exact .inl rfl

theorem acts_failPublishAttempt {result : Except GroupError Unit}
    (hrow : db.intents.fetch intent.id = some r) (hstate : r.state = .toPublish)
    (h : failPublishAttempt calls intent db (fun db => (.ok (), db)) = (result, db')) :
    Acts framing intent.id db db' := by
  rcases failPublishAttempt_cases h with rfl | ⟨hrest, r', hsets⟩ | hagain
  · exact .keep hrow (.refl _)
  · obtain rfl : r' = r := Option.some.inj (hsets.before.symm.trans hrow)
    exact .of_sets hrest hsets (.giveUp _ hstate (.inr (.inr rfl)))
  · cases hagain
    exact .of_sets ⟨rfl, rfl, rfl⟩ (sets_incrementIntentPublishAttemptCount hrow) (.attempt _ (.inl hstate))

theorem acts_skipIntent {mid : Database κ} {result : Except GroupError Unit}
    (hrow : db.intents.fetch intent.id = some r) (hstate : r.state = .toPublish)
    (hrest : SameRest db mid) (hmid : mid.intents = db.intents ∨ ∃ r, r.state = .toPublish ∧
      Sets db.intents intent.id r { r with state := .superseded } mid.intents)
    (h : skipIntent intent mid = (result, db')) : Acts framing intent.id db db' := by
  rcases hmid with hintents | ⟨r', hr', hsets⟩
  · have hmid : mid.intents.fetch intent.id = some r := by rw [hintents, hrow]
    refine .of_same hrest hintents ?_
    rcases skipIntent_cases hmid h with rfl | ⟨-, hrest', hsets⟩
    · exact .keep hmid (.refl _)
    · exact .of_sets hrest' hsets (.giveUp _ hstate (.inl rfl))
  · -- What has been given up is not skipped as well.
    rcases skipIntent_cases hsets.after h with rfl | ⟨hsuperseded, -, -⟩
    · exact .of_sets hrest hsets (.giveUp _ hr' (.inr (.inl rfl)))
    · cases hsuperseded

theorem acts_prepareIntent {result : Except GroupError (Option Bool)}
    (hrow : db.intents.fetch intent.id = some r) (hstate : r.state = .toPublish)
    (h : prepareIntent framing calls intent db = (result, db')) :
    Acts framing intent.id db db' ∧ (∀ hasStagedCommit, result = .ok (some hasStagedCommit) →
      ∃ r', db'.intents.fetch intent.id = some r' ∧ r'.state = .published) := by
  unfold prepareIntent at h
  cases hdata : getPublishIntentData calls intent db with
  | mk data mid =>
    obtain ⟨hrest, hmid⟩ := getPublishIntentData_spec hdata
    rw [hdata] at h
    have hsame (hne : data ≠ .ok none) : mid.intents = db.intents := by
      rcases hmid with hintents | ⟨hnone, -⟩
      · exact hintents
      · exact absurd hnone hne
    cases data with
    | error error =>
      have hintents := hsame (by simp)
      have hmid : mid.intents.fetch intent.id = some r := by rw [hintents, hrow]
      cases hattempt : failPublishAttempt calls intent mid (fun db => (.ok (), db)) with
      | mk attempt last =>
        have hacts : Acts framing intent.id db last :=
          .of_same hrest hintents (acts_failPublishAttempt hmid hstate hattempt)
        simp only [hattempt] at h
        cases attempt with
        | error _ | ok _ =>
          cases h
          exact ⟨hacts, fun _ h => by cases h⟩
    | ok data =>
      cases data with
      | none =>
        cases hskip : skipIntent intent mid with
        | mk skip last =>
          have hacts : Acts framing intent.id db last :=
            acts_skipIntent hrow hstate hrest (hmid.imp id And.right) hskip
          simp only [hskip] at h
          cases skip with
          | error _ | ok _ =>
            cases h
            exact ⟨hacts, fun _ h => by cases h⟩
      | some data =>
        have hintents := hsame (by simp)
        have hmid : mid.intents.fetch intent.id = some r := by rw [hintents, hrow]
        have hkeep : Acts framing intent.id db mid := .keep hrow (hrest.same hintents)
        simp only at h
        split at h
        · cases h
          exact ⟨hkeep, fun _ h => by cases h⟩
        · split at h
          · cases h
            exact ⟨hkeep, fun _ h => by cases h⟩
          · rename_i intents hset
            rcases sets_of_setGroupIntentPublished hset with ⟨-, hnot⟩ | ⟨r', hr', hsets⟩
            · exact absurd hstate (hnot r hmid)
            · have hacts : Acts framing intent.id db { mid with intents } :=
                .of_same hrest hintents (.of_sets ⟨rfl, rfl, rfl⟩ hsets (.publish _ _ _ _ hr'))
              split at h
              · cases h
                exact ⟨hacts, fun _ h => by cases h⟩
              · cases h
                exact ⟨hacts, fun _ _ => ⟨_, hsets.after, rfl⟩⟩

theorem acts_sendIntent {result : Except GroupError Unit}
    (hrow : db.intents.fetch intent.id = some r) (hstate : r.state = .published)
    (h : sendIntent calls intent db = (result, db')) : Acts framing intent.id db db' := by
  have hfailed (attempt : Except GroupError Unit)
      (hattempt : handlePublishedIntentSendFailure calls intent db = (attempt, db')) :
      Acts framing intent.id db db' := by
    rcases failPublishAttempt_cases hattempt with rfl | ⟨hrest, r', hsets⟩ | hagain
    · exact .keep hrow (.refl _)
    · obtain rfl : r' = r := Option.some.inj (hsets.before.symm.trans hrow)
      exact .of_sets hrest hsets (.fail hstate)
    · have hattempts := sets_incrementIntentPublishAttemptCount hrow
      split at hagain
      · cases hagain
        exact .of_sets ⟨rfl, rfl, rfl⟩ hattempts (.attempt _ (.inr hstate))
      · rename_i intents hset
        cases hagain
        obtain ⟨r', -, hsets⟩ := sets_of_updateIntent hset
        obtain rfl := hattempts.after_eq hsets.before
        exact .of_sets ⟨rfl, rfl, rfl⟩ (hattempts.trans hsets) (.retract _ hstate)
  unfold sendIntent at h
  split at h
  · cases h
    exact .keep hrow (.refl _)
  · cases hattempt : handlePublishedIntentSendFailure calls intent db with
    | mk attempt last =>
      simp only [hattempt] at h
      cases attempt with
      | error _ | ok _ =>
        cases h
        exact hfailed _ hattempt

end Publish

section PostCommit

variable {intent : StoredGroupIntent} {db db' : Database κ} {result : Except GroupError Unit}

theorem takePostCommitAction_spec {sendWelcomes : Except GroupError Unit}
    (h : takePostCommitAction sendWelcomes intent db = (result, db')) :
    db'.intents = db.intents ∧ db'.merged = db.merged ∧ db'.epoch = db.epoch ∧
      db.welcomesSent ⊆ db'.welcomesSent ∧ (result = .ok () → Welcomed db'.welcomesSent intent) := by
  unfold takePostCommitAction at h
  split at h
  · rename_i hnone
    cases h
    refine ⟨rfl, rfl, rfl, List.Subset.refl _, fun _ action haction => ?_⟩
    rw [hnone] at haction
    cases haction
  · rename_i action haction
    split at h
    · cases h
      exact ⟨rfl, rfl, rfl, List.Subset.refl _, nofun⟩
    · cases h
      refine ⟨rfl, rfl, rfl, List.subset_append_left _ _, fun _ action' haction' => ?_⟩
      obtain rfl : action' = action := Option.some.inj (haction'.symm.trans haction)
      simp

theorem acts_finishIntent {r : StoredGroupIntent} (hrow : db.intents.fetch intent.id = some r)
    (hstate : r.state = .committed ∨ r.state = .processed) (hwelcomed : Welcomed db.welcomesSent r)
    (h : finishIntent intent db = (result, db')) : Acts framing intent.id db db' := by
  unfold finishIntent at h
  split at h
  · cases h
    exact .keep hrow (.refl _)
  · rename_i intents hset
    cases h
    obtain ⟨r', -, hsets⟩ := sets_of_updateIntent hset
    obtain rfl : r' = r := Option.some.inj (hsets.before.symm.trans hrow)
    exact .of_sets ⟨rfl, rfl, rfl⟩ hsets (.finish hstate hwelcomed)

end PostCommit

end LibXmtp.Groups.MlsSync
