import LibXmtp.Groups.MessageEffects

namespace LibXmtp.Groups.MlsSync

open LibXmtp.Data LibXmtp.Types LibXmtp.Db

variable {π κ : Type} {groupId : Bytes} {framing : Framing π}

section PostProcessing

variable {calls : Calls κ} {envelope : GroupMessage π} {db : Database κ}
  {error : GroupMessageProcessingError}

theorem postProcessMessage_ok (outcome : ProcessedMessageOutcome) :
    (postProcessMessage groupId framing calls envelope (.ok outcome) db).2 = db := by
  unfold postProcessMessage
  cases calls.pruneIcebox with
  | ok _ => rfl
  | error error => rfl

theorem forkDetection_eq (error : GroupMessageProcessingError) (db : Database κ) : ∃ maybeForked,
    forkDetection framing envelope error db = { db with maybeForked } := by
  unfold forkDetection
  split
  · split
    · exact ⟨_, rfl⟩
    · exact ⟨_, rfl⟩
  · exact ⟨_, rfl⟩

theorem postProcessMessage_tooLow (minVersion : String) :
    Unaffected groupId db (postProcessMessage groupId framing calls envelope
      (.error (.commitValidation (.protocolVersionTooLow minVersion))) db).2 := by
  unfold postProcessMessage
  cases calls.setGroupPaused with
  | ok _ => exact ⟨⟨rfl, rfl, rfl, rfl⟩, fun _ _ => rfl⟩
  | error error => exact .refl db

theorem postProcessMessage_error
    (htooLow : ∀ minVersion, error ≠ .commitValidation (.protocolVersionTooLow minVersion)) :
    (postProcessMessage groupId framing calls envelope (.error error) db).2 =
      forkDetection framing envelope error (if !error.isRetryable && calls.isActive then
        updateCursorAfterError groupId framing calls envelope db else db) := by
  unfold postProcessMessage
  split
  · rename_i heq
    cases heq
  · rename_i minVersion heq
    exact absurd (Except.error.inj heq) (htooLow minVersion)
  · rename_i heq
    cases heq
    rfl

theorem updateCursorAfterError_eq (h : calls.updateCursorOnError.isOk) : ∃ failedCommits,
    updateCursorAfterError groupId framing calls envelope db =
      { (maybeUpdateCursor groupId framing envelope db).2 with failedCommits } := by
  unfold updateCursorAfterError
  rw [if_pos h]
  dsimp only
  split
  · exact ⟨_, rfl⟩
  · exact ⟨_, rfl⟩

theorem updateCursorAfterError_of_not (h : ¬calls.updateCursorOnError.isOk) :
    updateCursorAfterError groupId framing calls envelope db = db := by
  rw [updateCursorAfterError, if_neg h]

def MovesCursor (calls : Calls κ) (error : GroupMessageProcessingError) : Prop :=
  error.isRetryable = false ∧ calls.isActive = true ∧ calls.updateCursorOnError.isOk = true

variable (groupId framing calls envelope db) in
theorem postProcessMessage_cases
    (htooLow : ∀ minVersion, error ≠ .commitValidation (.protocolVersionTooLow minVersion)) :
    let db' := (postProcessMessage groupId framing calls envelope (.error error) db).2
    MovesCursor calls error ∧ NoEffect db db' ∧
        db'.refreshStates = (maybeUpdateCursor groupId framing envelope db).2.refreshStates ∨
      ¬MovesCursor calls error ∧ Unaffected groupId db db' := by
  intro db'
  have hdb' : db' = _ := postProcessMessage_error htooLow
  by_cases hmoves : !error.isRetryable && calls.isActive
  · rw [if_pos hmoves] at hdb'
    obtain ⟨maybeForked, hforked⟩ : ∃ maybeForked, db' =
        { updateCursorAfterError groupId framing calls envelope db with maybeForked } := by
      rw [hdb']
      exact forkDetection_eq error _
    rw [Bool.and_eq_true, Bool.not_eq_true'] at hmoves
    by_cases hok : calls.updateCursorOnError.isOk
    · obtain ⟨failedCommits, hfailed⟩ : ∃ failedCommits,
          updateCursorAfterError groupId framing calls envelope db =
            { (maybeUpdateCursor groupId framing envelope db).2 with failedCommits } :=
        updateCursorAfterError_eq hok
      rw [hforked, hfailed]
      exact .inl ⟨⟨hmoves.1, hmoves.2, hok⟩, ⟨rfl, rfl, rfl, rfl⟩, rfl⟩
    · rw [hforked, updateCursorAfterError_of_not hok]
      exact .inr ⟨fun h => hok h.2.2, ⟨rfl, rfl, rfl, rfl⟩, fun _ _ => rfl⟩
  · rw [if_neg hmoves] at hdb'
    obtain ⟨maybeForked, hforked⟩ : ∃ maybeForked, db' = { db with maybeForked } := by
      rw [hdb']
      exact forkDetection_eq error _
    rw [hforked]
    refine .inr ⟨fun h => hmoves ?_, ⟨rfl, rfl, rfl, rfl⟩, fun _ _ => rfl⟩
    rw [h.1, h.2.1]
    rfl

theorem noEffect_postProcessMessage (error : GroupMessageProcessingError) (db : Database κ) :
    NoEffect db (postProcessMessage groupId framing calls envelope (.error error) db).2 := by
  by_cases htooLow : ∃ minVersion, error = .commitValidation (.protocolVersionTooLow minVersion)
  · obtain ⟨minVersion, rfl⟩ := htooLow
    exact (postProcessMessage_tooLow minVersion).toNoEffect
  · have hcases : _ ∨ _ := postProcessMessage_cases groupId framing calls envelope db
      fun minVersion heq => htooLow ⟨minVersion, heq⟩
    rcases hcases with ⟨-, hno, -⟩ | ⟨-, hsame⟩
    · exact hno
    · exact hsame.toNoEffect

theorem grows_postProcessMessage
    (result : Except GroupMessageProcessingError ProcessedMessageOutcome) (db : Database κ) :
    Grows groupId db (postProcessMessage groupId framing calls envelope result db).2 := by
  cases result with
  | ok outcome =>
    rw [postProcessMessage_ok]
    exact .of_same fun _ _ => rfl
  | error error =>
    by_cases htooLow : ∃ minVersion, error = .commitValidation (.protocolVersionTooLow minVersion)
    · obtain ⟨minVersion, rfl⟩ := htooLow
      exact .of_same (postProcessMessage_tooLow minVersion).cursors
    · have hcases : _ ∨ _ := postProcessMessage_cases groupId framing calls envelope db
        fun minVersion heq => htooLow ⟨minVersion, heq⟩
      rcases hcases with ⟨-, -, hstates⟩ | ⟨-, hsame⟩
      · intro kind originator
        rw [hstates]
        exact grows_maybeUpdateCursor envelope db kind originator
      · exact .of_same hsame.cursors

end PostProcessing

section Atomicity

variable {calls : Calls κ} {envelope : GroupMessage π} {trust : Bool} {db : Database κ}

theorem processMessage_trusted
    (habove : lastCursor groupId framing envelope db < envelope.cursor.sequenceId) :
    processMessage groupId framing calls envelope true db =
      let read := (getLastCursor groupId framing envelope db).2
      match calls.loadMlsGroup with
      | .error error => (.error error, read)
      | .ok () =>
        if framing.isPrivateMessage envelope.message then
          let (result, after) := processMessageInner groupId framing calls envelope true read
          postProcessMessage groupId framing calls envelope result after
        else (.error .unsupportedMessageType, read) := by
  have hnot : ¬envelope.cursor.sequenceId ≤ (getLastCursor groupId framing envelope db).1 :=
    Nat.not_le.mpr habove
  simp only [processMessage, if_true, Bool.true_and, hnot, decide_false]
  rfl

theorem processMessage_stream :
    processMessage groupId framing calls envelope false db =
      match calls.loadMlsGroup with
      | .error error => (.error error, db)
      | .ok () =>
        if framing.isPrivateMessage envelope.message then
          processMessageInner groupId framing calls envelope false db
        else (.error .unsupportedMessageType, db) := rfl

theorem unaffected_of_processed
    (hbelow : envelope.cursor.sequenceId ≤ lastCursor groupId framing envelope db) (trust : Bool) :
    Unaffected groupId db (processMessage groupId framing calls envelope trust db).2 := by
  cases trust with
  | true =>
    have hlast : envelope.cursor.sequenceId ≤ (getLastCursor groupId framing envelope db).1 := hbelow
    simp only [processMessage, if_true, Bool.true_and, hlast, decide_true]
    exact unaffected_getLastCursor envelope db
  | false =>
    rw [processMessage_stream]
    split
    · exact .refl db
    · split
      · cases hinner : processMessageInner groupId framing calls envelope false db with
        | mk result after =>
          rcases processMessageInner_cases hinner with ⟨hsame, -⟩ | ⟨hlt, -⟩
          · exact hsame
          · exact absurd hbelow (Nat.not_le.mpr hlt)
      · exact .refl db

def intentOf (framing : Framing π) (envelope : GroupMessage π) (db : Database κ) :
    Option StoredGroupIntent :=
  db.intents.findGroupIntentByPayloadHash (framing.payloadHash envelope)

/-- What becomes of a message that is above the cursor, by the outcome of its processing. -/
structure Atomic (groupId : Bytes) (framing : Framing π) (calls : Calls κ)
    (envelope : GroupMessage π) (db db' : Database κ)
    (outcome : Except GroupMessageProcessingError ProcessedMessageOutcome) : Prop where
  stored : outcome.isOk → Advanced groupId framing envelope db db' ∧
    ∃ base, NoEffect db base ∧ Stored framing calls envelope (intentOf framing envelope db) base db'
  retried : ∀ error, outcome = .error error → error.isRetryable = true →
    Unaffected groupId db db'
  tooLow : ∀ minVersion, outcome = .error (.commitValidation (.protocolVersionTooLow minVersion)) →
    Unaffected groupId db db'
  failed : ∀ error, outcome = .error error → NoEffect db db' ∧
    (SameCursors groupId db db' ∨ Advanced groupId framing envelope db db')
  skipped : ∀ error, outcome = .error error → MovesCursor calls error →
    (∀ minVersion, error ≠ .commitValidation (.protocolVersionTooLow minVersion)) →
    Advanced groupId framing envelope db db'

/-- What is left of a message whose processing has failed for some other reason than its version. -/
structure FailedOutcome (groupId : Bytes) (framing : Framing π) (calls : Calls κ)
    (envelope : GroupMessage π) (error : GroupMessageProcessingError) (db db' : Database κ) :
    Prop where
  noEffect : NoEffect db db'
  cursors : SameCursors groupId db db' ∨ Advanced groupId framing envelope db db'
  retried : error.isRetryable = true → Unaffected groupId db db'
  skipped : MovesCursor calls error → Advanced groupId framing envelope db db'

theorem failed_postProcessMessage {error : GroupMessageProcessingError} {read after : Database κ}
    (hfits : envelope.cursor.sequenceId < 2 ^ 63) (hread : Unaffected groupId db read)
    (hlast : lastCursor groupId framing envelope read < envelope.cursor.sequenceId)
    (hinner : processMessageInner groupId framing calls envelope true read = (.error error, after))
    (htooLow : ∀ minVersion, error ≠ .commitValidation (.protocolVersionTooLow minVersion)) :
    FailedOutcome groupId framing calls envelope error db
      (postProcessMessage groupId framing calls envelope (.error error) after).2 := by
  generalize hlater : (postProcessMessage groupId framing calls envelope (.error error) after).2 = db'
  have hpost : MovesCursor calls error ∧ NoEffect after db' ∧
        db'.refreshStates = (maybeUpdateCursor groupId framing envelope after).2.refreshStates ∨
      ¬MovesCursor calls error ∧ Unaffected groupId after db' := by
    rw [← hlater]
    exact postProcessMessage_cases groupId framing calls envelope after htooLow
  have hmoved (hle : lastCursor groupId framing envelope after ≤ envelope.cursor.sequenceId)
      (hstates : db'.refreshStates =
        (maybeUpdateCursor groupId framing envelope after).2.refreshStates) :
      Advanced groupId framing envelope after db' :=
    (advanced_maybeUpdateCursor hfits hle).of_same hstates
  rcases processMessageInner_error hinner with hsame | ⟨rfl, hnone, hadvanced⟩
  · have hafter : Unaffected groupId db after := hread.trans hsame
    rcases hpost with ⟨hmoves, hno, hstates⟩ | ⟨hmoves, hunaffected⟩
    · have hle : lastCursor groupId framing envelope after ≤ envelope.cursor.sequenceId := by
        rw [hsame.lastCursor_eq]
        exact hlast.le
      have hdb' := hafter.advanced (hmoved hle hstates)
      exact ⟨hafter.toNoEffect.trans hno, .inr hdb',
        fun hretryable => absurd (hretryable.symm.trans hmoves.1) (by decide), fun _ => hdb'⟩
    · have hdb' := hafter.trans hunaffected
      exact ⟨hdb'.toNoEffect, .inl hdb'.cursors, fun _ => hdb', fun h => absurd h hmoves⟩
  · -- A message that is not valid has moved the cursor before.
    have hafter := hread.advanced (hadvanced hfits)
    have hnone := hread.toNoEffect.trans hnone
    rcases hpost with ⟨hmoves, hno, hstates⟩ | ⟨hmoves, hunaffected⟩
    · have hdb' := hafter.trans (hmoved (hadvanced hfits).cursor.le hstates)
      exact ⟨hnone.trans hno, .inr hdb', nofun, fun _ => hdb'⟩
    · refine ⟨hnone.trans hunaffected.toNoEffect, .inr ⟨?_, fun kind originator hne => ?_⟩, nofun,
        fun h => absurd h hmoves⟩
      · rw [hunaffected.lastCursor_eq]
        exact hafter.cursor
      · rw [hunaffected.cursors]
        exact hafter.others kind originator hne

theorem atomic_of_trusted (hfits : envelope.cursor.sequenceId < 2 ^ 63)
    (habove : lastCursor groupId framing envelope db < envelope.cursor.sequenceId)
    (hload : calls.loadMlsGroup = .ok ()) (hprivate : framing.isPrivateMessage envelope.message) :
    Atomic groupId framing calls envelope db
      (processMessage groupId framing calls envelope true db).2
      (processMessageInner groupId framing calls envelope true
        (getLastCursor groupId framing envelope db).2).1 := by
  have hread : Unaffected groupId db (getLastCursor groupId framing envelope db).2 :=
    unaffected_getLastCursor envelope db
  rw [processMessage_trusted habove, hload]
  simp only [hprivate, if_true]
  generalize hbefore : (getLastCursor groupId framing envelope db).2 = read at hread
  have hlast : lastCursor groupId framing envelope read < envelope.cursor.sequenceId := by
    rwa [hread.lastCursor_eq]
  cases hinner : processMessageInner groupId framing calls envelope true read with
  | mk result after =>
    cases result with
    | ok outcome =>
      have hadvanced := processMessageInner_advanced hfits hlast hinner
      obtain ⟨base, hbase, hstored⟩ := processMessageInner_stored hlast (fun _ => hfits) hinner
      rw [hread.intents] at hstored
      refine ⟨fun _ => ?_, nofun, nofun, nofun, nofun⟩
      rw [postProcessMessage_ok]
      exact ⟨hread.advanced hadvanced, base, hread.toNoEffect.trans hbase, hstored⟩
    | error error =>
      by_cases htooLow : ∃ minVersion, error = .commitValidation (.protocolVersionTooLow minVersion)
      · obtain ⟨minVersion, rfl⟩ := htooLow
        have hafter : Unaffected groupId db after := by
          rcases processMessageInner_error hinner with hsame | ⟨hinvalid, -⟩
          · exact hread.trans hsame
          · cases hinvalid
        have hpost : Unaffected groupId db (postProcessMessage groupId framing calls envelope
            (.error (.commitValidation (.protocolVersionTooLow minVersion))) after).2 :=
          hafter.trans (postProcessMessage_tooLow minVersion)
        refine ⟨nofun, fun _ _ _ => hpost, fun _ _ => hpost,
          fun _ _ => ⟨hpost.toNoEffect, .inl hpost.cursors⟩, fun error herror _ hne => ?_⟩
        cases herror
        exact absurd rfl (hne minVersion)
      · have htooLow' (minVersion : String) :
            error ≠ .commitValidation (.protocolVersionTooLow minVersion) :=
          fun heq => htooLow ⟨minVersion, heq⟩
        have hfailed := failed_postProcessMessage hfits hread hlast hinner htooLow'
        refine ⟨nofun, fun error' herror hretryable => ?_, fun minVersion herror => ?_,
          fun _ _ => ⟨hfailed.noEffect, hfailed.cursors⟩, fun error' herror hmoves _ => ?_⟩
        · cases herror
          exact hfailed.retried hretryable
        · cases herror
          exact absurd rfl (htooLow' minVersion)
        · cases herror
          exact hfailed.skipped hmoves

structure Streamed (groupId : Bytes) (framing : Framing π) (calls : Calls κ)
    (envelope : GroupMessage π) (db db' : Database κ)
    (outcome : Except GroupMessageProcessingError ProcessedMessageOutcome) : Prop where
  stored : outcome.isOk → SameCursors groupId db db' ∧
    (lastCursor groupId framing envelope db < envelope.cursor.sequenceId →
      ∃ base, NoEffect db base ∧
        Stored framing calls envelope (intentOf framing envelope db) base db')
  failed : ∀ error, outcome = .error error → NoEffect db db'
  refused : framing.isCommit envelope → Unaffected groupId db db'

theorem streamed_of_processMessage (calls : Calls κ) (envelope : GroupMessage π)
    (db : Database κ) :
    Streamed groupId framing calls envelope db
      (processMessage groupId framing calls envelope false db).2
      (processMessage groupId framing calls envelope false db).1 := by
  have hrefused (error : GroupMessageProcessingError) :
      Streamed groupId framing calls envelope db db (.error error) :=
    ⟨nofun, fun _ _ => .refl db, fun _ => .refl db⟩
  rw [processMessage_stream]
  split
  · exact hrefused _
  · split
    · cases hinner : processMessageInner groupId framing calls envelope false db with
      | mk result after =>
        refine ⟨fun hok => ?_, fun error herror => ?_, fun hcommit => ?_⟩
        · obtain ⟨outcome, rfl⟩ := exists_of_isOk hok
          exact ⟨processMessageInner_stream hinner, fun habove =>
            processMessageInner_stored habove (fun htrust => by cases htrust) hinner⟩
        · cases herror
          rcases processMessageInner_error hinner with hsame | ⟨-, hnone, -⟩
          · exact hsame.toNoEffect
          · exact hnone
        · rcases processMessageInner_cases hinner with ⟨hsame, -⟩ | ⟨-, htrust, -⟩
          · exact hsame
          · simp [hcommit] at htrust
    · exact hrefused _

theorem grows_processMessage (calls : Calls κ) (envelope : GroupMessage π) (trust : Bool)
    (db : Database κ) :
    Grows groupId db (processMessage groupId framing calls envelope trust db).2 := by
  have hinner (trust : Bool) (db : Database κ) : Grows groupId db
      (processMessageInner groupId framing calls envelope trust db).2 := by
    cases h : processMessageInner groupId framing calls envelope trust db with
    | mk result after => exact grows_processMessageInner h
  cases trust with
  | true =>
    by_cases hbelow : envelope.cursor.sequenceId ≤ lastCursor groupId framing envelope db
    · exact .of_same (unaffected_of_processed hbelow true).cursors
    · have hread : Unaffected groupId db (getLastCursor groupId framing envelope db).2 :=
        unaffected_getLastCursor envelope db
      rw [processMessage_trusted (Nat.lt_of_not_le hbelow)]
      refine Grows.trans (.of_same hread.cursors) ?_
      dsimp only
      split
      · exact .of_same fun _ _ => rfl
      · split
        · exact (hinner true _).trans (grows_postProcessMessage _ _)
        · exact .of_same fun _ _ => rfl
  | false =>
    rw [processMessage_stream]
    split
    · exact .of_same fun _ _ => rfl
    · split
      · exact hinner false db
      · exact .of_same fun _ _ => rfl

/-- One delivery of a message, from a trusted order or from a stream. -/
structure Delivery (π κ : Type) where
  calls : Calls κ
  envelope : GroupMessage π
  trustMessageOrder : Bool

def deliver (groupId : Bytes) (framing : Framing π) (db : Database κ) (delivery : Delivery π κ) :
    Database κ :=
  (processMessage groupId framing delivery.calls delivery.envelope delivery.trustMessageOrder db).2

def deliverAll (groupId : Bytes) (framing : Framing π) (db : Database κ)
    (deliveries : List (Delivery π κ)) : Database κ :=
  deliveries.foldl (deliver groupId framing) db

theorem grows_deliverAll (deliveries : List (Delivery π κ)) (db : Database κ) :
    Grows groupId db (deliverAll groupId framing db deliveries) := by
  induction deliveries generalizing db with
  | nil => exact fun _ _ => le_rfl
  | cons delivery deliveries ih =>
    exact (grows_processMessage delivery.calls delivery.envelope delivery.trustMessageOrder db).trans
      (ih _)

theorem noEffect_of_not_fits (hfits : ¬envelope.cursor.sequenceId < 2 ^ 63) :
    NoEffect db (processMessage groupId framing calls envelope true db).2 := by
  by_cases hbelow : envelope.cursor.sequenceId ≤ lastCursor groupId framing envelope db
  · exact (unaffected_of_processed hbelow true).toNoEffect
  · have hread : Unaffected groupId db (getLastCursor groupId framing envelope db).2 :=
      unaffected_getLastCursor envelope db
    rw [processMessage_trusted (Nat.lt_of_not_le hbelow)]
    dsimp only
    split
    · exact hread.toNoEffect
    · split
      · cases hinner : processMessageInner groupId framing calls envelope true
          (getLastCursor groupId framing envelope db).2 with
        | mk result after =>
          cases result with
          | ok outcome =>
            rw [postProcessMessage_ok]
            exact hread.toNoEffect.trans (processMessageInner_skipped hfits hinner)
          | error error =>
            refine (hread.toNoEffect.trans ?_).trans (noEffect_postProcessMessage error after)
            rcases processMessageInner_error hinner with hsame | ⟨-, hnone, -⟩
            · exact hsame.toNoEffect
            · exact hnone
      · exact hread.toNoEffect

theorem processed_of_effect
    (heffect : ¬NoEffect db (processMessage groupId framing calls envelope true db).2) :
    envelope.cursor.sequenceId ≤ lastCursor groupId framing envelope
      (processMessage groupId framing calls envelope true db).2 := by
  have hfits : envelope.cursor.sequenceId < 2 ^ 63 :=
    not_not.mp fun hfits => heffect (noEffect_of_not_fits hfits)
  by_cases hbelow : envelope.cursor.sequenceId ≤ lastCursor groupId framing envelope db
  · exact absurd (unaffected_of_processed hbelow true).toNoEffect heffect
  · have habove := Nat.lt_of_not_le hbelow
    have hread : Unaffected groupId db (getLastCursor groupId framing envelope db).2 :=
      unaffected_getLastCursor envelope db
    cases hload : calls.loadMlsGroup with
    | error error =>
      rw [processMessage_trusted habove, hload] at heffect
      exact absurd hread.toNoEffect heffect
    | ok _ =>
      by_cases hprivate : framing.isPrivateMessage envelope.message
      · have hatomic := atomic_of_trusted hfits habove hload hprivate
        cases houtcome : (processMessageInner groupId framing calls envelope true
          (getLastCursor groupId framing envelope db).2).1 with
        | ok outcome =>
          rw [houtcome] at hatomic
          exact (hatomic.stored rfl).1.cursor.ge
        | error error =>
          rw [houtcome] at hatomic
          exact absurd (hatomic.failed error rfl).1 heffect
      · rw [processMessage_trusted habove, hload] at heffect
        simp only [hprivate] at heffect
        exact absurd hread.toNoEffect heffect

theorem processMessage_of_pruneIcebox {error : IntentTable.StorageError}
    (habove : lastCursor groupId framing envelope db < envelope.cursor.sequenceId)
    (hload : calls.loadMlsGroup = .ok ()) (hprivate : framing.isPrivateMessage envelope.message)
    (hok : (processMessageInner groupId framing calls envelope true
      (getLastCursor groupId framing envelope db).2).1.isOk) (hprune : calls.pruneIcebox = .error error) :
    (processMessage groupId framing calls envelope true db).1 = .error (.storage error) := by
  rw [processMessage_trusted habove, hload]
  simp only [hprivate, if_true]
  obtain ⟨outcome, houtcome⟩ := exists_of_isOk hok
  simp only [houtcome, postProcessMessage, hprune]

variable (groupId framing) in
/-- Message processing is atomic with the cursor, which holds ids below 2^63. -/
theorem processMessage_atomic (calls : Calls κ) (envelope : GroupMessage π) (db : Database κ) :
    (envelope.cursor.sequenceId ≤ lastCursor groupId framing envelope db → ∀ trust,
      Unaffected groupId db (processMessage groupId framing calls envelope trust db).2) ∧
      (envelope.cursor.sequenceId < 2 ^ 63 →
        lastCursor groupId framing envelope db < envelope.cursor.sequenceId →
        calls.loadMlsGroup = .ok () → framing.isPrivateMessage envelope.message →
        let outcome := (processMessageInner groupId framing calls envelope true
          (getLastCursor groupId framing envelope db).2).1
        Atomic groupId framing calls envelope db
          (processMessage groupId framing calls envelope true db).2 outcome ∧
        ∀ error, outcome.isOk → calls.pruneIcebox = .error error →
          (processMessage groupId framing calls envelope true db).1 = .error (.storage error)) ∧
      Streamed groupId framing calls envelope db
        (processMessage groupId framing calls envelope false db).2
        (processMessage groupId framing calls envelope false db).1 ∧
      (¬NoEffect db (processMessage groupId framing calls envelope true db).2 →
        ∀ (later : List (Delivery π κ)) (again : Delivery π κ), again.envelope = envelope →
          let db' := deliverAll groupId framing
            (processMessage groupId framing calls envelope true db).2 later
          Unaffected groupId db' (deliver groupId framing db' again)) := by
  refine ⟨unaffected_of_processed, fun hfits habove hload hprivate =>
      ⟨atomic_of_trusted hfits habove hload hprivate,
        fun _ hok hprune => processMessage_of_pruneIcebox habove hload hprivate hok hprune⟩,
    streamed_of_processMessage calls envelope db,
    fun heffect later again hagain => unaffected_of_processed ?_ _⟩
  rw [hagain]
  exact (processed_of_effect heffect).trans (grows_deliverAll later _ _ _)

/-- The payloads of one byte, `false` and `true`: a commit of the first epoch and a text. -/
def commitAndText : Framing Bool where
  isPrivateMessage _ := true
  contentType text := if text then .application else .commit
  epoch _ := 0
  sha256 text := if text then
    [75, 245, 18, 47, 52, 69, 84, 197, 59, 222, 46, 187, 140, 210, 183, 227, 209, 96, 10, 214, 49,
      195, 133, 165, 215, 204, 226, 60, 119, 133, 69, 154]
  else
    [110, 52, 11, 156, 255, 179, 122, 152, 156, 165, 68, 230, 187, 120, 10, 44, 120, 144, 29, 63,
      179, 55, 56, 118, 133, 17, 163, 6, 23, 175, 160, 29]

def receiving : Calls (List Nat) :=
  { Calls.succeeding .applicationMessage with storeMessage := ⟨fun stored => stored ++ [5], .ok ()⟩ }

def text : GroupMessage Bool := ⟨⟨1, 0⟩, true⟩

def commit : GroupMessage Bool := ⟨⟨1, 0⟩, false⟩

def publishedGroup : Database (List Nat) :=
  { Database.new [] with
    intents := Table.insertOrIgnore .empty {
      id := 0, kind := .updateGroupMembership, data := [], state := .published
      payloadHash := some (commitAndText.payloadHash commit), stagedCommit := some [9]
      publishedInEpoch := some 0 } }

def withoutTranscript : Calls (List Nat) :=
  { Calls.succeeding .ownPrivateMessage with
    saveTranscriptMessage := ⟨id, .error (.other false)⟩ }

def removed : Calls (List Nat) :=
  { Calls.succeeding .applicationMessage with
    processMessageWithAppData := .error (.other false), isActive := false }

theorem processMessage_atomic_text :
    lastCursor [1] commitAndText text
        (processMessage [1] commitAndText receiving text true (.new [])).2 = 1 ∧
      (processMessage [1] commitAndText receiving text true (.new [])).2.content = [5] ∧
      Unaffected [1] (processMessage [1] commitAndText receiving text true (.new [])).2
        (deliver [1] commitAndText
          (processMessage [1] commitAndText receiving text true (.new [])).2
          ⟨receiving, text, false⟩) := by
  obtain ⟨-, hatomic, -, honce⟩ := processMessage_atomic [1] commitAndText receiving text (.new [])
  have hstored := (hatomic (by decide) (by decide) rfl rfl).1.stored rfl
  exact ⟨hstored.1.cursor, rfl, honce (fun h => by cases h.content) [] ⟨receiving, text, false⟩ rfl⟩

/-- A message of a stream is stored without its cursor, an own commit that fails for good stays
merged while its intent ends in an error, and a client that has been removed keeps the cursor of a
message it cannot read. -/
theorem processMessage_not_always_atomic :
    ((processMessage [1] commitAndText receiving text false (.new [])).1.isOk = true ∧
      (processMessage [1] commitAndText receiving text false (.new [])).2.content = [5] ∧
      lastCursor [1] commitAndText text
        (processMessage [1] commitAndText receiving text false (.new [])).2 = 0) ∧
    ((processMessage [1] commitAndText withoutTranscript commit true publishedGroup).1 =
        .ok ⟨false, some (.other false)⟩ ∧
      (processMessage [1] commitAndText withoutTranscript commit true publishedGroup).2.epoch = 1 ∧
      ((processMessage [1] commitAndText withoutTranscript commit true publishedGroup).2.intents.fetch
        0).map StoredGroupIntent.state = some .error) ∧
    (processMessage [1] commitAndText removed text true (.new [])).1 = .error (.other false) ∧
      lastCursor [1] commitAndText text
        (processMessage [1] commitAndText removed text true (.new [])).2 = 0 :=
  ⟨⟨rfl, rfl, rfl⟩, ⟨rfl, rfl, rfl⟩, rfl, rfl⟩

end Atomicity

end LibXmtp.Groups.MlsSync
