import LibXmtp.Groups.IntentEffects
import Mathlib.Logic.Relation

/-! Every interleaving of the publishing of intents, the processing of messages, and what is done
after a commit. -/

namespace LibXmtp.Groups.MlsSync

open LibXmtp.Data LibXmtp.Types LibXmtp.Db IntentTable

/-- Who holds the lock of the group. It is held while a message is processed and while intents are
published, but not for what is done after a commit. -/
inductive Holder (π : Type)
  | processing (envelope : GroupMessage π) (trustMessageOrder : Bool)
    (intent : Option StoredGroupIntent)
  | publishing (intents : List StoredGroupIntent)
  | sending (intent : StoredGroupIntent) (hasStagedCommit : Bool) (intents : List StoredGroupIntent)

/-- The intents a post-commit task has found, without those it is done with. The action of the
first one may be taken already. -/
structure PostCommitTask where
  taken : Option StoredGroupIntent
  intents : List StoredGroupIntent

structure World (π κ : Type) where
  db : Database κ
  holder : Option (Holder π)
  tasks : List PostCommitTask

section Steps

variable {π κ : Type} (groupId : Bytes) (framing : Framing π)

def finishMessage (calls : Calls κ) (envelope : GroupMessage π) (trustMessageOrder : Bool)
    (outcome : Except GroupMessageProcessingError ProcessedMessageOutcome × Database κ) :
    Except GroupMessageProcessingError ProcessedMessageOutcome × Database κ :=
  if trustMessageOrder then
    postProcessMessage groupId framing calls envelope outcome.1 outcome.2
  else outcome

def Holder.afterPrepare (intent : StoredGroupIntent) (intents : List StoredGroupIntent) :
    Except GroupError (Option Bool) → Option (Holder π)
  | .error _ => none
  | .ok none => some (.publishing intents)
  | .ok (some hasStagedCommit) => some (.sending intent hasStagedCommit intents)

def Holder.afterSend (hasStagedCommit : Bool) (intents : List StoredGroupIntent) :
    Except GroupError Unit → Option (Holder π)
  | .error _ => none
  | .ok () => if hasStagedCommit then none else some (.publishing intents)

def PostCommitTask.afterAction (intent : StoredGroupIntent) (intents : List StoredGroupIntent) :
    Except GroupError Unit → List PostCommitTask
  | .error _ => []
  | .ok () => [⟨some intent, intents⟩]

def PostCommitTask.afterFinish (intents : List StoredGroupIntent) :
    Except GroupError Unit → List PostCommitTask
  | .error _ => []
  | .ok () => [⟨none, intents⟩]

/-- What can happen next. Every task can be cancelled where it waits, and the lock is released. -/
inductive Step : World π κ → World π κ → Prop
  | queue {w : World π κ} (kind : IntentKind) (data : Bytes) :
      Step w { w with db := { w.db with intents := w.db.intents.insertGroupIntent kind data } }
  | readCursor {w : World π κ} (envelope : GroupMessage π) :
      Step w { w with db := (getLastCursor groupId framing envelope w.db).2 }
  | refuse {w : World π κ} (calls : Calls κ) (envelope : GroupMessage π) (trust : Bool) :
      w.holder = none →
      (∀ intent db, lookupIntent groupId framing calls envelope trust w.db ≠
        (.ok (some intent), db)) →
      Step w { w with db := (finishMessage groupId framing calls envelope trust
        (processMessageInner groupId framing calls envelope trust w.db)).2 }
  | lookup {w : World π κ} {calls : Calls κ} {envelope : GroupMessage π} {trust : Bool}
      {intent : Option StoredGroupIntent} {db : Database κ} :
      w.holder = none →
      lookupIntent groupId framing calls envelope trust w.db = (.ok (some intent), db) →
      Step w { w with db, holder := some (.processing envelope trust intent) }
  | process {w : World π κ} {envelope : GroupMessage π} {trust : Bool}
      {intent : Option StoredGroupIntent} (calls : Calls κ) :
      w.holder = some (.processing envelope trust intent) →
      Step w { w with
        holder := none
        db := (finishMessage groupId framing calls envelope trust
          (processLookedUp groupId framing calls envelope trust intent w.db)).2 }
  | publish {w : World π κ} :
      w.holder = none →
      Step w { w with holder := some (.publishing (w.db.intents.findGroupIntents .toPublish)) }
  | prepare {w : World π κ} {calls : PublishCalls π κ} {intent : StoredGroupIntent}
      {intents : List StoredGroupIntent} {result : Except GroupError (Option Bool)}
      {db : Database κ} :
      w.holder = some (.publishing (intent :: intents)) →
      prepareIntent framing calls intent w.db = (result, db) →
      Step w { w with db, holder := Holder.afterPrepare intent intents result }
  | send {w : World π κ} {calls : PublishCalls π κ} {intent : StoredGroupIntent}
      {hasStagedCommit : Bool} {intents : List StoredGroupIntent} {result : Except GroupError Unit}
      {db : Database κ} :
      w.holder = some (.sending intent hasStagedCommit intents) →
      sendIntent calls intent w.db = (result, db) →
      Step w { w with db, holder := Holder.afterSend hasStagedCommit intents result }
  | release {w : World π κ} : Step w { w with holder := none }
  | postCommit {w : World π κ} :
      Step w { w with tasks := w.tasks ++ [⟨none, w.db.intents.findGroupIntents .committed⟩] }
  | act {w : World π κ} {sendWelcomes : Except GroupError Unit} {before after : List PostCommitTask}
      {intent : StoredGroupIntent} {intents : List StoredGroupIntent}
      {result : Except GroupError Unit} {db : Database κ} :
      w.tasks = before ++ ⟨none, intent :: intents⟩ :: after →
      takePostCommitAction sendWelcomes intent w.db = (result, db) →
      Step w { w with db, tasks := before ++ PostCommitTask.afterAction intent intents result ++ after }
  | finish {w : World π κ} {before after : List PostCommitTask} {intent : StoredGroupIntent}
      {intents : List StoredGroupIntent} {result : Except GroupError Unit} {db : Database κ} :
      w.tasks = before ++ ⟨some intent, intents⟩ :: after →
      finishIntent intent w.db = (result, db) →
      Step w { w with db, tasks := before ++ PostCommitTask.afterFinish intents result ++ after }
  | cancel {w : World π κ} {before after : List PostCommitTask} {task : PostCommitTask} :
      w.tasks = before ++ task :: after →
      Step w { w with tasks := before ++ after }

structure World.Initial (w : World π κ) : Prop where
  intents : w.db.intents = Table.empty
  merged : w.db.merged = []
  welcomesSent : w.db.welcomesSent = []
  holder : w.holder = none
  tasks : w.tasks = []

def Run : World π κ → World π κ → Prop := Relation.ReflTransGen (Step groupId framing)

def Reachable (w : World π κ) : Prop := ∃ start, World.Initial start ∧ Run groupId framing start w

end Steps

section Functions

variable {π κ : Type} {groupId : Bytes} {framing : Framing π} {tasks : List PostCommitTask}

open Relation

theorem run_processMessage (calls : Calls κ) (envelope : GroupMessage π) (trust : Bool)
    (db : Database κ) : Run groupId framing ⟨db, none, tasks⟩
      ⟨(processMessage groupId framing calls envelope trust db).2, none, tasks⟩ := by
  have hlocked (db : Database κ) : Run groupId framing ⟨db, none, tasks⟩
      ⟨(finishMessage groupId framing calls envelope trust
        (processMessageInner groupId framing calls envelope trust db)).2, none, tasks⟩ := by
    by_cases hfound : ∃ intent found, lookupIntent groupId framing calls envelope trust db =
        (.ok (some intent), found)
    · obtain ⟨intent, found, hlookup⟩ := hfound
      have hinner : processMessageInner groupId framing calls envelope trust db =
          processLookedUp groupId framing calls envelope trust intent found := by
        simp only [processMessageInner, hlookup]
      rw [hinner]
      have hlookup' : Step groupId framing ⟨db, none, tasks⟩
          ⟨found, some (.processing envelope trust intent), tasks⟩ := .lookup rfl hlookup
      exact (ReflTransGen.single hlookup').tail (.process calls rfl)
    · exact .single (.refuse calls envelope trust rfl fun intent found hlookup =>
        hfound ⟨intent, found, hlookup⟩)
  have hload (db : Database κ) : Run groupId framing ⟨db, none, tasks⟩
      ⟨(if framing.isPrivateMessage envelope.message then
          finishMessage groupId framing calls envelope trust
            (processMessageInner groupId framing calls envelope trust db)
        else (.error .unsupportedMessageType, db)).2, none, tasks⟩ := by
    split
    · exact hlocked db
    · exact .refl
  cases trust with
  | true =>
    have hread : Step groupId framing ⟨db, none, tasks⟩
        ⟨(getLastCursor groupId framing envelope db).2, none, tasks⟩ := .readCursor envelope
    refine .trans (.single hread) ?_
    simp only [processMessage, if_true, Bool.true_and]
    split
    · exact .refl
    · cases calls.loadMlsGroup with
      | error error => exact .refl
      | ok _ => exact hload _
  | false =>
    simp only [processMessage]
    cases calls.loadMlsGroup with
    | error error => exact .refl
    | ok _ => exact hload db

theorem run_publishAll (calls : StoredGroupIntent → PublishCalls π κ)
    (intents : List StoredGroupIntent) (db : Database κ) :
    Run groupId framing ⟨db, some (.publishing intents), tasks⟩
      ⟨(publishAll framing calls intents db).2, none, tasks⟩ := by
  induction intents generalizing db with
  | nil => exact .single .release
  | cons intent intents ih =>
    cases hprepare : prepareIntent framing (calls intent) intent db with
    | mk result prepared =>
      have hstep : Step groupId framing ⟨db, some (.publishing (intent :: intents)), tasks⟩
          ⟨prepared, Holder.afterPrepare intent intents result, tasks⟩ := .prepare rfl hprepare
      refine .trans (.single hstep) ?_
      simp only [publishAll, hprepare]
      match result with
      | .error _ => exact .refl
      | .ok none => exact ih prepared
      | .ok (some hasStagedCommit) =>
        cases hsend : sendIntent (calls intent) intent prepared with
        | mk result sent =>
          have hstep : Step groupId framing
              ⟨prepared, some (.sending intent hasStagedCommit intents), tasks⟩
              ⟨sent, Holder.afterSend hasStagedCommit intents result, tasks⟩ := .send rfl hsend
          refine .trans (.single hstep) ?_
          simp only [hsend]
          match result, hasStagedCommit with
          | .error _, _ => exact .refl
          | .ok (), true => exact .refl
          | .ok (), false => exact ih sent

theorem run_publishIntents (calls : StoredGroupIntent → PublishCalls π κ) (db : Database κ) :
    Run groupId framing ⟨db, none, tasks⟩ ⟨(publishIntents framing calls db).2, none, tasks⟩ := by
  have hstep : Step groupId framing ⟨db, none, tasks⟩
      ⟨db, some (.publishing (db.intents.findGroupIntents .toPublish)), tasks⟩ := .publish rfl
  exact .trans (.single hstep) (run_publishAll calls _ db)

theorem run_postCommitAll (sendWelcomes : StoredGroupIntent → Except GroupError Unit)
    (holder : Option (Holder π)) (intents : List StoredGroupIntent) (db : Database κ) :
    Run groupId framing ⟨db, holder, tasks ++ [⟨none, intents⟩]⟩
      ⟨(postCommitAll sendWelcomes intents db).2, holder, tasks⟩ := by
  have hcancel (db : Database κ) (task : PostCommitTask) : Step groupId framing
      ⟨db, holder, tasks ++ [task]⟩ ⟨db, holder, tasks⟩ := by
    have h : Step groupId framing ⟨db, holder, tasks ++ [task]⟩ ⟨db, holder, tasks ++ []⟩ :=
      .cancel rfl
    rwa [List.append_nil] at h
  induction intents generalizing db with
  | nil => exact .single (hcancel db _)
  | cons intent intents ih =>
    cases htake : takePostCommitAction (sendWelcomes intent) intent db with
    | mk result taken =>
      have hact : Step groupId framing ⟨db, holder, tasks ++ [⟨none, intent :: intents⟩]⟩
          ⟨taken, holder, tasks ++ PostCommitTask.afterAction intent intents result ++ []⟩ :=
        .act rfl htake
      rw [List.append_nil] at hact
      simp only [postCommitAll, htake]
      match result with
      | .error _ =>
        rw [PostCommitTask.afterAction, List.append_nil] at hact
        exact .single hact
      | .ok () =>
        refine .trans (.single hact) ?_
        cases hfinish : finishIntent intent taken with
        | mk result finished =>
          have hstep : Step groupId framing ⟨taken, holder, tasks ++ [⟨some intent, intents⟩]⟩
              ⟨finished, holder, tasks ++ PostCommitTask.afterFinish intents result ++ []⟩ :=
            .finish rfl hfinish
          rw [List.append_nil] at hstep
          simp only [hfinish]
          match result with
          | .error _ =>
            rw [PostCommitTask.afterFinish, List.append_nil] at hstep
            exact .single hstep
          | .ok () => exact .trans (.single hstep) (ih finished)

theorem run_postCommit (sendWelcomes : StoredGroupIntent → Except GroupError Unit)
    (holder : Option (Holder π)) (db : Database κ) :
    Run groupId framing ⟨db, holder, tasks⟩ ⟨(postCommit sendWelcomes db).2, holder, tasks⟩ :=
  .trans (.single .postCommit) (run_postCommitAll sendWelcomes holder _ db)

end Functions

section Invariants

variable {π κ : Type} {groupId : Bytes} {framing : Framing π} {db db' db'' : Database κ}

structure RowOk (framing : Framing π) (db : Database κ) (r : StoredGroupIntent) : Prop where
  blank : r.state = .toPublish ∨ r.state = .superseded → r.payloadHash = none ∧ r.postCommitData = none
  past : r.state = .committed ∨ r.state = .processed → Past framing db.epoch r
  welcomed : r.state = .processed → Welcomed db.welcomesSent r

structure HistoryOk (framing : Framing π) (db : Database κ) : Prop where
  rows : ∀ id r, db.intents.fetch id = some r → RowOk framing db r
  nodup : db.merged.Nodup
  past : ∀ id p, (id, some (framing.sha256 p)) ∈ db.merged → framing.epoch p < db.epoch

structure Progress (framing : Framing π) (db db' : Database κ) : Prop where
  rows : ∀ id r, db.intents.fetch id = some r → ∃ r', db'.intents.fetch id = some r' ∧
    RowMove framing db'.epoch db.welcomesSent r r'
  fresh : ∀ id r, db.intents.fetch id = none → db'.intents.fetch id = some r →
    ∃ kind data, r = { id, kind, data }
  merged : db'.merged = db.merged ∨ ∃ id p, framing.epoch p = db.epoch ∧ db.epoch < db'.epoch ∧
    db'.merged = db.merged ++ [(id, some (framing.sha256 p))]
  welcomesSent : db.welcomesSent ⊆ db'.welcomesSent
  epoch : db.epoch ≤ db'.epoch

theorem Past.mono {epoch epoch' : Nat} {r : StoredGroupIntent} (h : Past framing epoch r)
    (hle : epoch ≤ epoch') : Past framing epoch' r :=
  fun hmerges p hp => (h hmerges p hp).trans_le hle

theorem Welcomed.mono {sent sent' : List (Nat × Bytes)} {r : StoredGroupIntent}
    (h : Welcomed sent r) (hsub : sent ⊆ sent') : Welcomed sent' r :=
  fun action haction => hsub (h action haction)

theorem RowOk.move {r r' : StoredGroupIntent} (h : RowOk framing db r)
    (hsent : db.welcomesSent ⊆ db'.welcomesSent) (hepoch : db.epoch ≤ db'.epoch)
    (hmove : RowMove framing db'.epoch db.welcomesSent r r') : RowOk framing db' r' := by
  cases hmove with
  | keep =>
    exact ⟨h.blank, fun hstate => (h.past hstate).mono hepoch,
      fun hstate => (h.welcomed hstate).mono hsent⟩
  | attempt publishAttempts hstate =>
    refine ⟨h.blank, fun hsettled => ?_, fun hprocessed => ?_⟩
    · exact (h.past hsettled).mono hepoch
    · exact (h.welcomed hprocessed).mono hsent
  | publish payloadHash postCommitData stagedCommit publishedInEpoch hstate =>
    have hpublished : (r.setPublished payloadHash postCommitData stagedCommit publishedInEpoch).state =
        .published := rfl
    exact ⟨by simp [hpublished], by simp [hpublished], nofun⟩
  | giveUp state hstate hto =>
    -- Nothing has been published, so there is nothing to merge and no welcome to send.
    obtain ⟨hhash, hdata⟩ := h.blank (.inl hstate)
    refine ⟨fun _ => ⟨hhash, hdata⟩, fun _ _ p hp => ?_, fun _ action haction => ?_⟩
    · cases hhash.symm.trans hp
    · cases hdata.symm.trans haction
  | retract publishAttempts hstate =>
    exact ⟨fun _ => ⟨rfl, rfl⟩, by simp, nofun⟩
  | fail hstate => exact ⟨by simp, by simp, nofun⟩
  | commit sequenceId originatorId hstate hpast =>
    exact ⟨by simp, fun _ => hpast, nofun⟩
  | finish hstate hwelcomed =>
    exact ⟨by simp, fun _ => (h.past hstate).mono hepoch,
      fun _ => hwelcomed.mono hsent⟩

theorem RowOk.fresh (id : Nat) (kind : IntentKind) (data : Bytes) :
    RowOk framing db { id, kind, data } :=
  ⟨fun _ => ⟨rfl, rfl⟩, by simp, nofun⟩

theorem HistoryOk.progress (hfree : CollisionFree framing) (h : HistoryOk framing db)
    (hprogress : Progress framing db db') : HistoryOk framing db' := by
  obtain ⟨hrows, hfresh, hmerged, hsent, hepoch⟩ := hprogress
  refine ⟨fun id r' hr' => ?_, ?_, fun id q hq => ?_⟩
  · cases hfetch : db.intents.fetch id with
    | none =>
      obtain ⟨kind, data, rfl⟩ := hfresh id r' hfetch hr'
      exact .fresh id kind data
    | some r =>
      obtain ⟨r'', hr'', hmove⟩ := hrows id r hfetch
      obtain rfl : r'' = r' := Option.some.inj (hr''.symm.trans hr')
      exact (h.rows id r hfetch).move hsent hepoch hmove
  · rcases hmerged with heq | ⟨id, p, hp, -, heq⟩
    · rw [heq]
      exact h.nodup
    · rw [heq, List.nodup_append]
      refine ⟨h.nodup, List.nodup_singleton _, fun entry hentry entry' hentry' hsame => ?_⟩
      rw [hsame, List.mem_singleton.mp hentry'] at hentry
      have := h.past id p hentry
      omega
  · rcases hmerged with heq | ⟨id', p, hp, hlt, heq⟩
    · rw [heq] at hq
      exact (h.past id q hq).trans_le hepoch
    · rw [heq] at hq
      rcases List.mem_append.mp hq with hq | hq
      · exact (h.past id q hq).trans_le hepoch
      · rw [List.mem_singleton, Prod.mk.injEq] at hq
        have hsame := hfree q p (Option.some.inj hq.2)
        omega

namespace Progress

theorem of_same (h : SameIntents db db') : Progress framing db db' where
  rows id r hr := ⟨r, by rw [h.intents, hr], .keep⟩
  fresh id r hnone hr := by
    rw [h.intents, hnone] at hr
    cases hr
  merged := .inl h.merged
  welcomesSent := by rw [h.welcomesSent]; exact List.Subset.refl _
  epoch := h.epoch

theorem of_acts {id : Nat} (h : Acts framing id db db') : Progress framing db db' := by
  obtain ⟨⟨r, r', ⟨hbefore, hafter, hothers⟩, hmove⟩, hmerged, hsent, hepoch⟩ := h
  refine ⟨fun k s hs => ?_, fun k s hnone hs => ?_, hmerged.imp (fun h => h) (Exists.intro id), ?_, hepoch⟩
  · by_cases hk : k = id
    · subst hk
      obtain rfl : r = s := Option.some.inj (hbefore.symm.trans hs)
      exact ⟨r', hafter, hmove⟩
    · exact ⟨s, (hothers k hk).trans hs, .keep⟩
  · by_cases hk : k = id
    · subst hk
      cases hbefore.symm.trans hnone
    · cases (hothers k hk).symm.trans hs |>.symm.trans hnone
  · rw [hsent]
    exact List.Subset.refl _

theorem trans_same (h : Progress framing db db')
    (hsame : SameIntents db' db'' ∧ db''.epoch = db'.epoch) : Progress framing db db'' := by
  obtain ⟨hrows, hfresh, hmerged, hsent, hepoch⟩ := h
  obtain ⟨⟨hintents, hmerged', hsent', -⟩, hepoch'⟩ := hsame
  refine ⟨?_, ?_, ?_, ?_, ?_⟩
  · rwa [hintents, hepoch']
  · rwa [hintents]
  · rwa [hmerged', hepoch']
  · rwa [hsent']
  · rwa [hepoch']

theorem queue (kind : IntentKind) (data : Bytes) :
    Progress framing db { db with intents := db.intents.insertGroupIntent kind data } := by
  obtain ⟨new, hnone, hnew, hothers⟩ := fetch_insertGroupIntent db.intents kind data
  refine ⟨fun k r hr => ?_, fun k r hk hr => ?_, .inl rfl, List.Subset.refl _, le_rfl⟩
  · exact ⟨r, fetch_insertGroupIntent_of_some kind data hr, .keep⟩
  · by_cases hkey : k = new
    · subst hkey
      exact ⟨kind, data, Option.some.inj (hr.symm.trans hnew)⟩
    · cases ((hothers k hkey).symm.trans hr).symm.trans hk

end Progress

def Waiting (table : IntentTable) (intents : List StoredGroupIntent) : Prop :=
  (intents.map StoredGroupIntent.id).Nodup ∧
    ∀ intent ∈ intents, ∃ r, table.fetch intent.id = some r ∧ r.state = .toPublish

/-- What the holder of the lock has read of the intents still holds, though a post-commit task may
have processed the one it is about. -/
def HolderOk (framing : Framing π) (table : IntentTable) : Holder π → Prop
  | .processing _ _ none => True
  | .processing envelope _ (some intent) =>
    intent.payloadHash = some (framing.payloadHash envelope) ∧
      (table.fetch intent.id = some intent ∨
        intent.state = .committed ∧ table.fetch intent.id = some { intent with state := .processed })
  | .publishing intents => Waiting table intents
  | .sending intent _ intents =>
    (∃ r, table.fetch intent.id = some r ∧ r.state = .published) ∧
      intent.id ∉ intents.map StoredGroupIntent.id ∧ Waiting table intents

/-- An intent a post-commit task has found has been committed, with the same action. -/
def Committed (table : IntentTable) (intent : StoredGroupIntent) : Prop :=
  ∃ r, table.fetch intent.id = some r ∧ (r.state = .committed ∨ r.state = .processed) ∧
    r.postCommitData = intent.postCommitData

structure TaskOk (db : Database κ) (task : PostCommitTask) : Prop where
  taken : ∀ intent, task.taken = some intent →
    Committed db.intents intent ∧ Welcomed db.welcomesSent intent
  intents : ∀ intent ∈ task.intents, Committed db.intents intent

structure Invariant (framing : Framing π) (w : World π κ) : Prop where
  history : HistoryOk framing w.db
  holder : ∀ holder, w.holder = some holder → HolderOk framing w.db.intents holder
  tasks : ∀ task ∈ w.tasks, TaskOk w.db task

theorem Acts.others {id : Nat} (h : Acts framing id db db') (k : Nat) (hk : k ≠ id) :
    db'.intents.fetch k = db.intents.fetch k := by
  obtain ⟨r, r', hsets, -⟩ := h.row
  exact hsets.others k hk

theorem Waiting.others {table table' : IntentTable} {id : Nat} {intents : List StoredGroupIntent}
    (h : Waiting table intents) (hnot : id ∉ intents.map StoredGroupIntent.id)
    (hothers : ∀ k, k ≠ id → table'.fetch k = table.fetch k) : Waiting table' intents := by
  refine ⟨h.1, fun intent hmem => ?_⟩
  rw [hothers]
  · exact h.2 intent hmem
  · rintro rfl
    exact hnot (List.mem_map_of_mem hmem)

theorem Waiting.tail {table : IntentTable} {intent : StoredGroupIntent}
    {intents : List StoredGroupIntent} (h : Waiting table (intent :: intents)) :
    intent.id ∉ intents.map StoredGroupIntent.id ∧ Waiting table intents := by
  obtain ⟨hnodup, hrows⟩ := h
  rw [List.map_cons, List.nodup_cons] at hnodup
  exact ⟨hnodup.1, hnodup.2, fun other hother => hrows other (List.mem_cons_of_mem _ hother)⟩

theorem HolderOk.kept {table table' : IntentTable} {holder : Holder π}
    (h : HolderOk framing table holder)
    (hrows : ∀ id r, table.fetch id = some r → table'.fetch id = some r ∨
      (r.state = .committed ∨ r.state = .processed) ∧
        table'.fetch id = some { r with state := .processed }) :
    HolderOk framing table' holder := by
  have hkept {id : Nat} {state : IntentState} (hne : state ≠ .committed ∧ state ≠ .processed)
      (hrow : ∃ r, table.fetch id = some r ∧ r.state = state) :
      ∃ r, table'.fetch id = some r ∧ r.state = state := by
    obtain ⟨r, hr, rfl⟩ := hrow
    rcases hrows id r hr with hsame | ⟨hsettled, -⟩
    · exact ⟨r, hsame, rfl⟩
    · rcases hsettled with hcommitted | hprocessed
      · exact absurd hcommitted hne.1
      · exact absurd hprocessed hne.2
  have hwaiting {intents : List StoredGroupIntent} (h : Waiting table intents) :
      Waiting table' intents :=
    ⟨h.1, fun intent hmem => hkept (by decide) (h.2 intent hmem)⟩
  match holder, h with
  | .processing _ _ none, _ => trivial
  | .processing _ _ (some intent), ⟨hhash, hrow⟩ =>
    refine ⟨hhash, ?_⟩
    rcases hrow with hsame | ⟨hcommitted, hprocessed⟩
    · rcases hrows _ _ hsame with hsame' | ⟨hcommitted | hprocessed, hset⟩
      · exact .inl hsame'
      · exact .inr ⟨hcommitted, hset⟩
      · refine .inl ?_
        rw [hset, ← hprocessed]
    · rcases hrows _ _ hprocessed with hsame' | ⟨-, hset⟩
      · exact .inr ⟨hcommitted, hsame'⟩
      · exact .inr ⟨hcommitted, hset⟩
  | .publishing intents, h => exact hwaiting h
  | .sending intent _ intents, ⟨hrow, hnot, h⟩ => exact ⟨hkept (by decide) hrow, hnot, hwaiting h⟩

theorem Committed.progress {intent : StoredGroupIntent} (h : Committed db.intents intent)
    (hprogress : Progress framing db db') : Committed db'.intents intent := by
  obtain ⟨r, hr, hstate, hdata⟩ := h
  obtain ⟨r', hr', hmove⟩ := hprogress.rows _ _ hr
  refine ⟨r', hr', ?_⟩
  cases hmove with
  | keep => exact ⟨hstate, hdata⟩
  | finish _ _ => exact ⟨.inr rfl, hdata⟩
  | attempt _ hmoved => rcases hstate with hstate | hstate <;> simp [hstate] at hmoved
  | publish _ _ _ _ hmoved | giveUp _ hmoved _ | retract _ hmoved | fail hmoved
  | commit _ _ hmoved _ =>
    rcases hstate with hstate | hstate <;> cases hstate.symm.trans hmoved

theorem TaskOk.progress {task : PostCommitTask} (h : TaskOk db task)
    (hprogress : Progress framing db db') : TaskOk db' task where
  taken intent htaken := by
    have ⟨hcommitted, hwelcomed⟩ := h.taken intent htaken
    exact ⟨hcommitted.progress hprogress, hwelcomed.mono hprogress.welcomesSent⟩
  intents intent hmem := (h.intents intent hmem).progress hprogress

section Message

variable {calls : Calls κ} {envelope : GroupMessage π} {trust : Bool}

theorem lookupIntent_spec
    {result : Except GroupMessageProcessingError (Option (Option StoredGroupIntent))}
    (h : lookupIntent groupId framing calls envelope trust db = (result, db')) :
    SameIntents db db' ∧ ∀ intent, result = .ok (some (some intent)) →
      intent.payloadHash = some (framing.payloadHash envelope) ∧
        db.intents.fetch intent.id = some intent := by
  rcases lookupIntent_cases h with ⟨error, rfl, rfl⟩ | ⟨-, rfl, ⟨-, rfl⟩ | ⟨-, rfl⟩⟩
  · exact ⟨.refl _, (fun intent hok => by cases hok)⟩
  · exact ⟨sameIntents_getLastCursor envelope db, (fun intent hok => by cases hok)⟩
  · refine ⟨sameIntents_getLastCursor envelope db, fun intent hok => ?_⟩
    have hfound := fetch_of_findGroupIntentByPayloadHash (Option.some.inj (Except.ok.inj hok))
    exact ⟨hfound.2, hfound.1⟩

theorem sameIntents_finishMessage
    (outcome : Except GroupMessageProcessingError ProcessedMessageOutcome × Database κ) :
    SameIntents outcome.2 (finishMessage groupId framing calls envelope trust outcome).2 ∧
      (finishMessage groupId framing calls envelope trust outcome).2.epoch = outcome.2.epoch := by
  unfold finishMessage
  split
  · exact sameIntents_postProcessMessage _ _
  · exact ⟨.refl _, rfl⟩

theorem sameIntents_refused
    (h : ∀ intent found, lookupIntent groupId framing calls envelope trust db ≠
      (.ok (some intent), found)) :
    SameIntents db (processMessageInner groupId framing calls envelope trust db).2 := by
  unfold processMessageInner
  split
  · rename_i hlookup
    exact (lookupIntent_spec hlookup).1
  · rename_i hlookup
    exact (lookupIntent_spec hlookup).1
  · rename_i intent found hlookup
    exact absurd hlookup (h intent found)

theorem progress_transaction {intent : StoredGroupIntent} (hfree : CollisionFree framing)
    (hhistory : HistoryOk framing db)
    (hholder : HolderOk framing db.intents (.processing envelope trust (some intent))) :
    Progress framing db (transaction (resolveOwnIntent groupId framing calls intent envelope trust
      (stageAndValidateIntent framing calls intent envelope db.epoch)) db).2 := by
  obtain ⟨hhash, hrow⟩ := hholder
  have hsettled {cause : Option GroupMessageProcessingError} {db' : Database κ}
      {r : StoredGroupIntent} (hr : db.intents.fetch intent.id = some r)
      (hpublished : r.state ≠ .published)
      (hstate : intent.state = .committed ∨ intent.state = .processed ∨ intent.state = .error)
      (hpast : intent.state ≠ .error → Past framing db.epoch intent)
      (h : resolveOwnIntent groupId framing calls intent envelope trust
        (stageAndValidateIntent framing calls intent envelope db.epoch) db = .ok (cause, db')) :
      Progress framing db db' := by
    refine .of_same (resolveOwnIntent_settled hstate hhash hpast (fun r' hr' => ?_) h).1
    obtain rfl : r' = r := Option.some.inj (hr'.symm.trans hr)
    exact hpublished
  unfold transaction
  split
  · rename_i cause db' hbody
    rcases hrow with hrow | ⟨hcommitted, hrow⟩
    · have hok := hhistory.rows _ _ hrow
      cases hstate : intent.state with
      | toPublish =>
        cases (hok.blank (.inl hstate)).1.symm.trans hhash
      | superseded =>
        cases (hok.blank (.inr hstate)).1.symm.trans hhash
      | published => exact .of_acts (acts_resolveOwnIntent hfree hstate hhash hrow hbody)
      | committed =>
        exact hsettled hrow (by simp [hstate]) (.inl hstate) (fun _ => hok.past (.inl hstate)) hbody
      | processed =>
        exact hsettled hrow (by simp [hstate]) (.inr (.inl hstate))
          (fun _ => hok.past (.inr hstate)) hbody
      | error =>
        exact hsettled hrow (by simp [hstate]) (.inr (.inr hstate))
          (fun hne => absurd hstate hne) hbody
    · -- A post-commit task has been faster.
      have hpast := (hhistory.rows _ _ hrow).past (.inr rfl)
      have hpast' : Past framing db.epoch intent := fun hmerges => hpast hmerges
      exact hsettled hrow nofun (.inl hcommitted) (fun _ => hpast') hbody
  · exact .of_same (.refl db)

theorem progress_processLookedUp {intent : Option StoredGroupIntent} (hfree : CollisionFree framing)
    (hhistory : HistoryOk framing db)
    (hholder : HolderOk framing db.intents (.processing envelope trust intent)) :
    Progress framing db (processLookedUp groupId framing calls envelope trust intent db).2 := by
  unfold processLookedUp
  cases intent with
  | some intent =>
    have hprogress : Progress framing db (transaction (resolveOwnIntent groupId framing calls intent
        envelope trust (stageAndValidateIntent framing calls intent envelope db.epoch)) db).2 :=
      progress_transaction hfree hhistory hholder
    dsimp only
    split
    · rename_i heq
      rwa [heq] at hprogress
    · rename_i heq
      rwa [heq] at hprogress
  | none =>
    have hsame : SameIntents db
        (validateAndProcessExternalMessage groupId framing calls envelope trust db).2 :=
      sameIntents_external db
    dsimp only
    split
    · rename_i heq
      rw [heq] at hsame
      exact .of_same hsame
    · rename_i heq
      rw [heq] at hsame
      exact .of_same hsame

end Message

theorem Progress.of_taken {sendWelcomes : Except GroupError Unit} {intent : StoredGroupIntent}
    {result : Except GroupError Unit}
    (h : takePostCommitAction sendWelcomes intent db = (result, db')) : Progress framing db db' := by
  obtain ⟨hintents, hmerged, hepoch, hsent, -⟩ := takePostCommitAction_spec h
  refine ⟨fun k r hr => ⟨r, by rw [hintents, hr], .keep⟩, fun k r hnone hr => ?_, .inl hmerged, hsent,
    hepoch.ge⟩
  rw [hintents, hnone] at hr
  cases hr

theorem Committed.welcomed {intent r : StoredGroupIntent} {sent : List (Nat × Bytes)}
    (hr : db.intents.fetch intent.id = some r) (hdata : r.postCommitData = intent.postCommitData)
    (h : Welcomed sent intent) : Welcomed sent r := by
  intro action haction
  rw [(Table.fetch_eq_some_iff.mp hr).2]
  exact h action (hdata ▸ haction)

theorem Acts.settled {id : Nat} {r : StoredGroupIntent} (h : Acts framing id db db')
    (hr : db.intents.fetch id = some r) (hstate : r.state = .committed ∨ r.state = .processed)
    (k : Nat) (s : StoredGroupIntent) (hs : db.intents.fetch k = some s) :
    db'.intents.fetch k = some s ∨ (s.state = .committed ∨ s.state = .processed) ∧
      db'.intents.fetch k = some { s with state := .processed } := by
  by_cases hk : k = id
  · subst hk
    obtain rfl : s = r := Option.some.inj (hs.symm.trans hr)
    obtain ⟨s', hs', hmove⟩ := (Progress.of_acts h).rows k s hs
    cases hmove with
    | keep => exact .inl hs'
    | finish _ _ => exact .inr ⟨hstate, hs'⟩
    | attempt _ hmoved => rcases hstate with hstate | hstate <;> simp [hstate] at hmoved
    | publish _ _ _ _ hmoved | giveUp _ hmoved _ | retract _ hmoved | fail hmoved
    | commit _ _ hmoved _ =>
      rcases hstate with hstate | hstate <;> cases hstate.symm.trans hmoved
  · exact .inl ((h.others k hk).trans hs)

variable {w w' : World π κ}

theorem progress_of_step (hfree : CollisionFree framing) (h : Invariant framing w)
    (hstep : Step groupId framing w w') : Progress framing w.db w'.db := by
  obtain ⟨hhistory, hholder, htasks⟩ := h
  cases hstep with
  | queue kind data => exact .queue kind data
  | readCursor envelope => exact .of_same (sameIntents_getLastCursor envelope w.db)
  | refuse calls envelope trust _ hnot =>
    exact (Progress.of_same (sameIntents_refused hnot)).trans_same (sameIntents_finishMessage _)
  | lookup _ hlookup => exact .of_same (lookupIntent_spec hlookup).1
  | process calls hprocessing =>
    exact (progress_processLookedUp hfree hhistory (hholder _ hprocessing)).trans_same
      (sameIntents_finishMessage _)
  | prepare hpublishing hprepare =>
    obtain ⟨r, hr, hstate⟩ := (hholder _ hpublishing).2 _ List.mem_cons_self
    exact .of_acts (acts_prepareIntent hr hstate hprepare).1
  | send hsending hsend =>
    obtain ⟨⟨r, hr, hstate⟩, -⟩ := hholder _ hsending
    exact .of_acts (acts_sendIntent hr hstate hsend)
  | act _ htake => exact .of_taken htake
  | finish hmem hfinish =>
    have htask := htasks _ (hmem ▸ List.mem_append_right _ List.mem_cons_self)
    obtain ⟨⟨r, hr, hstate, hdata⟩, hwelcomed⟩ := htask.taken _ rfl
    exact .of_acts (acts_finishIntent hr hstate (Committed.welcomed hr hdata hwelcomed) hfinish)
  | publish _ | release | postCommit | cancel _ => exact .of_same (.refl w.db)

theorem holderOk_of_step (h : Invariant framing w) (hstep : Step groupId framing w w')
    (holder : Holder π) (hw' : w'.holder = some holder) :
    HolderOk framing w'.db.intents holder := by
  obtain ⟨hhistory, hholder, htasks⟩ := h
  have hsame {table : IntentTable} (hintents : table = w.db.intents)
      (hw : w.holder = some holder) : HolderOk framing table holder := by
    rw [hintents]
    exact hholder holder hw
  cases hstep with
  | queue kind data =>
    exact (hholder holder hw').kept fun id r hr =>
      .inl (fetch_insertGroupIntent_of_some kind data hr)
  | readCursor envelope => exact hsame rfl hw'
  | refuse calls envelope trust hfree _ => cases hfree.symm.trans hw'
  | @lookup calls envelope trust intent db _ hlookup =>
    obtain ⟨hintents, hfound⟩ := lookupIntent_spec hlookup
    cases hw'
    cases intent with
    | none => trivial
    | some intent =>
      obtain ⟨hhash, hr⟩ := hfound intent rfl
      rw [← hintents.intents] at hr
      exact ⟨hhash, .inl hr⟩
  | process calls _ => cases hw'
  | publish _ =>
    cases hw'
    refine ⟨nodup_findGroupIntents _ _, fun intent hmem => ?_⟩
    have hfound := fetch_of_mem_findGroupIntents hmem
    exact ⟨intent, hfound.1, hfound.2⟩
  | @prepare calls intent intents result db hpublishing hprepare =>
    have hwaiting : Waiting w.db.intents (intent :: intents) := hholder _ hpublishing
    obtain ⟨r, hr, hstate⟩ := hwaiting.2 _ List.mem_cons_self
    have ⟨hacts, hpublished⟩ := acts_prepareIntent hr hstate hprepare
    have ⟨hnot, htail⟩ := hwaiting.tail
    have hrest : Waiting db.intents intents := htail.others hnot hacts.others
    match result, hw' with
    | .ok none, rfl => exact hrest
    | .ok (some hasStagedCommit), rfl => exact ⟨hpublished hasStagedCommit rfl, hnot, hrest⟩
  | @send calls intent hasStagedCommit intents result db hsending hsend =>
    obtain ⟨⟨r, hr, hstate⟩, hnot, hwaiting⟩ := hholder _ hsending
    have hacts : Acts framing intent.id w.db db := acts_sendIntent hr hstate hsend
    match result, hasStagedCommit, hw' with
    | .ok (), false, rfl => exact hwaiting.others hnot hacts.others
  | release => cases hw'
  | postCommit => exact hsame rfl hw'
  | act _ htake => exact hsame (takePostCommitAction_spec htake).1 hw'
  | finish hmem hfinish =>
    have htask := htasks _ (hmem ▸ List.mem_append_right _ List.mem_cons_self)
    obtain ⟨⟨r, hr, hstate, hdata⟩, hwelcomed⟩ := htask.taken _ rfl
    have hacts : Acts framing _ w.db _ :=
      acts_finishIntent hr hstate (Committed.welcomed hr hdata hwelcomed) hfinish
    exact (hholder holder hw').kept (hacts.settled hr hstate)
  | cancel _ => exact hsame rfl hw'

theorem taskOk_of_step (hfree : CollisionFree framing) (h : Invariant framing w)
    (hstep : Step groupId framing w w') (task : PostCommitTask) (hw' : task ∈ w'.tasks) :
    TaskOk w'.db task := by
  have hprogress := progress_of_step hfree h hstep
  have hkept (hmem : task ∈ w.tasks) : TaskOk w'.db task := (h.tasks task hmem).progress hprogress
  have hsplit {before new after : List PostCommitTask} {old : PostCommitTask}
      (htasks : w.tasks = before ++ old :: after) (hw' : task ∈ before ++ new ++ after)
      (hnew : task ∈ new → TaskOk w'.db task) : TaskOk w'.db task := by
    rcases List.mem_append.mp hw' with hmem | hmem
    · rcases List.mem_append.mp hmem with hmem | hmem
      · exact hkept (htasks ▸ List.mem_append_left _ hmem)
      · exact hnew hmem
    · exact hkept (htasks ▸ List.mem_append_right _ (List.mem_cons_of_mem _ hmem))
  cases hstep with
  | queue _ _ | readCursor _ | refuse _ _ _ _ _ | lookup _ _ | process _ _ | publish _
  | prepare _ _ | send _ _ | release => exact hkept hw'
  | postCommit =>
    rcases List.mem_append.mp hw' with hmem | hmem
    · exact hkept hmem
    · obtain rfl := List.mem_singleton.mp hmem
      refine ⟨(fun intent htaken => by cases htaken), fun intent hfound => ?_⟩
      have ⟨hr, hstate⟩ := fetch_of_mem_findGroupIntents hfound
      exact ⟨intent, hr, .inl hstate, rfl⟩
  | @act sendWelcomes before after intent intents result db htasks htake =>
    refine hsplit htasks hw' fun hnew => ?_
    have hold := (h.tasks _ (htasks ▸ List.mem_append_right _ List.mem_cons_self)).progress hprogress
    obtain ⟨-, -, -, -, hwelcomed⟩ := takePostCommitAction_spec htake
    match result with
    | .ok () =>
      obtain rfl := List.mem_singleton.mp hnew
      refine ⟨fun taken htaken => ?_, fun other hother =>
        hold.intents other (List.mem_cons_of_mem _ hother)⟩
      cases htaken
      exact ⟨hold.intents intent List.mem_cons_self, hwelcomed rfl⟩
  | @finish before after intent intents result db htasks hfinish =>
    refine hsplit htasks hw' fun hnew => ?_
    have hold := (h.tasks _ (htasks ▸ List.mem_append_right _ List.mem_cons_self)).progress hprogress
    match result with
    | .ok () =>
      obtain rfl := List.mem_singleton.mp hnew
      exact ⟨(fun other htaken => by cases htaken), hold.intents⟩
  | @cancel before after old htasks =>
    have hw' : task ∈ before ++ [] ++ after := by rwa [List.append_nil]
    exact hsplit htasks hw' nofun

theorem Invariant.step (hfree : CollisionFree framing) (h : Invariant framing w)
    (hstep : Step groupId framing w w') : Invariant framing w' where
  history := h.history.progress hfree (progress_of_step hfree h hstep)
  holder := holderOk_of_step h hstep
  tasks := taskOk_of_step hfree h hstep

theorem World.Initial.invariant (h : World.Initial w) : Invariant framing w := by
  obtain ⟨hintents, hmerged, -, hholder, htasks⟩ := h
  refine ⟨⟨fun id r hr => ?_, ?_, fun id p hp => ?_⟩, fun holder hw => ?_, fun task hmem => ?_⟩
  · rw [hintents] at hr
    cases hr
  · rw [hmerged]
    exact List.nodup_nil
  · rw [hmerged] at hp
    cases hp
  · cases hholder.symm.trans hw
  · rw [htasks] at hmem
    cases hmem

theorem Reachable.invariant (hfree : CollisionFree framing) (h : Reachable groupId framing w) :
    Invariant framing w := by
  obtain ⟨start, hinitial, hrun⟩ := h
  induction hrun with
  | refl => exact hinitial.invariant
  | tail _ hstep ih => exact ih.step hfree hstep

inductive StateMove : IntentState → IntentState → Prop
  | publish : StateMove .toPublish .published
  | retract : StateMove .published .toPublish
  | commit : StateMove .published .committed
  | publishedProcessed : StateMove .published .processed
  | publishedError : StateMove .published .error
  | skip : StateMove .toPublish .processed
  | supersede : StateMove .toPublish .superseded
  | toPublishError : StateMove .toPublish .error
  | finish : StateMove .committed .processed

def Final (state : IntentState) : Prop :=
  state = .processed ∨ state = .superseded ∨ state = .error

/-- The state of a row has stayed or made one of the moves, and an intent with welcomes to send is
processed once they are sent. -/
structure RowMoved (sent : List (Nat × Bytes)) (id : Nat) (r r' : StoredGroupIntent) : Prop where
  state : r'.state = r.state ∨ StateMove r.state r'.state
  welcomed : r.state ≠ .processed → r'.state = .processed →
    ∀ action, r'.postCommitData = some action → (id, action) ∈ sent

theorem RowMove.moved {epoch id : Nat} {r r' : StoredGroupIntent} (hok : RowOk framing db r)
    (hr : db.intents.fetch id = some r) (h : RowMove framing epoch db.welcomesSent r r') :
    RowMoved db.welcomesSent id r r' := by
  have hid := (Table.fetch_eq_some_iff.mp hr).2
  cases h with
  | keep => exact ⟨.inl rfl, fun hne hprocessed => absurd hprocessed hne⟩
  | attempt publishAttempts hstate =>
    exact ⟨.inl rfl, fun hne hprocessed => absurd hprocessed hne⟩
  | publish payloadHash postCommitData stagedCommit publishedInEpoch hstate =>
    refine ⟨.inr ?_, nofun⟩
    rw [hstate]
    exact .publish
  | giveUp state hstate hto =>
    refine ⟨.inr ?_, fun _ _ action haction => ?_⟩
    · rw [hstate]
      rcases hto with rfl | rfl | rfl
      · exact .skip
      · exact .supersede
      · exact .toPublishError
    · cases (hok.blank (.inl hstate)).2.symm.trans haction
  | retract publishAttempts hstate =>
    refine ⟨.inr ?_, nofun⟩
    rw [hstate]
    exact .retract
  | fail hstate =>
    refine ⟨.inr ?_, nofun⟩
    rw [hstate]
    exact .publishedError
  | commit sequenceId originatorId hstate hpast =>
    refine ⟨.inr ?_, nofun⟩
    rw [hstate]
    exact .commit
  | finish hstate hwelcomed =>
    refine ⟨?_, fun _ _ action haction => hid ▸ hwelcomed action haction⟩
    rcases hstate with hcommitted | hprocessed
    · rw [hcommitted]
      exact .inr .finish
    · exact .inl hprocessed.symm

theorem RowMove.final {epoch : Nat} {sent : List (Nat × Bytes)} {r r' : StoredGroupIntent}
    (hfinal : Final r.state) (h : RowMove framing epoch sent r r') : r' = r := by
  have hne {state : IntentState} (hstate : r.state = state) (hnot : ¬Final state) : r' = r :=
    absurd (hstate ▸ hfinal) hnot
  cases h with
  | keep => rfl
  | attempt publishAttempts hstate =>
    rcases hstate with hstate | hstate
    · exact hne hstate (by simp [Final])
    · exact hne hstate (by simp [Final])
  | publish _ _ _ _ hstate | giveUp _ hstate _ | retract _ hstate | fail hstate
  | commit _ _ hstate _ => exact hne hstate (by simp [Final])
  | finish hstate _ =>
    rcases hstate with hcommitted | hprocessed
    · exact hne hcommitted (by simp [Final])
    · rw [← hprocessed]

theorem final_of_run (hfree : CollisionFree framing) (hw : Reachable groupId framing w)
    (hrun : Run groupId framing w w') {id : Nat} {r : StoredGroupIntent}
    (hr : w.db.intents.fetch id = some r) (hfinal : Final r.state) :
    w'.db.intents.fetch id = some r := by
  obtain ⟨start, hinitial, hbefore⟩ := hw
  induction hrun with
  | refl => exact hr
  | @tail mid w' hmid hstep ih =>
    have hreachable : Reachable groupId framing mid := ⟨start, hinitial, hbefore.trans hmid⟩
    have hprogress := progress_of_step hfree (hreachable.invariant hfree) hstep
    obtain ⟨r', hr', hmove⟩ := hprogress.rows id r ih
    rw [hr', hmove.final hfinal]

end Invariants

section Lifecycle

variable {π κ : Type} {groupId : Bytes} {framing : Framing π} {w : World π κ}

/-- The state machine of the intents, over every interleaving of the tasks that act on them. -/
theorem intents_lifecycle (hfree : CollisionFree framing) (hw : Reachable groupId framing w) :
    (∀ w', Step groupId framing w w' →
      (∀ id r, w.db.intents.fetch id = some r →
        ∃ r', w'.db.intents.fetch id = some r' ∧ RowMoved w.db.welcomesSent id r r') ∧
      ∀ id r', w.db.intents.fetch id = none → w'.db.intents.fetch id = some r' →
        r'.state = .toPublish) ∧
      (∀ w', Run groupId framing w w' → ∀ id r, w.db.intents.fetch id = some r → Final r.state →
        w'.db.intents.fetch id = some r) ∧
      w.db.merged.Nodup ∧
      ∀ id r, w.db.intents.fetch id = some r → r.state = .processed →
        ∀ action, r.postCommitData = some action → (id, action) ∈ w.db.welcomesSent := by
  have hinvariant := hw.invariant hfree
  refine ⟨fun w' hstep => ⟨fun id r hr => ?_, fun id r' hnone hr' => ?_⟩,
    fun w' hrun id r hr hfinal => final_of_run hfree hw hrun hr hfinal, hinvariant.history.nodup,
    fun id r hr hprocessed action haction => ?_⟩
  · obtain ⟨r', hr', hmove⟩ := (progress_of_step hfree hinvariant hstep).rows id r hr
    exact ⟨r', hr', hmove.moved (hinvariant.history.rows id r hr) hr⟩
  · obtain ⟨kind, data, rfl⟩ := (progress_of_step hfree hinvariant hstep).fresh id r' hnone hr'
    rfl
  · have hwelcomed := (hinvariant.history.rows id r hr).welcomed hprocessed action haction
    rwa [(Table.fetch_eq_some_iff.mp hr).2] at hwelcomed

/-- The payloads of one byte, `false` and `true`, as the commits of the first two epochs. -/
def twoCommits : Framing Bool where
  isPrivateMessage _ := true
  contentType _ := .commit
  epoch payload := payload.toNat
  sha256 payload := if payload then
    [75, 245, 18, 47, 52, 69, 84, 197, 59, 222, 46, 187, 140, 210, 183, 227, 209, 96, 10, 214, 49,
      195, 133, 165, 215, 204, 226, 60, 119, 133, 69, 154]
  else
    [110, 52, 11, 156, 255, 179, 122, 152, 156, 165, 68, 230, 187, 120, 10, 44, 120, 144, 29, 63,
      179, 55, 56, 118, 133, 17, 163, 6, 23, 175, 160, 29]

def publishing : PublishCalls Bool Unit where
  guardViolated := false
  writeData := id
  publishIntentData := .ok (some {
    payloadsToPublish := [false], postCommitAction := some [7], stagedCommit := some [5]
    groupEpoch := 0 })
  calculateMessageIdForIntent := .ok ()
  setDeliveryStatusToFailed := .ok ()
  prepareGroupMessages := .ok ()
  sendGroupMessages := .ok ()

def queuedGroup : Database Unit :=
  { Database.new () with
    intents := IntentTable.insertGroupIntent .empty .updateGroupMembership [] }

/-- The commit of an intent is published, comes back twice, and the welcomes are sent. -/
def welcomedGroup : Database Unit :=
  let db := (publishIntents twoCommits (fun _ => publishing) queuedGroup).2
  let db := (processMessage [1] twoCommits (.succeeding .ownPrivateMessage) ⟨⟨1, 0⟩, false⟩ true db).2
  let db := (processMessage [1] twoCommits (.succeeding .ownPrivateMessage) ⟨⟨2, 0⟩, false⟩ true db).2
  (postCommit (fun _ => .ok ()) db).2

theorem reachable_welcomedGroup : Reachable [1] twoCommits ⟨welcomedGroup, none, []⟩ := by
  refine ⟨⟨.new (), none, []⟩, ⟨rfl, rfl, rfl, rfl, rfl⟩, ?_⟩
  have hqueue : Step [1] twoCommits ⟨.new (), none, []⟩ ⟨queuedGroup, none, []⟩ :=
    .queue .updateGroupMembership []
  refine .trans (.single hqueue) ?_
  refine .trans (run_publishIntents (fun _ => publishing) queuedGroup) ?_
  refine .trans (run_processMessage (.succeeding .ownPrivateMessage) ⟨⟨1, 0⟩, false⟩ true _) ?_
  refine .trans (run_processMessage (.succeeding .ownPrivateMessage) ⟨⟨2, 0⟩, false⟩ true _) ?_
  exact run_postCommit (fun _ => .ok ()) none _

theorem collisionFree_twoCommits : CollisionFree twoCommits := by
  intro p q h
  revert p q
  decide

theorem intents_lifecycle_welcomed :
    (welcomedGroup.intents.fetch 0).map StoredGroupIntent.state = some .processed ∧
      welcomedGroup.merged.length = 1 ∧ welcomedGroup.merged.Nodup ∧
      (0, [7]) ∈ welcomedGroup.welcomesSent := by
  obtain ⟨-, -, hnodup, hwelcomed⟩ :=
    intents_lifecycle collisionFree_twoCommits reachable_welcomedGroup
  refine ⟨rfl, rfl, hnodup, hwelcomed 0 _ rfl rfl [7] rfl⟩

end Lifecycle

end LibXmtp.Groups.MlsSync
