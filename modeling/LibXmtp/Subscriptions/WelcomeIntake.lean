import LibXmtp.Data.Result
import LibXmtp.Db.Group
import LibXmtp.Types.GlobalCursor
import Mathlib.Data.List.Perm.Basic

namespace LibXmtp.Subscriptions

open LibXmtp.Data LibXmtp.Db LibXmtp.Types

inductive SubscribeError
  | storage
  | group
  | welcomeTaskDied

structure MlsGroup where
  groupId : Bytes
  conversationType : ConversationType

structure WelcomeMessage where
  cursor : Cursor

inductive WelcomeOrGroup
  | welcome (welcome : WelcomeMessage)
  | group (groupId : Bytes)

inductive ProcessWelcomeResult
  | new (group : MlsGroup) (id : Cursor)
  | newStored (group : MlsGroup) (maybeSequenceId maybeOriginator : Option Int64)
  | ignoreId (id : Cursor)
  | ignore

structure WelcomeOutcome where
  group : Option MlsGroup
  seen : Option Cursor

def ProcessWelcomeResult.intoOutcome : ProcessWelcomeResult → WelcomeOutcome
  | new group id => ⟨some group, some id⟩
  | newStored group (some id) (some originator) =>
    ⟨some group, some ⟨id.toUInt64.toNat, originator.toUInt64.toUInt32.toNat⟩⟩
  | newStored group _ _ => ⟨some group, none⟩
  | ignoreId id => ⟨none, some id⟩
  | ignore => ⟨none, none⟩

structure WelcomeFilters where
  conversationType : Option ConversationType
  includeDuplicateDms : Bool
  consentStates : Option (List ConsentState)

structure ProcessWelcomeFuture extends WelcomeFilters where
  knownWelcomeIds : List Cursor
  item : WelcomeOrGroup

inductive GroupError
  | welcomeAlreadyProcessed
  | other

structure WelcomeAnswers where
  findKnown : Except SubscribeError (Option MlsGroup)
  processNewWelcome : Except GroupError (Option MlsGroup)
  loadFromStore : Except SubscribeError (Option MlsGroup)
  newCached : Except SubscribeError (MlsGroup × Option Int64 × Option Int64)
  metadata : Except SubscribeError ConversationType
  hasDuplicateDm : Except SubscribeError Bool
  consentState : Except SubscribeError ConsentState

inductive TaskEnd
  | returned (answers : WelcomeAnswers)
  | died

namespace ProcessWelcomeFuture

variable (this : ProcessWelcomeFuture) (answers : WelcomeAnswers)

def shouldIncludeGroup (checkVirtual : Bool) : Except SubscribeError Bool := do
  let conversationType ← answers.metadata
  if checkVirtual && conversationType.isVirtual then
    return false
  else
    let duplicate ← if !this.includeDuplicateDms && conversationType == .dm then
      answers.hasDuplicateDm else .ok false
    if duplicate then
      return false
    else
      let consentMatches ← match this.consentStates with
        | some consentStates => consentStates.contains <$> answers.consentState
        | none => .ok true
      return this.conversationType.all (· == conversationType) && consentMatches

def filter : ProcessWelcomeResult → Except SubscribeError ProcessWelcomeResult
  | .new group id => do
    if ← this.shouldIncludeGroup answers true then return .new group id else return .ignoreId id
  | .newStored group maybeSequenceId maybeOriginator => do
    if ← this.shouldIncludeGroup answers false then
      return .newStored group maybeSequenceId maybeOriginator
    else
      match maybeSequenceId, maybeOriginator with
      | some id, some originator =>
        return .ignoreId ⟨id.toUInt64.toNat, originator.toUInt64.toUInt32.toNat⟩
      | _, _ => return .ignore
  | other => .ok other

def loadKnown (welcome : WelcomeMessage) : Option MlsGroup :=
  if this.knownWelcomeIds.contains welcome.cursor then
    match answers.findKnown with
    | .ok group => group
    | .error _ => none
  else none

def processWelcome : Except SubscribeError (Option MlsGroup) :=
  match answers.processNewWelcome with
  | .ok group => .ok group
  | .error .welcomeAlreadyProcessed => answers.loadFromStore
  | .error .other => .error .group

def process : Except SubscribeError ProcessWelcomeResult :=
  match this.item with
  | .welcome welcome =>
    match this.loadKnown answers welcome with
    | some group => this.filter answers (.new group welcome.cursor)
    | none => do
      match ← processWelcome answers with
      | some group => this.filter answers (.new group welcome.cursor)
      | none => this.filter answers (.ignoreId welcome.cursor)
  | .group _ => do
    let (group, maybeSequenceId, maybeOriginator) ← answers.newCached
    this.filter answers (.newStored group maybeSequenceId maybeOriginator)

def resolve : TaskEnd → Except SubscribeError WelcomeOutcome
  | .returned answers => ProcessWelcomeResult.intoOutcome <$> this.process answers
  | .died => .error .welcomeTaskDied

def joined : Option MlsGroup :=
  match this.item with
  | .welcome welcome =>
    match this.loadKnown answers welcome with
    | some group => some group
    | none =>
      match processWelcome answers with
      | .ok group => group
      | .error _ => none
  | .group _ => none

variable {this answers}

theorem shouldIncludeGroup_unfiltered {conversationType : ConversationType}
    (hfilters : this.toWelcomeFilters = ⟨none, true, none⟩)
    (hmetadata : answers.metadata = .ok conversationType) :
    this.shouldIncludeGroup answers true = .ok (!conversationType.isVirtual) := by
  cases this with
  | mk filters known item =>
    subst hfilters
    cases hvirtual : conversationType.isVirtual <;>
      simp [shouldIncludeGroup, hmetadata, hvirtual, pure, Except.pure]

theorem resolve_of_joined {welcome : WelcomeMessage} {group : MlsGroup}
    {conversationType : ConversationType} (hfilters : this.toWelcomeFilters = ⟨none, true, none⟩)
    (hitem : this.item = .welcome welcome) (hjoined : this.joined answers = some group)
    (hmetadata : answers.metadata = .ok conversationType)
    (hvirtual : conversationType.isVirtual = false) :
    this.resolve (.returned answers) = .ok ⟨some group, some welcome.cursor⟩ := by
  have hfilter : this.filter answers (.new group welcome.cursor) =
      .ok (.new group welcome.cursor) := by
    simp [filter, shouldIncludeGroup_unfiltered hfilters hmetadata, hvirtual, pure, Except.pure]
  have hprocess : this.process answers = .ok (.new group welcome.cursor) := by
    simp only [joined, hitem] at hjoined
    simp only [process, hitem]
    cases hknown : this.loadKnown answers welcome with
    | some known =>
      simp only [hknown, Option.some.injEq] at hjoined
      subst hjoined
      exact hfilter
    | none =>
      simp only [hknown] at hjoined
      cases hwelcome : processWelcome answers with
      | error e => simp [hwelcome] at hjoined
      | ok known =>
        simp only [hwelcome] at hjoined
        subst hjoined
        exact hfilter
  rw [resolve, hprocess]
  rfl

theorem filter_new {group : MlsGroup} {id : Cursor} {result : ProcessWelcomeResult}
    (h : this.filter answers (.new group id) = .ok result) :
    result.intoOutcome.seen = some id := by
  simp only [filter, bind_eq_ok] at h
  obtain ⟨included, hincluded, h⟩ := h
  cases included with
  | true =>
    cases h
    rfl
  | false =>
    cases h
    rfl

theorem seen_of_resolve {welcome : WelcomeMessage} {finish : TaskEnd} {outcome : WelcomeOutcome}
    (hitem : this.item = .welcome welcome) (h : this.resolve finish = .ok outcome) :
    outcome.seen = some welcome.cursor := by
  cases finish with
  | died => cases h
  | returned answers =>
    simp only [resolve, map_eq_ok] at h
    obtain ⟨result, hprocess, rfl⟩ := h
    simp only [process, hitem] at hprocess
    split at hprocess
    · exact filter_new hprocess
    · simp only [bind_eq_ok] at hprocess
      obtain ⟨group, hwelcome, hprocess⟩ := hprocess
      cases group with
      | some group => exact filter_new hprocess
      | none =>
        cases hprocess
        rfl

end ProcessWelcomeFuture

def maxWelcomeTasks : Nat := 16

def maxWelcomeBacklog : Nat := 512

structure WelcomeIntake extends WelcomeFilters where
  floor : Nat
  known : List Cursor
  tasks : List ProcessWelcomeFuture
  backlog : List WelcomeOrGroup

namespace WelcomeIntake

def new (floor : Nat) (known : List Cursor) (filters : WelcomeFilters) : WelcomeIntake where
  toWelcomeFilters := filters
  floor := floor
  known := known
  tasks := []
  backlog := []

variable (intake : WelcomeIntake)

def spawn (item : WelcomeOrGroup) : ProcessWelcomeFuture where
  toWelcomeFilters := intake.toWelcomeFilters
  knownWelcomeIds := intake.known
  item := item

def pumpFrom (tasks : List ProcessWelcomeFuture) : List WelcomeOrGroup → WelcomeIntake
  | [] => { intake with tasks, backlog := [] }
  | item :: backlog =>
    if tasks.length < maxWelcomeTasks then pumpFrom (tasks ++ [intake.spawn item]) backlog
    else { intake with tasks, backlog := item :: backlog }

def pump : WelcomeIntake := intake.pumpFrom intake.tasks intake.backlog

def enqueue (item : WelcomeOrGroup) : WelcomeIntake × Bool :=
  if maxWelcomeBacklog ≤ intake.backlog.length then (intake, false)
  else (pump { intake with backlog := intake.backlog ++ [item] }, true)

def absorbBatch (intake : WelcomeIntake) : List (Option WelcomeMessage) → WelcomeIntake × Bool
  | [] => (intake, true)
  | none :: batch => absorbBatch intake batch
  | some typed :: batch =>
    if typed.cursor.sequenceId ≤ intake.floor then absorbBatch intake batch
    else if intake.known.contains typed.cursor then absorbBatch intake batch
    else
      match intake.enqueue (.welcome typed) with
      | (intake, true) => absorbBatch intake batch
      | (intake, false) => (intake, false)

def isIdle : Bool := intake.tasks.isEmpty && intake.backlog.isEmpty

/-- The task at the index has ended, whichever comes first. Nothing comes while there is none. -/
def nextOutcome (i : Nat) (finish : TaskEnd) :
    Option (ProcessWelcomeFuture × Except SubscribeError WelcomeOutcome × WelcomeIntake) :=
  intake.tasks[i]?.map fun task =>
    (task, task.resolve finish, pump { intake with tasks := intake.tasks.eraseIdx i })

def record (seen : Option Cursor) : WelcomeIntake :=
  match seen with
  | some cursor => { intake with known := cursor :: intake.known }
  | none => intake

def held : List WelcomeOrGroup := intake.tasks.map (·.item) ++ intake.backlog

def fresh (batch : List (Option WelcomeMessage)) : List WelcomeMessage :=
  batch.filterMap fun typed => typed.filter fun typed =>
    intake.floor < typed.cursor.sequenceId && !intake.known.contains typed.cursor

def Uniform : Prop := ∀ task ∈ intake.tasks, task.toWelcomeFilters = intake.toWelcomeFilters

variable {intake}

section Pump

variable {tasks : List ProcessWelcomeFuture} {backlog : List WelcomeOrGroup}

theorem held_pumpFrom :
    (intake.pumpFrom tasks backlog).held = tasks.map (·.item) ++ backlog := by
  induction backlog generalizing tasks with
  | nil => rfl
  | cons item backlog ih =>
    simp only [pumpFrom]
    split
    · simp [ih, spawn]
    · rfl

theorem frame_pumpFrom : (intake.pumpFrom tasks backlog).floor = intake.floor ∧
    (intake.pumpFrom tasks backlog).known = intake.known ∧
    (intake.pumpFrom tasks backlog).toWelcomeFilters = intake.toWelcomeFilters := by
  induction backlog generalizing tasks with
  | nil => exact ⟨rfl, rfl, rfl⟩
  | cons item backlog ih =>
    simp only [pumpFrom]
    split
    · exact ih
    · exact ⟨rfl, rfl, rfl⟩

theorem uniform_pumpFrom (h : ∀ task ∈ tasks, task.toWelcomeFilters = intake.toWelcomeFilters) :
    (intake.pumpFrom tasks backlog).Uniform := by
  induction backlog generalizing tasks with
  | nil => exact h
  | cons item backlog ih =>
    simp only [pumpFrom]
    split
    · refine ih fun task htask => ?_
      rcases List.mem_append.mp htask with htask | htask
      · exact h task htask
      · rw [List.mem_singleton.mp htask]
        rfl
    · exact h

end Pump

@[simp] theorem held_pump : intake.pump.held = intake.held := held_pumpFrom

@[simp] theorem floor_pump : intake.pump.floor = intake.floor := frame_pumpFrom.1

@[simp] theorem known_pump : intake.pump.known = intake.known := frame_pumpFrom.2.1

@[simp] theorem filters_pump : intake.pump.toWelcomeFilters = intake.toWelcomeFilters :=
  frame_pumpFrom.2.2

theorem Uniform.pump (h : intake.Uniform) : intake.pump.Uniform := uniform_pumpFrom h

structure Gains (intake intake' : WelcomeIntake) (items : List WelcomeOrGroup) : Prop where
  held : intake'.held = intake.held ++ items
  floor : intake'.floor = intake.floor
  known : intake'.known = intake.known
  filters : intake'.toWelcomeFilters = intake.toWelcomeFilters
  uniform : intake.Uniform → intake'.Uniform

theorem Gains.refl : Gains intake intake [] :=
  ⟨(List.append_nil _).symm, rfl, rfl, rfl, id⟩

theorem Gains.trans {intake' intake'' : WelcomeIntake} {items items' : List WelcomeOrGroup}
    (h : Gains intake intake' items) (h' : Gains intake' intake'' items') :
    Gains intake intake'' (items ++ items') where
  held := by rw [h'.held, h.held, List.append_assoc]
  floor := h'.floor.trans h.floor
  known := h'.known.trans h.known
  filters := h'.filters.trans h.filters
  uniform hu := h'.uniform (h.uniform hu)

theorem gains_of_enqueue {item : WelcomeOrGroup} {intake' : WelcomeIntake}
    (h : intake.enqueue item = (intake', true)) : Gains intake intake' [item] := by
  simp only [enqueue] at h
  split at h
  · simp at h
  · obtain ⟨rfl, -⟩ := Prod.mk.injEq .. ▸ h
    refine ⟨?_, by simp, by simp, by simp, fun hu => ?_⟩
    · rw [held_pump]
      simp [held]
    · exact @Uniform.pump { intake with backlog := intake.backlog ++ [item] } hu

theorem gains_of_absorbBatch {batch : List (Option WelcomeMessage)} {intake' : WelcomeIntake}
    (h : intake.absorbBatch batch = (intake', true)) :
    Gains intake intake' ((intake.fresh batch).map .welcome) := by
  induction batch generalizing intake with
  | nil =>
    simp only [absorbBatch, Prod.mk.injEq] at h
    rw [← h.1]
    exact .refl
  | cons typed batch ih =>
    cases typed with
    | none => exact ih h
    | some typed =>
      simp only [absorbBatch] at h
      split at h
      · rename_i hfloor
        have hfresh : intake.fresh (some typed :: batch) = intake.fresh batch := by
          simp [fresh, hfloor, Option.filter]
        rw [hfresh]
        exact ih h
      · rename_i hfloor
        split at h
        · rename_i hknown
          have hfresh : intake.fresh (some typed :: batch) = intake.fresh batch := by
            simp only [fresh, List.filterMap_cons, Option.filter, hknown]
            simp
          rw [hfresh]
          exact ih h
        · rename_i hknown
          have hfresh : intake.fresh (some typed :: batch) = typed :: intake.fresh batch := by
            simp only [fresh, List.filterMap_cons, Option.filter, Bool.not_eq_true] at hknown ⊢
            simp only [hknown]
            simp [Nat.lt_of_not_le hfloor]
          cases henqueue : intake.enqueue (.welcome typed) with
          | mk intake₁ ok =>
            rw [henqueue] at h
            cases ok with
            | false => simp at h
            | true =>
              have hgains := gains_of_enqueue henqueue
              have hrest := ih h
              have hsame : intake₁.fresh batch = intake.fresh batch := by
                simp only [fresh, hgains.floor, hgains.known]
              rw [hsame] at hrest
              rw [hfresh]
              exact hgains.trans hrest

theorem mem_fresh {batch : List (Option WelcomeMessage)} {welcome : WelcomeMessage}
    (h : some welcome ∈ batch) : welcome.cursor.sequenceId ≤ intake.floor ∨
      welcome.cursor ∈ intake.known ∨ welcome ∈ intake.fresh batch := by
  by_cases hfloor : welcome.cursor.sequenceId ≤ intake.floor
  · exact .inl hfloor
  · by_cases hknown : welcome.cursor ∈ intake.known
    · exact .inr (.inl hknown)
    · refine .inr (.inr (List.mem_filterMap.mpr ⟨some welcome, h, ?_⟩))
      simp [Option.filter, Nat.lt_of_not_le hfloor, hknown]

theorem isIdle_iff : intake.isIdle = true ↔ intake.held = [] := by
  simp [isIdle, held, List.isEmpty_iff]

structure Loses (intake intake' : WelcomeIntake) (task : ProcessWelcomeFuture) : Prop where
  held : intake.held.Perm (task.item :: intake'.held)
  floor : intake'.floor = intake.floor
  known : intake'.known = intake.known
  filters : intake'.toWelcomeFilters = intake.toWelcomeFilters
  uniform : intake.Uniform → intake'.Uniform
  task : intake.Uniform → task.toWelcomeFilters = intake.toWelcomeFilters

theorem loses_of_nextOutcome {i : Nat} {finish : TaskEnd} {task : ProcessWelcomeFuture}
    {outcome : Except SubscribeError WelcomeOutcome} {intake' : WelcomeIntake}
    (h : intake.nextOutcome i finish = some (task, outcome, intake')) :
    outcome = task.resolve finish ∧ Loses intake intake' task := by
  simp only [nextOutcome, Option.map_eq_some_iff, Prod.mk.injEq] at h
  obtain ⟨_, htask, rfl, rfl, rfl⟩ := h
  refine ⟨rfl, ?_, by simp, by simp, by simp, fun hu => ?_, fun hu => ?_⟩
  · obtain ⟨hi, rfl⟩ := List.getElem?_eq_some_iff.mp htask
    have hperm := (List.getElem_cons_eraseIdx_perm hi).symm.map (·.item)
    rw [held_pump]
    exact hperm.append_right _
  · exact @Uniform.pump { intake with tasks := intake.tasks.eraseIdx i }
      fun task htask => hu task (List.mem_of_mem_eraseIdx htask)
  · exact hu _ (List.mem_of_getElem? htask)

end WelcomeIntake

end LibXmtp.Subscriptions
