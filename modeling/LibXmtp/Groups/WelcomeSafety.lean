import LibXmtp.Groups.WelcomeEffects
import Mathlib.Logic.Relation

namespace LibXmtp.Groups

open LibXmtp.Data LibXmtp.Db LibXmtp.Types Relation

def WelcomeFlight.groupId (f : WelcomeFlight) : Bytes := f.welcome.content.groupId

def WelcomeFlight.writes (f : WelcomeFlight) (phase : WelcomePhase) : Bool :=
  match f.phase, phase with
  | .validated, .done (.ok (some _)) => true
  | _, _ => false

def WelcomePhase.isValidated : WelcomePhase → Bool
  | .validated => true
  | _ => false

/-- A flight, and whether its group has been written since the flight was validated. -/
structure TrackedFlight extends WelcomeFlight where
  outdated : Bool := false

def TrackedFlight.written (groupId : Bytes) (f : TrackedFlight) : TrackedFlight :=
  { f with outdated := f.outdated || f.phase.isValidated && f.groupId = groupId }

structure FlightWorld where
  store : WelcomeStore
  flights : List TrackedFlight := []
  applied : List (Cursor × Bytes) := []

inductive FlightAction
  | launched (welcome : XmtpWelcome)
  | flew (i : Nat) (ctx : WelcomeContext)
  | merged (groupId : Bytes) (store : WelcomeStore)

/-- A commit takes a group we are in to a later epoch, and leaves the other groups, the welcome of
the group and the cursor of the welcomes as they are. -/
structure Merged (installationId groupId : Bytes) (s s' : WelcomeStore) : Prop where
  active : s.isActive groupId = true
  later : ∀ m, s.mls groupId = some m → ∃ m', s'.mls groupId = some m' ∧ m.epoch < m'.epoch
  mls : ∀ id, id ≠ groupId → s'.mls id = s.mls id
  sequences : ∀ id, (s'.groups.fetch id).map StoredGroup.sequenceId =
    (s.groups.fetch id).map StoredGroup.sequenceId
  others : ∀ id, id ≠ groupId → s'.groups.fetch id = s.groups.fetch id
  cursor : ∀ o, cursorOf installationId s'.refreshStates .welcome o =
    cursorOf installationId s.refreshStates .welcome o

namespace FlightWorld

variable (w : FlightWorld)

def fly (i : Nat) (ctx : WelcomeContext) (f : TrackedFlight) : FlightWorld :=
  let (phase, store) := f.run ctx w.store
  let flights := w.flights.set i { f with phase, outdated := false }
  if f.writes phase then
    { store
      flights := flights.map (·.written f.groupId)
      applied := w.applied ++ [(f.welcome.cursor, f.groupId)] }
  else { w with store, flights }

def act : FlightAction → FlightWorld
  | .launched welcome => { w with flights := w.flights ++ [{ toXmtpWelcome := welcome }] }
  | .flew i ctx =>
    match w.flights[i]? with
    | none => w
    | some f => w.fly i ctx f
  | .merged groupId store =>
    { w with store, flights := w.flights.map (·.written groupId) }

def Possible (installationId : Bytes) : FlightAction → Prop
  | .launched _ => True
  | .flew _ ctx => ctx.installationId = installationId
  | .merged groupId store => Merged installationId groupId w.store store

/-- The transaction of the flight does not go through: there is nothing to process, or the group is
stored under this very welcome, or there is no group to store. -/
def Refused (installationId : Bytes) (f : WelcomeFlight) : Prop :=
  (f.welcome.resuming = false ∧ f.welcome.cursor.sequenceId ≤
    cursorOf installationId w.store.refreshStates .welcome f.welcome.cursor.originatorId) ∨
  (∃ g ∈ w.store.groups.fetch f.groupId,
    g.sequenceId = some (asBigInt f.welcome.cursor.sequenceId)) ∨
  f.welcome.content.conversationType = .oneshot

/-- The group is as the flight found it, and stored under an earlier welcome if any. -/
def UpToDate (f : TrackedFlight) : Prop :=
  f.outdated = false ∧ ∀ g ∈ w.store.groups.fetch f.groupId,
    g.sequenceId.all (· < asBigInt f.welcome.cursor.sequenceId) = true

/-- A flight that has found its group can load it, and its transaction is either refused or finds
the group up to date. -/
def CarefulFlight (installationId : Bytes) (ctx : WelcomeContext) (f : TrackedFlight) : Prop :=
  match f.phase with
  | .found => ctx.calls .newCached = .ok ()
  | .validated => w.Refused installationId f.toWelcomeFlight ∨ w.UpToDate f
  | _ => True

def Careful (installationId : Bytes) : FlightAction → Prop
  | .flew i ctx => ∀ f ∈ w.flights[i]?, w.CarefulFlight installationId ctx f
  | _ => True

end FlightWorld

structure SafeStep (installationId : Bytes) (w : FlightWorld) (action : FlightAction) : Prop where
  later : ∀ groupId m, w.store.isActive groupId = true → w.store.mls groupId = some m →
    ∃ m', (w.act action).store.mls groupId = some m' ∧ (m' = m ∨ m.epoch < m'.epoch)
  applied : (w.act action).applied.Nodup
  cursorOnly : ∀ i ctx f, action = .flew i ctx → w.flights[i]? = some f →
    f.writes (f.run ctx w.store).1 = false → CursorOnly ctx w.store (w.act action).store
  cursor : ∀ o, cursorOf installationId (w.act action).store.refreshStates .welcome o =
      cursorOf installationId w.store.refreshStates .welcome o ∨
    ∃ i ctx f, action = .flew i ctx ∧ w.flights[i]? = some f ∧
      f.welcome.cursor = ⟨cursorOf installationId (w.act action).store.refreshStates .welcome o, o⟩ ∧
      ((f.phase.isValidated = true ∧ ∃ group, (f.run ctx w.store).1 = .done (.ok group)) ∨
        ∃ e, (f.run ctx w.store).1 = .done (.error e) ∧ e.isRetryable = false)

def CarefulRun (installationId : Bytes) : FlightWorld → FlightWorld → Prop :=
  ReflTransGen fun w w' => ∃ action, w.Possible installationId action ∧
    w.Careful installationId action ∧ w' = w.act action

section Cleared

variable {ctx : WelcomeContext} {f : WelcomeFlight} {s s' : WelcomeStore}

/-- The welcome may be stored: we are not in its group, or at an earlier epoch of it. -/
def Cleared (s : WelcomeStore) (f : WelcomeFlight) : Prop :=
  s.isActive f.groupId = true → ∀ m, s.mls f.groupId = some m → m.epoch < f.welcome.content.epoch

theorem cleared_of_not (h : s.isActive f.groupId = false) : Cleared s f := by
  intro hactive
  rw [h] at hactive
  cases hactive

theorem WelcomeFlight.fail_ne_validated (e : WelcomeError) : f.fail e ≠ .validated :=
  fail_of (P := fun phase => phase ≠ .validated) e (by rintro ⟨⟩) (by rintro _ _ ⟨⟩)

theorem WelcomeFlight.after_eq_validated {name : WelcomeCall} {next : WelcomePhase}
    (h : after ctx name f.fail next = .validated) : next = .validated := by
  unfold after at h
  split at h
  · exact absurd h (fail_ne_validated _)
  · exact h

theorem WelcomeFlight.cleared_check (hbefore : f.phase ≠ .validated)
    (hload : f.phase = .found → ctx.calls .newCached = .ok ())
    (h : f.check ctx s = .validated) : Cleared s f := by
  have hnone (hnone : ¬(s.groups.fetch f.groupId).isSome = true) : Cleared s f := by
    rw [Option.not_isSome_iff_eq_none] at hnone
    exact cleared_of_not (by rw [WelcomeStore.isActive, hnone]; rfl)
  unfold check at h
  dsimp only at h
  split at h
  · unfold after at h
    split at h
    · cases h
    · split at h <;> cases h
  · have := after_eq_validated (after_eq_validated h)
    cases this
  · have hnext := after_eq_validated h
    split at hnext
    · cases hnext
    · rename_i hfetch
      exact hnone hfetch
  · rename_i hfound
    rw [after, hload hfound] at h
    dsimp only at h
    split at h
    · cases h
    · rename_i hfetch
      exact hnone hfetch
  · have hnext := after_eq_validated h
    split at hnext
    · exact absurd hnext (fail_ne_validated _)
    · rename_i group hfetch
      split at hnext
      · rename_i hrestored
        refine cleared_of_not ?_
        rw [WelcomeStore.isActive, groupId, hfetch, Option.any_some, hrestored]
        rfl
      · cases hnext
  · have hnext := after_eq_validated h
    split at hnext
    · exact absurd hnext (fail_ne_validated _)
    · rename_i mlsGroup hmls
      split at hnext
      · cases hnext
      · rename_i hinactive
        refine cleared_of_not ?_
        rw [WelcomeStore.isActive, groupId, hmls, Option.any_some, Bool.eq_false_iff.mpr hinactive,
          Bool.and_false]
  · have hnext := after_eq_validated h
    split at hnext
    · exact absurd hnext (fail_ne_validated _)
    · rename_i mlsGroup hmls
      split at hnext
      · exact absurd hnext (fail_ne_validated _)
      · rename_i hlater
        intro _ m hm
        rw [groupId, hmls] at hm
        cases hm
        exact Nat.lt_of_not_le hlater
  · exact absurd h hbefore

theorem WelcomeFlight.writes_iff {phase : WelcomePhase} : f.writes phase = true ↔
    f.phase = .validated ∧ ∃ group, phase = .done (.ok (some group)) := by
  unfold writes
  split
  · rename_i group hphase
    exact iff_of_true rfl ⟨hphase, group, rfl⟩
  · rename_i hnot
    refine iff_of_false Bool.false_ne_true ?_
    rintro ⟨hphase, group, rfl⟩
    exact hnot group hphase rfl

theorem WelcomeFlight.committed_of_writes (hsound : f.Sound)
    (hwrites : f.writes (f.run ctx s).1 = true) :
    ∃ group, WelcomeStored ctx f.toXmtpWelcome (some group) s (f.run ctx s).2 := by
  obtain ⟨hphase, group, hrun⟩ := writes_iff.mp hwrites
  have heffect := effect_run ctx hsound s
  rw [hrun] at heffect
  generalize (f.run ctx s).2 = s' at heffect
  cases heffect with
  | read _ _ hresult =>
    rcases hresult _ rfl with ⟨h, -⟩ | h
    · rw [hphase] at h
      cases h
    · rw [hphase] at h
      cases h
  | committed _ hcommitted => exact ⟨group, hcommitted⟩

theorem WelcomeFlight.cursorOnly_of_not_writes (hsound : f.Sound)
    (hwrites : f.writes (f.run ctx s).1 = false) : CursorOnly ctx s (f.run ctx s).2 := by
  have heffect := effect_run ctx hsound s
  generalize (f.run ctx s).1 = phase at heffect hwrites
  generalize (f.run ctx s).2 = s' at heffect
  cases heffect with
  | read hread _ _ => exact hread
  | failed _ _ hread _ => exact hread
  | @committed group _ hphase hcommitted =>
    cases group with
    | none => exact hcommitted.oneshot rfl
    | some group =>
      rw [writes_iff.mpr ⟨hphase, group, rfl⟩] at hwrites
      cases hwrites

theorem WelcomeFlight.cleared_run (hload : f.phase = .found → ctx.calls .newCached = .ok ())
    (h : (f.run ctx s).1 = .validated) : Cleared s f ∧ (f.run ctx s).2 = s := by
  unfold run at h ⊢
  split at h
  · split at h
    · cases h
    · split at h
      · cases h
      · dsimp only at h
        split at h <;> cases h
  · split at h <;> cases h
  · split at h <;> cases h
  · rename_i hnot
    exact ⟨cleared_check hnot hload h, rfl⟩

theorem Cleared.mono (hactive : s'.isActive f.groupId = s.isActive f.groupId)
    (hmls : s'.mls f.groupId = s.mls f.groupId) (h : Cleared s f) : Cleared s' f := by
  intro hactive' m hm
  exact h (hactive ▸ hactive') m (hmls ▸ hm)

end Cleared

theorem FlightWorld.store_fly (w : FlightWorld) (i : Nat) (ctx : WelcomeContext) (f : TrackedFlight) :
    (w.fly i ctx f).store = (f.run ctx w.store).2 := by
  unfold FlightWorld.fly
  dsimp only
  split <;> rfl

theorem not_refused {w : FlightWorld} {ctx : WelcomeContext} {f : WelcomeFlight} {group : StoredGroup}
    {s' : WelcomeStore} (h : WelcomeStored ctx f.toXmtpWelcome (some group) w.store s') :
    ¬w.Refused ctx.installationId f := by
  rintro (⟨hresuming, hle⟩ | ⟨g, hg, hsequence⟩ | honeshot)
  · rcases h.required with hresume | hlt
    · rw [hresuming] at hresume
      cases hresume
    · exact Nat.not_le_of_gt hlt hle
  · exact (h.group (Option.some_ne_none _)).notDuplicate g hg hsequence
  · exact Option.some_ne_none _ (h.kind.mpr honeshot)

structure Tracked (w : FlightWorld) : Prop where
  sound : ∀ f ∈ w.flights, f.Sound
  cleared : ∀ f ∈ w.flights, f.phase = .validated → f.outdated = false →
    Cleared w.store f.toWelcomeFlight
  rows : ∀ entry ∈ w.applied, ∃ g, w.store.groups.fetch entry.2 = some g ∧
    ∃ n, g.sequenceId = some n ∧ asBigInt entry.1.sequenceId ≤ n
  nodup : w.applied.Nodup

section Written

variable {groupId : Bytes} {f : TrackedFlight}

theorem TrackedFlight.outdated_written (hphase : f.phase = .validated)
    (h : (f.written groupId).outdated = false) : f.outdated = false ∧ f.groupId ≠ groupId := by
  simp only [written, hphase, WelcomePhase.isValidated, Bool.true_and, Bool.or_eq_false_iff,
    decide_eq_false_iff_not] at h
  exact h

end Written

namespace Tracked

variable {installationId : Bytes} {w : FlightWorld}

theorem written {groupId : Bytes} {store : WelcomeStore} {flights : List TrackedFlight}
    (hsound : ∀ f ∈ flights, f.Sound)
    (hcleared : ∀ f ∈ flights, f.phase = .validated → f.outdated = false →
      Cleared w.store f.toWelcomeFlight)
    (hmls : ∀ id, id ≠ groupId → store.mls id = w.store.mls id)
    (hothers : ∀ id, id ≠ groupId → store.groups.fetch id = w.store.groups.fetch id)
    {applied : List (Cursor × Bytes)} (hrows : ∀ entry ∈ applied, ∃ g,
      store.groups.fetch entry.2 = some g ∧
        ∃ n, g.sequenceId = some n ∧ asBigInt entry.1.sequenceId ≤ n) (hnodup : applied.Nodup) :
    Tracked ⟨store, flights.map (·.written groupId), applied⟩ where
  sound f hf := by
    obtain ⟨f', hf', rfl⟩ := List.mem_map.mp hf
    exact hsound f' hf'
  cleared f hf hphase houtdated := by
    obtain ⟨f', hf', rfl⟩ := List.mem_map.mp hf
    replace hphase : f'.phase = .validated := hphase
    obtain ⟨houtdated, hne⟩ := TrackedFlight.outdated_written hphase houtdated
    refine (hcleared f' hf' hphase houtdated).mono ?_ (hmls _ hne)
    show store.isActive f'.groupId = w.store.isActive f'.groupId
    rw [WelcomeStore.isActive, hothers _ hne, hmls _ hne, WelcomeStore.isActive]
  rows := hrows
  nodup := hnodup

theorem upToDate {ctx : WelcomeContext} {f : TrackedFlight} {group : StoredGroup}
    {s' : WelcomeStore} (hphase : f.phase = .validated)
    (hcareful : w.CarefulFlight ctx.installationId ctx f)
    (h : WelcomeStored ctx f.toXmtpWelcome (some group) w.store s') : w.UpToDate f := by
  rw [FlightWorld.CarefulFlight, hphase] at hcareful
  exact hcareful.resolve_left (not_refused h)

variable (htracked : Tracked w)

include htracked

theorem launched (welcome : XmtpWelcome) : Tracked (w.act (.launched welcome)) where
  sound f hf := by
    rcases List.mem_append.mp hf with hf | hf
    · exact htracked.sound f hf
    · rw [List.mem_singleton.mp hf]
      rintro _ ⟨⟩
  cleared f hf hphase houtdated := by
    rcases List.mem_append.mp hf with hf | hf
    · exact htracked.cleared f hf hphase houtdated
    · rw [List.mem_singleton.mp hf] at hphase
      cases hphase
  rows := htracked.rows
  nodup := htracked.nodup

theorem merged {groupId : Bytes} {store : WelcomeStore}
    (h : Merged installationId groupId w.store store) : Tracked (w.act (.merged groupId store)) := by
  refine Tracked.written htracked.sound htracked.cleared h.mls h.others (fun entry hentry => ?_)
    htracked.nodup
  obtain ⟨g, hg, n, hn, hle⟩ := htracked.rows entry hentry
  obtain ⟨g', hg', heq⟩ := exists_sequenceId (h.sequences entry.2) hg
  exact ⟨g', hg', n, heq.trans hn, hle⟩

theorem new_of_upToDate {ctx : WelcomeContext} {f : TrackedFlight} {group : StoredGroup}
    {s' : WelcomeStore} (h : WelcomeStored ctx f.toXmtpWelcome (some group) w.store s')
    (huptodate : w.UpToDate f) :
    (f.welcome.cursor, f.groupId) ∉ w.applied ∧
      ∀ entry ∈ w.applied ++ [(f.welcome.cursor, f.groupId)], ∃ g,
        s'.groups.fetch entry.2 = some g ∧
          ∃ n, g.sequenceId = some n ∧ asBigInt entry.1.sequenceId ≤ n := by
  have hgroup := h.group (Option.some_ne_none _)
  obtain ⟨g', hg', hsequence'⟩ := hgroup.newer huptodate.2
  have hbelow {entry : Cursor × Bytes} (hentry : entry ∈ w.applied) (heq : entry.2 = f.groupId) :
      asBigInt entry.1.sequenceId < asBigInt f.welcome.cursor.sequenceId := by
    obtain ⟨g, hg, n, hn, hle⟩ := htracked.rows entry hentry
    have hlater := huptodate.2 g (heq ▸ hg)
    rw [hn, Option.all_some, decide_eq_true_eq] at hlater
    exact Int.lt_of_le_of_lt hle hlater
  refine ⟨fun hmem => absurd (hbelow hmem rfl) (Int.lt_irrefl _), fun entry hentry => ?_⟩
  rcases List.mem_append.mp hentry with hentry | hentry
  · by_cases heq : entry.2 = f.groupId
    · rw [heq]
      exact ⟨g', hg', _, hsequence', Int.le_of_lt (hbelow hentry heq)⟩
    · rw [hgroup.others entry.2 heq]
      exact htracked.rows entry hentry
  · rw [List.mem_singleton.mp hentry]
    exact ⟨g', hg', _, hsequence', Int.le_refl _⟩

theorem flights_set (ctx : WelcomeContext) {i : Nat} {f : TrackedFlight}
    (hflight : w.flights[i]? = some f) :
    ∀ f' ∈ w.flights.set i { f with phase := (f.run ctx w.store).1, outdated := false },
      f'.Sound := by
  intro f' hf'
  rcases List.mem_or_eq_of_mem_set hf' with hf' | rfl
  · exact htracked.sound f' hf'
  · exact (htracked.sound f (List.mem_of_getElem? hflight)).step w.store

theorem flew {ctx : WelcomeContext} {i : Nat} {f : TrackedFlight}
    (hflight : w.flights[i]? = some f) (hcareful : w.CarefulFlight ctx.installationId ctx f) :
    Tracked (w.fly i ctx f) := by
  have hsound := htracked.sound f (List.mem_of_getElem? hflight)
  have hflights := htracked.flights_set ctx hflight
  unfold FlightWorld.fly
  dsimp only
  split
  · rename_i hwrites
    obtain ⟨hphase, group, hrun⟩ := WelcomeFlight.writes_iff.mp hwrites
    obtain ⟨group, hcommitted⟩ := WelcomeFlight.committed_of_writes hsound hwrites
    have hgroup := hcommitted.group (Option.some_ne_none _)
    obtain ⟨hnew, hrows⟩ :=
      htracked.new_of_upToDate hcommitted (Tracked.upToDate hphase hcareful hcommitted)
    refine Tracked.written hflights (fun f' hf' hphase' houtdated => ?_) (fun id hne => ?_)
      hgroup.others hrows (List.nodup_append.mpr ⟨htracked.nodup, List.nodup_singleton _, ?_⟩)
    · rcases List.mem_or_eq_of_mem_set hf' with hf' | rfl
      · exact htracked.cleared f' hf' hphase' houtdated
      · replace hphase' : (f.run ctx w.store).1 = .validated := hphase'
        rw [hrun] at hphase'
        cases hphase'
    · rw [hgroup.mls]
      exact if_neg hne
    · rintro entry hentry other hother rfl
      rw [List.mem_singleton.mp hother] at hentry
      exact hnew hentry
  · rename_i hwrites
    have honly := WelcomeFlight.cursorOnly_of_not_writes hsound (Bool.eq_false_iff.mpr hwrites)
    refine ⟨hflights, fun f' hf' hphase' houtdated => ?_, ?_, htracked.nodup⟩
    · rcases List.mem_or_eq_of_mem_set hf' with hf' | rfl
      · refine (htracked.cleared f' hf' hphase' houtdated).mono (honly.isActive _) ?_
        rw [honly.mls]
      · have hload : f.phase = .found → ctx.calls .newCached = .ok () := by
          intro hfound
          rw [FlightWorld.CarefulFlight, hfound] at hcareful
          exact hcareful
        obtain ⟨hcleared, hsame⟩ := WelcomeFlight.cleared_run hload hphase'
        show Cleared (f.run ctx w.store).2 f.toWelcomeFlight
        rw [hsame]
        exact hcleared
    · rw [honly.groups]
      exact htracked.rows

theorem act {action : FlightAction} (hpossible : w.Possible installationId action)
    (hcareful : w.Careful installationId action) : Tracked (w.act action) := by
  cases action with
  | launched welcome => exact htracked.launched welcome
  | flew i ctx =>
    unfold FlightWorld.act
    dsimp only
    split
    · exact htracked
    · rename_i f hflight
      subst hpossible
      exact htracked.flew hflight (hcareful f hflight)
  | merged groupId store => exact htracked.merged hpossible

theorem cursor_act {action : FlightAction} (hpossible : w.Possible installationId action) (o : Nat) :
    cursorOf installationId (w.act action).store.refreshStates .welcome o =
      cursorOf installationId w.store.refreshStates .welcome o ∨
    ∃ i ctx f, action = .flew i ctx ∧ w.flights[i]? = some f ∧
      f.welcome.cursor = ⟨cursorOf installationId (w.act action).store.refreshStates .welcome o, o⟩ ∧
      ((f.phase.isValidated = true ∧ ∃ group, (f.run ctx w.store).1 = .done (.ok group)) ∨
        ∃ e, (f.run ctx w.store).1 = .done (.error e) ∧ e.isRetryable = false) := by
  cases action with
  | launched welcome => exact .inl rfl
  | merged groupId store => exact .inl (hpossible.cursor o)
  | flew i ctx =>
    subst hpossible
    unfold FlightWorld.act
    dsimp only
    split
    · exact .inl rfl
    · rename_i f hflight
      have heffect :=
        WelcomeFlight.effect_run ctx (htracked.sound f (List.mem_of_getElem? hflight)) w.store
      have hsame (moves : Bool)
          (hmoved : CursorMoved ctx f.toXmtpWelcome moves w.store (f.run ctx w.store).2) :
          cursorOf ctx.installationId (f.run ctx w.store).2.refreshStates .welcome o =
            cursorOf ctx.installationId w.store.refreshStates .welcome o ∨
          f.welcome.cursor =
            ⟨cursorOf ctx.installationId (f.run ctx w.store).2.refreshStates .welcome o, o⟩ := by
        have hcursor := hmoved o
        unfold WelcomeStore.welcomeCursor at hcursor
        rw [hcursor]
        split
        · rename_i hmoves
          rcases Nat.le_total f.welcome.cursor.sequenceId
            (cursorOf ctx.installationId w.store.refreshStates .welcome o) with hle | hle
          · exact .inl (Nat.max_eq_left hle)
          · rw [Nat.max_eq_right hle, ← hmoves.1.1]
            exact .inr rfl
        · exact .inl rfl
      rw [FlightWorld.store_fly]
      generalize hrun : f.run ctx w.store = result at heffect hsame ⊢
      obtain ⟨phase, store⟩ := result
      cases heffect with
      | read _ hcursor _ => exact .inl (hcursor o)
      | @failed e _ hforever _ _ hmoved =>
        refine (hsame true hmoved).imp_right fun heq => ⟨i, ctx, f, rfl, hflight, heq, .inr ⟨e, ?_, hforever⟩⟩
        rw [hrun]
      | @committed group _ hphase hcommitted =>
        refine (hsame _ hcommitted.cursor).imp_right fun heq =>
          ⟨i, ctx, f, rfl, hflight, heq, .inl ⟨?_, group, ?_⟩⟩
        · rw [hphase]
          rfl
        · rw [hrun]

theorem later_flew {ctx : WelcomeContext} {i : Nat} {f : TrackedFlight}
    (hflight : w.flights[i]? = some f) (hcareful : w.CarefulFlight ctx.installationId ctx f)
    {groupId : Bytes} {m : MlsState} (hactive : w.store.isActive groupId = true)
    (hm : w.store.mls groupId = some m) :
    ∃ m', (f.run ctx w.store).2.mls groupId = some m' ∧ (m' = m ∨ m.epoch < m'.epoch) := by
  have hmem := List.mem_of_getElem? hflight
  have hsound := htracked.sound f hmem
  cases hwrites : f.writes (f.run ctx w.store).1 with
  | false =>
    rw [(WelcomeFlight.cursorOnly_of_not_writes hsound hwrites).mls]
    exact ⟨m, hm, .inl rfl⟩
  | true =>
    obtain ⟨hphase, -⟩ := WelcomeFlight.writes_iff.mp hwrites
    obtain ⟨group, hcommitted⟩ := WelcomeFlight.committed_of_writes hsound hwrites
    have hfresh := Tracked.upToDate hphase hcareful hcommitted
    rw [(hcommitted.group (Option.some_ne_none _)).mls]
    by_cases hgroup : groupId = f.groupId
    · subst hgroup
      exact ⟨_, if_pos rfl, .inr (htracked.cleared f hmem hphase hfresh.1 hactive m hm)⟩
    · exact ⟨m, (if_neg hgroup).trans hm, .inl rfl⟩

theorem later_act {action : FlightAction} (hpossible : w.Possible installationId action)
    (hcareful : w.Careful installationId action) {groupId : Bytes} {m : MlsState}
    (hactive : w.store.isActive groupId = true) (hm : w.store.mls groupId = some m) :
    ∃ m', (w.act action).store.mls groupId = some m' ∧ (m' = m ∨ m.epoch < m'.epoch) := by
  cases action with
  | launched welcome => exact ⟨m, hm, .inl rfl⟩
  | merged merging store =>
    by_cases hgroup : groupId = merging
    · subst hgroup
      obtain ⟨m', hm', hlt⟩ := hpossible.later m hm
      exact ⟨m', hm', .inr hlt⟩
    · exact ⟨m, (hpossible.mls groupId hgroup).trans hm, .inl rfl⟩
  | flew i ctx =>
    subst hpossible
    unfold FlightWorld.act
    dsimp only
    split
    · exact ⟨m, hm, .inl rfl⟩
    · rename_i f hflight
      rw [FlightWorld.store_fly]
      exact htracked.later_flew hflight (hcareful f hflight) hactive hm

theorem safeStep {action : FlightAction} (hpossible : w.Possible installationId action)
    (hcareful : w.Careful installationId action) : SafeStep installationId w action where
  later _ _ hactive hm := htracked.later_act hpossible hcareful hactive hm
  applied := (htracked.act hpossible hcareful).nodup
  cursorOnly := by
    rintro i ctx f rfl hflight hwrites
    have honly := WelcomeFlight.cursorOnly_of_not_writes
      (htracked.sound f (List.mem_of_getElem? hflight)) hwrites
    simp only [FlightWorld.act, hflight, FlightWorld.fly, hwrites]
    exact honly
  cursor := htracked.cursor_act hpossible

end Tracked

/-- In a run of careful steps, every further careful step is a safe one. -/
theorem welcomes_safe {installationId : Bytes} {initial w : FlightWorld}
    (hflights : initial.flights = []) (happlied : initial.applied = [])
    (hrun : CarefulRun installationId initial w) {action : FlightAction}
    (hpossible : w.Possible installationId action)
    (hcareful : w.Careful installationId action) : SafeStep installationId w action := by
  have htracked : Tracked w := by
    clear hpossible hcareful
    induction hrun with
    | refl => exact ⟨by simp [hflights], by simp [hflights], by simp [happlied], by simp [happlied]⟩
    | tail _ hstep ih =>
      obtain ⟨action, hpossible, hcareful, rfl⟩ := hstep
      exact ih.act hpossible hcareful
  exact htracked.safeStep hpossible hcareful

namespace WelcomeSample

def world : FlightWorld := { store }

def launch (sequenceId epoch : Nat) : FlightAction := .launched ⟨welcome sequenceId epoch, false⟩

def reads (i : Nat) : List FlightAction := List.replicate 3 (.flew i ctx)

def after (actions : List FlightAction) : FlightWorld := actions.foldl FlightWorld.act world

def race : List FlightAction :=
  [launch 10 3, launch 20 7, launch 10 3] ++ reads 0 ++ reads 1 ++ reads 2 ++
    [.flew 2 ctx, .flew 1 ctx]

theorem run_foldl {actions : List FlightAction}
    (h : ∀ action ∈ actions, ∀ w : FlightWorld, w.Possible [1] action) (w : FlightWorld) :
    ReflTransGen (fun w w' => ∃ action, w.Possible [1] action ∧ w' = w.act action) w
      (actions.foldl FlightWorld.act w) := by
  induction actions generalizing w with
  | nil => exact .refl
  | cons action actions ih =>
    have hrest := ih (fun a ha => h a (List.mem_cons_of_mem _ ha)) (w.act action)
    exact .head ⟨action, h action List.mem_cons_self w, rfl⟩ hrest

theorem possible_race : ∀ action ∈ race, ∀ w : FlightWorld, w.Possible [1] action := by
  intro action haction w
  cases action with
  | launched => exact trivial
  | flew i ctx' =>
    simp only [race, launch, reads, List.replicate, List.cons_append, List.nil_append,
      List.mem_cons, List.not_mem_nil, or_false, reduceCtorEq, false_or, FlightAction.flew.injEq,
      ← or_and_right] at haction
    rw [FlightWorld.Possible, haction.2]
    rfl
  | merged =>
    simp [race, launch, reads] at haction

instance decidableCarefulFlight (w : FlightWorld) (id : Bytes) (ctx : WelcomeContext)
    (f : TrackedFlight) : Decidable (w.CarefulFlight id ctx f) := by
  unfold FlightWorld.CarefulFlight FlightWorld.Refused FlightWorld.UpToDate
  split <;> infer_instance

def flown (w : FlightWorld) (numbers : List Nat) : FlightWorld :=
  numbers.foldl (fun w i => w.act (.flew i ctx)) w

def carefullyFlown : FlightWorld → List Nat → Bool
  | _, [] => true
  | w, i :: numbers => w.flights[i]?.all (fun f => w.CarefulFlight [1] ctx f) &&
      carefullyFlown (w.act (.flew i ctx)) numbers

theorem carefulRun_flown {start w : FlightWorld} (hrun : CarefulRun [1] start w) {numbers : List Nat}
    (h : carefullyFlown w numbers = true) : CarefulRun [1] start (flown w numbers) := by
  induction numbers generalizing w with
  | nil => exact hrun
  | cons i numbers ih =>
    rw [carefullyFlown, Bool.and_eq_true, Option.all_eq_true] at h
    exact ih (hrun.tail ⟨.flew i ctx, rfl, fun f hf => of_decide_eq_true (h.1 f hf), rfl⟩) h.2

/-- Two flights of a stream and one of a pass with the first welcome, and one with a later welcome of
the same group. -/
def launchedRace : FlightWorld :=
  [launch 10 3, launch 10 3, launch 20 7, .launched ⟨welcome 10 3, true⟩].foldl FlightWorld.act world

def storedRace : FlightWorld :=
  flown launchedRace ([0, 0, 0, 1, 1, 1, 0, 1] ++ List.replicate 8 3)

def mergedRace : FlightWorld :=
  storedRace.act (.merged [9] { storedRace.store with
    mls := fun id => if id = [9] then some ⟨5, true⟩ else storedRace.store.mls id })

def carefulRace : FlightWorld := flown mergedRace (List.replicate 7 2)

theorem merged_storedRace : storedRace.Possible [1] (.merged [9] { storedRace.store with
    mls := fun id => if id = [9] then some ⟨5, true⟩ else storedRace.store.mls id }) where
  active := by decide +kernel
  later m hm := by
    have hthird : storedRace.store.mls [9] = some ⟨3, true⟩ := by decide +kernel
    cases hthird.symm.trans hm
    exact ⟨⟨5, true⟩, rfl, by decide⟩
  mls _ hne := if_neg hne
  sequences _ := rfl
  others _ _ := rfl
  cursor _ := rfl

theorem carefulRun_carefulRace : CarefulRun [1] world carefulRace := by
  have hlaunched {w : FlightWorld} (hrun : CarefulRun [1] world w) (welcome : XmtpWelcome) :
      CarefulRun [1] world (w.act (.launched welcome)) :=
    hrun.tail ⟨.launched welcome, trivial, trivial, rfl⟩
  have hrace : CarefulRun [1] world launchedRace :=
    hlaunched (hlaunched (hlaunched (hlaunched .refl _) _) _) _
  have hstored : CarefulRun [1] world storedRace := carefulRun_flown hrace (by decide +kernel)
  have hmerged : CarefulRun [1] world mergedRace :=
    hstored.tail ⟨_, merged_storedRace, trivial, rfl⟩
  exact carefulRun_flown hmerged (by decide +kernel)

end WelcomeSample

open WelcomeSample in
theorem welcomes_safe_race :
    carefulRace.store.isActive [9] = true ∧ carefulRace.store.mls [9] = some ⟨5, true⟩ ∧
      cursorOf [1] carefulRace.store.refreshStates .welcome 11 = 10 ∧
      (carefulRace.act (.flew 2 ctx)).store.mls [9] = some ⟨7, true⟩ ∧
      (carefulRace.act (.flew 2 ctx)).applied = [(⟨10, 11⟩, [9]), (⟨20, 11⟩, [9])] ∧
      SafeStep [1] carefulRace (.flew 2 ctx) := by
  refine ⟨by decide +kernel, by decide +kernel, by decide +kernel, by decide +kernel,
    by decide +kernel, welcomes_safe rfl rfl carefulRun_carefulRace rfl fun f hf => ?_⟩
  have hall : carefulRace.flights[2]?.all (fun f => carefulRace.CarefulFlight [1] ctx f) = true := by
    decide +kernel
  exact of_decide_eq_true ((Option.all_eq_true _ _).mp hall f hf)

open WelcomeSample in
/-- The later welcome has taken an active group to its epoch, and the earlier one, which has been
applied already, takes it back. -/
theorem welcomes_race :
    ReflTransGen (fun w w' => ∃ action, w.Possible [1] action ∧ w' = w.act action) world
        (after race) ∧
      (after race).Possible [1] (.flew 0 ctx) ∧
      (after race).store.isActive [9] = true ∧ (after race).store.mls [9] = some ⟨7, true⟩ ∧
      ((after race).act (.flew 0 ctx)).store.mls [9] = some ⟨3, true⟩ ∧
      ¬((after race).act (.flew 0 ctx)).applied.Nodup ∧ ¬SafeStep [1] (after race) (.flew 0 ctx) := by
  have htwice : ¬((after race).act (.flew 0 ctx)).applied.Nodup := by decide +kernel
  exact ⟨run_foldl possible_race world, rfl, by decide +kernel, by decide +kernel,
    by decide +kernel, htwice, fun h => htwice h.applied⟩

end LibXmtp.Groups
