import LibXmtp.Subscriptions.CatchUpLedger

/-! A catch-up that completes owes nothing: its waves are sent and acknowledged, its welcomes are
resolved, and every conversation it has found is subscribed to. -/

namespace LibXmtp.Subscriptions

open LibXmtp.Data LibXmtp.Db LibXmtp.Types

variable {setup : Setup} {log happenings : List Happening}

section Close

variable {attempt : Attempt}

theorem filter_eq_singleton {α β : Type} [DecidableEq β] {f : α → β} {l : List α} {a : α}
    (hnodup : (l.map f).Nodup) (hmem : a ∈ l) : l.filter (fun b => f b = f a) = [a] := by
  induction l with
  | nil => exact absurd hmem List.not_mem_nil
  | cons b l ih =>
    obtain ⟨hnew, hnodup⟩ := List.nodup_cons.mp hnodup
    rcases List.mem_cons.mp hmem with rfl | hmem
    · rw [List.filter_cons_of_pos (by simp), List.cons.injEq, List.filter_eq_nil_iff]
      refine ⟨rfl, fun b hb heq => hnew ?_⟩
      rw [← of_decide_eq_true heq]
      exact List.mem_map_of_mem hb
    · have hne : f b ≠ f a := fun heq => hnew (heq ▸ List.mem_map_of_mem hmem)
      rw [List.filter_cons_of_neg (by simp [hne])]
      exact ih hnodup hmem

theorem TopicsKept.addedOnce (h : TopicsKept setup log attempt) {group : MlsGroup}
    (hfound : Found log setup group) : AddedOnce log group := by
  have htopic := h.tracked.mem_iff.mp (h.found group hfound)
  obtain ⟨seeds, hseeds, hkey⟩ := List.mem_flatMap.mp htopic
  obtain ⟨floor, hfloor⟩ := Option.isSome_iff_exists.mp
    ((HashMap.containsKey_eq_isSome_get _ _).symm.trans (HashMap.mem_keys.mp hkey))
  obtain ⟨welcomeFloor, hsubscribed⟩ := h.subscribed
  have hmem : (⟨Topic.newGroupMessage group.groupId, maxOf floor⟩ : Subscription) ∈ adds log := by
    refine hsubscribed.mem_iff.mpr (List.mem_cons_of_mem _ (List.mem_flatMap.mpr ⟨seeds, hseeds, ?_⟩))
    exact List.mem_map.mpr ⟨_, HashMap.get_eq_some_iff.mp hfloor, rfl⟩
  have htopics : ((seedings log).flatMap GroupSeeds.subscriptions).map Subscription.topic =
      seededTopics log := by
    rw [List.map_flatMap, seededTopics]
    exact List.flatMap_congr fun seeds _ => seeds.topics_subscriptions
  have hnodup : ((adds log).map Subscription.topic).Nodup := by
    rw [(hsubscribed.map _).nodup_iff, List.map_cons, htopics, List.nodup_cons]
    refine ⟨fun hwelcome => ?_, h.tracked.nodup_iff.mp h.nodup⟩
    obtain ⟨groupId, heq⟩ := h.kind _ (h.tracked.mem_iff.mpr hwelcome)
    exact Topic.newGroupMessage_ne_newWelcomeMessage _ _ heq
  exact ⟨seeds, hseeds, floor, hfloor, filter_eq_singleton hnodup hmem⟩

theorem resolved_of_mem {welcome : WelcomeMessage} (h : .welcome welcome ∈ resolvedItems log) :
    Resolved log welcome.cursor := ⟨welcome, h, rfl⟩

theorem Kept.owesNothing (h : Kept setup log attempt) (hnothing : attempt.owesNothing = true) :
    OwesNothing log setup := by
  simp only [Attempt.owesNothing, Bool.and_eq_true, decide_eq_true_eq, List.isEmpty_iff,
    WelcomeIntake.isIdle_iff] at hnothing
  obtain ⟨⟨houtstanding, hqueued⟩, hidle⟩ := hnothing
  have hresolved : (absorbedItems log).Perm (resolvedItems log) := by
    simpa [hidle] using h.intake.held
  refine ⟨?_, ?_, fun wave hwave => ?_, hresolved, fun welcome hwelcome => ?_, h.waves.bygone,
    fun group hgroup => h.topics.addedOnce hgroup⟩
  · rw [h.waves.waves, hqueued, List.append_nil]
  · rw [h.waves.mutateIds]
    exact List.nodup_range'
  · rcases h.waves.acked wave hwave with hout | hacked
    · rw [houtstanding] at hout
      exact absurd hout (Finset.notMem_empty _)
    · exact hacked
  · refine (h.intake.delivered welcome hwelcome).imp_right fun hwelcome => ?_
    rcases hwelcome with hwelcome | hwelcome
    · exact hwelcome
    · exact resolved_of_mem (hresolved.mem_iff.mp hwelcome)

def Undecided : Progress → Prop
  | .looping _ => True
  | .closing _ => False
  | .ended (.ok .complete) _ => False
  | .ended _ _ => True
  | .parked => True

theorem undecided_settle {order : TopicsOrder} {outcome : WelcomeOutcome}
    {reads : SeedReads SubscribeError} : Undecided (attempt.settle order outcome reads).2 := by
  simp only [Attempt.settle]
  split
  · trivial
  · split
    · trivial
    · trivial

theorem undecided_wakeUp {order : TopicsOrder} {wake : Wake} :
    Undecided (attempt.wakeUp order wake).2 := by
  cases wake with
  | event event =>
    cases event with
    | none => trivial
    | some event =>
      simp only [Attempt.wakeUp]
      cases event with
      | started => trivial
      | catchUpComplete mutateId => trivial
      | topicsLive topics => trivial
      | groupMessages messages => trivial
      | welcomeMessages messages =>
        simp only [Attempt.receive]
        split
        · trivial
        · trivial
  | outcome i finish reads =>
    simp only [Attempt.wakeUp]
    split
    · trivial
    · exact undecided_settle
    · trivial

theorem turn_cases (attempt : Attempt) (order : TopicsOrder) (turn : Turn) :
    (∃ summary, (attempt.turn order turn).2 = .closing summary) ∨
      Undecided (attempt.turn order turn).2 := by
  simp only [Attempt.turn]
  split
  · exact .inr trivial
  · split
    · exact .inl ⟨_, rfl⟩
    · exact .inr undecided_wakeUp

theorem owesNothing_of_closing (h : Kept setup log attempt) {order : TopicsOrder} {turn : Turn}
    {summary : CatchUpSummary} (hturn : attempt.turn order turn = (happenings, .closing summary)) :
    OwesNothing (log ++ happenings) setup := by
  simp only [Attempt.turn] at hturn
  split at hturn
  · cases hturn
  · rename_i sent queued hsend
    split at hturn
    · rename_i hnothing
      cases hturn
      exact (h.sent hsend).owesNothing hnothing
    · simp only [Prod.mk.injEq] at hturn
      have hundecided := @undecided_wakeUp { attempt with queued } order turn.wake
      rw [hturn.2] at hundecided
      exact hundecided.elim

end Close

section Run

variable {order : TopicsOrder} {turns : List Turn} {summary summary' : CatchUpSummary}

@[simp] theorem runTurns_closing : runTurns order (.closing summary) turns = ([], .closing summary) := by
  cases turns <;> rfl

@[simp] theorem runTurns_ended {result : Except CatchUpError AttemptEnd} :
    runTurns order (.ended result summary) turns = ([], .ended result summary) := by
  cases turns <;> rfl

@[simp] theorem runTurns_parked : runTurns order .parked turns = ([], .parked) := by
  cases turns <;> rfl

theorem owesNothing_of_runTurns {attempt : Attempt} (h : Kept setup log attempt)
    (hrun : runTurns order (.looping attempt) turns = (happenings, .closing summary)) :
    OwesNothing (log ++ happenings) setup := by
  induction turns generalizing log attempt happenings with
  | nil => cases hrun
  | cons turn turns ih =>
    simp only [runTurns, Prod.mk.injEq] at hrun
    obtain ⟨rfl, hrest⟩ := hrun
    cases hprogress : (attempt.turn order turn).2 with
    | looping attempt' =>
      rw [hprogress] at hrest
      rw [← List.append_assoc]
      exact ih (h.turn (Prod.ext rfl hprogress)) (Prod.ext rfl hrest)
    | closing summary' =>
      rw [runTurns_closing, List.append_nil]
      exact owesNothing_of_closing h (Prod.ext rfl hprogress)
    | ended result summary' => simp [hprogress] at hrest
    | parked => simp [hprogress] at hrest

theorem undecided_runTurns (attempt : Attempt) (order : TopicsOrder) (turns : List Turn) :
    (∃ summary, (runTurns order (.looping attempt) turns).2 = .closing summary) ∨
      Undecided (runTurns order (.looping attempt) turns).2 := by
  induction turns generalizing attempt with
  | nil => exact .inr trivial
  | cons turn turns ih =>
    simp only [runTurns]
    have hcases := turn_cases attempt order turn
    cases hprogress : (attempt.turn order turn).2 with
    | looping attempt' => exact ih attempt'
    | closing summary => exact .inl ⟨summary, by rw [runTurns_closing]⟩
    | ended result summary =>
      rw [hprogress] at hcases
      rw [runTurns_ended]
      exact hcases
    | parked =>
      rw [runTurns_parked]
      exact .inr trivial

section Open

variable (seeds : GroupSeeds) (opening : Mutate) (overflow : List Mutate)

def opened : List Happening :=
  [.seeded seeds, .minted opening] ++ overflow.map .minted ++ [.sent opening]

@[simp] theorem mintedWaves_opened :
    mintedWaves (opened seeds opening overflow) = opening :: overflow := by
  have hoverflow : mintedWaves (overflow.map .minted) = overflow := by
    simp [mintedWaves, Happening.mintedWave, List.filterMap_map, Function.comp_def]
  rw [opened, mintedWaves_append, mintedWaves_append, hoverflow]
  exact List.append_nil _

@[simp] theorem sentWaves_opened : sentWaves (opened seeds opening overflow) = [opening] := by
  have hoverflow : sentWaves (overflow.map .minted) = [] := by
    simp [sentWaves, Happening.sentWave, List.filterMap_map, Function.comp_def]
  rw [opened, sentWaves_append, sentWaves_append, hoverflow]
  rfl

@[simp] theorem seedings_opened : seedings (opened seeds opening overflow) = [seeds] := by
  have hoverflow : seedings (overflow.map .minted) = [] := by
    simp [seedings, Happening.seeding, List.filterMap_map, Function.comp_def]
  rw [opened, seedings_append, seedings_append, hoverflow]
  rfl

@[simp] theorem absorbedItems_opened : absorbedItems (opened seeds opening overflow) = [] := by
  have hoverflow : absorbedItems (overflow.map .minted) = [] := by
    simp [absorbedItems, Happening.absorbedItems, List.flatMap_map]
  rw [opened, absorbedItems_append, absorbedItems_append, hoverflow]
  rfl

@[simp] theorem resolvedItems_opened : resolvedItems (opened seeds opening overflow) = [] := by
  have hoverflow : resolvedItems (overflow.map .minted) = [] := by
    simp [resolvedItems, Happening.resolvedItem, List.filterMap_map, Function.comp_def]
  rw [opened, resolvedItems_append, resolvedItems_append, hoverflow]
  rfl

variable {seeds opening overflow}

theorem not_delivered_opened (welcome : WelcomeMessage) :
    ¬Delivered (opened seeds opening overflow) welcome := by
  simp [Delivered, opened]

end Open

theorem wavesKept_opened {subs : List (Topic × Nat)} {seeds : GroupSeeds} {attempt : Attempt}
    (houtstanding : attempt.outstanding = Finset.Icc 1 (1 + (planCatchUpWaves subs).2.length))
    (hnext : attempt.nextMutateId = 2 + (planCatchUpWaves subs).2.length)
    (hqueued : attempt.queued = (planCatchUpWaves subs).2) :
    WavesKept (opened seeds (planCatchUpWaves subs).1 (planCatchUpWaves subs).2) attempt := by
  refine ⟨?_, ?_, ?_, fun wave hwave => .inl ?_, fun wave hwave => ?_⟩
  · rw [mintedWaves_opened, sentWaves_opened, hqueued]
    rfl
  · rw [mintedWaves_opened]
    exact mutateIds_planCatchUpWaves _
  · rw [mintedWaves_opened, List.length_cons, hnext]
    omega
  · rw [mintedWaves_opened] at hwave
    have hid : wave.mutateId ∈ List.range' 1 ((planCatchUpWaves subs).2.length + 1) := by
      rw [← mutateIds_planCatchUpWaves]
      exact List.mem_map_of_mem hwave
    rw [List.mem_range'_1] at hid
    rw [houtstanding, Finset.mem_Icc]
    omega
  · rw [mintedWaves_opened] at hwave
    exact bygone_planCatchUpWaves hwave

theorem topicsKept_opened {seeds : GroupSeeds} {groups : List MlsGroup} {floor : Nat}
    {subs : List (Topic × Nat)} {attempt : Attempt} (hgroups : setup.findGroups = .ok groups)
    (hseeds : seedGroups setup.seedReads (groups.map (·.groupId)) = .ok seeds)
    (hsubs : subs = seeds.subs setup.order ++
      [(Topic.newWelcomeMessage setup.installationId, floor)])
    (htracked : attempt.tracked = seeds.floors.keys) :
    TopicsKept setup (opened seeds (planCatchUpWaves subs).1 (planCatchUpWaves subs).2)
      attempt := by
  refine ⟨⟨floor, ?_⟩, ?_, ?_, fun topic htopic => ?_, fun group hfound => ?_⟩
  · rw [adds, mintedWaves_opened, adds_planCatchUpWaves, seedings_opened, List.flatMap_singleton,
      hsubs, List.map_append]
    exact List.perm_append_comm.trans (List.Perm.cons _ (seeds.subs_perm setup.order))
  · rw [htracked, seededTopics, seedings_opened, List.flatMap_singleton]
  · rw [htracked]
    exact seeds.floors.nodup_keys
  · rw [htracked, mem_keys_of_seedGroups hseeds] at htopic
    obtain ⟨groupId, -, heq⟩ := htopic
    exact ⟨groupId, heq⟩
  · cases hfound with
    | queried hqueried hmem =>
      rw [hgroups] at hqueried
      cases hqueried
      rw [htracked, mem_keys_of_seedGroups hseeds]
      exact ⟨group.groupId, List.mem_map_of_mem hmem, rfl⟩
    | joined hresolved => simp [opened] at hresolved

theorem intakeKept_opened {seeds : GroupSeeds} {opening : Mutate} {overflow : List Mutate}
    {floor : Nat} {known : List Cursor}
    (hfloor : welcomeSeed setup.welcomeCursors setup.installationId = .ok floor)
    (hknown : knownWelcomesAbove setup.groupCursors floor = .ok known) :
    IntakeKept setup (opened seeds opening overflow) (.new floor known ⟨none, true, none⟩) := by
  refine ⟨?_, ?_, fun cursor hle => ⟨floor, known, hfloor, hknown, .inl hle⟩,
    fun cursor hmem => .inl ⟨floor, known, hfloor, hknown, .inr hmem⟩,
    fun welcome hwelcome => absurd hwelcome (not_delivered_opened welcome), rfl,
    fun task htask => absurd htask List.not_mem_nil⟩
  · rw [absorbedItems_opened, resolvedItems_opened]
    exact .refl _
  · intro item hitem
    rw [absorbedItems_opened] at hitem
    exact absurd hitem List.not_mem_nil

theorem kept_of_opened {attempt : Attempt}
    (hopen : openAttempt setup summary = .ok (log, .looping attempt)) : Kept setup log attempt := by
  simp only [openAttempt, bind_eq_ok, mapError_eq_ok] at hopen
  obtain ⟨floor, hfloor, known, hknown, groups, hgroups, seeds, hseeds, hopen⟩ := hopen
  split at hopen
  · cases hopen
  · split at hopen
    · split at hopen
      · cases hopen
      · split at hopen
        · cases hopen
        · cases hopen
    · simp only [pure_eq_ok, Prod.mk.injEq, Progress.looping.injEq] at hopen
      obtain ⟨rfl, rfl⟩ := hopen
      exact ⟨wavesKept_opened rfl rfl rfl, topicsKept_opened hgroups hseeds rfl rfl,
        intakeKept_opened hfloor hknown⟩

theorem openAttempt_cases {progress : Progress}
    (hopen : openAttempt setup summary = .ok (log, progress)) :
    (∃ attempt, progress = .looping attempt) ∨ progress = .ended (.ok .wireDied) summary := by
  simp only [openAttempt, bind_eq_ok, mapError_eq_ok] at hopen
  obtain ⟨floor, hfloor, known, hknown, groups, hgroups, seeds, hseeds, hopen⟩ := hopen
  split at hopen
  · rename_i hempty
    simp at hempty
  · split at hopen
    · split at hopen
      · cases hopen
      · split at hopen
        · cases hopen
          exact .inr rfl
        · cases hopen
    · cases hopen
      exact .inl ⟨_, rfl⟩

section Drain

variable (events : List BidiEvent)

theorem mintedWaves_drained : mintedWaves (events.map .drained) = [] := by
  simp [mintedWaves, Happening.mintedWave, List.filterMap_map, Function.comp_def]

theorem sentWaves_drained : sentWaves (events.map .drained) = [] := by
  simp [sentWaves, Happening.sentWave, List.filterMap_map, Function.comp_def]

theorem seedings_drained : seedings (events.map .drained) = [] := by
  simp [seedings, Happening.seeding, List.filterMap_map, Function.comp_def]

theorem absorbedItems_drained : absorbedItems (events.map .drained) = [] := by
  simp [absorbedItems, Happening.absorbedItems, List.flatMap_map]

theorem resolvedItems_drained : resolvedItems (events.map .drained) = [] := by
  simp [resolvedItems, Happening.resolvedItem, List.filterMap_map, Function.comp_def]

theorem OwesNothing.drain (h : OwesNothing log setup) :
    OwesNothing (log ++ events.map .drained) setup := by
  have hadds : adds (events.map .drained) = [] := by rw [adds, mintedWaves_drained, List.flatMap_nil]
  obtain ⟨hsent, hids, hacked, hresolved, hwelcomes, hbygone, hgroups⟩ := h
  refine ⟨?_, ?_, ?_, ?_, fun welcome hwelcome => ?_, ?_, fun group hgroup => ?_⟩
  · rw [sentWaves_append, sentWaves_drained, mintedWaves_append, mintedWaves_drained, hsent]
  · rw [mintedWaves_append, mintedWaves_drained, List.append_nil]
    exact hids
  · rw [mintedWaves_append, mintedWaves_drained, List.append_nil]
    exact fun wave hwave => (hacked wave hwave).append
  · rw [absorbedItems_append, absorbedItems_drained, resolvedItems_append, resolvedItems_drained,
      List.append_nil, List.append_nil]
    exact hresolved
  · have hwelcome : Delivered log welcome := by
      rcases delivered_append.mp hwelcome with hwelcome | hwelcome
      · exact hwelcome
      · simp [Delivered] at hwelcome
    exact (hwelcomes welcome hwelcome).imp_right Resolved.append
  · rw [mintedWaves_append, mintedWaves_drained, List.append_nil]
    exact hbygone
  · obtain ⟨seeds, hseeds, floor, hfloor, hadded⟩ :=
      hgroups group (found_of_quiet (resolvedItems_drained events) hgroup)
    refine ⟨seeds, ?_, floor, hfloor, ?_⟩
    · rw [seedings_append, seedings_drained, List.append_nil]
      exact hseeds
    · rw [adds_append, hadds, List.append_nil]
      exact hadded

end Drain

/-- An attempt that completes owes nothing, whatever the order is in which batches, completions and
outcomes come; and it does not complete while the completion of a wave is missing. -/
theorem catchUpAttempt_owes_nothing (setup : Setup) (summary : CatchUpSummary) (turns : List Turn)
    (drain : List BidiEvent) :
    (∀ log summary', catchUpAttempt setup summary turns drain =
      (log, some (.ok .complete, summary')) → OwesNothing log setup) ∧
    ∀ log result, catchUpAttempt setup summary turns drain = (log, result) →
      ∀ wave ∈ mintedWaves log, .delivered (.catchUpComplete wave.mutateId) ∉ log →
        ∀ summary', result ≠ some (.ok .complete, summary') := by
  have hcomplete : ∀ log summary', catchUpAttempt setup summary turns drain =
      (log, some (.ok .complete, summary')) → OwesNothing log setup := by
    intro log summary' hrun
    simp only [catchUpAttempt] at hrun
    split at hrun
    · cases hrun
    · rename_i opening progress hopen
      rcases openAttempt_cases hopen with ⟨attempt, rfl⟩ | rfl
      · split at hrun
        · rename_i happenings closing hturns
          cases hrun
          exact (owesNothing_of_runTurns (kept_of_opened hopen) hturns).drain drain
        · rename_i happenings result summary₁ hturns
          cases hrun
          have hcases := undecided_runTurns attempt setup.order turns
          rw [hturns] at hcases
          rcases hcases with ⟨closing, heq⟩ | hundecided
          · cases heq
          · exact hundecided.elim
        · cases hrun
      · simp at hrun
  refine ⟨hcomplete, fun log result hrun wave hwave hmissing summary' hresult => ?_⟩
  subst hresult
  obtain ⟨before, after, rfl, hack⟩ := (hcomplete log summary' hrun).acked wave hwave
  exact hmissing (List.mem_append_right _ (List.mem_cons_of_mem _ hack))

end Run

namespace CatchUpSample

def noCursors : Except SubscribeError (HashMap Bytes GlobalCursor) := .ok .empty

def client (groups : List MlsGroup) : Setup where
  installationId := [9]
  welcomeCursors := noCursors
  groupCursors := .ok []
  findGroups := .ok groups
  seedReads := ⟨noCursors, .ok []⟩
  order := ⟨fun floors => floors.entries, fun _ => .refl _⟩
  opened := .ok ()

def welcome (sequenceId : Nat) : Option WelcomeMessage := some ⟨⟨sequenceId, 11⟩⟩

def joins (group : MlsGroup) : WelcomeAnswers where
  findKnown := .ok none
  processNewWelcome := .ok (some group)
  loadFromStore := .ok none
  newCached := .error .storage
  metadata := .ok group.conversationType
  hasDuplicateDm := .ok false
  consentState := .ok .unknown

def receives (event : BidiEvent) : Turn := ⟨fun _ => .accepted, .event (some event)⟩

def resolves (group : MlsGroup) : Turn :=
  ⟨fun _ => .accepted, .outcome 0 (.returned (joins group)) ⟨noCursors, .ok []⟩⟩

def stalled (event : BidiEvent) : Turn := ⟨fun _ => .full, .event (some event)⟩

def run : List Happening × Option (Except CatchUpError AttemptEnd × CatchUpSummary) :=
  catchUpAttempt (client [⟨[1], .dm⟩]) {} [receives (.welcomeMessages [welcome 5, none]),
    resolves ⟨[2], .group⟩, stalled (.catchUpComplete 1), receives .started,
    receives (.catchUpComplete 2), receives .started] []

def missing : List Happening × Option (Except CatchUpError AttemptEnd × CatchUpSummary) :=
  catchUpAttempt (client []) {} [receives (.welcomeMessages [welcome 5]),
    resolves ⟨[3], .sync⟩, receives (.catchUpComplete 1), receives .started]
    [.welcomeMessages [welcome 6]]

end CatchUpSample

open CatchUpSample in
theorem catchUpAttempt_owes_nothing_run : run.2 = some (.ok .complete, ⟨0, 1⟩) ∧
    (mintedWaves run.1).map Mutate.mutateId = [1, 2] ∧ OwesNothing run.1 (client [⟨[1], .dm⟩]) := by
  have hresult : run.2 = some (.ok .complete, ⟨0, 1⟩) := rfl
  exact ⟨hresult, rfl, (catchUpAttempt_owes_nothing _ _ _ _).1 _ _ (Prod.ext rfl hresult)⟩

open CatchUpSample in
/-- A completed attempt has joined a group that it does not subscribe to, and has dropped a
welcome. -/
theorem missing_completes : missing.2 = some (.ok .complete, {}) ∧
    (∃ task answers, .resolved task (.returned answers) ∈ missing.1 ∧
      task.joined answers = some ⟨[3], .sync⟩ ∧ ¬AddedOnce missing.1 ⟨[3], .sync⟩) ∧
    .drained (.welcomeMessages [welcome 6]) ∈ missing.1 ∧
    ¬AlreadyProcessed (client []) ⟨6, 11⟩ ∧ ¬Resolved missing.1 ⟨6, 11⟩ := by
  have hresolved : resolvedItems missing.1 = [.welcome ⟨⟨5, 11⟩⟩] := rfl
  have hseedings : seedings missing.1 = [⟨.empty, []⟩] := rfl
  refine ⟨rfl, ⟨⟨⟨none, true, none⟩, [], .welcome ⟨⟨5, 11⟩⟩⟩, joins ⟨[3], .sync⟩,
    List.mem_of_getElem? (rfl : missing.1[5]? = some _), rfl, ?_⟩,
    List.mem_of_getElem? (rfl : missing.1[7]? = some _), ?_, ?_⟩
  · rintro ⟨seeds, hseeds, floor, hfloor, -⟩
    rw [hseedings, List.mem_singleton] at hseeds
    subst hseeds
    cases hfloor
  · rintro ⟨floor, known, hfloor, hknown, hle | hmem⟩
    · have hzero : welcomeSeed (client []).welcomeCursors (client []).installationId = .ok 0 := rfl
      rw [hzero] at hfloor
      cases hfloor
      exact absurd hle (by decide)
    · cases hknown
      exact absurd hmem List.not_mem_nil
  · rintro ⟨late, hlate, hcursor⟩
    rw [hresolved, List.mem_singleton] at hlate
    cases hlate
    cases hcursor

end LibXmtp.Subscriptions
