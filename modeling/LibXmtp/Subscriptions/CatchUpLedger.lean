import LibXmtp.Subscriptions.CatchUp

namespace LibXmtp.Subscriptions

open LibXmtp.Data LibXmtp.Db LibXmtp.Types

namespace Happening

def mintedWave : Happening → Option Mutate
  | minted wave => some wave
  | _ => none

def sentWave : Happening → Option Mutate
  | sent wave => some wave
  | _ => none

def seeding : Happening → Option GroupSeeds
  | seeded seeds => some seeds
  | _ => none

def absorbedItems : Happening → List WelcomeOrGroup
  | absorbed welcomes => welcomes.map .welcome
  | _ => []

def resolvedItem : Happening → Option WelcomeOrGroup
  | resolved task _ => some task.item
  | _ => none

end Happening

section Log

variable (log : List Happening)

def mintedWaves : List Mutate := log.filterMap Happening.mintedWave

def sentWaves : List Mutate := log.filterMap Happening.sentWave

def seedings : List GroupSeeds := log.filterMap Happening.seeding

def absorbedItems : List WelcomeOrGroup := log.flatMap Happening.absorbedItems

def resolvedItems : List WelcomeOrGroup := log.filterMap Happening.resolvedItem

def adds : List Subscription := (mintedWaves log).flatMap Mutate.adds

def seededTopics : List Topic := (seedings log).flatMap (·.floors.keys)

def Acked (wave : Mutate) : Prop := ∃ before after,
  log = before ++ .minted wave :: after ∧ .delivered (.catchUpComplete wave.mutateId) ∈ after

def Delivered (welcome : WelcomeMessage) : Prop := ∃ messages,
  .delivered (.welcomeMessages messages) ∈ log ∧ some welcome ∈ messages

/-- A welcome at the cursor has gone through its processing. -/
def Resolved (cursor : Cursor) : Prop := ∃ welcome,
  .welcome welcome ∈ resolvedItems log ∧ welcome.cursor = cursor

/-- The topic of the group is in one of the waves, and once, at the cursor it was seeded with. -/
def AddedOnce (group : MlsGroup) : Prop :=
  ∃ seeds ∈ seedings log, ∃ floor,
    seeds.floors.get (Topic.newGroupMessage group.groupId) = some floor ∧
    (adds log).filter (fun add => add.topic = Topic.newGroupMessage group.groupId) =
      [⟨Topic.newGroupMessage group.groupId, maxOf floor⟩]

variable (setup : Setup)

/-- The welcome was processed before the attempt, as far as is read then. -/
def AlreadyProcessed (cursor : Cursor) : Prop := ∃ floor known,
  welcomeSeed setup.welcomeCursors setup.installationId = .ok floor ∧
  knownWelcomesAbove setup.groupCursors floor = .ok known ∧
  (cursor.sequenceId ≤ floor ∨ cursor ∈ known)

/-- A group of the first query, or one that is not virtual and that a welcome of the run has let us
join. -/
inductive Found (group : MlsGroup) : Prop
  | queried {groups : List MlsGroup} (hgroups : setup.findGroups = .ok groups)
    (hmem : group ∈ groups)
  | joined {task : ProcessWelcomeFuture} {answers : WelcomeAnswers}
    {conversationType : ConversationType}
    (hresolved : .resolved task (.returned answers) ∈ log)
    (hjoined : task.joined answers = some group)
    (hmetadata : answers.metadata = .ok conversationType)
    (hvirtual : conversationType.isVirtual = false)

structure OwesNothing : Prop where
  sent : sentWaves log = mintedWaves log
  mutateIds : ((mintedWaves log).map Mutate.mutateId).Nodup
  acked : ∀ wave ∈ mintedWaves log, Acked log wave
  resolved : (absorbedItems log).Perm (resolvedItems log)
  welcomes : ∀ welcome, Delivered log welcome →
    AlreadyProcessed setup welcome.cursor ∨ Resolved log welcome.cursor
  bygone : ∀ wave ∈ mintedWaves log, Bygone wave
  groups : ∀ group, Found log setup group → AddedOnce log group

end Log

variable {setup : Setup} {log happenings : List Happening}

section Append

@[simp] theorem mintedWaves_append :
    mintedWaves (log ++ happenings) = mintedWaves log ++ mintedWaves happenings :=
  List.filterMap_append

@[simp] theorem sentWaves_append :
    sentWaves (log ++ happenings) = sentWaves log ++ sentWaves happenings :=
  List.filterMap_append

@[simp] theorem seedings_append : seedings (log ++ happenings) = seedings log ++ seedings happenings :=
  List.filterMap_append

@[simp] theorem absorbedItems_append :
    absorbedItems (log ++ happenings) = absorbedItems log ++ absorbedItems happenings :=
  List.flatMap_append

@[simp] theorem resolvedItems_append :
    resolvedItems (log ++ happenings) = resolvedItems log ++ resolvedItems happenings :=
  List.filterMap_append

@[simp] theorem adds_append : adds (log ++ happenings) = adds log ++ adds happenings := by
  simp [adds]

@[simp] theorem seededTopics_append :
    seededTopics (log ++ happenings) = seededTopics log ++ seededTopics happenings := by
  simp [seededTopics]

theorem Acked.append {wave : Mutate} (h : Acked log wave) : Acked (log ++ happenings) wave := by
  obtain ⟨before, after, rfl, hack⟩ := h
  exact ⟨before, after ++ happenings, by simp, List.mem_append_left _ hack⟩

theorem mem_mintedWaves {wave : Mutate} : wave ∈ mintedWaves log ↔ .minted wave ∈ log := by
  simp only [mintedWaves, List.mem_filterMap]
  constructor
  · rintro ⟨happening, hmem, heq⟩
    cases happening <;> cases heq
    exact hmem
  · exact fun h => ⟨_, h, rfl⟩

theorem acked_of_completed {wave : Mutate} (h : wave ∈ mintedWaves log)
    (hack : .delivered (.catchUpComplete wave.mutateId) ∈ happenings) :
    Acked (log ++ happenings) wave := by
  obtain ⟨before, after, rfl⟩ := List.append_of_mem (mem_mintedWaves.mp h)
  exact ⟨before, after ++ happenings, by simp, List.mem_append_right _ hack⟩

theorem Resolved.append {cursor : Cursor} (h : Resolved log cursor) :
    Resolved (log ++ happenings) cursor := by
  obtain ⟨welcome, hmem, hcursor⟩ := h
  exact ⟨welcome, by simp [hmem], hcursor⟩

theorem delivered_append {welcome : WelcomeMessage} :
    Delivered (log ++ happenings) welcome ↔ Delivered log welcome ∨ Delivered happenings welcome := by
  simp only [Delivered, List.mem_append]
  grind

theorem found_append {group : MlsGroup} (h : Found (log ++ happenings) setup group) :
    Found log setup group ∨ ∃ task answers, .resolved task (.returned answers) ∈ happenings ∧
      task.joined answers = some group ∧ ∃ conversationType,
        answers.metadata = .ok conversationType ∧ conversationType.isVirtual = false := by
  cases h with
  | queried hgroups hmem => exact .inl (.queried hgroups hmem)
  | joined hresolved hjoined hmetadata hvirtual =>
    rcases List.mem_append.mp hresolved with hresolved | hresolved
    · exact .inl (.joined hresolved hjoined hmetadata hvirtual)
    · exact .inr ⟨_, _, hresolved, hjoined, _, hmetadata, hvirtual⟩

end Append

structure WavesKept (log : List Happening) (attempt : Attempt) : Prop where
  waves : mintedWaves log = sentWaves log ++ attempt.queued
  mutateIds : (mintedWaves log).map Mutate.mutateId = List.range' 1 (mintedWaves log).length
  next : attempt.nextMutateId = (mintedWaves log).length + 1
  acked : ∀ wave ∈ mintedWaves log, wave.mutateId ∈ attempt.outstanding ∨ Acked log wave
  bygone : ∀ wave ∈ mintedWaves log, Bygone wave

structure TopicsKept (setup : Setup) (log : List Happening) (attempt : Attempt) : Prop where
  subscribed : ∃ floor, (adds log).Perm (⟨Topic.newWelcomeMessage setup.installationId, floor⟩ ::
    (seedings log).flatMap GroupSeeds.subscriptions)
  tracked : attempt.tracked.Perm (seededTopics log)
  nodup : attempt.tracked.Nodup
  kind : ∀ topic ∈ attempt.tracked, ∃ groupId, Topic.newGroupMessage groupId = topic
  found : ∀ group, Found log setup group →
    Topic.newGroupMessage group.groupId ∈ attempt.tracked

structure IntakeKept (setup : Setup) (log : List Happening) (intake : WelcomeIntake) : Prop where
  held : (absorbedItems log).Perm (resolvedItems log ++ intake.held)
  welcome : ∀ item ∈ absorbedItems log, ∃ welcome, item = .welcome welcome
  floor : ∀ cursor : Cursor, cursor.sequenceId ≤ intake.floor → AlreadyProcessed setup cursor
  known : ∀ cursor ∈ intake.known, AlreadyProcessed setup cursor ∨ Resolved log cursor
  delivered : ∀ welcome, Delivered log welcome → AlreadyProcessed setup welcome.cursor ∨
    Resolved log welcome.cursor ∨ .welcome welcome ∈ absorbedItems log
  filters : intake.toWelcomeFilters = ⟨none, true, none⟩
  uniform : intake.Uniform

structure Kept (setup : Setup) (log : List Happening) (attempt : Attempt) : Prop where
  waves : WavesKept log attempt
  topics : TopicsKept setup log attempt
  intake : IntakeKept setup log attempt.intake

structure SameLedger (attempt attempt' : Attempt) : Prop where
  outstanding : attempt'.outstanding = attempt.outstanding
  nextMutateId : attempt'.nextMutateId = attempt.nextMutateId
  queued : attempt'.queued = attempt.queued
  tracked : attempt'.tracked = attempt.tracked
  intake : attempt'.intake = attempt.intake

section Frame

variable {attempt attempt' : Attempt}

theorem SameLedger.refl : SameLedger attempt attempt := ⟨rfl, rfl, rfl, rfl, rfl⟩

theorem SameLedger.trans {attempt'' : Attempt} (h : SameLedger attempt attempt')
    (h' : SameLedger attempt' attempt'') : SameLedger attempt attempt'' where
  outstanding := h'.outstanding.trans h.outstanding
  nextMutateId := h'.nextMutateId.trans h.nextMutateId
  queued := h'.queued.trans h.queued
  tracked := h'.tracked.trans h.tracked
  intake := h'.intake.trans h.intake

theorem same_processGroupMessage (delivery : GroupDelivery) :
    SameLedger attempt (attempt.processGroupMessage delivery) := by
  simp only [Attempt.processGroupMessage]
  split
  · exact .refl
  · split
    · exact .refl
    · split
      · exact ⟨rfl, rfl, rfl, rfl, rfl⟩
      · exact ⟨rfl, rfl, rfl, rfl, rfl⟩

theorem same_processGroupBatch (batch : List GroupDelivery) :
    SameLedger attempt (attempt.processGroupBatch batch) := by
  induction batch generalizing attempt with
  | nil => exact .refl
  | cons delivery batch ih => exact (same_processGroupMessage delivery).trans ih

theorem WavesKept.same (h : WavesKept log attempt)
    (houtstanding : attempt'.outstanding = attempt.outstanding)
    (hnext : attempt'.nextMutateId = attempt.nextMutateId)
    (hqueued : attempt'.queued = attempt.queued) : WavesKept log attempt' := by
  obtain ⟨hwaves, hids, hnext', hacked, hbygone⟩ := h
  refine ⟨?_, hids, hnext.trans hnext', ?_, hbygone⟩
  · rw [hqueued]
    exact hwaves
  · rw [houtstanding]
    exact hacked

theorem TopicsKept.same (h : TopicsKept setup log attempt)
    (htracked : attempt'.tracked = attempt.tracked) : TopicsKept setup log attempt' := by
  obtain ⟨hsubscribed, htracked', hnodup, hkind, hfound⟩ := h
  refine ⟨hsubscribed, ?_, ?_, ?_, ?_⟩ <;> rw [htracked]
  · exact htracked'
  · exact hnodup
  · exact hkind
  · exact hfound

theorem WavesKept.quiet (h : WavesKept log attempt) (hminted : mintedWaves happenings = [])
    (hsent : sentWaves happenings = []) (houtstanding : attempt'.outstanding = attempt.outstanding)
    (hnext : attempt'.nextMutateId = attempt.nextMutateId)
    (hqueued : attempt'.queued = attempt.queued) : WavesKept (log ++ happenings) attempt' := by
  obtain ⟨hwaves, hids, hnext', hacked, hbygone⟩ := h
  refine ⟨?_, ?_, ?_, ?_, ?_⟩ <;>
    simp only [mintedWaves_append, hminted, sentWaves_append, hsent, List.append_nil, hqueued, hnext,
      houtstanding]
  · exact hwaves
  · exact hids
  · exact hnext'
  · exact fun wave hwave => (hacked wave hwave).imp_right Acked.append
  · exact hbygone

theorem TopicsKept.quiet (h : TopicsKept setup log attempt) (hminted : mintedWaves happenings = [])
    (hseeded : seedings happenings = []) (htracked : attempt'.tracked = attempt.tracked)
    (hfound : ∀ group, Found (log ++ happenings) setup group →
      Found log setup group ∨ Topic.newGroupMessage group.groupId ∈ attempt.tracked) :
    TopicsKept setup (log ++ happenings) attempt' := by
  obtain ⟨hadds, htracked', hnodup, hkind, hfound'⟩ := h
  have hnoAdds : adds happenings = [] := by simp [adds, hminted]
  have hnoTopics : seededTopics happenings = [] := by simp [seededTopics, hseeded]
  refine ⟨?_, ?_, ?_, ?_, fun group hgroup => ?_⟩ <;>
    simp only [adds_append, hnoAdds, seedings_append, hseeded, seededTopics_append, hnoTopics,
      List.append_nil, htracked]
  · exact hadds
  · exact htracked'
  · exact hnodup
  · exact hkind
  · exact (hfound group hgroup).elim (hfound' group) id

theorem IntakeKept.quiet {intake : WelcomeIntake} (h : IntakeKept setup log intake)
    (habsorbed : absorbedItems happenings = []) (hresolved : resolvedItems happenings = [])
    (hdelivered : ∀ welcome, ¬Delivered happenings welcome) :
    IntakeKept setup (log ++ happenings) intake := by
  obtain ⟨hheld, hwelcome, hfloor, hknown, hdelivered', hfilters, huniform⟩ := h
  refine ⟨?_, ?_, hfloor, ?_, fun welcome hw => ?_, hfilters, huniform⟩
  · simpa only [absorbedItems_append, habsorbed, resolvedItems_append, hresolved, List.append_nil]
      using hheld
  · simpa only [absorbedItems_append, habsorbed, List.append_nil] using hwelcome
  · exact fun cursor hcursor => (hknown cursor hcursor).imp_right Resolved.append
  · rcases delivered_append.mp hw with hw | hw
    · rw [absorbedItems_append, habsorbed, List.append_nil]
      exact (hdelivered' welcome hw).imp_right (Or.imp_left Resolved.append)
    · exact absurd hw (hdelivered welcome)

theorem found_of_quiet (hresolved : resolvedItems happenings = []) {group : MlsGroup}
    (h : Found (log ++ happenings) setup group) : Found log setup group := by
  rcases found_append h with h | ⟨task, answers, hmem, -⟩
  · exact h
  · have hitem : task.item ∈ resolvedItems happenings :=
      List.mem_filterMap.mpr ⟨_, hmem, rfl⟩
    rw [hresolved] at hitem
    exact absurd hitem List.not_mem_nil

end Frame

section Sent

variable {tryMutate : Mutate → TryMutate} {queued waves rest : List Mutate}

theorem append_of_sendQueued (h : sendQueued tryMutate queued = (waves, some rest)) :
    queued = waves ++ rest := by
  induction queued generalizing waves with
  | nil =>
    simp only [sendQueued, Prod.mk.injEq, Option.some.injEq] at h
    obtain ⟨rfl, rfl⟩ := h
    rfl
  | cons wave queued ih =>
    simp only [sendQueued] at h
    split at h
    · simp only [Prod.mk.injEq] at h
      obtain ⟨rfl, hrest⟩ := h
      rw [List.cons_append, ← ih (Prod.ext rfl hrest)]
    · simp only [Prod.mk.injEq, Option.some.injEq] at h
      obtain ⟨rfl, rfl⟩ := h
      rfl
    · simp at h

section Quiet

variable (waves)

@[simp] theorem mintedWaves_sent : mintedWaves (waves.map .sent) = [] := by
  simp [mintedWaves, Happening.mintedWave, List.filterMap_map, Function.comp_def]

@[simp] theorem sentWaves_sent : sentWaves (waves.map .sent) = waves := by
  simp [sentWaves, Happening.sentWave, List.filterMap_map, Function.comp_def]

@[simp] theorem seedings_sent : seedings (waves.map .sent) = [] := by
  simp [seedings, Happening.seeding, List.filterMap_map, Function.comp_def]

@[simp] theorem absorbedItems_sent : absorbedItems (waves.map .sent) = [] := by
  simp [absorbedItems, Happening.absorbedItems, List.flatMap_map]

@[simp] theorem resolvedItems_sent : resolvedItems (waves.map .sent) = [] := by
  simp [resolvedItems, Happening.resolvedItem, List.filterMap_map, Function.comp_def]

theorem not_delivered_sent (welcome : WelcomeMessage) : ¬Delivered (waves.map .sent) welcome := by
  simp [Delivered]

end Quiet

theorem Kept.sent {attempt : Attempt} (h : Kept setup log attempt)
    (hsend : sendQueued tryMutate attempt.queued = (waves, some rest)) :
    Kept setup (log ++ waves.map .sent) { attempt with queued := rest } := by
  refine ⟨⟨?_, ?_, ?_, ?_, ?_⟩, ?_, ?_⟩
  · simp only [mintedWaves_append, mintedWaves_sent, sentWaves_append, sentWaves_sent,
      List.append_nil, h.waves.waves, append_of_sendQueued hsend, List.append_assoc]
  · simpa using h.waves.mutateIds
  · simpa using h.waves.next
  · intro wave hwave
    simp only [mintedWaves_append, mintedWaves_sent, List.append_nil] at hwave
    exact (h.waves.acked wave hwave).imp_right Acked.append
  · simpa using h.waves.bygone
  · exact h.topics.quiet (mintedWaves_sent waves) (seedings_sent waves) rfl
      fun group hgroup => .inl (found_of_quiet (resolvedItems_sent waves) hgroup)
  · exact h.intake.quiet (absorbedItems_sent waves) (resolvedItems_sent waves)
      (not_delivered_sent waves)

end Sent

section Turn

variable {attempt attempt' : Attempt}

theorem Kept.event (h : Kept setup log attempt) {event : BidiEvent}
    (hwelcomes : ∀ messages, event ≠ .welcomeMessages messages)
    (hsame : SameLedger attempt attempt') : Kept setup (log ++ [.delivered event]) attempt' := by
  refine ⟨h.waves.quiet rfl rfl hsame.outstanding hsame.nextMutateId hsame.queued,
    h.topics.quiet rfl rfl hsame.tracked fun group hgroup => .inl (found_of_quiet rfl hgroup), ?_⟩
  rw [hsame.intake]
  refine h.intake.quiet rfl rfl fun welcome hwelcome => ?_
  obtain ⟨messages, hmem, -⟩ := hwelcome
  simp only [List.mem_singleton, Happening.delivered.injEq] at hmem
  exact hwelcomes messages hmem.symm

theorem Kept.completed (h : Kept setup log attempt) (mutateId : Nat) :
    Kept setup (log ++ [.delivered (.catchUpComplete mutateId)])
      { attempt with outstanding := attempt.outstanding.erase mutateId } := by
  have hminted : mintedWaves [.delivered (.catchUpComplete mutateId)] = [] := rfl
  have hsent : sentWaves [.delivered (.catchUpComplete mutateId)] = [] := rfl
  refine ⟨⟨?_, ?_, ?_, fun wave hwave => ?_, ?_⟩, h.topics.quiet rfl rfl rfl
    fun group hgroup => .inl (found_of_quiet rfl hgroup), h.intake.quiet rfl rfl ?_⟩
  · simpa [hminted, hsent] using h.waves.waves
  · simpa [hminted] using h.waves.mutateIds
  · simpa [hminted] using h.waves.next
  · rw [mintedWaves_append, hminted, List.append_nil] at hwave
    by_cases hid : wave.mutateId = mutateId
    · exact .inr (acked_of_completed hwave (by simp [hid]))
    · refine (h.waves.acked wave hwave).imp (fun hmem => ?_) Acked.append
      exact Finset.mem_erase.mpr ⟨hid, hmem⟩
  · simpa [hminted] using h.waves.bygone
  · simp [Delivered]

theorem Kept.absorbed (h : Kept setup log attempt) {messages : List (Option WelcomeMessage)}
    {intake : WelcomeIntake} (habsorb : attempt.intake.absorbBatch messages = (intake, true)) :
    Kept setup (log ++ [.delivered (.welcomeMessages messages),
      .absorbed (attempt.intake.fresh messages)]) { attempt with intake } := by
  have hgains := WelcomeIntake.gains_of_absorbBatch habsorb
  refine ⟨h.waves.quiet rfl rfl rfl rfl rfl, h.topics.quiet rfl rfl rfl
    fun group hgroup => .inl (found_of_quiet rfl hgroup), ?_⟩
  have habsorbed : absorbedItems [.delivered (.welcomeMessages messages),
      .absorbed (attempt.intake.fresh messages)] =
      (attempt.intake.fresh messages).map .welcome := by
    simp [absorbedItems, Happening.absorbedItems]
  have hresolved : resolvedItems [.delivered (.welcomeMessages messages),
      .absorbed (attempt.intake.fresh messages)] = [] := rfl
  obtain ⟨hheld, hwelcome, hfloor, hknown, hdelivered, hfilters, huniform⟩ := h.intake
  refine ⟨?_, ?_, ?_, ?_, fun welcome hw => ?_, hgains.filters.trans hfilters,
    hgains.uniform huniform⟩
  · rw [absorbedItems_append, habsorbed, resolvedItems_append, hresolved, List.append_nil,
      hgains.held, ← List.append_assoc]
    exact hheld.append_right _
  · intro item hitem
    rw [absorbedItems_append, habsorbed] at hitem
    rcases List.mem_append.mp hitem with hitem | hitem
    · exact hwelcome item hitem
    · obtain ⟨welcome, -, rfl⟩ := List.mem_map.mp hitem
      exact ⟨welcome, rfl⟩
  · rw [hgains.floor]
    exact hfloor
  · rw [hgains.known]
    exact fun cursor hcursor => (hknown cursor hcursor).imp_right Resolved.append
  · rw [absorbedItems_append, habsorbed]
    rcases delivered_append.mp hw with hw | hw
    · refine (hdelivered welcome hw).imp_right (Or.imp Resolved.append fun hmem => ?_)
      exact List.mem_append_left _ hmem
    · obtain ⟨batch, hbatch, hmem⟩ := hw
      simp only [List.mem_cons, Happening.delivered.injEq, BidiEvent.welcomeMessages.injEq,
        reduceCtorEq, List.not_mem_nil, or_false] at hbatch
      subst hbatch
      rcases WelcomeIntake.mem_fresh hmem with hle | hmem | hmem
      · exact .inl (hfloor _ hle)
      · exact (hknown _ hmem).imp_right fun hresolved => .inl hresolved.append
      · exact .inr (.inr (List.mem_append_right _ (List.mem_map_of_mem hmem)))

theorem Kept.receive (h : Kept setup log attempt) {event : BidiEvent}
    (hreceive : attempt.receive event = (happenings, .looping attempt')) :
    Kept setup (log ++ happenings) attempt' := by
  cases event with
  | started =>
    cases hreceive
    exact h.event (fun messages => BidiEvent.noConfusion) .refl
  | topicsLive topics =>
    cases hreceive
    exact h.event (fun messages => BidiEvent.noConfusion) .refl
  | catchUpComplete mutateId =>
    cases hreceive
    exact h.completed mutateId
  | groupMessages messages =>
    cases hreceive
    exact h.event (fun messages => BidiEvent.noConfusion) (same_processGroupBatch messages)
  | welcomeMessages messages =>
    simp only [Attempt.receive] at hreceive
    split at hreceive
    · rename_i intake habsorb
      cases hreceive
      exact h.absorbed habsorb
    · cases hreceive

section Resolve

variable {i : Nat} {finish : TaskEnd} {task : ProcessWelcomeFuture} {intake' : WelcomeIntake}
  {outcome : Except SubscribeError WelcomeOutcome}

theorem IntakeKept.item {intake : WelcomeIntake} (h : IntakeKept setup log intake)
    (hnext : intake.nextOutcome i finish = some (task, outcome, intake')) :
    ∃ welcome, task.item = .welcome welcome := by
  obtain ⟨-, hloses⟩ := WelcomeIntake.loses_of_nextOutcome hnext
  have hheld : task.item ∈ intake.held := hloses.held.mem_iff.mpr List.mem_cons_self
  exact h.welcome _ (h.held.mem_iff.mpr (List.mem_append_right _ hheld))

theorem IntakeKept.resolved {intake : WelcomeIntake} (h : IntakeKept setup log intake)
    (hnext : intake.nextOutcome i finish = some (task, outcome, intake')) :
    IntakeKept setup (log ++ [.resolved task finish]) intake' := by
  obtain ⟨-, hloses⟩ := WelcomeIntake.loses_of_nextOutcome hnext
  have habsorbed : absorbedItems [.resolved task finish] = [] := rfl
  have hresolved : resolvedItems [.resolved task finish] = [task.item] := rfl
  obtain ⟨hheld, hwelcome, hfloor, hknown, hdelivered, hfilters, huniform⟩ := h
  refine ⟨?_, ?_, ?_, ?_, fun welcome hw => ?_, hloses.filters.trans hfilters,
    hloses.uniform huniform⟩
  · rw [absorbedItems_append, habsorbed, resolvedItems_append, hresolved, List.append_nil,
      List.append_assoc]
    exact hheld.trans (hloses.held.append_left _)
  · rw [absorbedItems_append, habsorbed, List.append_nil]
    exact hwelcome
  · rw [hloses.floor]
    exact hfloor
  · rw [hloses.known]
    exact fun cursor hcursor => (hknown cursor hcursor).imp_right Resolved.append
  · rw [absorbedItems_append, habsorbed, List.append_nil]
    have hw : Delivered log welcome := by
      rcases delivered_append.mp hw with hw | hw
      · exact hw
      · simp [Delivered] at hw
    exact (hdelivered welcome hw).imp_right (Or.imp_left Resolved.append)

theorem IntakeKept.record {intake : WelcomeIntake} (h : IntakeKept setup log intake)
    {seen : Option Cursor} (hseen : ∀ cursor ∈ seen, Resolved log cursor) :
    IntakeKept setup log (intake.record seen) := by
  cases seen with
  | none => exact h
  | some cursor =>
    refine ⟨h.held, h.welcome, h.floor, fun other hother => ?_, h.delivered, h.filters, h.uniform⟩
    rcases List.mem_cons.mp hother with rfl | hother
    · exact .inr (hseen other rfl)
    · exact h.known other hother

theorem resolved_seen {intake : WelcomeIntake} (h : IntakeKept setup log intake)
    {outcome : WelcomeOutcome}
    (hnext : intake.nextOutcome i finish = some (task, .ok outcome, intake')) :
    ∀ cursor ∈ outcome.seen, Resolved (log ++ [.resolved task finish]) cursor := by
  obtain ⟨welcome, hitem⟩ := h.item hnext
  obtain ⟨houtcome, -⟩ := WelcomeIntake.loses_of_nextOutcome hnext
  have hseen := ProcessWelcomeFuture.seen_of_resolve hitem houtcome.symm
  intro cursor hcursor
  rw [hseen, Option.mem_some_iff] at hcursor
  refine ⟨welcome, ?_, hcursor⟩
  simp [resolvedItems, Happening.resolvedItem, hitem]

theorem found_of_resolved {intake : WelcomeIntake} (h : IntakeKept setup log intake)
    (hnext : intake.nextOutcome i finish = some (task, outcome, intake')) {group : MlsGroup}
    (hfound : Found (log ++ [.resolved task finish]) setup group) :
    Found log setup group ∨ ∃ seen, outcome = .ok ⟨some group, seen⟩ := by
  rcases found_append hfound with hfound | ⟨task', answers, hmem, hjoined, conversationType,
    hmetadata, hvirtual⟩
  · exact .inl hfound
  · simp only [List.mem_singleton, Happening.resolved.injEq] at hmem
    obtain ⟨rfl, rfl⟩ := hmem
    obtain ⟨welcome, hitem⟩ := h.item hnext
    obtain ⟨houtcome, hloses⟩ := WelcomeIntake.loses_of_nextOutcome hnext
    have hfilters := (hloses.task h.uniform).trans h.filters
    exact .inr ⟨_, houtcome.trans (ProcessWelcomeFuture.resolve_of_joined hfilters hitem hjoined
      hmetadata hvirtual)⟩

theorem Kept.resolved (h : Kept setup log attempt)
    (hnext : attempt.intake.nextOutcome i finish = some (task, outcome, intake'))
    (houtstanding : attempt'.outstanding = attempt.outstanding)
    (hnextId : attempt'.nextMutateId = attempt.nextMutateId)
    (hqueued : attempt'.queued = attempt.queued) (htracked : attempt'.tracked = attempt.tracked)
    (hintake : IntakeKept setup (log ++ [.resolved task finish]) attempt'.intake)
    (hgroup : ∀ group seen, outcome = .ok ⟨some group, seen⟩ →
      Topic.newGroupMessage group.groupId ∈ attempt.tracked) :
    Kept setup (log ++ [.resolved task finish]) attempt' := by
  refine ⟨h.waves.quiet rfl rfl houtstanding hnextId hqueued, h.topics.quiet rfl rfl htracked ?_,
    hintake⟩
  intro group hfound
  refine (found_of_resolved h.intake hnext hfound).imp_right ?_
  rintro ⟨seen, houtcome⟩
  exact hgroup group seen houtcome

end Resolve

section Follow

variable {order : TopicsOrder} {topic : Topic} {seeds : GroupSeeds} {task : ProcessWelcomeFuture}
  {finish : TaskEnd}

def followed (task : ProcessWelcomeFuture) (finish : TaskEnd) (seeds : GroupSeeds) (wave : Mutate) :
    List Happening := [.resolved task finish, .seeded seeds, .minted wave]

theorem WavesKept.follow (h : WavesKept log attempt) :
    WavesKept (log ++ followed task finish seeds
      (historyOnlyMutate (seeds.subs order) attempt.nextMutateId))
      (attempt.follow order topic seeds).2 := by
  have hminted (wave : Mutate) : mintedWaves (followed task finish seeds wave) = [wave] := rfl
  have hsent (wave : Mutate) : sentWaves (followed task finish seeds wave) = [] := rfl
  obtain ⟨hwaves, hids, hnext, hacked, hbygone⟩ := h
  refine ⟨?_, ?_, ?_, fun wave hwave => ?_, fun wave hwave => ?_⟩
  · simp [hminted, hsent, hwaves, Attempt.follow]
  · simp only [mintedWaves_append, hminted, List.map_append, hids, List.map_cons, List.map_nil,
      List.length_append, List.length_singleton, List.range'_concat, historyOnlyMutate, hnext]
    simp [Nat.add_comm]
  · simp [hminted, hnext, Attempt.follow]
  · rw [mintedWaves_append, hminted] at hwave
    rcases List.mem_append.mp hwave with hwave | hwave
    · exact (hacked wave hwave).imp (Finset.mem_insert_of_mem) Acked.append
    · rw [List.mem_singleton.mp hwave]
      exact .inl (Finset.mem_insert_self _ _)
  · rw [mintedWaves_append, hminted] at hwave
    rcases List.mem_append.mp hwave with hwave | hwave
    · exact hbygone wave hwave
    · rw [List.mem_singleton.mp hwave]
      exact bygone_historyOnlyMutate _ _

theorem TopicsKept.follow (h : TopicsKept setup log attempt) {group : MlsGroup}
    {reads : SeedReads SubscribeError} (hseeds : seedGroups reads [group.groupId] = .ok seeds)
    (htopic : topic = Topic.newGroupMessage group.groupId) (huntracked : topic ∉ attempt.tracked)
    (hfound : ∀ other, Found (log ++ [.resolved task finish]) setup other →
      Found log setup other ∨ Topic.newGroupMessage other.groupId = topic) :
    TopicsKept setup (log ++ followed task finish seeds
      (historyOnlyMutate (seeds.subs order) attempt.nextMutateId))
      (attempt.follow order topic seeds).2 := by
  have hadds (wave : Mutate) : adds (followed task finish seeds wave) = wave.adds := by
    have hminted : mintedWaves (followed task finish seeds wave) = [wave] := rfl
    rw [adds, hminted, List.flatMap_singleton]
  have hseedings (wave : Mutate) : seedings (followed task finish seeds wave) = [seeds] := rfl
  have hkeys : seeds.floors.keys = [topic] := by
    have hmem : ∀ t, t ∈ seeds.floors.keys ↔ t = topic := by
      intro t
      rw [mem_keys_of_seedGroups hseeds, htopic]
      simp [eq_comm]
    exact List.perm_singleton.mp
      ((List.perm_ext_iff_of_nodup seeds.floors.nodup_keys (List.nodup_singleton _)).mpr
        fun t => by rw [hmem, List.mem_singleton])
  obtain ⟨⟨floor, hperm⟩, htracked, hnodup, hkind, hfound'⟩ := h
  refine ⟨⟨floor, ?_⟩, ?_, ?_, fun other hother => ?_, fun other hother => ?_⟩
  · rw [adds_append, hadds, seedings_append, hseedings, List.flatMap_append, List.flatMap_singleton,
      ← List.cons_append]
    exact hperm.append (seeds.subs_perm order)
  · have htopics (wave : Mutate) : seededTopics (followed task finish seeds wave) = [topic] := by
      simp [seededTopics, hseedings, hkeys]
    rw [seededTopics_append, htopics]
    exact (List.Perm.cons topic htracked).trans (List.perm_append_singleton _ _).symm
  · exact List.nodup_cons.mpr ⟨huntracked, hnodup⟩
  · rcases List.mem_cons.mp hother with rfl | hother
    · exact ⟨group.groupId, htopic.symm⟩
    · exact hkind other hother
  · have hother' : Found (log ++ [.resolved task finish]) setup other := by
      cases hother with
      | queried hgroups hmem => exact .queried hgroups hmem
      | joined hresolved hjoined hmetadata hvirtual =>
        refine .joined ?_ hjoined hmetadata hvirtual
        simpa [followed] using hresolved
    rcases hfound other hother' with hother | hother
    · exact List.mem_cons_of_mem _ (hfound' other hother)
    · rw [hother]
      exact List.mem_cons_self

end Follow

section Wake

variable {order : TopicsOrder} {i : Nat} {finish : TaskEnd} {task : ProcessWelcomeFuture}
  {intake' : WelcomeIntake} {outcome : WelcomeOutcome} {reads : SeedReads SubscribeError}

theorem same_noteSync (group : MlsGroup) : SameLedger attempt (attempt.noteSync group) := by
  simp only [Attempt.noteSync]
  split
  · exact ⟨rfl, rfl, rfl, rfl, rfl⟩
  · exact .refl

theorem same_countConversation (group : MlsGroup) :
    SameLedger attempt (attempt.countConversation group) := by
  simp only [Attempt.countConversation]
  split
  · exact .refl
  · exact ⟨rfl, rfl, rfl, rfl, rfl⟩

theorem surface_cases {group : MlsGroup} {summary : CatchUpSummary}
    (h : attempt.surface order group reads = (.ok (happenings, attempt'), summary)) :
    (Topic.newGroupMessage group.groupId ∈ attempt.tracked ∧ happenings = [] ∧
      SameLedger attempt attempt') ∨
    ∃ base seeds, SameLedger attempt base ∧
      Topic.newGroupMessage group.groupId ∉ attempt.tracked ∧
      seedGroups reads [group.groupId] = .ok seeds ∧
      base.follow order (Topic.newGroupMessage group.groupId) seeds = (happenings, attempt') := by
  have hsame : SameLedger attempt (attempt.noteSync group) := same_noteSync group
  simp only [Attempt.surface, hsame.tracked] at h
  split at h
  · rename_i htracked
    simp only [Prod.mk.injEq, Except.ok.injEq] at h
    obtain ⟨⟨rfl, rfl⟩, -⟩ := h
    exact .inl ⟨by simpa using htracked, rfl, hsame⟩
  · rename_i htracked
    simp only [Prod.mk.injEq, map_eq_ok] at h
    obtain ⟨⟨seeds, hseeds, hfollow⟩, -⟩ := h
    exact .inr ⟨_, seeds, hsame.trans (same_countConversation group), by simpa using htracked,
      hseeds, hfollow⟩

theorem Kept.settle (h : Kept setup log attempt)
    (hnext : attempt.intake.nextOutcome i finish = some (task, .ok outcome, intake'))
    (hsettle : Attempt.settle { attempt with intake := intake' } order outcome reads =
      (happenings, .looping attempt')) :
    Kept setup (log ++ .resolved task finish :: happenings) attempt' := by
  have hresolved := h.intake.resolved hnext
  have hseen := resolved_seen h.intake hnext
  simp only [Attempt.settle] at hsettle
  split at hsettle
  · rename_i hnone
    cases hsettle
    refine h.resolved hnext rfl rfl rfl rfl (hresolved.record hseen) fun group seen heq => ?_
    cases heq
    cases hnone
  · rename_i group hsome
    split at hsettle
    · rename_i happenings₁ attempt₁ summary hsurface
      cases hsettle
      rcases surface_cases hsurface with ⟨htracked, rfl, hsame⟩ | ⟨base, seeds, hsame, huntracked,
        hseeds, hfollow⟩
      · refine h.resolved hnext hsame.outstanding hsame.nextMutateId hsame.queued hsame.tracked ?_
          fun other seen heq => ?_
        · have hintake : attempt₁.intake = intake' := hsame.intake
          simp only [hintake]
          exact hresolved.record hseen
        · cases heq
          cases hsome
          exact htracked
      · have hwaves : WavesKept log base :=
          h.waves.same hsame.outstanding hsame.nextMutateId hsame.queued
        have htopics : TopicsKept setup log base := h.topics.same hsame.tracked
        have htracked : base.tracked = attempt.tracked := hsame.tracked
        have hintake : base.intake = intake' := hsame.intake
        cases hfollow
        have hwaves' : WavesKept (log ++ followed task finish seeds
            (historyOnlyMutate (seeds.subs order) base.nextMutateId))
            (base.follow order (Topic.newGroupMessage group.groupId) seeds).2 := hwaves.follow
        refine ⟨hwaves'.same rfl rfl rfl, (htopics.follow hseeds rfl (htracked ▸ huntracked)
          fun other hother => ?_).same rfl, ?_⟩
        · refine (found_of_resolved h.intake hnext hother).imp_right ?_
          rintro ⟨seen, heq⟩
          cases heq
          cases hsome
          rfl
        · have hrecorded : IntakeKept setup (log ++ [.resolved task finish] ++ [.seeded seeds,
              .minted (historyOnlyMutate (seeds.subs order) base.nextMutateId)])
              (intake'.record outcome.seen) :=
            (hresolved.record hseen).quiet rfl rfl (by simp [Delivered])
          rw [List.append_assoc] at hrecorded
          simp only [hintake]
          exact hrecorded
    · cases hsettle

theorem Kept.wakeUp (h : Kept setup log attempt) {wake : Wake}
    (hwake : attempt.wakeUp order wake = (happenings, .looping attempt')) :
    Kept setup (log ++ happenings) attempt' := by
  cases wake with
  | event event =>
    cases event with
    | none => cases hwake
    | some event => exact h.receive hwake
  | outcome i finish reads =>
    simp only [Attempt.wakeUp] at hwake
    split at hwake
    · cases hwake
    · rename_i task outcome intake' hnext
      simp only [Prod.mk.injEq] at hwake
      obtain ⟨rfl, hprogress⟩ := hwake
      exact h.settle hnext (Prod.ext rfl hprogress)
    · rename_i task error intake' hnext
      cases hwake
      refine h.resolved hnext rfl rfl rfl rfl (h.intake.resolved hnext) fun group seen heq => ?_
      cases heq

theorem Kept.turn (h : Kept setup log attempt) {turn : Turn}
    (hturn : attempt.turn order turn = (happenings, .looping attempt')) :
    Kept setup (log ++ happenings) attempt' := by
  simp only [Attempt.turn] at hturn
  split at hturn
  · cases hturn
  · rename_i sent queued hsend
    split at hturn
    · cases hturn
    · simp only [Prod.mk.injEq] at hturn
      obtain ⟨rfl, hprogress⟩ := hturn
      rw [← List.append_assoc]
      exact (h.sent hsend).wakeUp (Prod.ext rfl hprogress)

end Wake

end Turn

end LibXmtp.Subscriptions
