import LibXmtp.AppData.ComponentSource

namespace LibXmtp.AppData

open LibXmtp.Data LibXmtp.Groups LibXmtp.Data.KeyedFold

variable {host : Host} {extensions : Extensions} {registry : ComponentRegistry}

/-- The bytes of a component in the dictionary, as one update after another changes them. -/
def foldOperations (host : Host) (extensions : Extensions) (registry : ComponentRegistry)
    (proposals : List (UInt16 × AppDataUpdateOperation)) (id : UInt16) :
    Except ComponentSourceError (Option Bytes) :=
  foldOn (applyOperation host registry) id proposals (readFromAppDataDict id extensions)

def AppDataUpdates.post (updates : Option AppDataUpdates) (extensions : Extensions)
    (id : UInt16) : Option Bytes :=
  (AppDataUpdates.value updates id).getD (readFromAppDataDict id extensions)

theorem accumulateOne_eq (inBatch : InBatch) (proposal : UInt16 × AppDataUpdateOperation) :
    accumulateOne host extensions registry inBatch proposal =
      step (applyOperation host registry) (fun id => readFromAppDataDict id extensions) inBatch
        proposal := by
  have ⟨id, op⟩ := proposal
  cases op with
  | update payload =>
    simp only [accumulateOne, step, applyOperation, current]
    cases h : inBatch[id]? with
    | none => simp only [Option.getD_none, bind_assoc, pure_bind]
    | some value => simp only [Option.getD_some, bind_assoc, pure_bind]
  | remove => rfl

section Value

variable {inBatch : InBatch} {id : UInt16}

theorem value_changes (entries : List (UInt16 × Option Bytes)) (id : UInt16) :
    AppDataUpdates.value (AppDataUpdates.changes entries) id =
      (entries.find? (·.1 = id)).map Prod.snd := by
  rw [AppDataUpdates.changes]
  cases entries with
  | nil => rfl
  | cons entry entries =>
    simp [AppDataUpdates.value, Option.map_eq_bind]

theorem find?_toList (inBatch : InBatch) (id : UInt16) :
    (inBatch.toList.find? (·.1 = id)).map Prod.snd = inBatch[id]? := by
  cases h : inBatch.toList.find? (·.1 = id) with
  | some entry =>
    have hmem := List.mem_of_find?_eq_some h
    have hid : entry.1 = id := by simpa using List.find?_some h
    rw [← hid, Option.map_some, eq_comm]
    exact Std.TreeMap.mem_toList_iff_getElem?_eq_some.mp hmem
  | none =>
    cases hget : inBatch[id]? with
    | none => rfl
    | some value =>
      have hmem := Std.TreeMap.mem_toList_iff_getElem?_eq_some.mpr hget
      have hne := List.find?_eq_none.mp h _ hmem
      simp at hne

end Value

section Batch

variable {proposals : List (UInt16 × AppDataUpdateOperation)}

theorem accumulateAppDataUpdates_eq_ok
    (hregistry : loadComponentRegistry host.toWire extensions = .ok registry)
    {updates : Option AppDataUpdates} :
    accumulateAppDataUpdates host extensions proposals = .ok updates ↔
      ∃ inBatch : InBatch,
        proposals.foldlM (step (applyOperation host registry)
          fun id => readFromAppDataDict id extensions) ∅ = .ok inBatch ∧
        AppDataUpdates.changes inBatch.toList = updates := by
  have hone : accumulateOne host extensions registry = step (applyOperation host registry)
      fun id => readFromAppDataDict id extensions := by
    funext inBatch proposal
    exact accumulateOne_eq inBatch proposal
  simp only [accumulateAppDataUpdates, hregistry, ok_bind, hone, bind_eq_ok]
  apply exists_congr
  intro inBatch
  apply and_congr_right
  intro _
  split
  · rename_i hempty
    have hnil : inBatch.toList = [] := by
      rw [← List.isEmpty_iff, Std.TreeMap.isEmpty_toList, hempty]
    simp [hnil, AppDataUpdates.changes]
  · rw [pure_eq_ok]

theorem accumulateAppDataUpdates_isOk_iff
    (hregistry : loadComponentRegistry host.toWire extensions = .ok registry) :
    (∃ updates, accumulateAppDataUpdates host extensions proposals = .ok updates) ↔
      ∀ id, ∃ value, foldOperations host extensions registry proposals id = .ok value := by
  have hiff : (∃ inBatch, proposals.foldlM (step (applyOperation host registry)
      fun id => readFromAppDataDict id extensions) ∅ = .ok inBatch) ↔ _ := foldlM_isOk_iff
  simp only [current, Std.TreeMap.getElem?_emptyc, Option.getD_none] at hiff
  simp only [accumulateAppDataUpdates_eq_ok hregistry, foldOperations, ← hiff]
  constructor
  · rintro ⟨_, inBatch, h, _⟩
    exact ⟨inBatch, h⟩
  · rintro ⟨inBatch, h⟩
    exact ⟨_, inBatch, h, rfl⟩

theorem value_of_accumulateAppDataUpdates
    (hregistry : loadComponentRegistry host.toWire extensions = .ok registry)
    {updates : Option AppDataUpdates}
    (h : accumulateAppDataUpdates host extensions proposals = .ok updates) (id : UInt16) :
    if operationsOn id proposals = [] then AppDataUpdates.value updates id = none
    else ∃ value, foldOperations host extensions registry proposals id = .ok value ∧
      AppDataUpdates.value updates id = some value := by
  have ⟨inBatch, hfold, hupdates⟩ := (accumulateAppDataUpdates_eq_ok hregistry).mp h
  subst hupdates
  have hget := getElem?_of_foldlM hfold id
  rw [value_changes, find?_toList]
  exact hget

theorem foldOperations_of_accumulateAppDataUpdates
    (hregistry : loadComponentRegistry host.toWire extensions = .ok registry)
    {updates : Option AppDataUpdates}
    (h : accumulateAppDataUpdates host extensions proposals = .ok updates) (id : UInt16) :
    foldOperations host extensions registry proposals id =
      .ok (AppDataUpdates.post updates extensions id) := by
  have hvalue := value_of_accumulateAppDataUpdates hregistry h id
  rw [AppDataUpdates.post]
  split at hvalue
  · rename_i hnil
    rw [hvalue, foldOperations, foldOn, hnil]
    rfl
  · obtain ⟨value, hfold, hsome⟩ := hvalue
    rw [hsome, hfold]
    rfl

theorem accumulateAppDataUpdates_reorder
    (hregistry : loadComponentRegistry host.toWire extensions = .ok registry)
    {proposals' : List (UInt16 × AppDataUpdateOperation)}
    (hops : ∀ id, operationsOn id proposals' = operationsOn id proposals)
    {updates : Option AppDataUpdates}
    (h : accumulateAppDataUpdates host extensions proposals = .ok updates) :
    accumulateAppDataUpdates host extensions proposals' = .ok updates := by
  have hfolds : ∀ id, ∃ value,
      foldOperations host extensions registry proposals' id = .ok value := by
    intro id
    simp only [foldOperations, foldOn, hops]
    exact (accumulateAppDataUpdates_isOk_iff hregistry).mp ⟨updates, h⟩ id
  obtain ⟨updates', h'⟩ := (accumulateAppDataUpdates_isOk_iff hregistry).mpr hfolds
  obtain ⟨inBatch, hfold, hupdates⟩ := (accumulateAppDataUpdates_eq_ok hregistry).mp h
  obtain ⟨inBatch', hfold', hupdates'⟩ := (accumulateAppDataUpdates_eq_ok hregistry).mp h'
  rw [h', ← hupdates, ← hupdates', toList_eq_of_operationsOn hops hfold' hfold]

theorem readPostCommitComponentBytes_eq (id : UInt16) (commit : StagedCommit) :
    readPostCommitComponentBytes host extensions registry id commit =
      foldOperations host extensions registry (appDataUpdateProposals commit) id := by
  simp only [readPostCommitComponentBytes, foldOperations, foldOn]
  split
  · rename_i hempty
    rw [List.isEmpty_iff.mp hempty]
    rfl
  · rfl

/-- Whoever takes the updates of a batch together, and in whatever order those of different
components come, each component ends up with what its own updates make of it. -/
theorem accumulateAppDataUpdates_agrees
    (hregistry : loadComponentRegistry host.toWire extensions = .ok registry)
    (proposals : List (UInt16 × AppDataUpdateOperation)) :
    (∀ updates, accumulateAppDataUpdates host extensions proposals = .ok updates →
      (∀ id, (AppDataUpdates.value updates id = none ↔ operationsOn id proposals = []) ∧
        foldOperations host extensions registry proposals id =
          .ok (AppDataUpdates.post updates extensions id)) ∧
      (∀ commit, appDataUpdateProposals commit = proposals →
        resolvedAppDataUpdates host extensions commit = .ok updates ∧
        ∀ id, readPostCommitComponentBytes host extensions registry id commit =
          .ok (AppDataUpdates.post updates extensions id)) ∧
      (∀ pendingProposals, appDataUpdates pendingProposals = proposals →
        pendingAppDataUpdates host extensions pendingProposals = .ok updates) ∧
      (∀ proposals', (∀ id, operationsOn id proposals' = operationsOn id proposals) →
        accumulateAppDataUpdates host extensions proposals' = .ok updates)) ∧
    ((∃ e, accumulateAppDataUpdates host extensions proposals = .error e) ↔
      ∃ id e, foldOperations host extensions registry proposals id = .error e) := by
  constructor
  · intro updates h
    have hfold := foldOperations_of_accumulateAppDataUpdates hregistry h
    refine ⟨?_, ?_, ?_, ?_⟩
    · intro id
      refine ⟨?_, hfold id⟩
      have hvalue := value_of_accumulateAppDataUpdates hregistry h id
      split at hvalue
      · rename_i hnil
        simp [hvalue, hnil]
      · rename_i hcons
        have ⟨value, _, hsome⟩ := hvalue
        simp [hsome, hcons]
    · intro commit hcommit
      subst hcommit
      refine ⟨h, ?_⟩
      intro id
      rw [readPostCommitComponentBytes_eq, hfold]
    · intro pendingProposals hpending
      rw [pendingAppDataUpdates, hpending, h]
    · intro proposals' hops
      exact accumulateAppDataUpdates_reorder hregistry hops h
  · have hiff :
        ¬(∃ updates, accumulateAppDataUpdates host extensions proposals = .ok updates) ↔ _ :=
      not_congr (accumulateAppDataUpdates_isOk_iff hregistry)
    simp only [not_forall, not_exists_ok] at hiff
    exact hiff

theorem accumulateAppDataUpdates_agrees_timer :
    foldOperations bareHost [] .new
      [(ComponentId.messageDisappearInNs, .update [0, 0, 0, 0, 0, 0, 0, 9]),
        (ComponentId.groupName, .update [0x68, 0x69]),
        (ComponentId.messageDisappearInNs, .remove)] ComponentId.messageDisappearInNs =
      .ok none :=
  ((accumulateAppDataUpdates_agrees rfl _).1
    (some ⟨[(ComponentId.groupName, some [0x68, 0x69]),
      (ComponentId.messageDisappearInNs, none)]⟩) rfl).1 _ |>.2

end Batch

end LibXmtp.AppData
