import LibXmtp.Data.HashMap
import LibXmtp.Data.Pages
import LibXmtp.Db.IdentityUpdates
import LibXmtp.Db.RefreshState

namespace LibXmtp.Db

open LibXmtp.Data LibXmtp.Types

def latestCursorForId (states : RefreshStates) (entityId : Bytes) (entities : List EntityKind)
    (originators : Option (List Nat)) : GlobalCursor :=
  let rows := states.rows.filter fun s =>
    s.entityId = entityId && entities.contains s.entityKind &&
      originators.all (·.contains s.originatorId)
  let results := groupMax RefreshState.originatorId RefreshState.sequenceId rows
  (default : GlobalCursor).insertAll
    (results.filterMap fun r => r.2.map fun seq => (r.1, seq))

def rowsToGlobalCursorMap (rows : List ((Bytes × Nat) × Option Nat)) : HashMap Bytes GlobalCursor :=
  rows.foldl (fun map ((entityId, originator), seq) =>
    map.insert entityId (((map.get entityId).getD default).insert originator (seq.getD 0))) .empty

def chunkSize : Nat := 900

def chunkRows (states : RefreshStates) (chunk : List Bytes) (entities : List EntityKind) :
    List RefreshState :=
  states.rows.filter fun s => entities.contains s.entityKind && chunk.contains s.entityId

def entityOriginator (s : RefreshState) : Bytes × Nat := (s.entityId, s.originatorId)

/-- The cursors of many entities, read in pieces that stay below the limit of bound values. -/
def getLastCursorForIds (states : RefreshStates) (ids : List Bytes) (entities : List EntityKind) :
    HashMap Bytes GlobalCursor :=
  .ofList ((chunks chunkSize ids).flatMap fun chunk =>
    (rowsToGlobalCursorMap (groupMax entityOriginator RefreshState.sequenceId
      (chunkRows states chunk entities))).entries)

def getLatestSequenceIdForInbox (updates : IdentityUpdates) (inboxId : String) : Option Int :=
  ((updates.select StoredIdentityUpdate.sequenceId fun u => u.inboxId == inboxId).getLast?).map
    StoredIdentityUpdate.sequenceId

section

variable {states : RefreshStates} {id : Bytes} {ids : List Bytes} {entities : List EntityKind}

def rowsOf (states : RefreshStates) (id : Bytes) (entities : List EntityKind) : List RefreshState :=
  states.rows.filter fun s => s.entityId = id && entities.contains s.entityKind

def maxOfOriginator (rows : List RefreshState) (o : Nat) : Option Nat :=
  ((rows.filter fun s => s.originatorId = o).map RefreshState.sequenceId).max?

theorem isSome_maxOfOriginator {rows : List RefreshState} {o : Nat} :
    (maxOfOriginator rows o).isSome ↔ o ∈ rows.map RefreshState.originatorId := by
  rw [maxOfOriginator, List.isSome_max?_iff, ne_eq, List.map_eq_nil_iff, List.filter_eq_nil_iff]
  simp

theorem getElem?_latestCursorForId (o : Nat) :
    (latestCursorForId states id entities none).inner[o]? =
      maxOfOriginator (rowsOf states id entities) o := by
  have hrows : (states.rows.filter fun s => s.entityId = id && entities.contains s.entityKind &&
      (none : Option (List Nat)).all (·.contains s.originatorId)) = rowsOf states id entities := by
    simp only [Option.all_none, Bool.and_true, rowsOf]
  have hvalues : (groupMax RefreshState.originatorId RefreshState.sequenceId
      (rowsOf states id entities)).filterMap (fun r => r.2.map fun seq => (r.1, seq)) =
      ((rowsOf states id entities).map RefreshState.originatorId).dedup.map fun k =>
        (k, (maxOfOriginator (rowsOf states id entities) k).getD 0) := by
    rw [groupMax, List.filterMap_map]
    refine List.filterMap_eq_map_iff_forall_eq_some.mpr fun k hk => ?_
    obtain ⟨m, hm⟩ := Option.isSome_iff_exists.mp (isSome_maxOfOriginator.mpr (List.mem_dedup.mp hk))
    rw [hm]
    exact congrArg (Option.map fun seq => (k, seq)) hm
  rw [latestCursorForId, hrows, hvalues, GlobalCursor.getElem?_insertAll_map]
  simp only [List.mem_dedup, ← isSome_maxOfOriginator]
  cases maxOfOriginator (rowsOf states id entities) o with
  | none => rfl
  | some m => rfl

theorem get_rowsToGlobalCursorMap (es : List ((Bytes × Nat) × Option Nat)) (id : Bytes) :
    (rowsToGlobalCursorMap es).get id =
      if (es.filter fun e => e.1.1 = id) = [] then none
      else some ((default : GlobalCursor).insertAll
        ((es.filter fun e => e.1.1 = id).map fun e => (e.1.2, e.2.getD 0))) := by
  induction es using List.reverseRecOn with
  | nil => rfl
  | append_singleton es e ih =>
    rw [rowsToGlobalCursorMap, List.foldl_concat, ← rowsToGlobalCursorMap, List.filter_append]
    by_cases hid : e.1.1 = id
    · subst hid
      rw [HashMap.get_insert, ih]
      by_cases hnil : (es.filter fun e' => e'.1.1 = e.1.1) = []
      · simp [hnil, GlobalCursor.insertAll]
      · simp [hnil, GlobalCursor.insertAll]
    · have hnone : [e].filter (fun e => e.1.1 = id) = [] := by simp [hid]
      rw [HashMap.get_insert, ih, hnone, List.append_nil]
      simp [hid]

def originatorsOf (id : Bytes) (keys : List (Bytes × Nat)) : List Nat :=
  (keys.dedup.filter fun k => k.1 = id).map Prod.snd

variable {chunk : List Bytes}

theorem mem_originatorsOf {o : Nat} :
    o ∈ originatorsOf id ((chunkRows states chunk entities).map entityOriginator) ↔
      id ∈ chunk ∧ o ∈ (rowsOf states id entities).map RefreshState.originatorId := by
  simp only [originatorsOf, chunkRows, rowsOf, entityOriginator, List.mem_map, List.mem_filter,
    List.mem_dedup, decide_eq_true_eq, Bool.and_eq_true, List.contains_iff_mem]
  constructor
  · rintro ⟨k, ⟨⟨s, ⟨hs, hkind, hchunk⟩, rfl⟩, rfl⟩, rfl⟩
    exact ⟨hchunk, s, ⟨hs, rfl, hkind⟩, rfl⟩
  · rintro ⟨hchunk, s, ⟨hs, rfl, hkind⟩, rfl⟩
    exact ⟨_, ⟨⟨s, ⟨hs, hkind, hchunk⟩, rfl⟩, rfl⟩, rfl⟩

theorem filter_chunkRows (h : id ∈ chunk) (o : Nat) :
    (chunkRows states chunk entities).filter (fun s => entityOriginator s = (id, o)) =
      (rowsOf states id entities).filter fun s => s.originatorId = o := by
  rw [chunkRows, rowsOf, List.filter_filter, List.filter_filter]
  refine List.filter_congr fun s _ => Bool.eq_iff_iff.mpr ?_
  simp only [entityOriginator, Prod.mk.injEq, Bool.and_eq_true, decide_eq_true_eq,
    List.contains_iff_mem]
  constructor
  · rintro ⟨⟨hid, ho⟩, hkind, -⟩
    exact ⟨ho, hid, hkind⟩
  · rintro ⟨ho, hid, hkind⟩
    exact ⟨⟨hid, ho⟩, hkind, hid ▸ h⟩

theorem filter_groupMax (h : id ∈ chunk) :
    ((groupMax entityOriginator RefreshState.sequenceId (chunkRows states chunk entities)).filter
      fun e => e.1.1 = id).map (fun e => (e.1.2, e.2.getD 0)) =
    (originatorsOf id ((chunkRows states chunk entities).map entityOriginator)).map fun o =>
      (o, (maxOfOriginator (rowsOf states id entities) o).getD 0) := by
  rw [groupMax, List.filter_map, List.map_map, originatorsOf, List.map_map]
  refine List.map_congr_left fun k hk => ?_
  have hid : k.1 = id := of_decide_eq_true (List.mem_filter.mp hk).2
  have hk' : k = (id, k.2) := Prod.ext hid rfl
  simp only [Function.comp_apply]
  rw [hk', filter_chunkRows h]
  rfl

theorem get_chunkMap (chunk : List Bytes) (id : Bytes) :
    (rowsToGlobalCursorMap (groupMax entityOriginator RefreshState.sequenceId
      (chunkRows states chunk entities))).get id =
      if id ∈ chunk ∧ rowsOf states id entities ≠ [] then
        some (latestCursorForId states id entities none)
      else none := by
  rw [get_rowsToGlobalCursorMap]
  have hnil : (groupMax entityOriginator RefreshState.sequenceId
      (chunkRows states chunk entities)).filter (fun e => e.1.1 = id) = [] ↔
      ¬(id ∈ chunk ∧ rowsOf states id entities ≠ []) := by
    rw [groupMax, List.filter_map, List.map_eq_nil_iff, ← @List.map_eq_nil_iff _ _ Prod.snd]
    change originatorsOf id _ = [] ↔ _
    rw [List.eq_nil_iff_forall_not_mem]
    simp only [mem_originatorsOf, not_and, ne_eq, not_not, List.mem_map, not_exists]
    constructor
    · intro h hchunk
      rw [List.eq_nil_iff_forall_not_mem]
      exact fun s hs => h s.originatorId hchunk s hs rfl
    · intro h o hchunk s hs
      rw [h hchunk] at hs
      cases hs
  by_cases h : id ∈ chunk ∧ rowsOf states id entities ≠ []
  · rw [if_neg (by rw [hnil]; exact not_not_intro h), if_pos h, filter_groupMax h.1]
    refine congrArg some (GlobalCursor.ext_getElem? fun o => ?_)
    rw [GlobalCursor.getElem?_insertAll_map, getElem?_latestCursorForId]
    simp only [mem_originatorsOf, and_iff_right h.1, ← isSome_maxOfOriginator]
    cases maxOfOriginator (rowsOf states id entities) o with
    | none => rfl
    | some m => rfl
  · rw [if_pos (hnil.mpr h), if_neg h]

theorem get_getLastCursorForIds : (getLastCursorForIds states ids entities).get id =
    if id ∈ ids ∧ rowsOf states id entities ≠ [] then
      some (latestCursorForId states id entities none)
    else none := by
  have hentry : ∀ e, e ∈ (chunks chunkSize ids).flatMap (fun chunk =>
      (rowsToGlobalCursorMap (groupMax entityOriginator RefreshState.sequenceId
        (chunkRows states chunk entities))).entries) ↔
      (e.1 ∈ ids ∧ rowsOf states e.1 entities ≠ []) ∧
        latestCursorForId states e.1 entities none = e.2 := by
    rintro ⟨id', c⟩
    rw [List.mem_flatMap, ← exists_mem_chunks (show 0 < chunkSize by decide)]
    simp only [← HashMap.get_eq_some_iff, get_chunkMap, Option.ite_none_right_eq_some,
      Option.some.injEq]
    constructor
    · rintro ⟨chunk, hchunk, ⟨hmem, hrows⟩, heq⟩
      exact ⟨⟨⟨chunk, hchunk, hmem⟩, hrows⟩, heq⟩
    · rintro ⟨⟨⟨chunk, hchunk, hmem⟩, hrows⟩, heq⟩
      exact ⟨chunk, hchunk, ⟨hmem, hrows⟩, heq⟩
  refine Option.ext fun c => ?_
  rw [getLastCursorForIds, HashMap.get_ofList_eq_some_iff, hentry, Option.ite_none_right_eq_some,
    Option.some.injEq]
  intro e he e' he' heq
  have hcursor := ((hentry e).mp he).2
  rw [heq, ((hentry e').mp he').2] at hcursor
  exact Prod.ext heq hcursor.symm

end

end LibXmtp.Db
