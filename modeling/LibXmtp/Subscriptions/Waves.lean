import LibXmtp.Data.HashMap
import LibXmtp.Types.Topic
import Mathlib.Algebra.GroupWithZero.Nat

namespace LibXmtp.Subscriptions

open LibXmtp.Data LibXmtp.Types

structure Subscription where
  topic : Bytes
  idCursor : Nat

structure Mutate where
  adds : List Subscription
  removes : List Bytes
  historyOnly : Bool
  mutateId : Nat

def maxMutateTopics : Nat := 1000

def maxMutateBytes : Nat := 16 * 1024 * 1024

def perEntryOverhead : Nat := 64

def topicWireCost (topic : Topic) : Nat := 1 + (Topic.identifier topic).length + perEntryOverhead

section Chunks

variable {α : Type} (maxCount maxBytes : Nat) (wireCost : α → Nat)

def chunkFrom (chunks : List (List α)) (current : List α) (currentBytes : Nat) :
    List α → List (List α)
  | [] => if current.isEmpty then chunks else chunks ++ [current]
  | item :: items =>
    let cost := wireCost item
    if !current.isEmpty && (maxCount ≤ current.length || maxBytes < currentBytes + cost) then
      chunkFrom (chunks ++ [current]) [item] cost items
    else chunkFrom chunks (current ++ [item]) (currentBytes + cost) items

def chunkByBudget (items : List α) : List (List α) :=
  chunkFrom maxCount maxBytes wireCost [] [] 0 items

structure Bounded (chunk : List α) : Prop where
  nonempty : chunk ≠ []
  count : chunk.length ≤ max maxCount 1
  bytes : (chunk.map wireCost).sum ≤ maxBytes ∨ chunk.length = 1

variable {maxCount maxBytes wireCost}

theorem flatten_chunkFrom {chunks : List (List α)} {current : List α} {currentBytes : Nat}
    {items : List α} :
    (chunkFrom maxCount maxBytes wireCost chunks current currentBytes items).flatten =
      chunks.flatten ++ current ++ items := by
  induction items generalizing chunks current currentBytes with
  | nil =>
    simp only [chunkFrom]
    split
    · rename_i h
      simp [List.isEmpty_iff.mp h]
    · simp
  | cons item items ih =>
    simp only [chunkFrom]
    split
    · simp [ih]
    · simp [ih]

theorem flatten_chunkByBudget (items : List α) :
    (chunkByBudget maxCount maxBytes wireCost items).flatten = items := by
  simp [chunkByBudget, flatten_chunkFrom]

theorem bounded_of_mem_chunkFrom {chunks : List (List α)} {current : List α} {currentBytes : Nat}
    {items : List α} (hchunks : ∀ chunk ∈ chunks, Bounded maxCount maxBytes wireCost chunk)
    (hcurrent : current ≠ [] → Bounded maxCount maxBytes wireCost current)
    (hbytes : currentBytes = (current.map wireCost).sum) :
    ∀ chunk ∈ chunkFrom maxCount maxBytes wireCost chunks current currentBytes items,
      Bounded maxCount maxBytes wireCost chunk := by
  induction items generalizing chunks current currentBytes with
  | nil =>
    simp only [chunkFrom]
    split
    · exact hchunks
    · rename_i h
      have hne : current ≠ [] := fun heq => h (List.isEmpty_iff.mpr heq)
      intro chunk hchunk
      rcases List.mem_append.mp hchunk with hchunk | hchunk
      · exact hchunks chunk hchunk
      · rw [List.mem_singleton.mp hchunk]
        exact hcurrent hne
  | cons item items ih =>
    have hsingle : Bounded maxCount maxBytes wireCost [item] :=
      ⟨List.cons_ne_nil _ _, Nat.le_max_right _ _, .inr rfl⟩
    simp only [chunkFrom]
    split
    · rename_i h
      have hne : current ≠ [] := by
        intro heq
        simp [heq] at h
      refine ih ?_ (fun _ => hsingle) (by simp)
      intro chunk hchunk
      rcases List.mem_append.mp hchunk with hchunk | hchunk
      · exact hchunks chunk hchunk
      · rw [List.mem_singleton.mp hchunk]
        exact hcurrent hne
    · rename_i h
      refine ih hchunks (fun _ => ?_) (by simp [hbytes])
      by_cases hne : current = []
      · rw [hne]
        exact hsingle
      · have hfits : current.length < maxCount ∧ currentBytes + wireCost item ≤ maxBytes := by
          simpa [hne] using h
        refine ⟨by simp, ?_, .inl ?_⟩
        · rw [List.length_append, List.length_singleton]
          omega
        · simp only [List.map_append, List.map_cons, List.map_nil, List.sum_append, List.sum_cons,
            List.sum_nil]
          omega

theorem bounded_of_mem_chunkByBudget {items chunk : List α}
    (h : chunk ∈ chunkByBudget maxCount maxBytes wireCost items) :
    Bounded maxCount maxBytes wireCost chunk :=
  bounded_of_mem_chunkFrom (fun _ h => absurd h List.not_mem_nil) (fun h => absurd rfl h) rfl
    chunk h

end Chunks

def chunkMutateAdds (adds : List (Topic × Nat)) : List (List (Topic × Nat)) :=
  chunkByBudget maxMutateTopics maxMutateBytes (fun add => topicWireCost add.1) adds

def subscription (add : Topic × Nat) : Subscription := ⟨add.1, add.2⟩

def historyOnlyMutate (adds : List (Topic × Nat)) (mutateId : Nat) : Mutate where
  adds := adds.map subscription
  removes := []
  historyOnly := true
  mutateId := mutateId

/-- The waves after the first, with ids that go on from `2`. -/
def overflowWaves (chunks : List (List (Topic × Nat))) : List Mutate :=
  chunks.mapIdx fun i chunk => historyOnlyMutate chunk (i + 2)

/-- The first wave and its overflow. The ids are of 64 bits, more than a run can use up. -/
def planCatchUpWaves (subs : List (Topic × Nat)) : Mutate × List Mutate :=
  let chunks := chunkMutateAdds subs
  (historyOnlyMutate (chunks.head?.getD []) 1, overflowWaves chunks.tail)

structure Bygone (wave : Mutate) : Prop where
  historyOnly : wave.historyOnly = true
  removes : wave.removes = []

theorem bygone_historyOnlyMutate (adds : List (Topic × Nat)) (mutateId : Nat) :
    Bygone (historyOnlyMutate adds mutateId) := ⟨rfl, rfl⟩

theorem bygone_of_mem_overflowWaves {chunks : List (List (Topic × Nat))} {wave : Mutate}
    (h : wave ∈ overflowWaves chunks) : Bygone wave := by
  obtain ⟨i, hi, rfl⟩ := List.mem_mapIdx.mp h
  exact bygone_historyOnlyMutate _ _

theorem adds_overflowWaves (chunks : List (List (Topic × Nat))) :
    (overflowWaves chunks).flatMap Mutate.adds = chunks.flatten.map subscription := by
  have hmap : (overflowWaves chunks).map Mutate.adds = chunks.map (List.map subscription) := by
    apply List.ext_getElem (by simp [overflowWaves])
    intro i h h'
    simp [overflowWaves, historyOnlyMutate]
  rw [List.flatMap_def, hmap, List.map_flatten]

theorem mutateIds_overflowWaves (chunks : List (List (Topic × Nat))) :
    (overflowWaves chunks).map Mutate.mutateId = List.range' 2 chunks.length := by
  apply List.ext_getElem (by simp [overflowWaves])
  intro i h h'
  simp [overflowWaves, historyOnlyMutate, Nat.add_comm]

theorem adds_planCatchUpWaves (subs : List (Topic × Nat)) :
    ((planCatchUpWaves subs).1 :: (planCatchUpWaves subs).2).flatMap Mutate.adds =
      subs.map subscription := by
  have hflatten : (chunkMutateAdds subs).flatten = subs := flatten_chunkByBudget subs
  simp only [planCatchUpWaves, List.flatMap_cons, adds_overflowWaves, historyOnlyMutate]
  rw [← List.map_append]
  congr 1
  conv_rhs => rw [← hflatten]
  cases chunkMutateAdds subs with
  | nil => rfl
  | cons chunk chunks => rfl

theorem mutateIds_planCatchUpWaves (subs : List (Topic × Nat)) :
    ((planCatchUpWaves subs).1 :: (planCatchUpWaves subs).2).map Mutate.mutateId =
      List.range' 1 ((planCatchUpWaves subs).2.length + 1) := by
  have hlength : (planCatchUpWaves subs).2.length = (chunkMutateAdds subs).tail.length := by
    simp [planCatchUpWaves, overflowWaves]
  rw [hlength, List.range'_succ, List.map_cons]
  exact congrArg (1 :: ·) (mutateIds_overflowWaves _)

theorem bygone_planCatchUpWaves {subs : List (Topic × Nat)} {wave : Mutate}
    (h : wave ∈ (planCatchUpWaves subs).1 :: (planCatchUpWaves subs).2) : Bygone wave := by
  rcases List.mem_cons.mp h with rfl | h
  · exact bygone_historyOnlyMutate _ _
  · exact bygone_of_mem_overflowWaves h

section Seeds

structure SeedReads (ε : Type) where
  lastCursorForIds : Except ε (HashMap Bytes GlobalCursor)
  messagesNewerThan : Except ε (List (Bytes × Cursor))

structure GroupSeeds where
  floors : HashMap Topic GlobalCursor
  seen : List Cursor

structure TopicsOrder where
  iterate : HashMap Topic GlobalCursor → List (Topic × GlobalCursor)
  iterate_perm : ∀ floors, (iterate floors).Perm floors.entries

variable {ε : Type}

def maxOf (cursor : GlobalCursor) : Nat := (cursor.inner.toList.map Prod.snd).max?.getD 0

def floorsOf (seeds : HashMap Bytes GlobalCursor) (groupIds : List Bytes) :
    HashMap Topic GlobalCursor :=
  groupIds.foldl (fun floors groupId =>
    floors.insert (Topic.newGroupMessage groupId) ((seeds.get groupId).getD default)) HashMap.empty

def seedGroups (reads : SeedReads ε) (groupIds : List Bytes) : Except ε GroupSeeds := do
  let seeds ← reads.lastCursorForIds
  let stored ← reads.messagesNewerThan
  return ⟨floorsOf seeds groupIds, stored.map Prod.snd⟩

namespace GroupSeeds

variable (seeds : GroupSeeds)

def subs (order : TopicsOrder) : List (Topic × Nat) :=
  (order.iterate seeds.floors).map fun floor => (floor.1, maxOf floor.2)

def subscriptions : List Subscription :=
  seeds.floors.entries.map fun floor => ⟨floor.1, maxOf floor.2⟩

theorem subs_perm (order : TopicsOrder) :
    ((seeds.subs order).map subscription).Perm seeds.subscriptions := by
  rw [subs, List.map_map]
  exact (order.iterate_perm seeds.floors).map _

theorem topics_subscriptions : seeds.subscriptions.map Subscription.topic = seeds.floors.keys := by
  simp [subscriptions, HashMap.keys]

end GroupSeeds

theorem containsKey_floorsOf {seeds : HashMap Bytes GlobalCursor} {groupIds : List Bytes}
    {topic : Topic} : (floorsOf seeds groupIds).containsKey topic = true ↔
      ∃ groupId ∈ groupIds, Topic.newGroupMessage groupId = topic := by
  induction groupIds using List.reverseRecOn with
  | nil => simp [floorsOf, HashMap.containsKey_eq_isSome_get, HashMap.get]
  | append_singleton groupIds groupId ih =>
    simp only [floorsOf, List.foldl_append, List.foldl_cons, List.foldl_nil,
      HashMap.containsKey_insert, Bool.or_eq_true, beq_iff_eq] at ih ⊢
    rw [ih]
    simp only [List.mem_append, List.mem_singleton]
    constructor
    · rintro (rfl | ⟨other, hother, rfl⟩)
      · exact ⟨groupId, .inr rfl, rfl⟩
      · exact ⟨other, .inl hother, rfl⟩
    · rintro ⟨other, hother | rfl, rfl⟩
      · exact .inr ⟨other, hother, rfl⟩
      · exact .inl rfl

theorem mem_keys_of_seedGroups {reads : SeedReads ε} {groupIds : List Bytes} {seeds : GroupSeeds}
    (h : seedGroups reads groupIds = .ok seeds) {topic : Topic} :
    topic ∈ seeds.floors.keys ↔ ∃ groupId ∈ groupIds, Topic.newGroupMessage groupId = topic := by
  simp only [seedGroups, bind_eq_ok, pure_eq_ok] at h
  obtain ⟨cursors, hcursors, stored, hstored, rfl⟩ := h
  rw [HashMap.mem_keys, containsKey_floorsOf]

end Seeds

end LibXmtp.Subscriptions
