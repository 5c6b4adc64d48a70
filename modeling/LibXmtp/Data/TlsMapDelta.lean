import LibXmtp.Data.TlsMap

namespace LibXmtp.Data

inductive UndoAction (K V : Type)
  | remove (key : K)
  | restore (key : K) (value : V)
  | insert (key : K) (value : V)

inductive TlsMapMutation (K V : Type)
  | insert (key : K) (value : V)
  | update (key : K) (value : V)
  | delete (key : K)

structure TlsMapDelta (K V : Type) where
  mutations : List (TlsMapMutation K V)

namespace TlsMap

variable {K V : Type} [LinearOrder K]

def undo (m : TlsMap K V) : UndoAction K V → TlsMap K V
  | .remove key =>
    match m.remove key with
    | .ok (_, m) => m
    | .error _ => m
  | .restore key value => m.set key value
  | .insert key value => m.set key value

def rollback (m : TlsMap K V) (undoStack : List (UndoAction K V)) : TlsMap K V :=
  undoStack.foldl undo m

def applyMutations (m : TlsMap K V) (undoStack : List (UndoAction K V)) :
    List (TlsMapMutation K V) → Except TlsMapError Unit × TlsMap K V
  | [] => (.ok (), m)
  | .insert key value :: mutations =>
    match m.insert key value with
    | .error e => (.error e, m.rollback undoStack)
    | .ok m => m.applyMutations (.remove key :: undoStack) mutations
  | .update key value :: mutations =>
    match m.getMut key with
    | some (old, write) => (write value).applyMutations (.restore key old :: undoStack) mutations
    | none => (.error .keyNotFound, m.rollback undoStack)
  | .delete key :: mutations =>
    match m.remove key with
    | .ok (old, m) => m.applyMutations (.insert key old :: undoStack) mutations
    | .error e => (.error e, m.rollback undoStack)

def applyDelta (m : TlsMap K V) (delta : TlsMapDelta K V) : Except TlsMapError Unit × TlsMap K V :=
  m.applyMutations [] delta.mutations

def mutate (m : TlsMap K V) : TlsMapMutation K V → Except TlsMapError (TlsMap K V)
  | .insert key value => m.insert key value
  | .update key value => m.update key value
  | .delete key => (m.remove key).map Prod.snd

def atomically (m : TlsMap K V) (result : Except TlsMapError (TlsMap K V)) :
    Except TlsMapError Unit × TlsMap K V :=
  match result with
  | .ok m => (.ok (), m)
  | .error e => (.error e, m)

section Mutate

variable {m n : TlsMap K V} {key : K} {value : V}

theorem mutate_insert : m.mutate (.insert key value) = .ok n ↔
    m.get key = none ∧ m.set key value = n := by
  rw [mutate, insert_eq]
  cases m.get key <;> simp

theorem mutate_update : m.mutate (.update key value) = .ok n ↔
    (m.get key).isSome ∧ m.set key value = n := by
  rw [mutate, update_eq]
  cases m.get key <;> simp

theorem mutate_delete : m.mutate (.delete key) = .ok n ↔
    (m.get key).isSome ∧ m.erase key = n := by
  rw [mutate, remove_eq]
  cases m.get key <;> simp [Except.map]

end Mutate

theorem undo_insert {m : TlsMap K V} {key : K} (h : m.get key = none) (value : V) :
    (m.set key value).undo (.remove key) = m := by
  rw [undo, remove_eq, get_set, if_pos rfl]
  apply ext_get
  intro k
  rw [okOr_some, Except.map, get_erase, get_set]
  split
  · rename_i hk
    rw [hk, h]
  · rfl

theorem undo_update {m : TlsMap K V} {key : K} {old : V} (h : m.get key = some old) (value : V) :
    (m.set key value).undo (.restore key old) = m := by
  apply ext_get
  intro k
  rw [undo, get_set, get_set]
  split
  · rename_i hk
    rw [hk, h]
  · rfl

theorem undo_delete {m : TlsMap K V} {key : K} {old : V} (h : m.get key = some old) :
    (m.erase key).undo (.insert key old) = m := by
  apply ext_get
  intro k
  rw [undo, get_set, get_erase]
  split
  · rename_i hk
    rw [hk, h]
  · rfl

theorem applyMutations_eq (m : TlsMap K V) (undoStack : List (UndoAction K V))
    (mutations : List (TlsMapMutation K V)) :
    m.applyMutations undoStack mutations =
      (m.rollback undoStack).atomically (mutations.foldlM mutate m) := by
  induction mutations generalizing m undoStack with
  | nil => rfl
  | cons mutation mutations ih =>
    rw [List.foldlM_cons]
    cases mutation with
    | insert key value =>
      rw [applyMutations, mutate, insert_eq]
      cases h : m.get key with
      | none =>
        simp only [Option.isSome_none, Bool.false_eq_true, if_false, ok_bind, ih]
        rw [rollback, List.foldl_cons, undo_insert h, rollback]
      | some old => rfl
    | update key value =>
      rw [applyMutations, mutate, getMut_eq, update_eq]
      cases h : m.get key with
      | none => rfl
      | some old =>
        simp only [Option.map_some, Option.isSome_some, if_true, ok_bind, ih]
        rw [rollback, List.foldl_cons, undo_update h, rollback]
    | delete key =>
      rw [applyMutations, mutate, remove_eq]
      cases h : m.get key with
      | none => rfl
      | some old =>
        simp only [okOr_some, Except.map, ok_bind, ih]
        rw [rollback, List.foldl_cons, undo_delete h, rollback]

theorem applyDelta_eq (m : TlsMap K V) (delta : TlsMapDelta K V) :
    m.applyDelta delta = m.atomically (delta.mutations.foldlM mutate m) :=
  applyMutations_eq m [] delta.mutations

theorem exists_first_error {mutations : List (TlsMapMutation K V)} {m : TlsMap K V} {e : TlsMapError}
    (h : mutations.foldlM mutate m = .error e) :
    ∃ before mutation after n, mutations = before ++ mutation :: after ∧
      before.foldlM mutate m = .ok n ∧ n.mutate mutation = .error e := by
  induction mutations generalizing m with
  | nil => cases h
  | cons mutation mutations ih =>
    rw [List.foldlM_cons] at h
    cases hfirst : m.mutate mutation with
    | error e' =>
      rw [hfirst] at h
      cases h
      exact ⟨[], mutation, mutations, m, rfl, rfl, hfirst⟩
    | ok m' =>
      rw [hfirst, ok_bind] at h
      obtain ⟨before, failing, after, n, hsplit, hbefore, hfailing⟩ := ih h
      refine ⟨mutation :: before, failing, after, n, by rw [hsplit, List.cons_append], ?_, hfailing⟩
      rw [List.foldlM_cons, hfirst, ok_bind, hbefore]

/-- A batch succeeds as the mutations one after the other do, and with their map. Otherwise it
fails as the first that fails, and leaves the map as it was. -/
theorem applyDelta_atomic (m : TlsMap K V) (delta : TlsMapDelta K V) :
    (∀ n, m.applyDelta delta = (.ok (), n) ↔ delta.mutations.foldlM mutate m = .ok n) ∧
      ((∃ n, delta.mutations.foldlM mutate m = .ok n) ∨
        ∃ before mutation after n e, delta.mutations = before ++ mutation :: after ∧
          before.foldlM mutate m = .ok n ∧ n.mutate mutation = .error e ∧
          m.applyDelta delta = (.error e, m)) := by
  rw [applyDelta_eq]
  cases hfold : delta.mutations.foldlM mutate m with
  | ok n =>
    refine ⟨fun n' => ?_, .inl ⟨n, rfl⟩⟩
    simp [atomically]
  | error e =>
    obtain ⟨before, mutation, after, n, hsplit, hbefore, hfailing⟩ := exists_first_error hfold
    refine ⟨fun n' => ?_, .inr ⟨before, mutation, after, n, e, hsplit, hbefore, hfailing, rfl⟩⟩
    simp [atomically]

section Changes

variable {m n : TlsMap K V} {mutations : List (TlsMapMutation K V)} {key : K}

theorem get_of_mutate (key : K) {mutation : TlsMapMutation K V} (h : m.mutate mutation = .ok n) :
    n.get key = m.get key ∨ (∃ value, mutation = .insert key value ∧ m.get key = none) ∨
      (∃ value, mutation = .update key value ∧ (m.get key).isSome) ∨
      mutation = .delete key ∧ (m.get key).isSome ∧ n.get key = none := by
  cases mutation with
  | insert k value =>
    obtain ⟨hnone, hn⟩ := mutate_insert.mp h
    by_cases hk : key = k
    · subst hk
      exact .inr (.inl ⟨value, rfl, hnone⟩)
    · exact .inl (by rw [← hn, get_set, if_neg hk])
  | update k value =>
    obtain ⟨hsome, hn⟩ := mutate_update.mp h
    by_cases hk : key = k
    · subst hk
      exact .inr (.inr (.inl ⟨value, rfl, hsome⟩))
    · exact .inl (by rw [← hn, get_set, if_neg hk])
  | delete k =>
    obtain ⟨hsome, hn⟩ := mutate_delete.mp h
    by_cases hk : key = k
    · subst hk
      exact .inr (.inr (.inr ⟨rfl, hsome, by rw [← hn, get_erase, if_pos rfl]⟩))
    · exact .inl (by rw [← hn, get_erase, if_neg hk])

theorem insert_of_steps (h : Steps mutate m mutations n) (hm : m.get key = none)
    (hn : n.get key ≠ none) : ∃ value, .insert key value ∈ mutations := by
  apply Classical.byContradiction
  intro hinsert
  apply hn
  apply h.invariant (P := fun m => m.get key = none) hm
  intro m mutation n hmutation hm hmutate
  rcases get_of_mutate key hmutate with heq | ⟨value, hop, _⟩ | ⟨_, _, hsome⟩ | ⟨_, hsome, _⟩
  · rw [heq, hm]
  · exact absurd ⟨value, hop ▸ hmutation⟩ hinsert
  · simp [hm] at hsome
  · simp [hm] at hsome

theorem delete_of_steps (h : Steps mutate m mutations n) (hm : m.get key ≠ none)
    (hn : n.get key = none) : .delete key ∈ mutations := by
  apply Classical.byContradiction
  intro hdelete
  suffices hkept : (n.get key).isSome by simp [hn] at hkept
  apply h.invariant (P := fun m => (m.get key).isSome) (Option.isSome_iff_ne_none.mpr hm)
  intro m mutation n hmutation hm hmutate
  rcases get_of_mutate key hmutate with heq | ⟨_, _, hnone⟩ | ⟨value, hop, _⟩ | ⟨hop, _⟩
  · rw [heq]
    exact hm
  · simp [hnone] at hm
  · subst hop
    rw [← (mutate_update.mp hmutate).2, get_set, if_pos rfl]
    rfl
  · exact absurd (hop ▸ hmutation) hdelete

theorem change_of_steps (h : Steps mutate m mutations n) {old new : V} (hm : m.get key = some old)
    (hn : n.get key = some new) (hne : old ≠ new) :
    (∃ value, .update key value ∈ mutations) ∨
      .delete key ∈ mutations ∧ ∃ value, .insert key value ∈ mutations := by
  by_cases hupdate : ∃ value, .update key value ∈ mutations
  · exact .inl hupdate
  refine .inr ⟨?_, ?_⟩
  · apply Classical.byContradiction
    intro hdelete
    suffices hkept : n.get key = some old by
      rw [hn, Option.some.injEq] at hkept
      exact hne hkept.symm
    apply h.invariant (P := fun m => m.get key = some old) hm
    intro m mutation n hmutation hm hmutate
    rcases get_of_mutate key hmutate with heq | ⟨_, _, hnone⟩ | ⟨value, hop, _⟩ | ⟨hop, _⟩
    · rw [heq, hm]
    · simp [hm] at hnone
    · exact absurd ⟨value, hop ▸ hmutation⟩ hupdate
    · exact absurd (hop ▸ hmutation) hdelete
  · apply Classical.byContradiction
    intro hinsert
    suffices hkept : n.get key = some old ∨ n.get key = none by
      simp [hn, hne.symm] at hkept
    apply h.invariant (P := fun m => m.get key = some old ∨ m.get key = none) (.inl hm)
    intro m mutation n hmutation hm hmutate
    rcases get_of_mutate key hmutate with heq | ⟨value, hop, _⟩ | ⟨value, hop, _⟩ |
      ⟨_, _, hnone⟩
    · rw [heq]
      exact hm
    · exact absurd ⟨value, hop ▸ hmutation⟩ hinsert
    · exact absurd ⟨value, hop ▸ hmutation⟩ hupdate
    · exact .inr hnone

end Changes

end TlsMap

end LibXmtp.Data
