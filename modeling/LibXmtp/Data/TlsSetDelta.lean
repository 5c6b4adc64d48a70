import LibXmtp.Data.LastWord
import LibXmtp.Data.TlsSet

namespace LibXmtp.Data.TlsSet

variable {K : Type} [LinearOrder K] {hashing : KeyHashing K}

theorem mem_iter {s : TlsSet K} {key : K} : key ∈ s.iter ↔ (s.inner.get key).isSome :=
  TlsMap.mem_keys

theorem isEmpty_eq_false {s : TlsSet K} : s.isEmpty = false ↔ ∃ key, key ∈ s.iter := by
  simp only [isEmpty, TlsMap.isEmpty, iter, TlsMap.keys]
  cases s.inner.entries <;> simp

omit [LinearOrder K] in
theorem get_hashIndex {keys : List K} {index : HashMap TlsKeyHash K}
    (h : hashIndex hashing keys = .ok index) {hash : TlsKeyHash} {key : K}
    (hget : index.get hash = some key) : key ∈ keys ∧ hashing.of key = .ok hash := by
  suffices hinv : ∀ hash key, index.get hash = some key →
      key ∈ keys ∧ hashing.of key = .ok hash from hinv hash key hget
  apply (Steps.foldlM_eq_ok.mp h).invariant
    (P := fun index => ∀ hash key, index.get hash = some key →
      key ∈ keys ∧ hashing.of key = .ok hash)
  · intro hash key hget
    cases hget
  · intro index k index' hk hindex hstep hash key hget
    simp only [bind_eq_ok, mapError_eq_ok, rejectIf_eq_ok, pure_eq_ok] at hstep
    obtain ⟨d, hd, _, _, hinsert⟩ := hstep
    subst hinsert
    rw [HashMap.get_insert] at hget
    split at hget
    · rename_i heq
      cases hget
      exact ⟨hk, by rw [hd, eq_of_beq heq]⟩
    · exact hindex hash key hget

section Mutate

variable {index : HashMap TlsKeyHash K} {m n : TlsMap K Unit} {mutation : TlsSetMutation K}

def mutate (index : HashMap TlsKeyHash K) (m : TlsMap K Unit) (mutation : TlsSetMutation K) :
    Except TlsSetError (TlsMap K Unit) := do
  let resolved ← resolve index mutation
  (m.mutate resolved).mapError .map

def Removes (index : HashMap TlsKeyHash K) (key : K) : TlsSetMutation K → Prop
  | .insert _ => False
  | .remove k => k = key
  | .removeByHash hash => index.get hash = some key

theorem mem_of_mutate (h : mutate index m mutation = .ok n) (key : K) :
    (n.get key).isSome ↔
      mutation = .insert key ∨ (m.get key).isSome ∧ ¬Removes index key mutation := by
  cases mutation with
  | insert k =>
    simp only [mutate, resolve, ok_bind, mapError_eq_ok, TlsMap.mutate_insert] at h
    obtain ⟨_, hn⟩ := h
    subst hn
    rw [TlsMap.get_set]
    by_cases hk : key = k
    · simp [hk]
    · simp [hk, Removes, eq_comm (a := k)]
  | remove k =>
    simp only [mutate, resolve, ok_bind, mapError_eq_ok, TlsMap.mutate_delete] at h
    obtain ⟨_, hn⟩ := h
    subst hn
    rw [TlsMap.get_erase]
    by_cases hk : key = k
    · simp [hk, Removes]
    · simp [hk, Removes, eq_comm (a := k)]
  | removeByHash hash =>
    simp only [mutate, resolve, bind_eq_ok, okOr_eq_ok, pure_eq_ok] at h
    obtain ⟨_, ⟨k, hget, hresolved⟩, hmutate⟩ := h
    subst hresolved
    rw [mapError_eq_ok, TlsMap.mutate_delete] at hmutate
    obtain ⟨_, hn⟩ := hmutate
    subst hn
    rw [TlsMap.get_erase]
    by_cases hk : key = k
    · simp [hk, Removes, hget]
    · simp [hk, Removes, hget, eq_comm (a := k)]

theorem steps_of_resolved {mutations : List (TlsSetMutation K)}
    {resolved : List (TlsMapMutation K Unit)} (h : mutations.mapM (resolve index) = .ok resolved)
    (hfold : resolved.foldlM TlsMap.mutate m = .ok n) : Steps (mutate index) m mutations n := by
  induction mutations generalizing m resolved with
  | nil =>
    simp only [List.mapM_nil, pure_eq_ok] at h
    subst h
    simp only [List.foldlM_nil, pure_eq_ok] at hfold
    exact Steps.nil_iff.mpr hfold
  | cons mutation mutations ih =>
    simp only [List.mapM_cons, bind_eq_ok, pure_eq_ok] at h
    obtain ⟨first, hfirst, rest, hrest, heq⟩ := h
    subst heq
    simp only [List.foldlM_cons, bind_eq_ok] at hfold
    obtain ⟨middle, hmiddle, hlast⟩ := hfold
    refine .cons ?_ (ih hrest hlast)
    rw [mutate, hfirst, ok_bind, mapError_eq_ok, hmiddle]

end Mutate

section Changes

variable {index : HashMap TlsKeyHash K} {m n : TlsMap K Unit}
  {mutations : List (TlsSetMutation K)} {key : K}

theorem insert_of_steps (h : Steps (mutate index) m mutations n) (hm : ¬(m.get key).isSome)
    (hn : (n.get key).isSome) : .insert key ∈ mutations := by
  apply Classical.byContradiction
  intro hinsert
  suffices hnone : ¬(n.get key).isSome from hnone hn
  apply h.invariant (P := fun m => ¬(m.get key).isSome) hm
  intro m mutation n hmutation hm hmutate hn
  rcases (mem_of_mutate hmutate key).mp hn with hop | ⟨hsome, _⟩
  · exact hinsert (hop ▸ hmutation)
  · exact hm hsome

theorem removes_of_steps (h : Steps (mutate index) m mutations n) (hm : (m.get key).isSome)
    (hn : ¬(n.get key).isSome) : ∃ mutation ∈ mutations, Removes index key mutation := by
  apply Classical.byContradiction
  intro hremoves
  apply hn
  apply h.invariant (P := fun m => (m.get key).isSome) hm
  intro m mutation n hmutation hm hmutate
  exact (mem_of_mutate hmutate key).mpr
    (.inr ⟨hm, fun hremove => hremoves ⟨mutation, hmutation, hremove⟩⟩)

end Changes

theorem get_deltaIndex {s : TlsSet K} {delta : TlsSetDelta K} {index : HashMap TlsKeyHash K}
    (h : deltaIndex hashing s delta = .ok index) {hash : TlsKeyHash} {key : K}
    (hget : index.get hash = some key) : key ∈ s.iter ∧ hashing.of key = .ok hash := by
  rw [deltaIndex] at h
  split at h
  · exact get_hashIndex h hget
  · cases h
    cases hget

theorem steps_of_applyDelta {s t : TlsSet K} {delta : TlsSetDelta K}
    (h : s.applyDelta hashing delta = .ok t) :
    ∃ index, deltaIndex hashing s delta = .ok index ∧
      Steps (mutate index) s.inner delta.mutations t.inner := by
  simp only [applyDelta, bind_eq_ok] at h
  obtain ⟨index, hindex, resolved, hresolved, happly⟩ := h
  refine ⟨index, hindex, steps_of_resolved hresolved ?_⟩
  rw [TlsMap.applyDelta_eq] at happly
  cases hfold : resolved.foldlM TlsMap.mutate s.inner with
  | ok m =>
    rw [hfold] at happly
    cases happly
    rfl
  | error e =>
    rw [hfold] at happly
    cases happly

end LibXmtp.Data.TlsSet
