import Mathlib.Data.List.Nodup

universe u v

namespace LibXmtp.Data

variable {α : Type u} {κ : Type v} [DecidableEq κ]

def firstByKey (key : α → κ) : List κ → List α → List α
  | _, [] => []
  | seen, a :: as =>
    if key a ∈ seen then firstByKey key seen as else a :: firstByKey key (seen ++ [key a]) as

variable {key : α → κ} {seen : List κ} {as bs : List α} {a : α}

@[simp] theorem firstByKey_nil : firstByKey key seen [] = [] := rfl

theorem firstByKey_cons_of_mem (h : key a ∈ seen) :
    firstByKey key seen (a :: as) = firstByKey key seen as := by simp [firstByKey, h]

theorem firstByKey_cons_of_notMem (h : key a ∉ seen) :
    firstByKey key seen (a :: as) = a :: firstByKey key (seen ++ [key a]) as := by
  simp [firstByKey, h]

theorem firstByKey_append (as bs : List α) (seen : List κ) :
    firstByKey key seen (as ++ bs) = firstByKey key seen as ++
      firstByKey key (seen ++ (firstByKey key seen as).map key) bs := by
  induction as generalizing seen with
  | nil => simp
  | cons a as ih =>
    by_cases h : key a ∈ seen
    · rw [List.cons_append, firstByKey_cons_of_mem h, firstByKey_cons_of_mem h, ih]
    · rw [List.cons_append, firstByKey_cons_of_notMem h, firstByKey_cons_of_notMem h, ih]
      simp

theorem key_notMem_of_mem_firstByKey (h : a ∈ firstByKey key seen as) : key a ∉ seen := by
  induction as generalizing seen with
  | nil => simp at h
  | cons b as ih =>
    by_cases hb : key b ∈ seen
    · rw [firstByKey_cons_of_mem hb] at h
      exact ih h
    · rw [firstByKey_cons_of_notMem hb, List.mem_cons] at h
      rcases h with rfl | h
      · exact hb
      · intro ha
        exact ih h (List.mem_append_left _ ha)

theorem nodup_map_firstByKey (as : List α) (seen : List κ) :
    ((firstByKey key seen as).map key).Nodup := by
  induction as generalizing seen with
  | nil => simp
  | cons a as ih =>
    by_cases h : key a ∈ seen
    · rw [firstByKey_cons_of_mem h]
      exact ih seen
    · rw [firstByKey_cons_of_notMem h, List.map_cons, List.nodup_cons]
      refine ⟨?_, ih _⟩
      intro hmem
      have ⟨b, hb, hkey⟩ := List.mem_map.mp hmem
      exact key_notMem_of_mem_firstByKey hb (by simp [hkey])

theorem mem_of_mem_firstByKey (h : a ∈ firstByKey key seen as) : a ∈ as := by
  induction as generalizing seen with
  | nil => simp at h
  | cons b as ih =>
    by_cases hb : key b ∈ seen
    · rw [firstByKey_cons_of_mem hb] at h
      exact List.mem_cons_of_mem _ (ih h)
    · rw [firstByKey_cons_of_notMem hb, List.mem_cons] at h
      rcases h with rfl | h
      · exact List.mem_cons_self
      · exact List.mem_cons_of_mem _ (ih h)

theorem mem_map_firstByKey {k : κ} :
    k ∈ (firstByKey key seen as).map key ↔ k ∉ seen ∧ k ∈ as.map key := by
  constructor
  · intro h
    have ⟨a, ha, hkey⟩ := List.mem_map.mp h
    subst hkey
    exact ⟨key_notMem_of_mem_firstByKey ha, List.mem_map_of_mem (mem_of_mem_firstByKey ha)⟩
  · intro ⟨hk, hmem⟩
    induction as generalizing seen with
    | nil => simp at hmem
    | cons a as ih =>
      rw [List.map_cons, List.mem_cons] at hmem
      by_cases ha : key a ∈ seen
      · have hne : k ≠ key a := fun heq => hk (heq ▸ ha)
        rw [firstByKey_cons_of_mem ha]
        exact ih hk (hmem.resolve_left hne)
      · rw [firstByKey_cons_of_notMem ha, List.map_cons, List.mem_cons]
        by_cases heq : k = key a
        · exact .inl heq
        · exact .inr (ih (by simp [hk, heq]) (hmem.resolve_left heq))

theorem subset_firstByKey_iff :
    as ⊆ firstByKey key [] as ↔ ∀ a ∈ as, ∀ b ∈ as, key a = key b → a = b := by
  have hinj : ∀ a ∈ firstByKey key [] as, ∀ b ∈ firstByKey key [] as, key a = key b → a = b := by
    intro a ha b hb
    exact List.inj_on_of_nodup_map (nodup_map_firstByKey as []) ha hb
  constructor
  · intro h a ha b hb
    exact hinj a (h ha) b (h hb)
  · intro h a ha
    have hkey : key a ∈ (firstByKey key [] as).map key :=
      mem_map_firstByKey.mpr ⟨List.not_mem_nil, List.mem_map_of_mem ha⟩
    have ⟨b, hb, heq⟩ := List.mem_map.mp hkey
    rw [h a ha b (mem_of_mem_firstByKey hb) heq.symm]
    exact hb

end LibXmtp.Data
