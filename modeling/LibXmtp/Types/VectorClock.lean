import LibXmtp.Types.GlobalCursor

namespace LibXmtp.Types.GlobalCursor

variable {c d : GlobalCursor} {a : Cursor} {cs ds : List Cursor}

def applyLeast (c : GlobalCursor) (cursor : Cursor) : GlobalCursor :=
  ⟨c.inner.alter cursor.originatorId fun
    | some sid => some (min sid cursor.sequenceId)
    | none => some cursor.sequenceId⟩

def mergeLeast (c other : GlobalCursor) : GlobalCursor := other.cursors.foldl applyLeast c

/-- The entries of the clock are the lowest cursors of each originator in the list. -/
structure Least (c : GlobalCursor) (cs : List Cursor) : Prop where
  attained : ∀ a ∈ c.cursors, a ∈ cs
  lower : ∀ a ∈ cs, ∃ b ∈ c.cursors, b.originatorId = a.originatorId ∧ b.sequenceId ≤ a.sequenceId

theorem mem_cursors_applyLeast {b : Cursor} (h : b ∈ (c.applyLeast a).cursors) :
    b ∈ c.cursors ∨ b = a := by
  rw [mem_cursors, applyLeast, Std.ExtTreeMap.getElem?_alter] at h
  rw [mem_cursors]
  split at h
  · rename_i heq
    rw [Std.LawfulEqCmp.compare_eq_iff_eq] at heq
    cases hs : c.inner[a.originatorId]? with
    | none =>
      rw [hs] at h
      cases b
      cases a
      simp_all
    | some sid =>
      rw [hs] at h
      have hmin : min sid a.sequenceId = b.sequenceId := Option.some.inj h
      rcases Nat.le_total sid a.sequenceId with hle | hle
      · left
        rw [← heq, hs, ← hmin, Nat.min_eq_left hle]
      · right
        cases b
        cases a
        simp_all
  · exact .inl h

theorem exists_mem_cursors_applyLeast (c : GlobalCursor) (a : Cursor) {b : Cursor}
    (h : b = a ∨ b ∈ c.cursors) : ∃ b' ∈ (c.applyLeast a).cursors,
      b'.originatorId = b.originatorId ∧ b'.sequenceId ≤ b.sequenceId := by
  simp only [mem_cursors, applyLeast, Std.ExtTreeMap.getElem?_alter,
    Std.LawfulEqCmp.compare_eq_iff_eq]
  by_cases horiginator : a.originatorId = b.originatorId
  · cases hs : c.inner[a.originatorId]? with
    | none =>
      refine ⟨a, by simp, horiginator, ?_⟩
      rcases h with rfl | h
      · exact Nat.le_refl _
      · rw [mem_cursors, ← horiginator, hs] at h
        cases h
    | some sid =>
      refine ⟨⟨min sid a.sequenceId, a.originatorId⟩, by simp, horiginator, ?_⟩
      rcases h with rfl | h
      · exact Nat.min_le_right _ _
      · rw [mem_cursors, ← horiginator, hs] at h
        cases h
        exact Nat.min_le_left _ _
  · rcases h with rfl | h
    · exact absurd rfl horiginator
    · rw [mem_cursors] at h
      exact ⟨b, by rw [if_neg horiginator, h], rfl, Nat.le_refl _⟩

theorem least_default : (default : GlobalCursor).Least [] where
  attained a h := by
    rw [mem_cursors] at h
    exact absurd h (by simp [show (default : GlobalCursor).inner = ∅ from rfl])
  lower a h := absurd h List.not_mem_nil

theorem Least.applyLeast (h : c.Least cs) (a : Cursor) : (c.applyLeast a).Least (cs ++ [a]) where
  attained b hb := by
    rcases mem_cursors_applyLeast hb with hb | rfl
    · exact List.mem_append_left _ (h.attained b hb)
    · exact List.mem_append_right _ (List.mem_singleton_self _)
  lower b hb := by
    rcases List.mem_append.mp hb with hb | hb
    · obtain ⟨b', hb', horiginator, hle⟩ := h.lower b hb
      obtain ⟨b'', hb'', horiginator', hle'⟩ := exists_mem_cursors_applyLeast c a (.inr hb')
      exact ⟨b'', hb'', horiginator'.trans horiginator, Nat.le_trans hle' hle⟩
    · exact exists_mem_cursors_applyLeast c a (.inl (List.mem_singleton.mp hb))

theorem Least.foldl (h : c.Least cs) (as : List Cursor) :
    (as.foldl GlobalCursor.applyLeast c).Least (cs ++ as) := by
  induction as generalizing c cs with
  | nil =>
    rw [List.append_nil]
    exact h
  | cons a as ih =>
    rw [List.foldl_cons, List.append_cons]
    exact ih (h.applyLeast a)

theorem Least.mergeLeast (hc : c.Least cs) (hd : d.Least ds) : (c.mergeLeast d).Least (cs ++ ds) where
  attained a ha := by
    rcases List.mem_append.mp ((hc.foldl d.cursors).attained a ha) with ha | ha
    · exact List.mem_append_left _ ha
    · exact List.mem_append_right _ (hd.attained a ha)
  lower a ha := by
    rcases List.mem_append.mp ha with ha | ha
    · exact (hc.foldl d.cursors).lower a (List.mem_append_left _ ha)
    · obtain ⟨b, hb, horiginator, hle⟩ := hd.lower a ha
      obtain ⟨b', hb', horiginator', hle'⟩ :=
        (hc.foldl d.cursors).lower b (List.mem_append_right _ hb)
      exact ⟨b', hb', horiginator'.trans horiginator, Nat.le_trans hle' hle⟩

theorem Least.of_mem_iff (h : c.Least cs) (hiff : ∀ a, a ∈ cs ↔ a ∈ ds) : c.Least ds where
  attained a ha := (hiff a).mp (h.attained a ha)
  lower a ha := h.lower a ((hiff a).mpr ha)

theorem get_of_mem_cursors (h : a ∈ c.cursors) : c.get a.originatorId = a.sequenceId :=
  get_eq_of_getElem? (mem_cursors.mp h)

theorem Least.get_lt_iff (h : c.Least cs) (ha : a ∈ cs) :
    c.get a.originatorId < a.sequenceId ↔
      ∃ b ∈ cs, b.originatorId = a.originatorId ∧ b.sequenceId < a.sequenceId := by
  constructor
  · intro hlt
    obtain ⟨b, hb, horiginator, _⟩ := h.lower a ha
    refine ⟨b, h.attained b hb, horiginator, ?_⟩
    rw [← get_of_mem_cursors hb, horiginator]
    exact hlt
  · rintro ⟨b, hb, horiginator, hlt⟩
    obtain ⟨b', hb', horiginator', hle⟩ := h.lower b hb
    rw [← horiginator, ← horiginator', get_of_mem_cursors hb']
    exact Nat.lt_of_le_of_lt hle hlt

end LibXmtp.Types.GlobalCursor
