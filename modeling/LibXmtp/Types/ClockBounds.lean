import LibXmtp.Types.GlobalCursor

namespace LibXmtp.Types.GlobalCursor

variable {c d e : GlobalCursor} {o : Nat}

def mergeEntries (c : GlobalCursor) (entries : List (Nat × Nat)) : GlobalCursor :=
  entries.foldl (fun c e => c.insert e.1 (max (c.get e.1) e.2)) c

def merge (c other : GlobalCursor) : GlobalCursor := c.mergeEntries other.inner.toList

def meet (c other : GlobalCursor) : GlobalCursor :=
  ⟨c.inner.map fun node seq => min seq (other.get node)⟩

theorem get_insert (c : GlobalCursor) (o o' seq : Nat) :
    (c.insert o seq).get o' = if o = o' then seq else c.get o' := by
  simp [get, insert, Std.ExtTreeMap.getD_insert]

theorem get_meet (c d : GlobalCursor) (o : Nat) : (c.meet d).get o = min (c.get o) (d.get o) := by
  simp only [get, meet, Std.ExtTreeMap.getD_eq_getD_getElem?, Std.ExtTreeMap.getElem?_map]
  cases c.inner[o]? <;> simp

theorem get_mergeEntries_le_iff {entries : List (Nat × Nat)} {bound : Nat} :
    (c.mergeEntries entries).get o ≤ bound ↔
      c.get o ≤ bound ∧ ∀ e ∈ entries, e.1 = o → e.2 ≤ bound := by
  induction entries generalizing c with
  | nil => simp [mergeEntries]
  | cons e es ih =>
    rw [mergeEntries, List.foldl_cons, ← mergeEntries, ih, get_insert, List.forall_mem_cons]
    by_cases heq : e.1 = o
    · rw [if_pos heq, heq, Nat.max_le]
      simp only [forall_const, and_assoc]
    · rw [if_neg heq]
      simp only [heq, false_implies, true_and]

theorem dominates_merge_iff :
    e.dominates (c.merge d) = true ↔ e.dominates c = true ∧ e.dominates d = true := by
  have hentries : e.dominates d = true ↔
      ∀ o, ∀ entry ∈ d.inner.toList, entry.1 = o → entry.2 ≤ e.get o := by
    simp only [dominates, List.all_eq_true, decide_eq_true_eq]
    constructor
    · rintro h o entry hentry rfl
      exact h entry hentry
    · intro h entry hentry
      exact h entry.1 entry hentry rfl
  rw [dominates_iff, dominates_iff, hentries, ← forall_and]
  exact forall_congr' fun o => get_mergeEntries_le_iff

theorem meet_dominates_iff :
    (c.meet d).dominates e = true ↔ c.dominates e = true ∧ d.dominates e = true := by
  simp only [dominates_iff, get_meet, Nat.le_min, forall_and]

theorem dominates_refl (c : GlobalCursor) : c.dominates c = true :=
  dominates_iff.mpr fun _ => Nat.le_refl _

theorem dominates_trans (hcd : c.dominates d = true) (hde : d.dominates e = true) :
    c.dominates e = true :=
  dominates_of_le (dominates_iff.mp hcd) hde

end LibXmtp.Types.GlobalCursor
