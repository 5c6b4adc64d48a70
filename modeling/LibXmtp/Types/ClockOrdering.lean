import LibXmtp.Types.ClockBounds
import LibXmtp.Types.VectorClock
import Mathlib.Order.Lattice

namespace LibXmtp.Types

inductive ClockOrdering where
  | equal
  | ancestor
  | descendant
  | concurrent

def ClockOrdering.ofDominates : Bool → Bool → ClockOrdering
  | true, true => .equal
  | true, false => .descendant
  | false, true => .ancestor
  | false, false => .concurrent

namespace GlobalCursor

variable {c d e : GlobalCursor} {o : Nat} {a : Cursor} {as : List Cursor}

/-- Whether a node so far was further on the left, and whether one was on the right. -/
def further (c other : GlobalCursor) (greater : Bool × Bool) (node : Nat) : Bool × Bool :=
  if other.get node < c.get node then (true, greater.2)
  else if c.get node < other.get node then (greater.1, true)
  else greater

protected def compare (c other : GlobalCursor) : ClockOrdering :=
  match (c.inner.keys ++ other.inner.keys).eraseDups.foldl (c.further other) (false, false) with
  | (false, false) => .equal
  | (true, false) => .descendant
  | (false, true) => .ancestor
  | (true, true) => .concurrent

section Merge

theorem get_le_iff {bound : Nat} :
    d.get o ≤ bound ↔ ∀ entry ∈ d.inner.toList, entry.1 = o → entry.2 ≤ bound := by
  constructor
  · rintro h ⟨o', s⟩ hentry rfl
    rw [Std.ExtTreeMap.mem_toList_iff_getElem?_eq_some] at hentry
    rw [← get_eq_of_getElem? hentry]
    exact h
  · intro h
    cases hs : d.inner[o]? with
    | none =>
      rw [get, Std.ExtTreeMap.getD_eq_getD_getElem?, hs]
      exact Nat.zero_le bound
    | some s =>
      rw [get_eq_of_getElem? hs]
      exact h (o, s) (Std.ExtTreeMap.mem_toList_iff_getElem?_eq_some.mpr hs) rfl

theorem get_merge (c d : GlobalCursor) : (c.merge d).get = c.get ⊔ d.get := by
  funext o
  apply eq_of_forall_ge_iff
  intro bound
  rw [merge, get_mergeEntries_le_iff, Pi.sup_apply, sup_le_iff, get_le_iff (d := d)]

theorem least_cursors (c : GlobalCursor) : c.Least c.cursors where
  attained _ h := h
  lower a h := ⟨a, h, rfl, Nat.le_refl _⟩

theorem Least.getElem?_attained (h : e.Least as) {s : Nat} (hs : e.inner[o]? = some s) :
    ⟨s, o⟩ ∈ as :=
  h.attained ⟨s, o⟩ (mem_cursors.mpr hs)

theorem Least.exists_getElem? (h : e.Least as) {s : Nat} (hs : ⟨s, o⟩ ∈ as) :
    ∃ s' ≤ s, e.inner[o]? = some s' := by
  obtain ⟨b, hb, horiginator, hle⟩ := h.lower _ hs
  rw [mem_cursors, horiginator] at hb
  exact ⟨b.sequenceId, hle, hb⟩

theorem getElem?_mergeLeast (c d : GlobalCursor) (o : Nat) :
    (c.mergeLeast d).inner[o]? = Option.merge min c.inner[o]? d.inner[o]? := by
  have hleast := (least_cursors c).mergeLeast (least_cursors d)
  have hmem {s : Nat} :
      ⟨s, o⟩ ∈ c.cursors ++ d.cursors ↔ c.inner[o]? = some s ∨ d.inner[o]? = some s := by
    rw [List.mem_append, mem_cursors, mem_cursors]
  have hattained {s : Nat} (hs : (c.mergeLeast d).inner[o]? = some s) :
      c.inner[o]? = some s ∨ d.inner[o]? = some s :=
    hmem.mp (hleast.getElem?_attained hs)
  have hlower {s : Nat} (hs : c.inner[o]? = some s ∨ d.inner[o]? = some s) :
      ∃ s' ≤ s, (c.mergeLeast d).inner[o]? = some s' :=
    hleast.exists_getElem? (hmem.mpr hs)
  cases hmerged : (c.mergeLeast d).inner[o]? with
  | none =>
    rw [hmerged] at hlower
    have hnone {s : Nat} (hs : c.inner[o]? = some s ∨ d.inner[o]? = some s) : False := by
      obtain ⟨_, -, hs'⟩ := hlower hs
      cases hs'
    have hc : c.inner[o]? = none := Option.eq_none_iff_forall_ne_some.mpr fun _ h => hnone (.inl h)
    have hd : d.inner[o]? = none := Option.eq_none_iff_forall_ne_some.mpr fun _ h => hnone (.inr h)
    rw [hc, hd, Option.merge_none_left]
  | some s =>
    rw [hmerged] at hlower
    have hle {s' : Nat} (hs : c.inner[o]? = some s' ∨ d.inner[o]? = some s') : s ≤ s' := by
      obtain ⟨_, hle, hs'⟩ := hlower hs
      cases hs'
      exact hle
    have hor := hattained hmerged
    cases hc : c.inner[o]? with
    | none =>
      rw [Option.merge_none_left]
      rw [hc] at hor
      exact (hor.resolve_left (Option.some_ne_none s).symm).symm
    | some sc =>
      have hlec : s ≤ sc := hle (.inl hc)
      cases hd : d.inner[o]? with
      | none =>
        rw [hc, hd] at hor
        exact (hor.resolve_right (Option.some_ne_none s).symm).symm
      | some sd =>
        have hled : s ≤ sd := hle (.inr hd)
        rw [hc, hd, Option.some.injEq, Option.some.injEq] at hor
        rw [Option.merge_some_some, Option.some.injEq]
        rcases hor with rfl | rfl
        · exact (Nat.min_eq_left hled).symm
        · exact (Nat.min_eq_right hlec).symm

theorem dominates_mergeLeast_iff :
    c.dominates (c.mergeLeast d) = true ↔ ∀ o, c.inner[o]? = none → d.get o = 0 := by
  rw [dominates_iff]
  apply forall_congr'
  intro o
  have hget : (c.mergeLeast d).get o = (Option.merge min c.inner[o]? d.inner[o]?).getD 0 := by
    rw [get, Std.ExtTreeMap.getD_eq_getD_getElem?, getElem?_mergeLeast]
  rw [hget, get, get, Std.ExtTreeMap.getD_eq_getD_getElem?, Std.ExtTreeMap.getD_eq_getD_getElem?]
  cases hc : c.inner[o]? with
  | none => simp
  | some sc => cases d.inner[o]? <;> simp

theorem mergeLeast_comm (c d : GlobalCursor) : c.mergeLeast d = d.mergeLeast c := by
  apply ext_getElem?
  intro o
  rw [getElem?_mergeLeast, getElem?_mergeLeast]
  exact Std.Commutative.comm _ _

end Merge

section Compare

theorem foldl_further (c d : GlobalCursor) (nodes : List Nat) (greater : Bool × Bool) :
    nodes.foldl (c.further d) greater =
      (greater.1 || nodes.any fun node => d.get node < c.get node,
        greater.2 || nodes.any fun node => c.get node < d.get node) := by
  induction nodes generalizing greater with
  | nil => simp
  | cons node nodes ih =>
    rw [List.foldl_cons, ih, further, List.any_cons, List.any_cons]
    by_cases hgt : d.get node < c.get node
    · simp [hgt, Nat.lt_asymm hgt]
    · by_cases hlt : c.get node < d.get node
      · simp [hgt, hlt]
      · simp [hgt, hlt]

theorem any_lt_eq {nodes : List Nat} (h : c.inner.keys ⊆ nodes) :
    (nodes.any fun node => d.get node < c.get node) = !d.dominates c := by
  rw [Bool.eq_iff_iff, List.any_eq_true, Bool.not_eq_true', ← Bool.not_eq_true, dominates_iff]
  simp only [decide_eq_true_eq]
  constructor
  · rintro ⟨node, -, hlt⟩ hle
    exact absurd (hle node) (Nat.not_le_of_lt hlt)
  · intro hex
    obtain ⟨node, hnot⟩ := Classical.not_forall.mp hex
    have hlt : d.get node < c.get node := Nat.lt_of_not_le hnot
    refine ⟨node, h ?_, hlt⟩
    rw [Std.ExtTreeMap.mem_keys, Std.ExtTreeMap.mem_iff_isSome_getElem?,
      getElem?_of_get_pos (Nat.zero_lt_of_lt hlt)]
    rfl

theorem compare_eq (c d : GlobalCursor) :
    c.compare d = .ofDominates (c.dominates d) (d.dominates c) := by
  have hself : c.inner.keys ⊆ (c.inner.keys ++ d.inner.keys).eraseDups := by
    intro node hnode
    rw [List.mem_eraseDups]
    exact List.mem_append_left _ hnode
  have hother : d.inner.keys ⊆ (c.inner.keys ++ d.inner.keys).eraseDups := by
    intro node hnode
    rw [List.mem_eraseDups]
    exact List.mem_append_right _ hnode
  rw [GlobalCursor.compare, foldl_further, Bool.false_or, Bool.false_or, any_lt_eq hself, any_lt_eq hother]
  cases c.dominates d <;> cases d.dominates c <;> rfl

end Compare

section Missing

theorem missing_eq_nil_iff : c.missing d = [] ↔ c.dominates d = true := by
  rw [List.eq_nil_iff_forall_not_mem]
  constructor
  · intro h
    cases hdominates : c.dominates d with
    | true => rfl
    | false =>
      obtain ⟨a, ha⟩ := exists_missing_of_not_dominates hdominates
      exact (h a ha).elim
  · intro h a ha
    obtain ⟨heq, hlt⟩ := mem_missing.mp ha
    have hle : d.get a.originatorId ≤ c.get a.originatorId := dominates_iff.mp h a.originatorId
    omega

theorem get_foldl_apply_le_iff {bound : Nat} : (as.foldl apply c).get o ≤ bound ↔
    c.get o ≤ bound ∧ ∀ a ∈ as, a.originatorId = o → a.sequenceId ≤ bound := by
  induction as generalizing c with
  | nil => simp
  | cons a as ih =>
    rw [List.foldl_cons, ih, get_apply, List.forall_mem_cons]
    by_cases heq : a.originatorId = o
    · rw [if_pos heq, Nat.max_le]
      simp only [heq, forall_const, and_assoc]
    · rw [if_neg heq]
      simp only [heq, false_implies, true_and]

theorem get_foldl_apply_missing (c d : GlobalCursor) :
    ((c.missing d).foldl apply c).get = (c.merge d).get := by
  funext o
  apply eq_of_forall_ge_iff
  intro bound
  rw [get_foldl_apply_le_iff, get_merge, Pi.sup_apply, sup_le_iff]
  apply and_congr_right
  intro hle
  constructor
  · intro h
    by_cases hlt : c.get o < d.get o
    · exact h ⟨d.get o, o⟩ (mem_missing.mpr ⟨rfl, hlt⟩) rfl
    · omega
  · rintro h a ha rfl
    obtain ⟨heq, -⟩ := mem_missing.mp ha
    rw [← heq]
    exact h

end Missing

theorem lattice_laws (a b : GlobalCursor) :
    (a.dominates a = true ∧
      ∀ c : GlobalCursor, a.dominates b = true → b.dominates c = true → a.dominates c = true) ∧
    ((a.merge b).dominates a = true ∧ (a.merge b).dominates b = true ∧
      ∀ c : GlobalCursor, c.dominates a = true → c.dominates b = true →
        c.dominates (a.merge b) = true) ∧
    ((∀ o : Nat, (a.mergeLeast b).inner[o]? = Option.merge min a.inner[o]? b.inner[o]?) ∧
      (a.dominates (a.mergeLeast b) = true ↔ ∀ o : Nat, a.inner[o]? = none → b.get o = 0) ∧
      (b.dominates (a.mergeLeast b) = true ↔ ∀ o : Nat, b.inner[o]? = none → a.get o = 0)) ∧
    ((a.compare b = .equal ↔ a.dominates b = true ∧ b.dominates a = true) ∧
      (a.compare b = .descendant ↔ a.dominates b = true ∧ b.dominates a = false) ∧
      (a.compare b = .ancestor ↔ a.dominates b = false ∧ b.dominates a = true) ∧
      (a.compare b = .concurrent ↔ a.dominates b = false ∧ b.dominates a = false)) ∧
    (a.missing b = [] ↔ a.dominates b = true) ∧
    ((a.missing b).foldl apply a).get = (a.merge b).get := by
  have hmerge := dominates_merge_iff.mp (dominates_refl (a.merge b))
  refine ⟨⟨dominates_refl a, fun c => dominates_trans⟩,
    ⟨hmerge.1, hmerge.2, fun c ha hb => dominates_merge_iff.mpr ⟨ha, hb⟩⟩,
    ⟨getElem?_mergeLeast a b, dominates_mergeLeast_iff, ?_⟩, ?_,
    missing_eq_nil_iff, get_foldl_apply_missing a b⟩
  · rw [mergeLeast_comm]
    exact dominates_mergeLeast_iff
  · rw [compare_eq]
    cases a.dominates b <;> cases b.dominates a <;> simp [ClockOrdering.ofDominates]

/-- An originator that one clock has not seen keeps the entry of the other. -/
theorem not_dominates_mergeLeast :
    ((default : GlobalCursor).insert 0 5).dominates
      (((default : GlobalCursor).insert 0 5).mergeLeast ((default : GlobalCursor).insert 10 3)) =
    false := by
  decide +kernel

end GlobalCursor

end LibXmtp.Types
