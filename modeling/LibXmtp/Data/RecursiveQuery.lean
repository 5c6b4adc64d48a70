import Mathlib.Data.List.Nodup
import Mathlib.Data.List.Perm.Subperm

/-! Recursive queries: the rows that are reached from a list of keys along the edges of a finite
graph, level by level. -/

universe u v

namespace LibXmtp.Data

variable {κ : Type u} {ρ : Type v} (children : κ → List ρ) (key : ρ → κ)

/-- `WITH RECURSIVE .. UNION ALL`: the children of `front`, their children, and so on, a row once
for every path to it. There is no result when `levels` levels do not exhaust it. -/
def unionAll : Nat → List κ → Option (List ρ)
  | levels, front =>
    match front.flatMap children, levels with
    | [], _ => some []
    | _ :: _, 0 => none
    | level, levels + 1 => (level ++ ·) <$> unionAll levels (level.map key)

inductive Descends : κ → ρ → Prop
  | child : r ∈ children k → Descends k r
  | step : r ∈ children k → Descends (key r) r' → Descends k r'

variable {children key}

theorem Descends.trans {k : κ} {r r' : ρ} (h : Descends children key k r)
    (h' : Descends children key (key r) r') : Descends children key k r' := by
  induction h with
  | child hr => exact .step hr h'
  | step hr _ ih => exact .step hr (ih h')

theorem Descends.mem {rows : List ρ} (hrows : ∀ k, children k ⊆ rows) {k : κ} {r : ρ}
    (h : Descends children key k r) : r ∈ rows := by
  induction h with
  | child hr => exact hrows _ hr
  | step _ _ ih => exact ih

theorem unionAll_of_nil {levels : Nat} {front : List κ} (h : front.flatMap children = []) :
    unionAll children key levels front = some [] := by
  unfold unionAll
  split <;> simp_all

theorem unionAll_of_ne_nil {levels : Nat} {front : List κ} (h : front.flatMap children ≠ []) :
    unionAll children key (levels + 1) front = (front.flatMap children ++ ·) <$>
      unionAll children key levels ((front.flatMap children).map key) := by
  conv => left; unfold unionAll
  split <;> simp_all

theorem unionAll_zero_of_ne_nil {front : List κ} (h : front.flatMap children ≠ []) :
    unionAll children key 0 front = none := by
  unfold unionAll
  split <;> simp_all

theorem exists_descends_iff {front : List κ} {r : ρ} :
    (∃ k ∈ front, Descends children key k r) ↔ r ∈ front.flatMap children ∨
      ∃ k ∈ (front.flatMap children).map key, Descends children key k r := by
  simp only [List.mem_map, List.mem_flatMap]
  constructor
  · rintro ⟨k, hk, h⟩
    cases h with
    | child hr => exact .inl ⟨k, hk, hr⟩
    | step hr h => exact .inr ⟨_, ⟨_, ⟨k, hk, hr⟩, rfl⟩, h⟩
  · rintro (⟨k, hk, hr⟩ | ⟨_, ⟨r', ⟨k, hk, hr⟩, rfl⟩, h⟩)
    · exact ⟨k, hk, .child hr⟩
    · exact ⟨k, hk, .step hr h⟩

theorem mem_unionAll {levels : Nat} {front : List κ} {out : List ρ} {r : ρ}
    (h : unionAll children key levels front = some out) :
    r ∈ out ↔ ∃ k ∈ front, Descends children key k r := by
  induction levels generalizing front out with
  | zero =>
    by_cases hnil : front.flatMap children = []
    · rw [unionAll_of_nil hnil, Option.some.injEq] at h
      rw [exists_descends_iff, hnil, ← h]
      simp
    · simp [unionAll_zero_of_ne_nil hnil] at h
  | succ levels ih =>
    by_cases hnil : front.flatMap children = []
    · rw [unionAll_of_nil hnil, Option.some.injEq] at h
      rw [exists_descends_iff, hnil, ← h]
      simp
    · rw [unionAll_of_ne_nil hnil] at h
      obtain ⟨rest, hrest, rfl⟩ := Option.map_eq_some_iff.mp h
      rw [exists_descends_iff, List.mem_append, ih hrest]

/-- The rows of `rs` are children of each other, the first one a child of `k`. -/
def Path (children : κ → List ρ) (key : ρ → κ) : κ → List ρ → Prop
  | _, [] => True
  | k, r :: rs => r ∈ children k ∧ Path children key (key r) rs

theorem Path.descends {k : κ} {rs : List ρ} {r : ρ} (h : Path children key k rs) (hr : r ∈ rs) :
    Descends children key k r := by
  induction rs generalizing k with
  | nil => cases hr
  | cons r' rs ih =>
    cases hr with
    | head => exact .child h.1
    | tail _ hr => exact .step h.1 (ih h.2 hr)

theorem Path.exists_cycle {k : κ} {rs : List ρ} (h : Path children key k rs) (hdup : ¬rs.Nodup) :
    ∃ r, Descends children key k r ∧ Descends children key (key r) r := by
  induction rs generalizing k with
  | nil => exact absurd List.nodup_nil hdup
  | cons r rs ih =>
    by_cases hr : r ∈ rs
    · exact ⟨r, .child h.1, h.2.descends hr⟩
    · obtain ⟨r', hr', hcycle⟩ := ih h.2 fun hnodup => hdup (List.nodup_cons.mpr ⟨hr, hnodup⟩)
      exact ⟨r', .step h.1 hr', hcycle⟩

theorem exists_path_of_eq_none {levels : Nat} {front : List κ}
    (h : unionAll children key levels front = none) :
    ∃ k ∈ front, ∃ rs, rs.length = levels + 1 ∧ Path children key k rs := by
  have hne : front.flatMap children ≠ [] := by
    intro hnil
    simp [unionAll_of_nil hnil] at h
  induction levels generalizing front with
  | zero =>
    obtain ⟨r, hr⟩ := List.exists_mem_of_ne_nil _ hne
    obtain ⟨k, hk, hr⟩ := List.mem_flatMap.mp hr
    exact ⟨k, hk, [r], rfl, hr, trivial⟩
  | succ levels ih =>
    rw [unionAll_of_ne_nil hne] at h
    have h := Option.map_eq_none_iff.mp h
    obtain ⟨k', hk', rs, hlen, hpath⟩ := ih h (by
      intro hnil
      simp [unionAll_of_nil hnil] at h)
    obtain ⟨r, hr, rfl⟩ := List.mem_map.mp hk'
    obtain ⟨k, hk, hr⟩ := List.mem_flatMap.mp hr
    exact ⟨k, hk, r :: rs, by simp [hlen], hr, hpath⟩

theorem not_path_of_eq_some {levels : Nat} {front : List κ} {out : List ρ}
    (h : unionAll children key levels front = some out) {k : κ} (hk : k ∈ front) {rs : List ρ}
    (hlen : rs.length = levels + 1) : ¬Path children key k rs := by
  intro hpath
  induction levels generalizing front out k rs with
  | zero =>
    cases rs with
    | nil => cases hlen
    | cons r rs =>
      have hne : front.flatMap children ≠ [] :=
        List.ne_nil_of_mem (List.mem_flatMap.mpr ⟨k, hk, hpath.1⟩)
      simp [unionAll_zero_of_ne_nil hne] at h
  | succ levels ih =>
    cases rs with
    | nil => cases hlen
    | cons r rs =>
      have hr : r ∈ front.flatMap children := List.mem_flatMap.mpr ⟨k, hk, hpath.1⟩
      rw [unionAll_of_ne_nil (List.ne_nil_of_mem hr)] at h
      obtain ⟨rest, hrest, -⟩ := Option.map_eq_some_iff.mp h
      exact ih hrest (List.mem_map_of_mem hr) (by simpa using hlen) hpath.2

theorem Descends.exists_path {k : κ} {r : ρ} (h : Descends children key k r)
    (hcycle : Descends children key (key r) r) (n : Nat) :
    ∃ rs, rs.length = n ∧ Path children key k rs := by
  induction n generalizing k r with
  | zero => exact ⟨[], rfl, trivial⟩
  | succ n ih =>
    cases h with
    | child hr =>
      obtain ⟨rs, hlen, hpath⟩ := ih hcycle hcycle
      exact ⟨r :: rs, by simp [hlen], hr, hpath⟩
    | step hr hrest =>
      obtain ⟨rs, hlen, hpath⟩ := ih hrest hcycle
      exact ⟨_ :: rs, by simp [hlen], hr, hpath⟩

theorem unionAll_eq_none_iff {rows : List ρ} (hrows : ∀ k, children k ⊆ rows) {front : List κ} :
    unionAll children key rows.length front = none ↔
      ∃ k ∈ front, ∃ r, Descends children key k r ∧ Descends children key (key r) r := by
  constructor
  · intro h
    obtain ⟨k, hk, rs, hlen, hpath⟩ := exists_path_of_eq_none h
    refine ⟨k, hk, hpath.exists_cycle fun hnodup => ?_⟩
    have hsub : rs ⊆ rows := fun r hr => (hpath.descends hr).mem hrows
    have hle := (hnodup.subperm hsub).length_le
    omega
  · rintro ⟨k, hk, r, hr, hcycle⟩
    cases h : unionAll children key rows.length front with
    | none => rfl
    | some out =>
      obtain ⟨rs, hlen, hpath⟩ := hr.exists_path hcycle (rows.length + 1)
      exact absurd hpath (not_path_of_eq_some h hk hlen)

section Map

variable {ρ' : Type v} {children' : κ → List ρ'} {key' : ρ' → κ} {f : ρ → ρ'}

theorem descends_map_iff (hkey : ∀ r, key' (f r) = key r)
    (hchildren : ∀ k r', r' ∈ children' k ↔ ∃ r ∈ children k, f r = r') {k : κ} {r' : ρ'} :
    Descends children' key' k r' ↔ ∃ r, Descends children key k r ∧ f r = r' := by
  constructor
  · intro h
    induction h with
    | child hr =>
      obtain ⟨r, hr, heq⟩ := (hchildren _ _).mp hr
      exact ⟨r, .child hr, heq⟩
    | step hchild _ ih =>
      obtain ⟨r, hr, rfl⟩ := (hchildren _ _).mp hchild
      obtain ⟨r'', hr'', heq⟩ := ih
      rw [hkey] at hr''
      exact ⟨r'', .step hr hr'', heq⟩
  · rintro ⟨r, h, rfl⟩
    induction h with
    | child hr => exact .child ((hchildren _ _).mpr ⟨_, hr, rfl⟩)
    | step hr _ ih =>
      rw [← hkey] at ih
      exact .step ((hchildren _ _).mpr ⟨_, hr, rfl⟩) ih

end Map

end LibXmtp.Data
