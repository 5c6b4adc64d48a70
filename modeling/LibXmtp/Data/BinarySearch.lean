import Mathlib.Data.List.Basic
import Mathlib.Data.Ordering.Basic

universe u

namespace LibXmtp.Data

variable {α : Type u}

/-- The position a search narrows to: each step halves the `size` elements from `base` on. -/
def narrow (f : α → Ordering) (xs : List α) : Nat → Nat → Nat → Nat
  | 0, base, _ => base
  | fuel + 1, base, size =>
    if size ≤ 1 then base
    else
      let half := size / 2
      let mid := base + half
      narrow f xs fuel (if xs[mid]?.map f = some .gt then base else mid) (size - half)

/-- `slice::binary_search_by`: the position of an equal element, or the position to insert one. -/
def binarySearchBy (f : α → Ordering) (xs : List α) : Except Nat Nat :=
  let base := narrow f xs xs.length 0 xs.length
  match xs[base]?.map f with
  | some .eq => .ok base
  | some .lt => .error (base + 1)
  | _ => .error base

/-- What comes before an element that is not greater is less: no two elements are equal. -/
def Searchable (f : α → Ordering) (xs : List α) : Prop :=
  xs.Pairwise fun a b => f b ≠ .gt → f a = .lt

section

variable {f : α → Ordering} {xs : List α} (hs : Searchable f xs)

include hs

theorem Searchable.lt {i j : Nat} (hij : i < j) (hi : i < xs.length) (hj : j < xs.length)
    (hgt : f xs[j] ≠ .gt) : f xs[i] = .lt :=
  List.pairwise_iff_getElem.mp hs i j hi hj hij hgt

theorem Searchable.gt {i j : Nat} (hij : i < j) (hi : i < xs.length) (hj : j < xs.length)
    (hlt : f xs[i] ≠ .lt) : f xs[j] = .gt :=
  Decidable.byContradiction fun hgt => hlt (hs.lt hij hi hj hgt)

end

structure Window (f : α → Ordering) (xs : List α) (base size : Nat) : Prop where
  inside : base + size ≤ xs.length
  below : ∀ i (hi : i < xs.length), i < base → f xs[i] = .lt
  above : ∀ i (hi : i < xs.length), base + size ≤ i → f xs[i] = .gt

section

variable {f : α → Ordering} {xs : List α}

theorem Window.whole : Window f xs 0 xs.length where
  inside := by simp
  below i _ hi := absurd hi (Nat.not_lt_zero i)
  above i hi hle := by omega

theorem Window.lower {base size mid : Nat} (h : Window f xs base size) (hs : Searchable f xs)
    (hmid : mid < xs.length) (hgt : f xs[mid] = .gt) {size' : Nat} (hsize : size' ≤ size)
    (hle : mid ≤ base + size') : Window f xs base size' where
  inside := by
    have hin := h.inside
    omega
  below := h.below
  above i hi hi' := by
    cases Nat.eq_or_lt_of_le (Nat.le_trans hle hi') with
    | inl heq =>
      subst heq
      exact hgt
    | inr hlt =>
      apply hs.gt hlt hmid
      simp [hgt]

theorem Window.upper {base size mid : Nat} (h : Window f xs base size) (hs : Searchable f xs)
    (hmid : mid < xs.length) (hgt : f xs[mid] ≠ .gt) {size' : Nat}
    (heq : mid + size' = base + size) : Window f xs mid size' where
  inside := by
    rw [heq]
    exact h.inside
  below i hi hlt := hs.lt hlt hi hmid hgt
  above i hi hle := h.above i hi (by omega)

theorem Window.narrow (hs : Searchable f xs) {fuel base size : Nat} (hfuel : size ≤ fuel)
    (h : Window f xs base size) : ∃ size' ≤ 1, (0 < size → 0 < size') ∧
      Window f xs (narrow f xs fuel base size) size' := by
  induction fuel generalizing base size with
  | zero => exact ⟨size, by omega, id, h⟩
  | succ fuel ih =>
    rw [Data.narrow]
    split
    · rename_i hsize
      exact ⟨size, hsize, id, h⟩
    · rename_i hsize
      have hin := h.inside
      have hmid : base + size / 2 < xs.length := by omega
      have hpos : 0 < size - size / 2 := by omega
      simp only [List.getElem?_eq_getElem hmid, Option.map_some, Option.some.injEq]
      split
      · rename_i hgt
        have hw : Window f xs base (size - size / 2) :=
          h.lower hs hmid hgt (by omega) (by omega)
        have hnext := ih (by omega) hw
        grind
      · rename_i hgt
        have hw : Window f xs (base + size / 2) (size - size / 2) :=
          h.upper hs hmid hgt (by omega)
        have hnext := ih (by omega) hw
        grind

/-- How a search may end: at the only equal element, or where the less and the greater meet. -/
inductive SearchResult (f : α → Ordering) (xs : List α) : Except Nat Nat → Prop
  | found {l r : List α} {a : α} (split : xs = l ++ a :: r) (eq : f a = .eq)
      (below : ∀ b ∈ l, f b = .lt) (above : ∀ b ∈ r, f b = .gt) : SearchResult f xs (.ok l.length)
  | missing {l r : List α} (split : xs = l ++ r)
      (below : ∀ b ∈ l, f b = .lt) (above : ∀ b ∈ r, f b = .gt) :
      SearchResult f xs (.error l.length)

theorem SearchResult.missing_at {idx : Nat} (hidx : idx ≤ xs.length)
    (below : ∀ i (hi : i < xs.length), i < idx → f xs[i] = .lt)
    (above : ∀ i (hi : i < xs.length), idx ≤ i → f xs[i] = .gt) :
    SearchResult f xs (.error idx) := by
  have hlen : (xs.take idx).length = idx := by simp [hidx]
  rw [← hlen]
  apply SearchResult.missing (r := xs.drop idx) (List.take_append_drop idx xs).symm
  · intro b hb
    have ⟨i, hi, hib⟩ := List.mem_iff_getElem.mp hb
    rw [List.getElem_take] at hib
    rw [← hib]
    apply below
    omega
  · intro b hb
    have ⟨i, hi, hib⟩ := List.mem_iff_getElem.mp hb
    rw [List.getElem_drop] at hib
    rw [← hib]
    apply above
    omega

theorem SearchResult.found_at {idx : Nat} (hidx : idx < xs.length) (heq : f xs[idx] = .eq)
    (below : ∀ i (hi : i < xs.length), i < idx → f xs[i] = .lt)
    (above : ∀ i (hi : i < xs.length), idx < i → f xs[i] = .gt) :
    SearchResult f xs (.ok idx) := by
  have hlen : (xs.take idx).length = idx := by simp [Nat.le_of_lt hidx]
  have hsplit : xs = xs.take idx ++ xs[idx] :: xs.drop (idx + 1) := by simp
  rw [← hlen]
  apply SearchResult.found hsplit heq
  · intro b hb
    have ⟨i, hi, hib⟩ := List.mem_iff_getElem.mp hb
    rw [List.getElem_take] at hib
    rw [← hib]
    apply below
    omega
  · intro b hb
    have ⟨i, hi, hib⟩ := List.mem_iff_getElem.mp hb
    rw [List.getElem_drop] at hib
    rw [← hib]
    apply above
    omega

theorem searchResult (hs : Searchable f xs) : SearchResult f xs (binarySearchBy f xs) := by
  have ⟨size, hle, hpos, hw⟩ := Window.narrow hs (Nat.le_refl _) Window.whole
  have hin := hw.inside
  rw [binarySearchBy]
  generalize narrow f xs xs.length 0 xs.length = base at hw hin
  by_cases hbase : base < xs.length
  · simp only [List.getElem?_eq_getElem hbase, Option.map_some]
    have habove : ∀ i (hi : i < xs.length), base < i → f xs[i] = .gt :=
      fun i hi hlt => hw.above i hi (by omega)
    cases hcmp : f xs[base] with
    | eq => exact .found_at hbase hcmp hw.below habove
    | lt =>
      apply SearchResult.missing_at (by omega)
      · intro i hi hlt
        cases Nat.eq_or_lt_of_le (Nat.le_of_lt_succ hlt) with
        | inl heq =>
          subst heq
          exact hcmp
        | inr hlt => exact hw.below i hi hlt
      · intro i hi hle
        exact habove i hi hle
    | gt =>
      apply SearchResult.missing_at (by omega) hw.below
      intro i hi hle
      cases Nat.eq_or_lt_of_le hle with
      | inl heq =>
        subst heq
        exact hcmp
      | inr hlt => exact habove i hi hlt
  · simp only [List.getElem?_eq_none (Nat.le_of_not_lt hbase), Option.map_none]
    exact SearchResult.missing_at (by omega) hw.below fun i hi hle => absurd hi (by omega)

end

end LibXmtp.Data
