import Mathlib.Data.List.Basic
import Mathlib.Data.List.Nodup

universe u v

namespace LibXmtp.Data

def page {α : Type u} (size k : Nat) (xs : List α) : List α := (xs.drop (size * k)).take size

inductive Reads {β : Type v} (pages : Nat → List β) : Nat → List β → Prop
  | last {k : Nat} (hempty : pages k = []) : Reads pages k []
  | next {k : Nat} {out : List β} (hpage : pages k ≠ []) (hrest : Reads pages (k + 1) out) :
    Reads pages k (pages k ++ out)

section Reads

variable {β : Type v} {pages : Nat → List β} {k : Nat} {out out' : List β} {b : β}

theorem exists_reads {n : Nat} (h : ∀ j, n ≤ j → pages j = []) (k : Nat) :
    ∃ out, Reads pages k out := by
  induction hrest : n - k generalizing k with
  | zero => exact ⟨[], .last (h k (Nat.le_of_sub_eq_zero hrest))⟩
  | succ rest ih =>
    by_cases hempty : pages k = []
    · exact ⟨[], .last hempty⟩
    · obtain ⟨out, hout⟩ := ih (k + 1) (by omega)
      exact ⟨_, .next hempty hout⟩

theorem Reads.mem_iff (h : Reads pages k out) :
    b ∈ out ↔ ∃ j, k ≤ j ∧ b ∈ pages j ∧ ∀ i, k ≤ i → i < j → pages i ≠ [] := by
  induction h with
  | @last k hempty =>
    constructor
    · intro hb
      cases hb
    · rintro ⟨j, hle, hb, hbefore⟩
      rcases Nat.eq_or_lt_of_le hle with rfl | hlt
      · rw [hempty] at hb
        cases hb
      · exact absurd hempty (hbefore k (Nat.le_refl k) hlt)
  | @next k out hpage _ ih =>
    rw [List.mem_append, ih]
    constructor
    · rintro (hb | ⟨j, hle, hb, hbefore⟩)
      · exact ⟨k, Nat.le_refl k, hb, fun i hki hik => absurd hik (Nat.not_lt.mpr hki)⟩
      · refine ⟨j, Nat.le_of_succ_le hle, hb, fun i hki hij => ?_⟩
        rcases Nat.eq_or_lt_of_le hki with rfl | hlt
        · exact hpage
        · exact hbefore i hlt hij
    · rintro ⟨j, hle, hb, hbefore⟩
      rcases Nat.eq_or_lt_of_le hle with rfl | hlt
      · exact .inl hb
      · exact .inr ⟨j, hlt, hb, fun i hki hij => hbefore i (Nat.le_of_succ_le hki) hij⟩

theorem Reads.map {γ : Type v} (f : β → γ) (h : Reads pages k out) :
    Reads (fun k => (pages k).map f) k (out.map f) := by
  induction h with
  | last hempty => exact .last (List.map_eq_nil_iff.mpr hempty)
  | @next k out hpage _ ih =>
    rw [List.map_append]
    exact .next (fun hnil => hpage (List.map_eq_nil_iff.mp hnil)) ih

end Reads

section Pages

variable {α : Type u} {β : Type v} {xs : List α} {x : α} {size k : Nat}

theorem mem_page_disjoint (h : xs.Nodup) {i j : Nat} (hij : i < j) (hx : x ∈ page size i xs) :
    x ∉ page size j xs := by
  intro hx'
  have htake : x ∈ xs.take (size * (i + 1)) := by
    rw [Nat.mul_succ, List.take_add]
    exact List.mem_append_right _ hx
  exact List.disjoint_take_drop h (Nat.mul_le_mul_left size hij) htake (List.mem_of_mem_take hx')

theorem page_append_drop (size k : Nat) (xs : List α) :
    page size k xs ++ xs.drop (size * (k + 1)) = xs.drop (size * k) := by
  rw [page, Nat.mul_succ, ← List.drop_drop]
  exact List.take_append_drop size (xs.drop (size * k))

theorem page_eq_nil_iff (hsize : 0 < size) : page size k xs = [] ↔ xs.length ≤ size * k := by
  rw [page, List.take_eq_nil_iff, List.drop_eq_nil_iff]
  omega

theorem mem_drop_iff (hsize : 0 < size) :
    x ∈ xs.drop (size * k) ↔ ∃ j, k ≤ j ∧ x ∈ page size j xs := by
  constructor
  · intro hx
    obtain ⟨i, hi, rfl⟩ := List.mem_iff_getElem.mp hx
    rw [List.length_drop] at hi
    refine ⟨k + i / size, Nat.le_add_right _ _, ?_⟩
    have hdiv := Nat.div_add_mod i size
    have hmod := Nat.mod_lt i hsize
    rw [page, Nat.mul_add]
    refine List.mem_iff_getElem.mpr ⟨i % size, ?_, ?_⟩
    · rw [List.length_take, List.length_drop]
      omega
    · rw [List.getElem_take, List.getElem_drop, List.getElem_drop]
      congr 1
      omega
  · rintro ⟨j, hle, hx⟩
    have hdrop := List.mem_of_mem_take hx
    rw [← Nat.add_sub_cancel' (Nat.mul_le_mul_left size hle), ← List.drop_drop] at hdrop
    exact List.mem_of_mem_drop hdrop

theorem reads_page (hsize : 0 < size) (xs : List α) (k : Nat) :
    Reads (fun k => page size k xs) k (xs.drop (size * k)) := by
  induction hrest : xs.length - k generalizing k with
  | zero =>
    have hle : xs.length ≤ size * k :=
      Nat.le_trans (Nat.le_of_sub_eq_zero hrest) (Nat.le_mul_of_pos_left k hsize)
    rw [List.drop_eq_nil_of_le hle]
    exact .last ((page_eq_nil_iff hsize).mpr hle)
  | succ rest ih =>
    by_cases hempty : page size k xs = []
    · rw [List.drop_eq_nil_of_le ((page_eq_nil_iff hsize).mp hempty)]
      exact .last hempty
    · rw [← page_append_drop]
      exact .next hempty (ih (k + 1) (by omega))

end Pages

section FilterMap

variable {α : Type u} {β : Type v} {xs : List α} {size k : Nat} {out : List β} {f : α → Option β}

def Gapless (pages : Nat → List β) : Prop := ∀ k, pages k = [] → ∀ j, k ≤ j → pages j = []

theorem exists_reads_filterMap (hsize : 0 < size) (xs : List α) (f : α → Option β) :
    ∃ out, Reads (fun k => (page size k xs).filterMap f) 0 out := by
  refine exists_reads (n := xs.length) (fun j hj => ?_) 0
  rw [(page_eq_nil_iff hsize).mpr (Nat.le_trans hj (Nat.le_mul_of_pos_left j hsize)), List.filterMap_nil]

theorem mem_of_reads_filterMap (h : Reads (fun k => (page size k xs).filterMap f) k out) {b : β}
    (hb : b ∈ out) : ∃ x ∈ xs, f x = some b := by
  obtain ⟨j, -, hb, -⟩ := h.mem_iff.mp hb
  obtain ⟨x, hx, hfx⟩ := List.mem_filterMap.mp hb
  exact ⟨x, List.mem_of_mem_drop (List.mem_of_mem_take hx), hfx⟩

theorem Reads.eq_filterMap (hsize : 0 < size)
    (hgapless : Gapless fun k => (page size k xs).filterMap f)
    (h : Reads (fun k => (page size k xs).filterMap f) k out) :
    out = (xs.drop (size * k)).filterMap f := by
  induction h with
  | @last k hempty =>
    symm
    rw [List.filterMap_eq_nil_iff]
    intro x hx
    obtain ⟨j, hkj, hx⟩ := (mem_drop_iff hsize).mp hx
    exact List.filterMap_eq_nil_iff.mp (hgapless k hempty j hkj) x hx
  | @next k out hpage _ ih => rw [ih, ← List.filterMap_append, page_append_drop]

theorem gapless_of_complete (hnodup : xs.Nodup)
    (hinj : ∀ x ∈ xs, ∀ y ∈ xs, ∀ b, f x = some b → f y = some b → x = y)
    (h : Reads (fun k => (page size k xs).filterMap f) 0 out)
    (hcomplete : ∀ x ∈ xs, ∀ b, f x = some b → b ∈ out) :
    Gapless fun k => (page size k xs).filterMap f := by
  intro k hempty j hkj
  by_contra hne
  obtain ⟨b, hb⟩ := List.exists_mem_of_ne_nil _ hne
  obtain ⟨x, hxj, hfx⟩ := List.mem_filterMap.mp hb
  have hx : x ∈ xs := List.mem_of_mem_drop (List.mem_of_mem_take hxj)
  obtain ⟨i, -, hbi, hbefore⟩ := h.mem_iff.mp (hcomplete x hx b hfx)
  obtain ⟨y, hyi, hfy⟩ := List.mem_filterMap.mp hbi
  have hy : y ∈ xs := List.mem_of_mem_drop (List.mem_of_mem_take hyi)
  cases hinj x hx y hy b hfx hfy
  -- the element is on one page only, and what is read ends before that page
  have hik : i ≤ k := Nat.le_of_not_lt fun hki => hbefore k (Nat.zero_le k) hki hempty
  have hij : i = j := by
    rcases Nat.lt_or_eq_of_le (Nat.le_trans hik hkj) with hlt | heq
    · exact absurd hxj (mem_page_disjoint hnodup hlt hyi)
    · exact heq
  have hkeq : k = j := Nat.le_antisymm hkj (hij ▸ hik)
  rw [← hkeq] at hne
  exact hne hempty

end FilterMap

/-- `chunks`: the list in pieces of `size`, the last of which may be shorter. -/
def chunks {α : Type u} (size : Nat) (xs : List α) : List (List α) :=
  (List.range ((xs.length + size - 1) / size)).map fun k => page size k xs

theorem mem_of_mem_page {α : Type u} {size k : Nat} {xs : List α} {x : α} (h : x ∈ page size k xs) :
    x ∈ xs := List.mem_of_mem_drop (List.mem_of_mem_take h)

theorem exists_mem_chunks {α : Type u} {size : Nat} (hsize : 0 < size) {xs : List α} {x : α} :
    (∃ chunk ∈ chunks size xs, x ∈ chunk) ↔ x ∈ xs := by
  constructor
  · rintro ⟨chunk, hchunk, hx⟩
    obtain ⟨k, -, rfl⟩ := List.mem_map.mp hchunk
    exact mem_of_mem_page hx
  · intro hx
    obtain ⟨i, hi, rfl⟩ := List.mem_iff_getElem.mp hx
    have hlt : i / size < (xs.length + size - 1) / size := by
      rw [Nat.lt_iff_add_one_le, Nat.le_div_iff_mul_le hsize, Nat.add_mul, Nat.one_mul]
      have := Nat.div_mul_le_self i size
      omega
    refine ⟨page size (i / size) xs, List.mem_map_of_mem (List.mem_range.mpr hlt), ?_⟩
    rw [page, List.mem_take_iff_getElem]
    have hmod := Nat.mod_lt i hsize
    have hdiv := Nat.div_add_mod i size
    refine ⟨i % size, by rw [List.length_drop]; omega, ?_⟩
    rw [List.getElem_drop]
    congr 1

section Expiring

variable {α : Type u} {xs : List α} {size k : Nat} {out : List α} {p : Nat → α → Bool}

theorem exists_reads_filter (hsize : 0 < size) (xs : List α) (p : Nat → α → Bool) :
    ∃ out, Reads (fun k => page size k (xs.filter (p k))) 0 out := by
  refine exists_reads (n := xs.length) (fun j hj => (page_eq_nil_iff hsize).mpr ?_) 0
  exact Nat.le_trans (List.length_filter_le _ _) (Nat.le_trans hj (Nat.le_mul_of_pos_left j hsize))

def KeptThroughout (size : Nat) (xs : List α) (p : Nat → α → Bool) : Prop :=
  ∀ k, size * k < xs.length → ∀ x ∈ xs, p k x = true

theorem Reads.eq_of_kept (hsize : 0 < size) (hkept : KeptThroughout size xs p)
    (h : Reads (fun k => page size k (xs.filter (p k))) k out) : out = xs.drop (size * k) := by
  induction h with
  | @last k hempty =>
    rcases Nat.lt_or_ge (size * k) xs.length with hlt | hge
    · rw [List.filter_eq_self.mpr (hkept k hlt), page_eq_nil_iff hsize] at hempty
      exact absurd hlt (Nat.not_lt.mpr hempty)
    · exact (List.drop_eq_nil_of_le hge).symm
  | @next k out hpage _ ih =>
    have hlt : size * k < xs.length := by
      refine Nat.lt_of_not_le fun hle => hpage ((page_eq_nil_iff hsize).mpr ?_)
      exact Nat.le_trans (List.length_filter_le _ _) hle
    rw [List.filter_eq_self.mpr (hkept k hlt), ih, page_append_drop]

theorem kept_of_complete (hsize : 0 < size) (hnodup : xs.Nodup)
    (hgone : ∀ i j x, i ≤ j → p j x = true → p i x = true)
    (h : Reads (fun k => page size k (xs.filter (p k))) 0 out) (hcomplete : ∀ x ∈ xs, x ∈ out) :
    KeptThroughout size xs p := by
  intro k
  induction k using Nat.strongRecOn with
  | _ k ih =>
    intro hlt x hx
    by_contra hpx
    have hwhole (j : Nat) (hjk : j < k) : xs.filter (p j) = xs := by
      have hj : size * j < xs.length := Nat.lt_of_le_of_lt (Nat.mul_le_mul_left size (Nat.le_of_lt hjk)) hlt
      exact List.filter_eq_self.mpr (ih j hjk hj)
    have hbefore : x ∈ xs.take (size * k) := by
      obtain ⟨i, -, hxi, -⟩ := h.mem_iff.mp (hcomplete x hx)
      have hpi := List.of_mem_filter (List.mem_of_mem_drop (List.mem_of_mem_take hxi))
      have hik : i < k := Nat.lt_of_not_le fun hki => hpx (hgone k i x hki hpi)
      rw [hwhole i hik] at hxi
      have htake : x ∈ xs.take (size * (i + 1)) := by
        rw [Nat.mul_succ, List.take_add]
        exact List.mem_append_right _ hxi
      exact List.take_subset_take_left xs (Nat.mul_le_mul_left size hik) htake
    -- the first row of the page is read on no page
    obtain ⟨j, -, hyj, -⟩ := h.mem_iff.mp (hcomplete xs[size * k] (List.getElem_mem hlt))
    have hdrop : xs.drop (size * k) = xs[size * k] :: xs.drop (size * k + 1) :=
      List.drop_eq_getElem_cons hlt
    rcases Nat.lt_or_ge j k with hjk | hkj
    · rw [hwhole j hjk] at hyj
      refine mem_page_disjoint hnodup hjk hyj ?_
      rw [page, hdrop, List.take_cons hsize]
      exact List.mem_cons_self
    · have hpy := List.of_mem_filter (List.mem_of_mem_drop (List.mem_of_mem_take hyj))
      have hshort : ((xs.take (size * k)).filter (p j)).length < size * k := by
        have hpj : ¬ p j x = true := fun hpj => hpx (hgone k j x hkj hpj)
        have hlength := List.length_filter_lt_length_iff_exists.mpr ⟨x, hbefore, hpj⟩
        rwa [List.length_take, Nat.min_eq_left (Nat.le_of_lt hlt)] at hlength
      have hsplit : xs.filter (p j) = (xs.take (size * k)).filter (p j) ++
          xs[size * k] :: (xs.drop (size * k + 1)).filter (p j) := by
        conv => lhs; rw [← List.take_append_drop (size * k) xs, hdrop]
        rw [List.filter_append, List.filter_cons_of_pos hpy]
      have hy := List.mem_of_mem_take hyj
      obtain ⟨m, hm⟩ := Nat.exists_eq_add_of_lt (Nat.lt_of_lt_of_le hshort (Nat.mul_le_mul_left size hkj))
      rw [hsplit, hm, Nat.add_assoc, ← List.drop_drop, List.drop_left, List.drop_succ_cons] at hy
      have hlater := List.mem_of_mem_filter (List.mem_of_mem_drop hy)
      have hnodup' := (List.drop_sublist (size * k) xs).nodup hnodup
      rw [hdrop] at hnodup'
      exact (List.nodup_cons.mp hnodup').1 hlater

end Expiring

end LibXmtp.Data
