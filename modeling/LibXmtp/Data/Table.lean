import Mathlib.Data.List.Dedup
import Mathlib.Data.List.Nodup
import Mathlib.Data.List.Sort

universe u v

namespace LibXmtp.Data

structure Table {ρ : Type u} {κ : Type v} (key : ρ → κ) where
  rows : List ρ
  distinct : (rows.map key).Nodup

namespace Table

variable {ρ : Type u} {κ : Type v} {key : ρ → κ}

def empty : Table key := ⟨[], List.nodup_nil⟩

theorem eq_of_key_eq (t : Table key) {r r' : ρ} (hr : r ∈ t.rows) (hr' : r' ∈ t.rows)
    (h : key r = key r') : r = r' :=
  List.inj_on_of_nodup_map t.distinct hr hr' h

section Insert

variable [DecidableEq κ]

def fetch (t : Table key) (k : κ) : Option ρ := t.rows.find? fun r => key r = k

theorem fetch_eq_some_iff {t : Table key} {k : κ} {r : ρ} :
    t.fetch k = some r ↔ r ∈ t.rows ∧ key r = k := by
  constructor
  · intro h
    exact ⟨List.mem_of_find?_eq_some h, by simpa using List.find?_some h⟩
  · rintro ⟨hmem, rfl⟩
    have hsome : (t.fetch (key r)).isSome := by
      rw [fetch, List.find?_isSome]
      exact ⟨r, hmem, by simp⟩
    obtain ⟨r', hr'⟩ := Option.isSome_iff_exists.mp hsome
    have hkey : key r' = key r := by simpa using List.find?_some hr'
    rw [hr', t.eq_of_key_eq (List.mem_of_find?_eq_some hr') hmem hkey]

/-- `INSERT OR IGNORE`: a row whose primary key is taken is dropped. -/
def insertOrIgnore (t : Table key) (r : ρ) : Table key :=
  if h : key r ∈ t.rows.map key then t
  else ⟨t.rows ++ [r], by
    rw [List.map_append, List.nodup_append]
    refine ⟨t.distinct, List.nodup_singleton _, ?_⟩
    rintro k hk _ hk' rfl
    rw [List.map_singleton, List.mem_singleton] at hk'
    exact h (hk' ▸ hk)⟩

theorem mem_insertOrIgnore {t : Table key} {r r' : ρ} :
    r' ∈ (t.insertOrIgnore r).rows ↔ r' ∈ t.rows ∨ r' = r ∧ key r ∉ t.rows.map key := by
  unfold insertOrIgnore
  split
  · rename_i h
    simp only [h, not_true_eq_false, and_false, or_false]
  · rename_i h
    simp only [List.mem_append, List.mem_singleton, h, not_false_eq_true, and_true]

theorem fetch_eq_none_iff {t : Table key} {k : κ} : t.fetch k = none ↔ k ∉ t.rows.map key := by
  rw [fetch, List.find?_eq_none, List.mem_map]
  constructor
  · rintro h ⟨r, hr, hkey⟩
    exact h r hr (decide_eq_true hkey)
  · intro h r hr hkey
    exact h ⟨r, hr, of_decide_eq_true hkey⟩

theorem filter_key (t : Table key) (k : κ) :
    t.rows.filter (fun r => key r = k) = (t.fetch k).toList := by
  have hall {r : ρ} (hr : r ∈ t.rows.filter fun r => key r = k) : t.fetch k = some r := by
    obtain ⟨hmem, hkey⟩ := List.mem_filter.mp hr
    exact fetch_eq_some_iff.mpr ⟨hmem, of_decide_eq_true hkey⟩
  have hnodup : (t.rows.filter fun r => key r = k).Nodup :=
    (List.Nodup.of_map key t.distinct).filter _
  generalize hrows : t.rows.filter (fun r => key r = k) = rows at hall hnodup
  cases rows with
  | nil =>
    rw [List.filter_eq_nil_iff] at hrows
    rw [fetch, List.find?_eq_none.mpr fun r hr => by simpa using hrows r hr]
    rfl
  | cons r rows =>
    cases rows with
    | nil =>
      rw [hall List.mem_cons_self]
      rfl
    | cons s rows =>
      have heq := (hall List.mem_cons_self).symm.trans (hall (List.mem_cons_of_mem _ List.mem_cons_self))
      cases heq
      simp at hnodup

theorem fetch_insertOrIgnore_of_none {t : Table key} {r : ρ} (h : t.fetch (key r) = none) (k : κ) :
    (t.insertOrIgnore r).fetch k = if key r = k then some r else t.fetch k := by
  have hnot := fetch_eq_none_iff.mp h
  split
  · rename_i hk
    exact fetch_eq_some_iff.mpr ⟨mem_insertOrIgnore.mpr (.inr ⟨rfl, hnot⟩), hk⟩
  · rename_i hk
    apply Option.ext
    intro r'
    rw [fetch_eq_some_iff, fetch_eq_some_iff, mem_insertOrIgnore]
    constructor
    · rintro ⟨hmem | ⟨rfl, -⟩, hkey⟩
      · exact ⟨hmem, hkey⟩
      · exact absurd hkey hk
    · rintro ⟨hmem, hkey⟩
      exact ⟨.inl hmem, hkey⟩

def insertAllOrIgnore (t : Table key) (rs : List ρ) : Table key := rs.foldl insertOrIgnore t

theorem mem_insertAllOrIgnore_of_mem {t : Table key} {rs : List ρ} {r : ρ} (h : r ∈ t.rows) :
    r ∈ (t.insertAllOrIgnore rs).rows := by
  induction rs generalizing t with
  | nil => exact h
  | cons s rs ih =>
    apply ih
    exact mem_insertOrIgnore.mpr (.inl h)

theorem mem_of_mem_insertAllOrIgnore {t : Table key} {rs : List ρ} {r : ρ}
    (h : r ∈ (t.insertAllOrIgnore rs).rows) :
    r ∈ t.rows ∨ r ∈ rs ∧ key r ∉ t.rows.map key := by
  induction rs generalizing t with
  | nil => exact .inl h
  | cons s rs ih =>
    rcases ih h with h | ⟨hmem, hkey⟩
    · rcases mem_insertOrIgnore.mp h with h | ⟨rfl, hkey⟩
      · exact .inl h
      · exact .inr ⟨List.mem_cons_self, hkey⟩
    · refine .inr ⟨List.mem_cons_of_mem _ hmem, fun hk => hkey ?_⟩
      obtain ⟨r', hr', hrk⟩ := List.mem_map.mp hk
      exact List.mem_map.mpr ⟨r', mem_insertOrIgnore.mpr (.inl hr'), hrk⟩

theorem key_mem_insertOrIgnore (t : Table key) (r : ρ) :
    key r ∈ (t.insertOrIgnore r).rows.map key := by
  unfold insertOrIgnore
  split
  · assumption
  · simp

theorem key_mem_insertAllOrIgnore (t : Table key) {rs : List ρ} {r : ρ} (h : r ∈ rs) :
    key r ∈ (t.insertAllOrIgnore rs).rows.map key := by
  induction rs generalizing t with
  | nil => cases h
  | cons s rs ih =>
    cases h with
    | head =>
      obtain ⟨r', hr', hkey⟩ := List.mem_map.mp (t.key_mem_insertOrIgnore r)
      have hmem : r' ∈ ((t.insertOrIgnore r).insertAllOrIgnore rs).rows :=
        mem_insertAllOrIgnore_of_mem hr'
      exact List.mem_map.mpr ⟨r', hmem, hkey⟩
    | tail _ h => exact ih (t.insertOrIgnore s) h

/-- `INSERT .. ON CONFLICT DO UPDATE .. WHERE`: a row whose primary key is taken replaces the one
that has it if that one is `stale`. -/
def upsertWhere (t : Table key) (stale : ρ → Bool) (r : ρ) : Table key :=
  if h : key r ∈ t.rows.map key then
    ⟨t.rows.map fun r' => if key r' = key r ∧ stale r' then r else r', by
      have hkeys : (t.rows.map fun r' => if key r' = key r ∧ stale r' then r else r').map key =
          t.rows.map key := by
        rw [List.map_map]
        apply List.map_congr_left
        intro r' _
        simp only [Function.comp_apply]
        split
        · rename_i heq
          exact heq.1.symm
        · rfl
      rw [hkeys]
      exact t.distinct⟩
  else t.insertOrIgnore r

theorem mem_of_mem_upsertWhere {t : Table key} {stale : ρ → Bool} {r r' : ρ}
    (h : r' ∈ (t.upsertWhere stale r).rows) : r' ∈ t.rows ∨ r' = r := by
  unfold upsertWhere at h
  split at h
  · obtain ⟨r'', hmem, heq⟩ := List.mem_map.mp h
    split at heq
    · exact .inr heq.symm
    · exact .inl (heq ▸ hmem)
  · exact (mem_insertOrIgnore.mp h).imp id And.left

theorem fetch_upsertWhere (t : Table key) (stale : ρ → Bool) (r : ρ) (k : κ) :
    (t.upsertWhere stale r).fetch k =
      if key r = k then some ((t.fetch k).elim r fun r' => if stale r' then r else r')
      else t.fetch k := by
  unfold upsertWhere
  split
  · rename_i hkey
    obtain ⟨r', hr', heq⟩ := List.mem_map.mp hkey
    have hfetch (k : κ) : (t.rows.map fun r' => if key r' = key r ∧ stale r' then r else r').find?
        (fun r => key r = k) = (t.fetch k).map fun r' =>
          if key r' = key r ∧ stale r' then r else r' := by
      rw [List.find?_map, fetch]
      congr 2
      funext r'
      simp only [Function.comp_apply]
      split
      · rename_i hstale
        rw [hstale.1]
      · rfl
    change (t.rows.map fun r' => if key r' = key r ∧ stale r' then r else r').find? _ = _
    rw [hfetch]
    split
    · rename_i hk
      have hsome : t.fetch k = some r' := fetch_eq_some_iff.mpr ⟨hr', heq.trans hk⟩
      simp [hsome, heq]
    · rename_i hk
      cases hsome : t.fetch k with
      | none => rfl
      | some s =>
        have hne : key s ≠ key r := by
          rw [(fetch_eq_some_iff.mp hsome).2]
          exact fun h => hk h.symm
        simp [hne]
  · rename_i hnot
    have hnone := fetch_eq_none_iff.mpr hnot
    rw [fetch_insertOrIgnore_of_none hnone]
    split
    · rename_i hk
      rw [← hk, hnone]
      rfl
    · rfl

end Insert

def deleteWhere (t : Table key) (cond : ρ → Bool) : Table key :=
  ⟨t.rows.filter fun r => !cond r, t.distinct.sublist (List.filter_sublist.map key)⟩

@[simp] theorem mem_deleteWhere {t : Table key} {cond : ρ → Bool} {r : ρ} :
    r ∈ (t.deleteWhere cond).rows ↔ r ∈ t.rows ∧ cond r = false := by
  simp [deleteWhere]

section Update

variable (t : Table key) (cond : ρ → Bool) {f : ρ → ρ} (hf : ∀ r, key (f r) = key r)

def updateWhere : Table key where
  rows := t.rows.map fun r => if cond r then f r else r
  distinct := by
    have hkeys : (t.rows.map fun r => if cond r then f r else r).map key = t.rows.map key := by
      rw [List.map_map]
      apply List.map_congr_left
      intro r _
      simp only [Function.comp_apply]
      split
      · exact hf r
      · rfl
    rw [hkeys]
    exact t.distinct

theorem mem_updateWhere {r : ρ} : r ∈ (t.updateWhere cond hf).rows ↔
    ∃ r' ∈ t.rows, (if cond r' then f r' else r') = r := by
  simp [updateWhere]

theorem fetch_updateWhere [DecidableEq κ] (k : κ) : (t.updateWhere cond hf).fetch k =
    (t.fetch k).map fun r => if cond r then f r else r := by
  rw [fetch, updateWhere, List.find?_map, fetch]
  congr 2
  funext r
  simp only [Function.comp_apply]
  split
  · rw [hf]
  · rfl

end Update

def select (t : Table key) (column : ρ → Int) (cond : ρ → Bool) : List ρ :=
  (t.rows.filter cond).insertionSort fun r s => column r ≤ column s

theorem mem_select {t : Table key} {column : ρ → Int} {cond : ρ → Bool} {r : ρ} :
    r ∈ t.select column cond ↔ r ∈ t.rows ∧ cond r = true := by
  simp [select, List.mem_insertionSort]

theorem pairwise_select {t : Table key} {column : ρ → Int} {cond : ρ → Bool}
    (h : ∀ r ∈ t.rows, ∀ s ∈ t.rows, cond r = true → cond s = true → column r = column s →
      key r = key s) :
    (t.select column cond).Pairwise fun r s => column r < column s := by
  have : Std.Total fun r s : ρ => column r ≤ column s := ⟨fun r s => le_total (column r) (column s)⟩
  have : IsTrans ρ fun r s => column r ≤ column s := ⟨fun r s q => le_trans⟩
  have hnodup : (t.select column cond).Nodup := by
    rw [select, (List.perm_insertionSort _ _).nodup_iff]
    exact (List.Nodup.of_map _ t.distinct).filter _
  have hle : (t.select column cond).Pairwise fun r s => column r ≤ column s :=
    List.pairwise_insertionSort _ _
  refine (hle.and hnodup).imp_of_mem fun {r s} hr hs ⟨hrs, hne⟩ => ?_
  obtain ⟨hr, hcr⟩ := mem_select.mp hr
  obtain ⟨hs, hcs⟩ := mem_select.mp hs
  apply lt_of_le_of_ne hrs
  intro heq
  exact hne (t.eq_of_key_eq hr hs (h r hr s hs hcr hcs heq))

end Table

theorem eq_of_pairwise_lt {ρ : Type u} {column : ρ → Int} {rs ss : List ρ}
    (hr : rs.Pairwise fun a b => column a < column b)
    (hs : ss.Pairwise fun a b => column a < column b) (h : ∀ a, a ∈ rs ↔ a ∈ ss) : rs = ss := by
  have : Std.Irrefl fun a b : ρ => column a < column b := ⟨fun a => lt_irrefl (column a)⟩
  have : Std.Antisymm fun a b : ρ => column a < column b :=
    ⟨fun a b hab hba => absurd hab (lt_asymm hba)⟩
  exact hr.eq_of_mem_iff hs h

theorem le_getLast_of_pairwise_lt {ρ : Type u} {column : ρ → Int} {rs : List ρ} {a last : ρ}
    (hr : rs.Pairwise fun a b => column a < column b) (hlast : rs.getLast? = some last)
    (ha : a ∈ rs) : column a ≤ column last := by
  obtain ⟨init, rfl⟩ := List.getLast?_eq_some_iff.mp hlast
  rcases List.mem_append.mp ha with ha | ha
  · exact le_of_lt ((List.pairwise_append.mp hr).2.2 a ha last List.mem_cons_self)
  · rw [List.mem_singleton.mp ha]

section Stable

variable {ρ : Type u} {r s : ρ → ρ → Prop} [DecidableRel r] {l : List ρ}

theorem pairwise_orderedInsert {a : ρ} (ha : ∀ b ∈ l, s a b)
    (h : l.Pairwise fun a b => r b a → s a b) :
    (l.orderedInsert r a).Pairwise fun a b => r b a → s a b := by
  induction l with
  | nil => exact List.pairwise_singleton _ _
  | cons b l ih =>
    obtain ⟨hb, hl⟩ := List.pairwise_cons.mp h
    rw [List.orderedInsert_cons]
    split
    · exact List.pairwise_cons.mpr ⟨fun c hc _ => ha c hc, h⟩
    · rename_i hnot
      refine List.pairwise_cons.mpr
        ⟨fun c hc => ?_, ih (fun c hc => ha c (List.mem_cons_of_mem _ hc)) hl⟩
      rcases (List.mem_orderedInsert r).mp hc with rfl | hc
      · exact fun hle => absurd hle hnot
      · exact hb c hc

theorem pairwise_insertionSort_of_pairwise (h : l.Pairwise s) :
    (l.insertionSort r).Pairwise fun a b => r b a → s a b := by
  induction l with
  | nil => exact List.Pairwise.nil
  | cons a l ih =>
    obtain ⟨ha, hl⟩ := List.pairwise_cons.mp h
    rw [List.insertionSort_cons]
    exact pairwise_orderedInsert (fun b hb => ha b ((List.mem_insertionSort r).mp hb)) (ih hl)

end Stable

def groupMax {ρ : Type u} {κ : Type v} [DecidableEq κ] (key : ρ → κ) (column : ρ → Nat)
    (rows : List ρ) : List (κ × Option Nat) :=
  (rows.map key).dedup.map fun k => (k, ((rows.filter fun r => key r = k).map column).max?)

end LibXmtp.Data
