import Mathlib.Data.List.Nodup

universe u

namespace LibXmtp.Data

structure RowLog {ρ : Type u} (rowid : ρ → Nat) where
  rows : List ρ
  ascending : rows.Pairwise fun r s => rowid r < rowid s
  positive : ∀ r ∈ rows, 0 < rowid r

theorem filter_isSuffix {α : Type u} {cond : α → Bool} {xs : List α}
    (h : xs.Pairwise fun x y => cond x = true → cond y = true) : xs.filter cond <:+ xs := by
  induction h with
  | nil => exact List.suffix_rfl
  | @cons x xs hx _ ih =>
    cases hcond : cond x with
    | true =>
      have hall : (x :: xs).filter cond = x :: xs := by
        rw [List.filter_eq_self]
        intro y hy
        rcases List.mem_cons.mp hy with rfl | hy
        · exact hcond
        · exact hx y hy hcond
      exact ⟨[], by rw [List.nil_append, hall]⟩
    | false =>
      rw [List.filter_cons_of_neg (by simp [hcond])]
      exact ih.trans (List.suffix_cons x xs)

namespace RowLog

variable {ρ : Type u} {rowid : ρ → Nat} (t : RowLog rowid)

def empty : RowLog rowid := ⟨[], .nil, fun _ h => absurd h List.not_mem_nil⟩

def lastRowid : Nat := t.rows.getLast?.elim 0 rowid

theorem le_getLast {rows : List ρ} {r last : ρ} (h : rows.Pairwise fun r s => rowid r < rowid s)
    (hlast : rows.getLast? = some last) (hr : r ∈ rows) : rowid r ≤ rowid last := by
  obtain ⟨init, rfl⟩ := List.getLast?_eq_some_iff.mp hlast
  rcases List.mem_append.mp hr with hr | hr
  · exact Nat.le_of_lt ((List.pairwise_append.mp h).2.2 r hr last List.mem_cons_self)
  · exact Nat.le_of_eq (congrArg rowid (List.mem_singleton.mp hr))

theorem le_lastRowid {r : ρ} (hr : r ∈ t.rows) : rowid r ≤ t.lastRowid := by
  cases hlast : t.rows.getLast? with
  | none =>
    rw [List.getLast?_eq_none_iff.mp hlast] at hr
    cases hr
  | some last =>
    rw [lastRowid, hlast]
    exact le_getLast t.ascending hlast hr

def append (row : Nat → ρ) (hrow : ∀ n, rowid (row n) = n) : RowLog rowid where
  rows := t.rows ++ [row (t.lastRowid + 1)]
  ascending := by
    rw [List.pairwise_append]
    refine ⟨t.ascending, List.pairwise_singleton _ _, ?_⟩
    intro r hr s hs
    rw [List.mem_singleton.mp hs, hrow]
    exact Nat.lt_succ_of_le (t.le_lastRowid hr)
  positive r hr := by
    rcases List.mem_append.mp hr with hr | hr
    · exact t.positive r hr
    · rw [List.mem_singleton.mp hr, hrow]
      exact Nat.succ_pos _

@[simp] theorem rows_append {row : Nat → ρ} {hrow : ∀ n, rowid (row n) = n} :
    (t.append row hrow).rows = t.rows ++ [row (t.lastRowid + 1)] := rfl

@[simp] theorem lastRowid_append {row : Nat → ρ} {hrow : ∀ n, rowid (row n) = n} :
    (t.append row hrow).lastRowid = t.lastRowid + 1 := by
  simp [lastRowid, hrow]

def select (cond : ρ → Bool) : List ρ := t.rows.filter cond

/-- `SELECT .. WHERE cond ORDER BY rowid DESC LIMIT 1`. -/
def latest (cond : ρ → Bool) : Option ρ := (t.select cond).getLast?

theorem latest_append (cond : ρ → Bool) {row : Nat → ρ} {hrow : ∀ n, rowid (row n) = n} :
    (t.append row hrow).latest cond =
      if cond (row (t.lastRowid + 1)) then some (row (t.lastRowid + 1)) else t.latest cond := by
  rw [latest, select, rows_append, List.filter_append]
  split
  · rename_i h
    simp [h]
  · rename_i h
    simp [h, latest, select]

@[simp] theorem mem_select {cond : ρ → Bool} {r : ρ} :
    r ∈ t.select cond ↔ r ∈ t.rows ∧ cond r = true := List.mem_filter

theorem pairwise_select (cond : ρ → Bool) :
    (t.select cond).Pairwise fun r s => rowid r < rowid s := t.ascending.filter cond

variable {t} {cond : ρ → Bool} {last r : ρ}

theorem mem_of_latest (h : t.latest cond = some last) : last ∈ t.rows ∧ cond last = true :=
  t.mem_select.mp (List.mem_of_getLast? h)

end RowLog

end LibXmtp.Data
