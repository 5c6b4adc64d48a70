import LibXmtp.Data.Result
import Mathlib.Order.Compare

/-! Operations on the values of several keys, applied to an overlay of a base that is left alone.
What becomes of a key depends on its own operations only. -/

namespace LibXmtp.Data.KeyedFold

variable {ε K O S : Type} [LinearOrder K]

def operationsOn (key : K) (ops : List (K × O)) : List O :=
  ops.filterMap fun p => if p.1 = key then some p.2 else none

@[simp] theorem operationsOn_nil (key : K) : operationsOn key ([] : List (K × O)) = [] := rfl

theorem operationsOn_cons (key : K) (p : K × O) (ops : List (K × O)) :
    operationsOn key (p :: ops) =
      if p.1 = key then p.2 :: operationsOn key ops else operationsOn key ops := by
  rw [operationsOn, List.filterMap_cons]
  split <;> split <;> simp_all [operationsOn]

theorem mem_operationsOn {key : K} {op : O} {ops : List (K × O)} :
    op ∈ operationsOn key ops ↔ (key, op) ∈ ops := by
  rw [operationsOn, List.mem_filterMap]
  constructor
  · intro ⟨p, hp, h⟩
    split at h
    · rename_i hkey
      cases h
      rw [← hkey]
      exact hp
    · cases h
  · intro h
    exact ⟨_, h, if_pos rfl⟩

abbrev Overlay (K S : Type) [LinearOrder K] := Std.TreeMap K S

variable (f : K → S → O → Except ε S) (base : K → S)

def current (m : Overlay K S) (key : K) : S := m[key]?.getD (base key)

def step (m : Overlay K S) (p : K × O) : Except ε (Overlay K S) := do
  let value ← f p.1 (current base m p.1) p.2
  return m.insert p.1 value

def foldOn (key : K) (ops : List (K × O)) (value : S) : Except ε S :=
  (operationsOn key ops).foldlM (f key) value

variable {f base}

theorem current_insert (m : Overlay K S) (key k : K) (value : S) :
    current base (m.insert key value) k = if k = key then value else current base m k := by
  simp only [current, Std.TreeMap.getElem?_insert, compare_eq_iff_eq, eq_comm (a := key)]
  split <;> rfl

theorem foldOn_cons (key : K) (p : K × O) (ops : List (K × O)) (value : S) :
    foldOn f key (p :: ops) value =
      if p.1 = key then f key value p.2 >>= foldOn f key ops else foldOn f key ops value := by
  rw [foldOn, operationsOn_cons]
  split
  · rfl
  · rfl

theorem foldOn_invariant {P : S → Prop} {key : K} {ops : List (K × O)} {value value' : S}
    (h : foldOn f key ops value = .ok value') (hvalue : P value)
    (keep : ∀ op s s', (key, op) ∈ ops → P s → f key s op = .ok s' → P s') : P value' := by
  apply (Steps.foldlM_eq_ok.mp h).invariant hvalue
  intro s op s' hop
  exact keep op s s' (mem_operationsOn.mp hop)

theorem step_eq_ok {m n : Overlay K S} {p : K × O} :
    step f base m p = .ok n ↔
      ∃ value, f p.1 (current base m p.1) p.2 = .ok value ∧ m.insert p.1 value = n := by
  simp [step]

theorem foldOn_of_foldlM {ops : List (K × O)} {m n : Overlay K S}
    (h : ops.foldlM (step f base) m = .ok n) (key : K) :
    foldOn f key ops (current base m key) = .ok (current base n key) ∧
      (key ∈ n ↔ key ∈ m ∨ operationsOn key ops ≠ []) := by
  induction ops generalizing m with
  | nil =>
    cases h
    simp [foldOn]
  | cons p ops ih =>
    simp only [List.foldlM_cons, bind_eq_ok, step_eq_ok] at h
    obtain ⟨m', ⟨value, hvalue, hm'⟩, hn⟩ := h
    subst hm'
    obtain ⟨hfold, htouched⟩ := ih hn
    rw [Std.TreeMap.mem_insert, compare_eq_iff_eq] at htouched
    rw [foldOn_cons, operationsOn_cons]
    rw [current_insert] at hfold
    split
    · rename_i hkey
      subst hkey
      rw [if_pos rfl] at hfold
      rw [hvalue, ok_bind]
      simp [hfold, htouched]
    · rename_i hkey
      rw [if_neg (Ne.symm hkey)] at hfold
      simp [hfold, htouched, hkey]

theorem exists_foldlM {ops : List (K × O)} {m : Overlay K S}
    (h : ∀ key, ∃ value, foldOn f key ops (current base m key) = .ok value) :
    ∃ n, ops.foldlM (step f base) m = .ok n := by
  induction ops generalizing m with
  | nil => exact ⟨m, rfl⟩
  | cons p ops ih =>
    have ⟨value, hvalue⟩ := h p.1
    rw [foldOn_cons, if_pos rfl, bind_eq_ok] at hvalue
    have ⟨next, hnext, hrest⟩ := hvalue
    have ⟨n, hn⟩ := ih (m := m.insert p.1 next) (by
      intro key
      rw [current_insert]
      split
      · rename_i hkey
        subst hkey
        exact ⟨value, hrest⟩
      · rename_i hkey
        have hkey' := h key
        rw [foldOn_cons, if_neg (Ne.symm hkey)] at hkey'
        exact hkey')
    refine ⟨n, ?_⟩
    simp only [List.foldlM_cons, bind_eq_ok, step_eq_ok]
    exact ⟨_, ⟨next, hnext, rfl⟩, hn⟩

theorem foldlM_isOk_iff {ops : List (K × O)} {m : Overlay K S} :
    (∃ n, ops.foldlM (step f base) m = .ok n) ↔
      ∀ key, ∃ value, foldOn f key ops (current base m key) = .ok value := by
  constructor
  · intro ⟨n, hn⟩ key
    exact ⟨_, (foldOn_of_foldlM hn key).1⟩
  · exact exists_foldlM

theorem getElem?_of_foldlM {ops : List (K × O)} {n : Overlay K S}
    (h : ops.foldlM (step f base) ∅ = .ok n) (key : K) :
    if operationsOn key ops = [] then n[key]? = none
    else ∃ value, foldOn f key ops (base key) = .ok value ∧ n[key]? = some value := by
  have ⟨hfold, htouched⟩ := foldOn_of_foldlM h key
  have hempty : current base (∅ : Overlay K S) key = base key := by simp [current]
  rw [hempty] at hfold
  split
  · rename_i hops
    simpa [hops] using htouched
  · rename_i hops
    have hmem : key ∈ n := htouched.mpr (.inr hops)
    have hget : n[key]? = some n[key] := Std.TreeMap.getElem?_eq_some_getElem hmem
    refine ⟨n[key], ?_, hget⟩
    rw [hfold, current, hget]
    rfl

theorem toList_eq_of_operationsOn {ops ops' : List (K × O)} {n n' : Overlay K S}
    (hops : ∀ key, operationsOn key ops = operationsOn key ops')
    (hn : ops.foldlM (step f base) ∅ = .ok n) (hn' : ops'.foldlM (step f base) ∅ = .ok n') :
    n.toList = n'.toList := by
  rw [← Std.TreeMap.equiv_iff_toList_eq]
  apply Std.TreeMap.Equiv.of_forall_constGet?_eq
  intro key
  have h := getElem?_of_foldlM hn key
  have h' := getElem?_of_foldlM hn' key
  rw [← hops] at h'
  split at h
  · rename_i hnil
    rw [if_pos hnil] at h'
    rw [h, h']
  · rename_i hcons
    rw [if_neg hcons, foldOn, ← hops] at h'
    have ⟨value, hvalue, hget⟩ := h
    have ⟨value', hvalue', hget'⟩ := h'
    rw [foldOn, hvalue', Except.ok.injEq] at hvalue
    rw [hget, hget', hvalue]

end LibXmtp.Data.KeyedFold
