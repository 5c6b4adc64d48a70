import LibXmtp.Data.Result
import Mathlib.Data.List.Induction
import Mathlib.Data.List.Nodup
import Mathlib.Data.List.Perm.Subperm

universe u v

namespace LibXmtp.Data

/-- No two entries have equal keys. Inserting under a stored key replaces the value and keeps
the stored key, as `std::collections::HashMap` does. -/
structure HashMap (κ : Type u) (ν : Type v) [BEq κ] where
  entries : List (κ × ν)
  distinct : entries.Pairwise fun a b => (a.1 == b.1) = false

namespace HashMap

variable {κ : Type u} {ν : Type v} [BEq κ]

def upsert (k : κ) (v : ν) : List (κ × ν) → List (κ × ν)
  | [] => [(k, v)]
  | e :: es => if e.1 == k then (e.1, v) :: es else e :: upsert k v es

def lookup (k : κ) (es : List (κ × ν)) : Option (κ × ν) := es.find? fun e => e.1 == k

theorem mem_upsert {k : κ} {v : ν} {es : List (κ × ν)} {x : κ × ν} (h : x ∈ upsert k v es) :
    x.1 = k ∨ ∃ y ∈ es, y.1 = x.1 := by
  induction es with
  | nil =>
    simp only [upsert, List.mem_singleton] at h
    subst h
    exact .inl rfl
  | cons e es ih =>
    simp only [upsert] at h
    split at h
    · rcases List.mem_cons.mp h with rfl | h
      · exact .inr ⟨e, by simp, rfl⟩
      · exact .inr ⟨x, by simp [h], rfl⟩
    · rcases List.mem_cons.mp h with rfl | h
      · exact .inr ⟨x, by simp, rfl⟩
      · rcases ih h with hk | ⟨y, hy, hyx⟩
        · exact .inl hk
        · exact .inr ⟨y, by simp [hy], hyx⟩

theorem distinct_upsert {k : κ} {v : ν} {es : List (κ × ν)}
    (h : es.Pairwise fun a b => (a.1 == b.1) = false) :
    (upsert k v es).Pairwise fun a b => (a.1 == b.1) = false := by
  induction es with
  | nil => simp [upsert]
  | cons e es ih =>
    obtain ⟨he, hes⟩ := List.pairwise_cons.mp h
    simp only [upsert]
    split
    · exact List.pairwise_cons.mpr ⟨he, hes⟩
    · rename_i hne
      refine List.pairwise_cons.mpr ⟨fun x hx => ?_, ih hes⟩
      rcases mem_upsert hx with hk | ⟨y, hy, hyx⟩
      · rw [hk]
        exact eq_false_of_ne_true hne
      · rw [← hyx]
        exact he y hy

def empty : HashMap κ ν := ⟨[], .nil⟩

def insert (m : HashMap κ ν) (k : κ) (v : ν) : HashMap κ ν :=
  ⟨upsert k v m.entries, distinct_upsert m.distinct⟩

def remove (m : HashMap κ ν) (k : κ) : HashMap κ ν :=
  ⟨m.entries.filter fun e => !(e.1 == k), m.distinct.filter _⟩

def removeAll (m : HashMap κ ν) (ks : List κ) : HashMap κ ν := ks.foldl remove m

def getKeyValue (m : HashMap κ ν) (k : κ) : Option (κ × ν) := lookup k m.entries

def get (m : HashMap κ ν) (k : κ) : Option ν := (m.getKeyValue k).map Prod.snd

def containsKey (m : HashMap κ ν) (k : κ) : Bool := (m.getKeyValue k).isSome

def keys (m : HashMap κ ν) : List κ := m.entries.map Prod.fst

def values (m : HashMap κ ν) : List ν := m.entries.map Prod.snd

/-- `==` on maps: as many entries, and equal values under the same keys. -/
def eq [BEq ν] (m n : HashMap κ ν) : Bool :=
  m.entries.length == n.entries.length && m.entries.all fun e => (n.get e.1).any (e.2 == ·)

/-- `collect`: the pairs are inserted one after the other. -/
def ofList (es : List (κ × ν)) : HashMap κ ν := es.foldl (fun m e => m.insert e.1 e.2) empty

/-- The same contents, whatever the order the entries are iterated in. -/
def Equiv (m n : HashMap κ ν) : Prop := ∀ k, m.getKeyValue k = n.getKeyValue k

@[refl] theorem Equiv.refl (m : HashMap κ ν) : m.Equiv m := fun _ => rfl

@[symm] theorem Equiv.symm {m n : HashMap κ ν} (h : m.Equiv n) : n.Equiv m := fun k => (h k).symm

@[trans] theorem Equiv.trans {m n o : HashMap κ ν} (h : m.Equiv n) (h' : n.Equiv o) : m.Equiv o :=
  fun k => (h k).trans (h' k)

theorem Equiv.get {m n : HashMap κ ν} (h : m.Equiv n) (k : κ) : m.get k = n.get k := by
  simp only [HashMap.get, h k]

theorem Equiv.containsKey {m n : HashMap κ ν} (h : m.Equiv n) (k : κ) :
    m.containsKey k = n.containsKey k := by simp only [HashMap.containsKey, h k]

@[simp] theorem getKeyValue_empty (k : κ) : (empty : HashMap κ ν).getKeyValue k = none := rfl

theorem containsKey_eq_isSome_get (m : HashMap κ ν) (k : κ) :
    m.containsKey k = (m.get k).isSome := by simp [containsKey, get]

theorem mem_of_getKeyValue {m : HashMap κ ν} {k : κ} {e : κ × ν} (h : m.getKeyValue k = some e) :
    e ∈ m.entries ∧ (e.1 == k) = true := by
  unfold getKeyValue lookup at h
  exact ⟨List.mem_of_find?_eq_some h, by simpa using List.find?_some h⟩

theorem mem_entries_of_remove {m : HashMap κ ν} {k : κ} {e : κ × ν}
    (h : e ∈ (m.remove k).entries) : e ∈ m.entries := List.mem_of_mem_filter h

section Equivalence

variable [EquivBEq κ]

theorem lookup_upsert (k a : κ) (v : ν) (es : List (κ × ν)) :
    lookup a (upsert k v es) =
      if k == a then some ((lookup k es).elim k Prod.fst, v) else lookup a es := by
  induction es with
  | nil => cases hka : k == a <;> simp [upsert, lookup, hka]
  | cons e es ih =>
    simp only [upsert]
    by_cases hek : (e.1 == k) = true
    · have hea : (e.1 == a) = (k == a) := BEq.congr_left hek
      cases hka : k == a <;> simp [lookup, hek, hea, hka]
    · have hek' : (e.1 == k) = false := eq_false_of_ne_true hek
      simp only [hek']
      cases hka : k == a
      · rw [hka] at ih
        cases hea : e.1 == a
        · simpa [lookup, hea] using ih
        · simp [lookup, hea]
      · have hea : (e.1 == a) = false := by rw [← BEq.congr_right hka]; exact hek'
        rw [hka] at ih
        simpa [lookup, hea, hek'] using ih

theorem getKeyValue_insert (m : HashMap κ ν) (k a : κ) (v : ν) :
    (m.insert k v).getKeyValue a =
      if k == a then some ((m.getKeyValue k).elim k Prod.fst, v) else m.getKeyValue a :=
  lookup_upsert k a v m.entries

theorem getKeyValue_remove (m : HashMap κ ν) (k a : κ) :
    (m.remove k).getKeyValue a = if k == a then none else m.getKeyValue a := by
  simp only [getKeyValue, lookup, remove, List.find?_filter]
  cases hka : k == a
  · simp only [Bool.false_eq_true, if_false]
    congr 1
    funext e
    cases hea : e.1 == a
    · simp
    · have hek : (e.1 == k) = false := by rw [BEq.congr_left hea, BEq.comm]; exact hka
      simp [hek]
  · simp only [if_true, List.find?_eq_none]
    intro e _
    have hek : (e.1 == k) = (e.1 == a) := BEq.congr_right hka
    simp [hek]

theorem getKeyValue_removeAll (m : HashMap κ ν) (ks : List κ) (a : κ) :
    (m.removeAll ks).getKeyValue a = if ks.any (· == a) then none else m.getKeyValue a := by
  induction ks generalizing m with
  | nil => rfl
  | cons k ks ih =>
    simp only [removeAll, List.foldl_cons] at ih ⊢
    rw [ih, getKeyValue_remove]
    cases hka : k == a <;> simp [hka]

@[simp] theorem get_insert (m : HashMap κ ν) (k a : κ) (v : ν) :
    (m.insert k v).get a = if k == a then some v else m.get a := by
  simp only [get, getKeyValue_insert]
  split <;> rfl

@[simp] theorem get_remove (m : HashMap κ ν) (k a : κ) :
    (m.remove k).get a = if k == a then none else m.get a := by
  simp only [get, getKeyValue_remove]
  split <;> rfl

@[simp] theorem containsKey_insert (m : HashMap κ ν) (k a : κ) (v : ν) :
    (m.insert k v).containsKey a = (k == a || m.containsKey a) := by
  simp only [containsKey, getKeyValue_insert]
  cases k == a <;> simp

@[simp] theorem containsKey_remove (m : HashMap κ ν) (k a : κ) :
    (m.remove k).containsKey a = (!(k == a) && m.containsKey a) := by
  simp only [containsKey, getKeyValue_remove]
  cases k == a <;> simp

theorem Equiv.insert {m n : HashMap κ ν} (h : m.Equiv n) (k : κ) (v : ν) :
    (m.insert k v).Equiv (n.insert k v) := by
  intro a
  rw [getKeyValue_insert, getKeyValue_insert, h k, h a]

theorem Equiv.remove {m n : HashMap κ ν} (h : m.Equiv n) (k : κ) :
    (m.remove k).Equiv (n.remove k) := by
  intro a
  rw [getKeyValue_remove, getKeyValue_remove, h a]

theorem Equiv.removeAll {m n : HashMap κ ν} (h : m.Equiv n) {ks ls : List κ} (hks : ks.Perm ls) :
    (m.removeAll ks).Equiv (n.removeAll ls) := by
  intro a
  have hany : ks.any (· == a) = ls.any (· == a) := by
    rw [Bool.eq_iff_iff]
    simp only [List.any_eq_true, hks.mem_iff]
  rw [getKeyValue_removeAll, getKeyValue_removeAll, h a, hany]

theorem lookup_eq_some_iff {es : List (κ × ν)}
    (hes : es.Pairwise fun a b => (a.1 == b.1) = false) {k : κ} {e : κ × ν} :
    lookup k es = some e ↔ e ∈ es ∧ (e.1 == k) = true := by
  constructor
  · intro h
    unfold lookup at h
    exact ⟨List.mem_of_find?_eq_some h, by simpa using List.find?_some h⟩
  · rintro ⟨hmem, hk⟩
    induction es with
    | nil => cases hmem
    | cons d es ih =>
      obtain ⟨hd, hes⟩ := List.pairwise_cons.mp hes
      rcases List.mem_cons.mp hmem with rfl | hmem
      · simp [lookup, hk]
      · have hdk : (d.1 == k) = false := by
          rw [← BEq.congr_right hk]
          exact hd e hmem
        simpa [lookup, hdk] using ih hes hmem

theorem getKeyValue_eq_some_iff {m : HashMap κ ν} {k : κ} {e : κ × ν} :
    m.getKeyValue k = some e ↔ e ∈ m.entries ∧ (e.1 == k) = true := lookup_eq_some_iff m.distinct

theorem getKeyValue_of_mem {m : HashMap κ ν} {e : κ × ν} (h : e ∈ m.entries) :
    m.getKeyValue e.1 = some e := getKeyValue_eq_some_iff.mpr ⟨h, BEq.rfl⟩

theorem mem_entries_iff {m : HashMap κ ν} {e : κ × ν} :
    e ∈ m.entries ↔ m.getKeyValue e.1 = some e := by
  simp [getKeyValue_eq_some_iff]

theorem mem_entries_insert {m : HashMap κ ν} {k : κ} {v : ν} {e : κ × ν}
    (h : e ∈ (m.insert k v).entries) : (e.1 == k) = true ∧ e.2 = v ∨ e ∈ m.entries := by
  rw [mem_entries_iff, getKeyValue_insert] at h
  split at h
  · rename_i hk
    left
    rw [BEq.comm]
    exact ⟨hk, (congrArg Prod.snd (Option.some.inj h)).symm⟩
  · exact .inr (mem_entries_iff.mpr h)

theorem mem_entries_of_removeAll {m : HashMap κ ν} {ks : List κ} {e : κ × ν}
    (h : e ∈ (m.removeAll ks).entries) : e ∈ m.entries := by
  rw [mem_entries_iff, getKeyValue_removeAll] at h
  split at h
  · cases h
  · exact mem_entries_iff.mpr h

theorem mem_keys_iff {m : HashMap κ ν} {k : κ} (hk : ∀ l, (l == k) = true → l = k) :
    k ∈ m.keys ↔ m.containsKey k = true := by
  simp only [keys, List.mem_map, containsKey, Option.isSome_iff_exists]
  constructor
  · rintro ⟨e, he, rfl⟩
    exact ⟨e, getKeyValue_of_mem he⟩
  · rintro ⟨e, he⟩
    obtain ⟨hmem, hek⟩ := getKeyValue_eq_some_iff.mp he
    exact ⟨e, hmem, hk _ hek⟩

theorem nodup_entries (m : HashMap κ ν) : m.entries.Nodup :=
  m.distinct.imp fun {a b} hab heq => by simp [heq] at hab

theorem Equiv.perm {m n : HashMap κ ν} (h : m.Equiv n) : m.entries.Perm n.entries := by
  apply (List.perm_ext_iff_of_nodup m.nodup_entries n.nodup_entries).mpr
  intro e
  rw [mem_entries_iff, mem_entries_iff, h e.1]

theorem getKeyValue_foldl_insert (es : List (κ × ν)) (m : HashMap κ ν) (k : κ)
    (hes : es.Pairwise fun a b => (a.1 == b.1) = false)
    (hm : ∀ e ∈ es, m.getKeyValue e.1 = none) :
    (es.foldl (fun m e => m.insert e.1 e.2) m).getKeyValue k =
      (lookup k es).or (m.getKeyValue k) := by
  induction es generalizing m with
  | nil => simp [lookup]
  | cons d es ih =>
    obtain ⟨hd, hes⟩ := List.pairwise_cons.mp hes
    have hfresh : m.getKeyValue d.1 = none := hm d List.mem_cons_self
    rw [List.foldl_cons, ih (m.insert d.1 d.2) hes]
    · rw [getKeyValue_insert, hfresh]
      cases hdk : d.1 == k
      · simp [lookup, hdk]
      · have hrest : lookup k es = none := by
          refine List.find?_eq_none.mpr fun e he => ?_
          have hde := hd e he
          rw [BEq.congr_left hdk, BEq.comm] at hde
          simp [hde]
        have hself : lookup k (d :: es) = some d := by simp [lookup, hdk]
        rw [hrest, hself]
        simp
    · intro e he
      rw [getKeyValue_insert, hd e he]
      simpa using hm e (List.mem_cons_of_mem _ he)

theorem ofList_equiv_of_perm {m : HashMap κ ν} {es : List (κ × ν)} (h : es.Perm m.entries) :
    (ofList es).Equiv m := by
  have hes : es.Pairwise fun a b => (a.1 == b.1) = false :=
    (h.pairwise_iff fun {a b} hab => by rw [BEq.comm]; exact hab).mpr m.distinct
  intro k
  rw [ofList, getKeyValue_foldl_insert es empty k hes fun _ _ => rfl]
  simp only [getKeyValue_empty, Option.or_none]
  apply Option.ext
  intro e
  rw [lookup_eq_some_iff hes, getKeyValue_eq_some_iff, h.mem_iff]

theorem get_ofList (es : List (κ × ν)) (k : κ) :
    (ofList es).get k = (es.filter fun e => e.1 == k).getLast?.map Prod.snd := by
  induction es using List.reverseRecOn with
  | nil => rfl
  | append_singleton es e ih =>
    have hconcat : ofList (es ++ [e]) = (ofList es).insert e.1 e.2 := by
      rw [ofList, List.foldl_append]
      rfl
    rw [hconcat, get_insert, List.filter_append]
    cases hkey : e.1 == k
    · simp [hkey, ih]
    · simp [hkey]

end Equivalence

section Lawful

variable [LawfulBEq κ]

theorem nodup_keys (m : HashMap κ ν) : m.keys.Nodup := by
  refine List.pairwise_map.mpr (m.distinct.imp fun {a b} hab heq => ?_)
  simp [heq] at hab

theorem mem_keys {m : HashMap κ ν} {k : κ} : k ∈ m.keys ↔ m.containsKey k = true :=
  mem_keys_iff fun _ => eq_of_beq

theorem get_eq_some_iff {m : HashMap κ ν} {k : κ} {v : ν} :
    m.get k = some v ↔ (k, v) ∈ m.entries := by
  simp only [get, Option.map_eq_some_iff, getKeyValue_eq_some_iff]
  constructor
  · rintro ⟨⟨_, _⟩, ⟨hmem, hk⟩, rfl⟩
    cases eq_of_beq hk
    exact hmem
  · intro hmem
    exact ⟨(k, v), ⟨hmem, BEq.rfl⟩, rfl⟩

theorem get_ofList_eq_some_iff {es : List (κ × ν)}
    (h : ∀ e ∈ es, ∀ e' ∈ es, e.1 = e'.1 → e = e') {k : κ} {v : ν} :
    (ofList es).get k = some v ↔ (k, v) ∈ es := by
  rw [get_ofList, Option.map_eq_some_iff]
  constructor
  · rintro ⟨e, hlast, rfl⟩
    obtain ⟨he, hk⟩ := List.mem_filter.mp (List.mem_of_getLast? hlast)
    rw [← eq_of_beq hk]
    exact he
  · intro hmem
    have hfilter : (k, v) ∈ es.filter fun e => e.1 == k := List.mem_filter.mpr ⟨hmem, BEq.rfl⟩
    obtain ⟨e, hlast⟩ := Option.isSome_iff_exists.mp
      (List.getLast?_isSome.mpr (List.ne_nil_of_mem hfilter))
    obtain ⟨he, hk⟩ := List.mem_filter.mp (List.mem_of_getLast? hlast)
    refine ⟨e, hlast, ?_⟩
    rw [h e he (k, v) hmem (eq_of_beq hk)]

theorem equiv_of_get {m n : HashMap κ ν} (h : ∀ k, m.get k = n.get k) : m.Equiv n := by
  have hkeyed (m : HashMap κ ν) (k : κ) : m.getKeyValue k = (m.get k).map fun v => (k, v) := by
    cases hk : m.getKeyValue k with
    | none => simp [get, hk]
    | some e =>
      have hkey := eq_of_beq (getKeyValue_eq_some_iff.mp hk).2
      rw [get, hk, ← hkey]
      rfl
  intro k
  rw [hkeyed m k, hkeyed n k, h k]

theorem Equiv.eq_true [BEq ν] [ReflBEq ν] {m n : HashMap κ ν} (h : m.Equiv n) :
    m.eq n = true := by
  simp only [eq, Bool.and_eq_true, beq_iff_eq, List.all_eq_true]
  refine ⟨h.perm.length_eq, ?_⟩
  intro e he
  have hget : n.get e.1 = some e.2 := by
    rw [← h.get e.1, HashMap.get, getKeyValue_of_mem he, Option.map_some]
  simp [hget]

theorem get_of_eq [BEq ν] [LawfulBEq ν] {m n : HashMap κ ν} (h : m.eq n = true) (k : κ) :
    m.get k = n.get k := by
  simp only [eq, Bool.and_eq_true, beq_iff_eq, List.all_eq_true] at h
  have ⟨hlength, hall⟩ := h
  have hsub : ∀ {k v}, m.get k = some v → n.get k = some v := by
    intro k v hget
    have hentry := hall (k, v) (get_eq_some_iff.mp hget)
    simpa [Option.any_eq_true] using hentry
  have hkeys : m.keys ⊆ n.keys := by
    intro k hk
    rw [mem_keys, containsKey_eq_isSome_get] at hk ⊢
    have ⟨v, hv⟩ := Option.isSome_iff_exists.mp hk
    rw [hsub hv, Option.isSome_some]
  have hperm : m.keys.Perm n.keys :=
    (List.subperm_of_subset m.nodup_keys hkeys).perm_of_length_le (by simp [keys, hlength])
  have hcontains : m.containsKey k = n.containsKey k := by
    rw [Bool.eq_iff_iff, ← mem_keys, ← mem_keys, hperm.mem_iff]
  cases hget : m.get k with
  | some v => rw [hsub hget]
  | none =>
    rw [containsKey_eq_isSome_get, containsKey_eq_isSome_get, hget, Option.isSome_none] at hcontains
    exact (Option.isNone_iff_eq_none.mp (by simpa using hcontains.symm)).symm

end Lawful

section Conversion

variable {ε μ : Type v} {κ ν : Type v} {f : ν → Except ε μ} {ms : List (κ × μ)}

theorem map_fst_of_mapM {es : List (κ × ν)} (h : (es.mapM fun (k, v) => do
      let w ← f v
      return (k, w)) = .ok ms) : ms.map Prod.fst = es.map Prod.fst := by
  induction es generalizing ms with
  | nil =>
    simp only [List.mapM_nil, pure_eq_ok] at h
    subst h
    rfl
  | cons e es ih =>
    simp only [List.mapM_cons, bind_eq_ok, pure_eq_ok] at h
    obtain ⟨_, ⟨w, _, rfl⟩, rest, hrest, rfl⟩ := h
    rw [List.map_cons, List.map_cons, ih hrest]

theorem lookup_mapM [BEq κ] {es : List (κ × ν)} (h : (es.mapM fun (k, v) => do
      let w ← f v
      return (k, w)) = .ok ms) (k : κ) :
    lookup k ms = (lookup k es).bind fun e => (f e.2).toOption.map fun w => (e.1, w) := by
  induction es generalizing ms with
  | nil =>
    simp only [List.mapM_nil, pure_eq_ok] at h
    subst h
    rfl
  | cons e es ih =>
    simp only [List.mapM_cons, bind_eq_ok, pure_eq_ok] at h
    obtain ⟨_, ⟨w, hw, rfl⟩, rest, hrest, rfl⟩ := h
    have hrest := ih hrest
    simp only [lookup, List.find?_cons] at hrest ⊢
    cases hk : e.1 == k
    · exact hrest
    · simp [hw, toOption_ok]

theorem get_ofList_mapM [BEq κ] [EquivBEq κ] {m : HashMap κ ν}
    (h : (m.entries.mapM fun (k, v) => do
      let w ← f v
      return (k, w)) = .ok ms) (k : κ) :
    (ofList ms).get k = (m.get k).bind fun v => (f v).toOption := by
  have hms : ms.Pairwise fun a b => (a.1 == b.1) = false := by
    have hkeys : (m.entries.map Prod.fst).Pairwise fun k l => (k == l) = false :=
      List.pairwise_map.mpr m.distinct
    rw [← map_fst_of_mapM h] at hkeys
    exact List.pairwise_map.mp hkeys
  rw [get, ofList, getKeyValue_foldl_insert ms empty k hms fun _ _ => rfl, getKeyValue_empty,
    Option.or_none, lookup_mapM h, get, getKeyValue]
  cases lookup k m.entries with
  | none => rfl
  | some e => cases hf : (f e.2).toOption <;> simp [hf]

theorem exists_converted_back [BEq κ] [LawfulBEq κ] {m : HashMap κ ν} {g : μ → Except ε ν}
    (h : ∀ k v, m.get k = some v → ∃ w, f v = .ok w ∧ g w = .ok v) :
    ∃ ms, (m.entries.mapM fun (k, v) => do
        let w ← f v
        return (k, w)) = .ok ms ∧
      ∃ vs, ((ofList ms).entries.mapM fun (k, w) => do
        let v ← g w
        return (k, v)) = .ok vs ∧ (ofList vs).Equiv m := by
  obtain ⟨ms, hms⟩ : ∃ ms, (m.entries.mapM fun (k, v) => do
      let w ← f v
      return (k, w)) = .ok ms := by
    refine exists_mapM fun e he => ?_
    obtain ⟨w, hw, _⟩ := h e.1 e.2 (get_eq_some_iff.mpr he)
    exact ⟨(e.1, w), by simp [hw]⟩
  have hconverted := get_ofList_mapM hms
  obtain ⟨vs, hvs⟩ : ∃ vs, ((ofList ms).entries.mapM fun (k, w) => do
      let v ← g w
      return (k, v)) = .ok vs := by
    refine exists_mapM fun e he => ?_
    have hget := get_eq_some_iff.mpr he
    rw [hconverted e.1, Option.bind_eq_some_iff] at hget
    obtain ⟨v, hv, hw⟩ := hget
    obtain ⟨w, hfv, hgw⟩ := h e.1 v hv
    rw [hfv, toOption_ok] at hw
    cases hw
    exact ⟨(e.1, v), by simp [hgw]⟩
  refine ⟨ms, hms, vs, hvs, equiv_of_get fun k => ?_⟩
  rw [get_ofList_mapM hvs k, hconverted k]
  cases hv : m.get k with
  | none => rfl
  | some v =>
    obtain ⟨w, hfv, hgw⟩ := h k v hv
    simp [hfv, hgw, toOption_ok]

end Conversion

end HashMap

end LibXmtp.Data
