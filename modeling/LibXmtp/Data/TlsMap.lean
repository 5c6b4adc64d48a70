import LibXmtp.Data.BinarySearch
import LibXmtp.Data.TlsCodec
import Mathlib.Data.List.Induction
import Mathlib.Data.List.Nodup
import Mathlib.Order.Compare
import Mathlib.Order.Lattice

namespace LibXmtp.Data

structure TlsMapEntry (K V : Type) where
  key : K
  value : V

inductive TlsMapError
  | keyExists
  | keyNotFound
  | codec (error : TlsCodecError)
  deriving DecidableEq

structure TlsMap (K V : Type) [LinearOrder K] where
  entries : List (TlsMapEntry K V)
  sorted : entries.Pairwise fun a b => a.key < b.key

section Position

variable {α : Type} (l r : List α) (a : α)

theorem insertIdx_length_append : (l ++ r).insertIdx l.length a = l ++ a :: r := by
  induction l with
  | nil => rfl
  | cons b l ih => simp [ih]

theorem modify_length_append (f : α → α) :
    (l ++ a :: r).modify l.length f = l ++ f a :: r := by
  induction l with
  | nil => rfl
  | cons b l ih => simp [ih]

end Position

namespace TlsMap

variable {K V : Type} [LinearOrder K]

def compareKey (key : K) (e : TlsMapEntry K V) : Ordering := compare e.key key

theorem searchable {entries : List (TlsMapEntry K V)}
    (h : entries.Pairwise fun a b => a.key < b.key) (key : K) :
    Searchable (compareKey key) entries := by
  apply h.imp
  intro a b hab hb
  rw [compareKey, Ne, compare_gt_iff_gt, not_lt] at hb
  rw [compareKey, compare_lt_iff_lt]
  exact hab.trans_le hb

theorem pairwise_insertIdx {entries : List (TlsMapEntry K V)}
    (h : entries.Pairwise fun a b => a.key < b.key) {e : TlsMapEntry K V} {idx : Nat}
    (hidx : binarySearchBy (compareKey e.key) entries = .error idx) :
    (entries.insertIdx idx e).Pairwise fun a b => a.key < b.key := by
  have hres := searchResult (searchable h e.key)
  rw [hidx] at hres
  cases hres with
  | @missing l r split below above =>
    subst split
    have ⟨hl, hr, hlr⟩ := List.pairwise_append.mp h
    have hbelow : ∀ b ∈ l, b.key < e.key := fun b hb => compare_lt_iff_lt.mp (below b hb)
    have habove : ∀ b ∈ r, e.key < b.key := fun b hb => compare_gt_iff_gt.mp (above b hb)
    rw [insertIdx_length_append]
    refine List.pairwise_append.mpr ⟨hl, List.pairwise_cons.mpr ⟨habove, hr⟩, ?_⟩
    intro a ha b hb
    cases List.mem_cons.mp hb with
    | inl heq => exact heq ▸ hbelow a ha
    | inr hb => exact hlr a ha b hb

theorem pairwise_iff_map {entries : List (TlsMapEntry K V)} :
    (entries.Pairwise fun a b => a.key < b.key) ↔
      (entries.map TlsMapEntry.key).Pairwise (· < ·) := by
  rw [List.pairwise_map]

omit [LinearOrder K] in
theorem map_key_modify (entries : List (TlsMapEntry K V)) (idx : Nat) (value : V) :
    (entries.modify idx fun e => { e with value }).map TlsMapEntry.key =
      entries.map TlsMapEntry.key := by
  induction entries generalizing idx with
  | nil => simp
  | cons e entries ih => cases idx <;> simp [ih]

def new : TlsMap K V := ⟨[], .nil⟩

/-- `from_pairs`, through a sorted map that keeps the last value of a key. -/
def collect (pairs : List (K × V)) : Std.TreeMap K V :=
  pairs.foldl (fun m p => m.insert p.1 p.2) ∅

theorem pairwise_collect (pairs : List (K × V)) :
    ((collect pairs).toList.map fun p => (⟨p.1, p.2⟩ : TlsMapEntry K V)).Pairwise
      fun a b => a.key < b.key := by
  rw [List.pairwise_map]
  apply (Std.TreeMap.ordered_keys_toList (t := collect pairs)).imp
  intro a b h
  exact compare_lt_iff_lt.mp h

def fromPairs (pairs : List (K × V)) : TlsMap K V :=
  ⟨(collect pairs).toList.map fun p => ⟨p.1, p.2⟩, pairwise_collect pairs⟩

section

variable (m : TlsMap K V)

def search (key : K) : Except Nat Nat := binarySearchBy (compareKey key) m.entries

def insertAt (e : TlsMapEntry K V) (idx : Nat) (h : m.search e.key = .error idx) : TlsMap K V :=
  ⟨m.entries.insertIdx idx e, pairwise_insertIdx m.sorted h⟩

def setAt (idx : Nat) (value : V) : TlsMap K V where
  entries := m.entries.modify idx fun e => { e with value }
  sorted := by
    rw [pairwise_iff_map, map_key_modify, ← pairwise_iff_map]
    exact m.sorted

def removeAt (idx : Nat) : TlsMap K V :=
  ⟨m.entries.eraseIdx idx, m.sorted.sublist (List.eraseIdx_sublist _ _)⟩

def insert (key : K) (value : V) : Except TlsMapError (TlsMap K V) :=
  match h : m.search key with
  | .ok _ => .error .keyExists
  | .error idx => .ok (m.insertAt ⟨key, value⟩ idx h)

def update (key : K) (value : V) : Except TlsMapError (TlsMap K V) :=
  match m.search key with
  | .ok idx => .ok (m.setAt idx value)
  | .error _ => .error .keyNotFound

def set (key : K) (value : V) : TlsMap K V :=
  match h : m.search key with
  | .ok idx => m.setAt idx value
  | .error idx => m.insertAt ⟨key, value⟩ idx h

def remove (key : K) : Except TlsMapError (V × TlsMap K V) :=
  match m.search key with
  | .ok idx => (okOr m.entries[idx]? .keyNotFound).map fun e => (e.value, m.removeAt idx)
  | .error _ => .error .keyNotFound

def get (key : K) : Option V :=
  match m.search key with
  | .ok idx => m.entries[idx]?.map TlsMapEntry.value
  | .error _ => none

/-- The value behind the reference, and the map once something is written through it. -/
def getMut (key : K) : Option (V × (V → TlsMap K V)) :=
  match m.search key with
  | .ok idx => m.entries[idx]?.map fun e => (e.value, m.setAt idx)
  | .error _ => none

def containsKey (key : K) : Bool := (m.search key).isOk

def len : Nat := m.entries.length

def isEmpty : Bool := m.entries.isEmpty

def iter : List (K × V) := m.entries.map fun e => (e.key, e.value)

def keys : List K := m.entries.map TlsMapEntry.key

end

section Content

variable {m n : TlsMap K V} {key : K} {value : V}

theorem search_result (m : TlsMap K V) (key : K) :
    SearchResult (compareKey key) m.entries (m.search key) :=
  searchResult (searchable m.sorted key)

theorem key_eq_of_mem {l r : List (TlsMapEntry K V)} {a e : TlsMapEntry K V}
    (eq : compareKey key a = .eq) (below : ∀ b ∈ l, compareKey key b = .lt)
    (above : ∀ b ∈ r, compareKey key b = .gt) (he : e ∈ l ++ a :: r) : e.key = key ↔ e = a := by
  have hkey : a.key = key := compare_eq_iff_eq.mp eq
  constructor
  · intro hek
    have heq : compareKey key e = .eq := compare_eq_iff_eq.mpr hek
    simp only [List.mem_append, List.mem_cons] at he
    cases he with
    | inl hl => simp [below e hl] at heq
    | inr he =>
      cases he with
      | inl ha => exact ha
      | inr hr => simp [above e hr] at heq
  · intro h
    rw [h, hkey]

theorem key_ne_of_mem {l r : List (TlsMapEntry K V)} {e : TlsMapEntry K V}
    (below : ∀ b ∈ l, compareKey key b = .lt) (above : ∀ b ∈ r, compareKey key b = .gt)
    (he : e ∈ l ++ r) : e.key ≠ key := by
  intro hek
  have heq : compareKey key e = .eq := compare_eq_iff_eq.mpr hek
  cases List.mem_append.mp he with
  | inl hl => simp [below e hl] at heq
  | inr hr => simp [above e hr] at heq

theorem get_eq_some_iff : m.get key = some value ↔ ⟨key, value⟩ ∈ m.entries := by
  have hres := m.search_result key
  rw [get]
  cases hs : m.search key with
  | ok idx =>
    rw [hs] at hres
    cases hres with
    | @found l r a split eq below above =>
      have hkey : a.key = key := compare_eq_iff_eq.mp eq
      simp only [split, List.getElem?_append_right, Nat.le_refl, Nat.sub_self,
        List.getElem?_cons_zero, Option.map_some, Option.some.injEq]
      constructor
      · intro h
        subst h hkey
        simp
      · intro h
        have ha := (key_eq_of_mem eq below above h).mp rfl
        rw [← ha]
  | error idx =>
    rw [hs] at hres
    cases hres with
    | @missing l r split below above =>
      rw [split]
      constructor
      · intro h
        cases h
      · intro h
        exact absurd rfl (key_ne_of_mem below above h)

theorem mem_set {e : TlsMapEntry K V} :
    e ∈ (m.set key value).entries ↔ e = ⟨key, value⟩ ∨ e.key ≠ key ∧ e ∈ m.entries := by
  have hres := m.search_result key
  rw [set]
  split
  · rename_i idx hs
    rw [hs] at hres
    cases hres with
    | @found l r a split eq below above =>
      have hkey : a.key = key := compare_eq_iff_eq.mp eq
      have hmem : ∀ e, e ∈ l ++ a :: r → (e.key = key ↔ e = a) := fun e he =>
        key_eq_of_mem eq below above he
      have hl : a ∉ l := fun h => by simpa [eq] using below a h
      have hr : a ∉ r := fun h => by simpa [eq] using above a h
      simp only [setAt, split, modify_length_append, hkey]
      grind
  · rename_i idx hs
    rw [hs] at hres
    cases hres with
    | @missing l r split below above =>
      have hmem : ∀ e, e ∈ l ++ r → e.key ≠ key := fun e he => key_ne_of_mem below above he
      simp only [insertAt, split, insertIdx_length_append]
      grind

theorem get_set (m : TlsMap K V) (key k : K) (value : V) :
    (m.set key value).get k = if k = key then some value else m.get k := by
  apply Option.ext
  intro v
  rw [get_eq_some_iff, mem_set]
  split
  · rename_i h
    subst h
    simp [eq_comm]
  · rename_i h
    simp [h, get_eq_some_iff]

theorem ext_get (h : ∀ k, m.get k = n.get k) : m = n := by
  have hnodup : ∀ m : TlsMap K V, m.entries.Nodup := by
    intro m
    apply m.sorted.imp
    intro a b hab heq
    rw [heq] at hab
    exact lt_irrefl _ hab
  have hperm : m.entries.Perm n.entries := by
    rw [List.perm_ext_iff_of_nodup (hnodup m) (hnodup n)]
    intro e
    rw [← get_eq_some_iff, ← get_eq_some_iff, h]
  have heq : m.entries = n.entries :=
    hperm.eq_of_pairwise (fun a b _ _ hab hba => absurd hba (not_lt_of_gt hab)) m.sorted n.sorted
  cases m
  cases n
  congr

@[simp] theorem get_new (key : K) : (new : TlsMap K V).get key = none := rfl

theorem isSome_get (m : TlsMap K V) (key : K) : (m.get key).isSome = (m.search key).isOk := by
  have hres := m.search_result key
  rw [get]
  cases hs : m.search key with
  | ok idx =>
    rw [hs] at hres
    cases hres with
    | found split => simp [split, Except.isOk, Except.toBool]
  | error idx => rfl

theorem containsKey_eq (m : TlsMap K V) (key : K) : m.containsKey key = (m.get key).isSome :=
  (m.isSome_get key).symm

theorem mem_iter {p : K × V} : p ∈ m.iter ↔ m.get p.1 = some p.2 := by
  rw [get_eq_some_iff, iter, List.mem_map]
  constructor
  · intro ⟨e, he, hp⟩
    subst hp
    exact he
  · intro h
    exact ⟨_, h, rfl⟩

theorem mem_keys : key ∈ m.keys ↔ (m.get key).isSome := by
  rw [Option.isSome_iff_exists, keys, List.mem_map]
  constructor
  · intro ⟨e, he, hkey⟩
    subst hkey
    exact ⟨e.value, get_eq_some_iff.mpr he⟩
  · intro ⟨value, h⟩
    exact ⟨_, get_eq_some_iff.mp h, rfl⟩

theorem setAt_eq_set {idx : Nat} (h : m.search key = .ok idx) :
    m.setAt idx value = m.set key value := by
  rw [set]
  split
  · rename_i idx' h'
    rw [h, Except.ok.injEq] at h'
    rw [h']
  · simp_all

theorem insertAt_eq_set {idx : Nat} (h : m.search key = .error idx) :
    m.insertAt ⟨key, value⟩ idx h = m.set key value := by
  rw [set]
  split
  · simp_all
  · rename_i idx' h'
    have hidx : idx = idx' := by simpa [h] using h'
    subst hidx
    rfl

theorem insert_eq (m : TlsMap K V) (key : K) (value : V) :
    m.insert key value =
      if (m.get key).isSome then .error .keyExists else .ok (m.set key value) := by
  rw [isSome_get, insert]
  split
  · rename_i h
    rw [h]
    rfl
  · rename_i h
    rw [insertAt_eq_set, h]
    rfl

theorem update_eq (m : TlsMap K V) (key : K) (value : V) :
    m.update key value =
      if (m.get key).isSome then .ok (m.set key value) else .error .keyNotFound := by
  rw [isSome_get, update]
  cases h : m.search key with
  | ok idx => simp [setAt_eq_set h, Except.isOk, Except.toBool]
  | error idx => rfl

theorem getMut_eq (m : TlsMap K V) (key : K) :
    m.getMut key = (m.get key).map fun value => (value, m.set key) := by
  rw [getMut, get]
  cases h : m.search key with
  | ok idx =>
    have hset : m.setAt idx = m.set key := by
      funext value
      exact setAt_eq_set h
    simp [hset, Function.comp_def]
  | error idx => rfl

def erase (m : TlsMap K V) (key : K) : TlsMap K V :=
  ⟨m.entries.filter (·.key ≠ key), m.sorted.sublist List.filter_sublist⟩

theorem get_erase (m : TlsMap K V) (key k : K) :
    (m.erase key).get k = if k = key then none else m.get k := by
  apply Option.ext
  intro v
  rw [get_eq_some_iff, erase, List.mem_filter]
  split
  · rename_i h
    simp [h]
  · rename_i h
    simp [h, get_eq_some_iff]

theorem remove_eq (m : TlsMap K V) (key : K) :
    m.remove key = (okOr (m.get key) .keyNotFound).map fun value => (value, m.erase key) := by
  have hres := m.search_result key
  rw [remove, get]
  cases hs : m.search key with
  | ok idx =>
    rw [hs] at hres
    cases hres with
    | @found l r a split eq below above =>
      have hl : ∀ e ∈ l, e.key ≠ key := fun e he heq => by
        simpa [compareKey, heq] using below e he
      have hr : ∀ e ∈ r, e.key ≠ key := fun e he heq => by
        simpa [compareKey, heq] using above e he
      have hkey : a.key = key := compare_eq_iff_eq.mp eq
      have herase : m.removeAt l.length = m.erase key := by
        rw [removeAt, erase, TlsMap.mk.injEq, split]
        have hfl : l.filter (fun e => !decide (e.key = key)) = l := by simpa using hl
        have hfr : r.filter (fun e => !decide (e.key = key)) = r := by simpa using hr
        simp [List.eraseIdx_append_of_length_le, hkey, hfl, hfr]
      simp [split, Except.map, herase]
  | error idx => rfl

end Content

def contents (pairs : List (K × V)) : K → Option V :=
  pairs.foldl (fun c p => Function.update c p.1 (some p.2)) fun _ => none

theorem nodup_keys (m : TlsMap K V) : (m.entries.map TlsMapEntry.key).Nodup := by
  have hsorted := pairwise_iff_map.mp m.sorted
  exact hsorted.imp ne_of_lt

theorem contents_concat (pairs : List (K × V)) (p : K × V) :
    contents (pairs ++ [p]) = Function.update (contents pairs) p.1 (some p.2) := by
  simp [contents]

theorem contents_concat_self (pairs : List (K × V)) (key : K) (value : V) :
    contents (pairs ++ [(key, value)]) key = some value := by
  rw [contents_concat, Function.update_self]

theorem mem_of_contents {pairs : List (K × V)} {key : K} {value : V}
    (h : contents pairs key = some value) : (key, value) ∈ pairs := by
  induction pairs using List.reverseRecOn with
  | nil => cases h
  | append_singleton pairs p ih =>
    rw [contents_concat, Function.update_apply] at h
    split at h
    · rename_i hkey
      cases h
      simp [hkey]
    · exact List.mem_append_left _ (ih h)

theorem exists_contents {pairs : List (K × V)} {p : K × V} (h : p ∈ pairs) :
    ∃ value, contents pairs p.1 = some value := by
  induction pairs using List.reverseRecOn with
  | nil => cases h
  | append_singleton pairs q ih =>
    rw [contents_concat, Function.update_apply]
    split
    · exact ⟨_, rfl⟩
    · rename_i hkey
      rcases List.mem_append.mp h with h | h
      · exact ih h
      · exact absurd (congrArg Prod.fst (List.mem_singleton.mp h)) hkey

theorem contents_eq_some_iff {pairs : List (K × V)} (h : (pairs.map Prod.fst).Nodup) {key : K}
    {value : V} : contents pairs key = some value ↔ (key, value) ∈ pairs := by
  constructor
  · exact mem_of_contents
  · intro hmem
    obtain ⟨value', hvalue⟩ := exists_contents hmem
    have heq := List.inj_on_of_nodup_map h (mem_of_contents hvalue) hmem rfl
    rw [hvalue, (Prod.mk.inj heq).2]

theorem contents_iter (m : TlsMap K V) : contents m.iter = m.get := by
  have hnodup : (m.iter.map Prod.fst).Nodup := by
    rw [iter, List.map_map]
    exact m.nodup_keys
  funext key
  apply Option.ext
  intro value
  rw [contents_eq_some_iff hnodup, mem_iter]

theorem getElem?_collect (pairs : List (K × V)) (key : K) :
    (collect pairs)[key]? = contents pairs key := by
  have h (m : Std.TreeMap K V) (c : K → Option V) (hm : ∀ k, m[k]? = c k) :
      (pairs.foldl (fun m p => m.insert p.1 p.2) m)[key]? =
        pairs.foldl (fun (c : K → Option V) p => Function.update c p.1 (some p.2)) c key := by
    induction pairs generalizing m c with
    | nil => exact hm key
    | cons p pairs ih =>
      apply ih
      intro k
      simp only [Std.TreeMap.getElem?_insert, Function.update_apply, hm, compare_eq_iff_eq,
        eq_comm (a := k)]
  apply h
  simp

theorem get_fromPairs (pairs : List (K × V)) (key : K) :
    (fromPairs pairs).get key = contents pairs key := by
  rw [← getElem?_collect]
  apply Option.ext
  intro value
  rw [get_eq_some_iff, fromPairs, List.mem_map, ← Std.TreeMap.mem_toList_iff_getElem?_eq_some]
  simp

end TlsMap

end LibXmtp.Data
