import Std.Data.ExtTreeMap
import LibXmtp.Data.Hex
import Mathlib.Data.List.Induction

/-! The position of one envelope in the network, and the vector clocks that say how much of it
has been seen. -/

namespace LibXmtp.Types

open LibXmtp.Data

abbrev Topic := Bytes

structure Cursor where
  sequenceId : Nat
  originatorId : Nat
  deriving DecidableEq

structure GlobalCursor where
  inner : Std.ExtTreeMap Nat Nat compare
  deriving DecidableEq

namespace GlobalCursor

variable {c d : GlobalCursor} {a b : Cursor}

instance : Inhabited GlobalCursor := ⟨⟨∅⟩⟩

def get (c : GlobalCursor) (originator : Nat) : Nat := c.inner.getD originator 0

def apply (c : GlobalCursor) (cursor : Cursor) : GlobalCursor :=
  ⟨c.inner.alter cursor.originatorId fun
    | some sid => some (max sid cursor.sequenceId)
    | none => some cursor.sequenceId⟩

def dominates (c other : GlobalCursor) : Bool :=
  other.inner.toList.all fun (node, seq) => seq ≤ c.get node

def cursors (c : GlobalCursor) : List Cursor :=
  c.inner.toList.map fun (node, seq) => { sequenceId := seq, originatorId := node }

def missing (c other : GlobalCursor) : List Cursor :=
  other.inner.toList.filterMap fun (node, seq) =>
    if c.get node < seq then some { sequenceId := seq, originatorId := node } else none

@[simp] theorem get_default (o : Nat) : (default : GlobalCursor).get o = 0 :=
  Std.ExtTreeMap.getD_empty

theorem get_eq_of_getElem? {o : Nat} {s : Nat} (h : c.inner[o]? = some s) :
    c.get o = s := by simp [get, Std.ExtTreeMap.getD_eq_getD_getElem?, h]

theorem getElem?_of_get_pos {o : Nat} (h : 0 < c.get o) :
    c.inner[o]? = some (c.get o) := by
  cases ho : c.inner[o]? with
  | none => simp [get, Std.ExtTreeMap.getD_eq_getD_getElem?, ho] at h
  | some s => simp [get, Std.ExtTreeMap.getD_eq_getD_getElem?, ho]

@[simp] theorem get_apply (o : Nat) :
    (c.apply a).get o = if a.originatorId = o then max (c.get o) a.sequenceId else c.get o := by
  simp only [get, apply, Std.ExtTreeMap.getD_alter, Std.LawfulEqCmp.compare_eq_iff_eq]
  split
  · rename_i h
    subst h
    cases hs : c.inner[a.originatorId]? <;>
      simp [Std.ExtTreeMap.getD_eq_getD_getElem?, hs]
  · rfl

theorem get_le_apply (o : Nat) : c.get o ≤ (c.apply a).get o := by
  simp only [get_apply]
  split <;> omega

theorem apply_comm : (c.apply a).apply b = (c.apply b).apply a := by
  simp only [apply, mk.injEq]
  apply Std.ExtTreeMap.ext_getElem?
  intro o
  simp only [Std.ExtTreeMap.getElem?_alter, Std.LawfulEqCmp.compare_eq_iff_eq]
  by_cases hb : b.originatorId = o <;> by_cases ha : a.originatorId = o
  · subst hb
    simp only [ha, if_true]
    cases c.inner[b.originatorId]? <;> simp [Nat.max_comm, Nat.max_left_comm]
  · subst hb
    simp [ha]
  · subst ha
    simp [hb]
  · simp [ha, hb]

theorem dominates_iff : c.dominates d = true ↔ ∀ o, d.get o ≤ c.get o := by
  simp only [dominates, List.all_eq_true, decide_eq_true_eq, Prod.forall,
    Std.ExtTreeMap.mem_toList_iff_getElem?_eq_some]
  constructor
  · intro h o
    by_cases ho : 0 < d.get o
    · exact h o _ (getElem?_of_get_pos ho)
    · omega
  · intro h o s hos
    have hle := h o
    rwa [get_eq_of_getElem? hos] at hle

theorem mem_missing :
    a ∈ c.missing d ↔ d.get a.originatorId = a.sequenceId ∧ c.get a.originatorId < a.sequenceId := by
  simp only [missing, List.mem_filterMap, Prod.exists, Option.ite_none_right_eq_some,
    Option.some.injEq, Std.ExtTreeMap.mem_toList_iff_getElem?_eq_some]
  constructor
  · rintro ⟨o, s, hos, hlt, rfl⟩
    exact ⟨get_eq_of_getElem? hos, hlt⟩
  · rintro ⟨heq, hlt⟩
    refine ⟨a.originatorId, a.sequenceId, ?_, hlt, rfl⟩
    rw [← heq]
    exact getElem?_of_get_pos (by omega)

theorem mem_cursors : a ∈ c.cursors ↔ c.inner[a.originatorId]? = some a.sequenceId := by
  simp only [cursors, List.mem_map, Prod.exists, Std.ExtTreeMap.mem_toList_iff_getElem?_eq_some]
  constructor
  · rintro ⟨o, s, hos, rfl⟩
    exact hos
  · intro h
    exact ⟨_, _, h, rfl⟩

theorem dominates_of_le (hle : ∀ o, c.get o ≤ d.get o) {deps : GlobalCursor}
    (h : c.dominates deps = true) : d.dominates deps = true := by
  rw [dominates_iff] at h ⊢
  exact fun o => Nat.le_trans (h o) (hle o)

theorem exists_missing_of_not_dominates (h : c.dominates d = false) : ∃ a, a ∈ c.missing d := by
  have hex : ∃ o, ¬d.get o ≤ c.get o := by
    apply Classical.not_forall.mp
    simp [← dominates_iff, h]
  have ⟨o, ho⟩ := hex
  refine ⟨{ sequenceId := d.get o, originatorId := o }, mem_missing.mpr ⟨rfl, ?_⟩⟩
  simpa using ho

def insert (c : GlobalCursor) (originator sequenceId : Nat) : GlobalCursor :=
  ⟨c.inner.insert originator sequenceId⟩

def insertAll (c : GlobalCursor) (entries : List (Nat × Nat)) : GlobalCursor :=
  entries.foldl (fun c e => c.insert e.1 e.2) c

theorem ext_getElem? {c d : GlobalCursor} (h : ∀ o : Nat, c.inner[o]? = d.inner[o]?) : c = d := by
  cases c
  cases d
  exact congrArg mk (Std.ExtTreeMap.ext_getElem? h)

theorem getElem?_insertAll_map (c : GlobalCursor) (os : List Nat) (f : Nat → Nat) (o : Nat) :
    (c.insertAll (os.map fun o => (o, f o))).inner[o]? = if o ∈ os then some (f o) else c.inner[o]? := by
  induction os generalizing c with
  | nil => rfl
  | cons o' os ih =>
    rw [List.map_cons, insertAll, List.foldl_cons, ← insertAll, ih, insert,
      Std.ExtTreeMap.getElem?_insert]
    simp only [Std.LawfulEqCmp.compare_eq_iff_eq, List.mem_cons]
    by_cases hmem : o ∈ os
    · simp [hmem]
    · by_cases heq : o' = o
      · simp [heq]
      · simp [hmem, heq, Ne.symm heq]

theorem insertAll_eq_of_mem_iff {as : List Cursor} (h : ∀ a, a ∈ as ↔ a ∈ c.cursors) :
    (default : GlobalCursor).insertAll (as.map fun a => (a.originatorId, a.sequenceId)) = c := by
  refine ext_getElem? fun o => ?_
  have hlast (es : List (Nat × Nat)) : ((default : GlobalCursor).insertAll es).inner[o]? =
      (es.filter fun e => e.1 == o).getLast?.map Prod.snd := by
    induction es using List.reverseRecOn with
    | nil => rfl
    | append_singleton es e ih =>
      rw [insertAll, List.foldl_concat, ← insertAll, insert, Std.ExtTreeMap.getElem?_insert, ih,
        List.filter_append]
      simp only [Std.LawfulEqCmp.compare_eq_iff_eq]
      by_cases heq : e.1 = o
      · simp [heq]
      · simp [heq]
  have hstored : ∀ e ∈ (as.map fun a => (a.originatorId, a.sequenceId)).filter (fun e => e.1 == o),
      c.inner[o]? = some e.2 := by
    intro e he
    obtain ⟨he, ho⟩ := List.mem_filter.mp he
    obtain ⟨a, ha, rfl⟩ := List.mem_map.mp he
    rw [← eq_of_beq ho]
    exact mem_cursors.mp ((h a).mp ha)
  rw [hlast]
  cases hlookup : c.inner[o]? with
  | none =>
    rw [Option.map_eq_none_iff, List.getLast?_eq_none_iff, List.eq_nil_iff_forall_not_mem]
    intro e he
    rw [hstored e he] at hlookup
    cases hlookup
  | some seq =>
    have hmem : (⟨seq, o⟩ : Cursor) ∈ as := (h _).mpr (mem_cursors.mpr hlookup)
    have hne : (as.map fun a => (a.originatorId, a.sequenceId)).filter (fun e => e.1 == o) ≠ [] :=
      List.ne_nil_of_mem (List.mem_filter.mpr ⟨List.mem_map_of_mem hmem, BEq.rfl⟩)
    obtain ⟨e, he⟩ := Option.isSome_iff_exists.mp (List.getLast?_isSome.mpr hne)
    rw [he, Option.map_some, ← hstored e (List.mem_of_getLast? he), hlookup]

end GlobalCursor

structure TopicCursor where
  inner : Std.ExtTreeMap Topic GlobalCursor compare

namespace TopicCursor

variable {c d : TopicCursor} {t u : Topic} {a b : Cursor}

instance : Inhabited TopicCursor := ⟨⟨∅⟩⟩

def clock (c : TopicCursor) (topic : Topic) : GlobalCursor := c.inner.getD topic default

def insertDefault (c : TopicCursor) (topic : Topic) : TopicCursor :=
  ⟨c.inner.insertIfNew topic default⟩

def getOrDefault (c : TopicCursor) (topic : Topic) : GlobalCursor × TopicCursor :=
  (c.clock topic, c.insertDefault topic)

def apply (c : TopicCursor) (topic : Topic) (cursor : Cursor) : TopicCursor :=
  ⟨c.inner.alter topic fun
    | some global => some (global.apply cursor)
    | none => some ((default : GlobalCursor).apply cursor)⟩

theorem ext_clock (hmem : ∀ t, t ∈ c.inner ↔ t ∈ d.inner) (hclock : ∀ t, c.clock t = d.clock t) :
    c = d := by
  cases c with
  | mk left =>
    cases d with
    | mk right =>
      simp only [mk.injEq]
      apply Std.ExtTreeMap.ext_getElem?
      intro t
      have hm := hmem t
      have hc := hclock t
      simp only [clock, Std.ExtTreeMap.getD_eq_getD_getElem?,
        Std.ExtTreeMap.mem_iff_isSome_getElem?] at hm hc
      cases hct : left[t]? <;> cases hdt : right[t]? <;> simp_all

@[simp] theorem clock_insertDefault : (c.insertDefault t).clock u = c.clock u := by
  simp only [insertDefault, clock, Std.ExtTreeMap.getD_insertIfNew,
    Std.LawfulEqCmp.compare_eq_iff_eq]
  split
  · rename_i h
    obtain ⟨rfl, hnot⟩ := h
    exact (Std.ExtTreeMap.getD_eq_fallback hnot).symm
  · rfl

@[simp] theorem mem_insertDefault : u ∈ (c.insertDefault t).inner ↔ t = u ∨ u ∈ c.inner := by
  simp [insertDefault, Std.ExtTreeMap.mem_insertIfNew]

@[simp] theorem clock_apply :
    (c.apply t a).clock u = if t = u then (c.clock u).apply a else c.clock u := by
  simp only [apply, clock, Std.ExtTreeMap.getD_alter, Std.LawfulEqCmp.compare_eq_iff_eq]
  split
  · rename_i h
    subst h
    cases hs : c.inner[t]? <;> simp [Std.ExtTreeMap.getD_eq_getD_getElem?, hs]
  · rfl

@[simp] theorem mem_apply : u ∈ (c.apply t a).inner ↔ t = u ∨ u ∈ c.inner := by
  simp only [apply, Std.ExtTreeMap.mem_alter, Std.LawfulEqCmp.compare_eq_iff_eq]
  split
  · rename_i h
    subst h
    cases c.inner[t]? <;> simp
  · simp [*]

theorem get_clock_le_apply (o : Nat) :
    (c.clock u).get o ≤ ((c.apply t a).clock u).get o := by
  simp only [clock_apply]
  split
  · exact GlobalCursor.get_le_apply o
  · exact Nat.le_refl _

theorem apply_comm : (c.apply t a).apply u b = (c.apply u b).apply t a := by
  apply ext_clock
  · simp [or_left_comm]
  · intro v
    simp only [clock_apply]
    by_cases ht : t = v <;> by_cases hu : u = v <;> simp [ht, hu, GlobalCursor.apply_comm]

end TopicCursor

end LibXmtp.Types
