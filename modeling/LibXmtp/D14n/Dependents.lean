import LibXmtp.Data.HashSet
import LibXmtp.Db.Icebox
import Mathlib.Algebra.Group.Nat.Defs

universe u

namespace LibXmtp.D14n

open LibXmtp.Data LibXmtp.Types LibXmtp.Db

variable {E : Type u} [Envelope E]

namespace OrphanedEnvelope

instance : BEq (OrphanedEnvelope E) where
  beq o o' := o.cursor == o'.cursor && o.dependsOn == o'.dependsOn && o.groupId == o'.groupId

theorem beq_iff {o o' : OrphanedEnvelope E} : (o == o') = true ↔
    o.cursor = o'.cursor ∧ o.dependsOn = o'.dependsOn ∧ o.groupId = o'.groupId := by
  change (o.cursor == o'.cursor && o.dependsOn == o'.dependsOn && o.groupId == o'.groupId) = true ↔ _
  simp only [Bool.and_eq_true, beq_iff_eq, and_assoc]

instance : PartialEquivBEq (OrphanedEnvelope E) where
  symm {o o'} h := by
    rw [beq_iff] at h ⊢
    exact ⟨h.1.symm, h.2.1.symm, h.2.2.symm⟩
  trans {o o' o''} h h' := by
    rw [beq_iff] at h h' ⊢
    exact ⟨h.1.trans h'.1, h.2.1.trans h'.2.1, h.2.2.trans h'.2.2⟩

end OrphanedEnvelope

namespace InMemoryCursorStore

abbrev IceSet (E : Type u) [Envelope E] := HashSet (OrphanedEnvelope E)

def ice (icebox : IceSet E) (orphans : List (OrphanedEnvelope E)) : IceSet E :=
  icebox.extend orphans

def iced (icebox : IceSet E) (cursor : Cursor) : List (OrphanedEnvelope E) :=
  (icebox.filter (·.isChildOf cursor)).entries

def childrenOf (cursors : List Cursor) (icebox : IceSet E) : IceSet E :=
  cursors.foldl (fun acc cursor => acc.extend (iced icebox cursor)) .empty

def nextCursors (children : IceSet E) : List Cursor :=
  (children.entries.filter fun c => !c.dependsOn.inner.isEmpty).map OrphanedEnvelope.cursor

/-- What has been found before is looked for again. `depth` bounds the depth of the recursion. -/
def resolveChildrenInner (depth : Nat) (cursors : List Cursor) (icebox : IceSet E) :
    Option (IceSet E) :=
  match depth with
  | 0 => none
  | depth + 1 =>
    let children := childrenOf cursors icebox
    let cursors := nextCursors children
    if cursors.isEmpty then some children
    else (fun v => children.extend v.entries) <$> resolveChildrenInner depth cursors icebox

variable {icebox children : IceSet E} {cursors : List Cursor} {o : OrphanedEnvelope E}
  {depth : Nat} {out : IceSet E}

theorem mem_iced {c : Cursor} : o ∈ iced icebox c ↔ o ∈ icebox.entries ∧ o.isChildOf c = true :=
  List.mem_filter

theorem iced_subset (icebox : IceSet E) (c : Cursor) : iced icebox c ⊆ icebox.entries :=
  fun _ ho => (mem_iced.mp ho).1

theorem mem_childrenOf : o ∈ (childrenOf cursors icebox).entries ↔ o ∈ cursors.flatMap (iced icebox) := by
  induction cursors using List.reverseRecOn generalizing o with
  | nil => exact Iff.rfl
  | append_singleton cursors c ih =>
    have hsub : (childrenOf cursors icebox).entries ⊆ icebox.entries := by
      intro o ho
      obtain ⟨c, -, hc⟩ := List.mem_flatMap.mp (ih.mp ho)
      exact iced_subset icebox c hc
    rw [childrenOf, List.foldl_concat, ← childrenOf,
      HashSet.mem_extend icebox.eq_of_beq hsub (iced_subset icebox c), ih]
    simp

theorem nextCursors_childrenOf : nextCursors (childrenOf cursors icebox) =
    (childrenOf cursors icebox).entries.map OrphanedEnvelope.cursor := by
  rw [nextCursors, List.filter_eq_self.mpr]
  intro o ho
  obtain ⟨c, -, hc⟩ := List.mem_flatMap.mp (mem_childrenOf.mp ho)
  have hdepends := (mem_iced.mp hc).2
  rw [OrphanedEnvelope.isChildOf, Bool.and_eq_true, Std.ExtTreeMap.contains_iff_mem] at hdepends
  rw [Bool.not_eq_true']
  by_contra hempty
  rw [Bool.not_eq_false, Std.ExtTreeMap.isEmpty_iff] at hempty
  rw [hempty] at hdepends
  exact Std.ExtTreeMap.not_mem_empty hdepends.1

/-- The iced envelope waits, directly or through other iced ones, for the envelope at `c`. -/
abbrev Reaches (icebox : IceSet E) (c : Cursor) (o : OrphanedEnvelope E) : Prop :=
  Descends (iced icebox) OrphanedEnvelope.cursor c o

theorem mem_of_reaches {c : Cursor} (h : Reaches icebox c o) : o ∈ icebox.entries :=
  h.mem (iced_subset icebox)

theorem exists_reaches_iff : (∃ c ∈ cursors, Reaches icebox c o) ↔
    o ∈ (childrenOf cursors icebox).entries ∨
      ∃ c ∈ nextCursors (childrenOf cursors icebox), Reaches icebox c o := by
  rw [exists_descends_iff, mem_childrenOf, nextCursors_childrenOf]
  simp only [List.mem_map, mem_childrenOf]

theorem mem_resolveChildrenInner (h : resolveChildrenInner depth cursors icebox = some out) :
    o ∈ out.entries ↔ ∃ c ∈ cursors, Reaches icebox c o := by
  induction depth generalizing cursors out o with
  | zero => cases h
  | succ depth ih =>
    rw [exists_reaches_iff]
    rw [resolveChildrenInner] at h
    split at h
    · rename_i hnext
      cases h
      rw [List.isEmpty_iff.mp hnext]
      simp
    · obtain ⟨v, hv, rfl⟩ := Option.map_eq_some_iff.mp h
      have hchildren : (childrenOf cursors icebox).entries ⊆ icebox.entries := by
        intro o ho
        obtain ⟨c, -, hc⟩ := List.mem_flatMap.mp (mem_childrenOf.mp ho)
        exact iced_subset icebox c hc
      have hfound : v.entries ⊆ icebox.entries := by
        intro o ho
        obtain ⟨c, -, hc⟩ := (ih hv).mp ho
        exact mem_of_reaches hc
      rw [HashSet.mem_extend icebox.eq_of_beq hchildren hfound, ih hv]

theorem resolveChildrenInner_eq_none_iff (h : cursors ≠ []) :
    resolveChildrenInner depth cursors icebox = none ↔ ∃ c ∈ cursors, ∃ os, os.length = depth ∧
      Path (iced icebox) OrphanedEnvelope.cursor c os := by
  induction depth generalizing cursors with
  | zero =>
    obtain ⟨c, hc⟩ := List.exists_mem_of_ne_nil cursors h
    exact iff_of_true rfl ⟨c, hc, [], rfl, trivial⟩
  | succ depth ih =>
    have hnext {c : Cursor} : c ∈ nextCursors (childrenOf cursors icebox) ↔
        ∃ c' ∈ cursors, ∃ o ∈ iced icebox c', o.cursor = c := by
      rw [nextCursors_childrenOf]
      simp only [List.mem_map, mem_childrenOf, List.mem_flatMap]
      constructor
      · rintro ⟨o, ⟨c', hc', ho⟩, hcursor⟩
        exact ⟨c', hc', o, ho, hcursor⟩
      · rintro ⟨c', hc', o, ho, hcursor⟩
        exact ⟨o, ⟨c', hc', ho⟩, hcursor⟩
    have hstep : (∃ c ∈ cursors, ∃ os, os.length = depth + 1 ∧
        Path (iced icebox) OrphanedEnvelope.cursor c os) ↔
        ∃ c ∈ nextCursors (childrenOf cursors icebox), ∃ os, os.length = depth ∧
          Path (iced icebox) OrphanedEnvelope.cursor c os := by
      constructor
      · rintro ⟨c, hc, os, hlength, hpath⟩
        cases os with
        | nil => cases hlength
        | cons o os =>
          exact ⟨o.cursor, hnext.mpr ⟨c, hc, o, hpath.1, rfl⟩, os, Nat.succ.inj hlength, hpath.2⟩
      · rintro ⟨c, hc, os, hlength, hpath⟩
        obtain ⟨c', hc', o, ho, rfl⟩ := hnext.mp hc
        exact ⟨c', hc', o :: os, congrArg (· + 1) hlength, ho, hpath⟩
    rw [hstep, resolveChildrenInner]
    by_cases hempty : nextCursors (childrenOf cursors icebox) = []
    · simp [hempty]
    · rw [if_neg (by rw [List.isEmpty_iff]; exact hempty), ← ih hempty]
      exact Option.map_eq_none_iff

def Circular (icebox : IceSet E) (cursors : List Cursor) : Prop :=
  ∃ c ∈ cursors, ∃ o, Reaches icebox c o ∧ Reaches icebox o.cursor o

theorem exists_resolved_iff :
    (∃ depth out, resolveChildrenInner depth cursors icebox = some out) ↔
      ¬Circular icebox cursors := by
  by_cases hnil : cursors = []
  · subst hnil
    refine iff_of_true ⟨1, .empty, rfl⟩ ?_
    rintro ⟨c, hc, -⟩
    cases hc
  · constructor
    · rintro ⟨depth, out, h⟩ ⟨c, hc, o, ho, hcycle⟩
      obtain ⟨os, hlength, hpath⟩ := ho.exists_path hcycle depth
      rw [(resolveChildrenInner_eq_none_iff hnil).mpr ⟨c, hc, os, hlength, hpath⟩] at h
      cases h
    · intro h
      refine ⟨icebox.entries.length + 1, ?_⟩
      by_contra hnone
      simp only [not_exists, ← Option.eq_none_iff_forall_ne_some] at hnone
      obtain ⟨c, hc, os, hlength, hpath⟩ := (resolveChildrenInner_eq_none_iff hnil).mp hnone
      refine h ⟨c, hc, hpath.exists_cycle fun hnodup => ?_⟩
      have hsub : os ⊆ icebox.entries := fun o ho => mem_of_reaches (hpath.descends ho)
      have hle := (hnodup.subperm hsub).length_le
      omega

end InMemoryCursorStore

structure LoadedEnvelope (E : Type u) where
  cursor : Cursor
  dependsOn : GlobalCursor
  payload : E
  groupId : Bytes

def OrphanedEnvelope.loaded (o : OrphanedEnvelope E) : LoadedEnvelope E :=
  ⟨o.cursor, o.dependsOn, o.payload, o.groupId⟩

namespace SqliteIcebox

def load (box : Icebox E) (r : IceboxRow E) : LoadedEnvelope E where
  cursor := r.cursor
  dependsOn := (default : GlobalCursor).insertAll
    ((box.dependencies.rows.filter fun d => d.envelope = r.cursor).map fun d =>
      (d.dependency.originatorId, d.dependency.sequenceId))
  payload := r.envelopePayload
  groupId := r.groupId

def futureDependents (box : Icebox E) (cursors : List Cursor) : Option (List (LoadedEnvelope E)) :=
  (box.futureDependents cursors).map (List.map (load box))

end SqliteIcebox

namespace InMemoryCursorStore

open SqliteIcebox
open Icebox (isInteger)

structure SameContent (box : Icebox E) (icebox : IceSet E) : Prop where
  rows : ∀ r, r ∈ box.icebox.rows ↔ ∃ o ∈ icebox.entries, Icebox.rowOf o = r
  dependencies : ∀ d, d ∈ box.dependencies.rows ↔ ∃ o ∈ icebox.entries, d ∈ Icebox.deps o

variable {box : Icebox E} {icebox : IceSet E} {o o' : OrphanedEnvelope E} {cursors : List Cursor}

theorem SameContent.eq_of_cursor (h : SameContent box icebox) (ho : o ∈ icebox.entries)
    (ho' : o' ∈ icebox.entries) (hcursor : o.cursor = o'.cursor) : o = o' := by
  have hrow := box.icebox.eq_of_key_eq ((h.rows _).mpr ⟨o, ho, rfl⟩)
    ((h.rows _).mpr ⟨o', ho', rfl⟩) hcursor
  have hpayload : o.payload = o'.payload := congrArg IceboxRow.envelopePayload hrow
  have hdepends : o.dependsOn = o'.dependsOn := by
    rw [← o.dependsOn_eq, ← o'.dependsOn_eq, hpayload]
  have hgroup : o.groupId = o'.groupId := congrArg IceboxRow.groupId hrow
  cases o
  cases o'
  rw [OrphanedEnvelope.mk.injEq]
  exact ⟨hcursor, hdepends, hpayload, hgroup⟩

theorem SameContent.mem_dependencies (h : SameContent box icebox) (ho : o ∈ icebox.entries)
    {c : Cursor} : { envelope := o.cursor, dependency := c } ∈ box.dependencies.rows ↔
      c ∈ o.dependsOn.cursors := by
  rw [h.dependencies]
  simp only [Icebox.deps, List.mem_map, IceboxDependency.mk.injEq]
  constructor
  · rintro ⟨o', ho', c', hc', hcursor, rfl⟩
    rw [h.eq_of_cursor ho ho' hcursor.symm]
    exact hc'
  · intro hc
    exact ⟨o, ho, c, hc, rfl, rfl⟩

theorem SameContent.mem_children (h : SameContent box icebox) (c : Cursor) (r : IceboxRow E) :
    r ∈ box.children c ↔ ∃ o ∈ iced icebox c, Icebox.rowOf o = r := by
  rw [Icebox.mem_children, h.rows]
  constructor
  · rintro ⟨⟨o, ho, rfl⟩, hdep⟩
    exact ⟨o, mem_iced.mpr ⟨ho, OrphanedEnvelope.isChildOf_iff.mpr ((h.mem_dependencies ho).mp hdep)⟩,
      rfl⟩
  · rintro ⟨o, ho, rfl⟩
    obtain ⟨ho, hchild⟩ := mem_iced.mp ho
    exact ⟨⟨o, ho, rfl⟩, (h.mem_dependencies ho).mpr (OrphanedEnvelope.isChildOf_iff.mp hchild)⟩

theorem sameContent_ice {orphans : List (OrphanedEnvelope E)}
    (h : ∀ o ∈ orphans, ∀ o' ∈ orphans, o.cursor = o'.cursor → o = o') :
    SameContent (Icebox.empty.ice orphans) (ice HashSet.empty orphans) := by
  have hiced (o : OrphanedEnvelope E) : o ∈ (ice HashSet.empty orphans).entries ↔ o ∈ orphans := by
    rw [ice, HashSet.mem_extend (fun o ho o' ho' heq =>
      h o ho o' ho' (OrphanedEnvelope.beq_iff.mp heq).1) (List.nil_subset _) (List.Subset.refl _)]
    simp [HashSet.empty]
  constructor
  · intro r
    simp only [hiced]
    constructor
    · intro hr
      rcases Icebox.mem_of_mem_ice hr with hr | hr
      · cases hr
      · exact hr
    · rintro ⟨o, ho, rfl⟩
      obtain ⟨r, hr, hcursor⟩ := Icebox.exists_row_ice Icebox.empty ho
      rcases Icebox.mem_of_mem_ice hr with hr' | ⟨o', ho', rfl⟩
      · cases hr'
      · rw [← h o' ho' o ho hcursor]
        exact hr
  · intro d
    simp only [hiced, ← List.mem_flatMap]
    constructor
    · intro hd
      rcases Table.mem_of_mem_insertAllOrIgnore hd with hd | ⟨hd, -⟩
      · cases hd
      · exact hd
    · intro hd
      have hkey := (Icebox.empty (E := E)).dependencies.key_mem_insertAllOrIgnore hd
      rw [List.map_id] at hkey
      exact hkey

theorem SameContent.waitsFor_iff (h : SameContent box icebox) {c : Cursor} {r : IceboxRow E} :
    box.WaitsFor c r ↔ ∃ o, Reaches icebox c o ∧ Icebox.rowOf o = r :=
  descends_map_iff (fun _ => rfl) h.mem_children

theorem SameContent.load_rowOf (h : SameContent box icebox) (ho : o ∈ icebox.entries) :
    load box (Icebox.rowOf o) = o.loaded := by
  have hdeps : ∀ c, c ∈ (box.dependencies.rows.filter fun d => d.envelope = o.cursor).map
      IceboxDependency.dependency ↔ c ∈ o.dependsOn.cursors := by
    intro c
    rw [← h.mem_dependencies ho, List.mem_map]
    constructor
    · rintro ⟨d, hd, rfl⟩
      obtain ⟨hd, henvelope⟩ := List.mem_filter.mp hd
      rw [← of_decide_eq_true henvelope]
      exact hd
    · intro hd
      exact ⟨_, List.mem_filter.mpr ⟨hd, decide_eq_true rfl⟩, rfl⟩
  have hclock := GlobalCursor.insertAll_eq_of_mem_iff hdeps
  rw [List.map_map] at hclock
  rw [load, OrphanedEnvelope.loaded, LoadedEnvelope.mk.injEq]
  exact ⟨rfl, hclock, rfl, rfl⟩

/-- The lookup ends with exactly what waits for the cursors. -/
def Resolves (icebox : IceSet E) (cursors : List Cursor) : Prop :=
  ∃ depth out, resolveChildrenInner depth cursors icebox = some out ∧
    ∀ o, o ∈ out.entries ↔ ∃ c ∈ cursors, Reaches icebox c o

def Agree (box : Icebox E) (icebox : IceSet E) (cursors : List Cursor) : Prop :=
  ∃ depth out found, resolveChildrenInner depth cursors icebox = some out ∧
    SqliteIcebox.futureDependents box cursors = some found ∧
    ∀ e, e ∈ found ↔ ∃ o ∈ out.entries, o.loaded = e

/-- What waits for a cursor waits for one that can be written as an integer. -/
def Written (icebox : IceSet E) (cursors : List Cursor) : Prop :=
  ∀ c ∈ cursors, ∀ o, Reaches icebox c o → ∃ c' ∈ cursors, isInteger c' ∧ Reaches icebox c' o

theorem resolves_iff : Resolves icebox cursors ↔ ¬Circular icebox cursors := by
  rw [← exists_resolved_iff]
  constructor
  · rintro ⟨depth, out, h, -⟩
    exact ⟨depth, out, h⟩
  · rintro ⟨depth, out, h⟩
    exact ⟨depth, out, h, fun _ => mem_resolveChildrenInner h⟩

theorem SameContent.mem_futureDependents (h : SameContent box icebox) {found : List (LoadedEnvelope E)}
    (hfound : SqliteIcebox.futureDependents box cursors = some found) {e : LoadedEnvelope E} :
    e ∈ found ↔ ∃ o, o.loaded = e ∧ ∃ c ∈ cursors, isInteger c ∧ Reaches icebox c o := by
  obtain ⟨rows, hrows, rfl⟩ := Option.map_eq_some_iff.mp hfound
  rw [List.mem_map]
  constructor
  · rintro ⟨r, hr, rfl⟩
    obtain ⟨c, hc, hinteger, hwaits⟩ := (Icebox.mem_futureDependents hrows).mp hr
    obtain ⟨o, ho, rfl⟩ := h.waitsFor_iff.mp hwaits
    exact ⟨o, (h.load_rowOf (mem_of_reaches ho)).symm, c, hc, hinteger, ho⟩
  · rintro ⟨o, rfl, c, hc, hinteger, ho⟩
    refine ⟨Icebox.rowOf o, (Icebox.mem_futureDependents hrows).mpr ?_,
      h.load_rowOf (mem_of_reaches ho)⟩
    exact ⟨c, hc, hinteger, h.waitsFor_iff.mpr ⟨o, ho, rfl⟩⟩

theorem SameContent.exists_futureDependents (h : SameContent box icebox)
    (hcircular : ¬Circular icebox cursors) :
    ∃ found, SqliteIcebox.futureDependents box cursors = some found := by
  cases hrows : box.futureDependents cursors with
  | some rows => exact ⟨rows.map (load box), by rw [SqliteIcebox.futureDependents, hrows]; rfl⟩
  | none =>
    obtain ⟨c, hc, -, r, hr, hcycle⟩ := Icebox.futureDependents_eq_none_iff.mp hrows
    obtain ⟨o, ho, rfl⟩ := h.waitsFor_iff.mp hr
    obtain ⟨o', ho', hrow⟩ := h.waitsFor_iff.mp hcycle
    have heq : o' = o := h.eq_of_cursor (mem_of_reaches ho') (mem_of_reaches ho)
      (congrArg IceboxRow.cursor hrow)
    rw [heq] at ho'
    exact absurd ⟨c, hc, o, ho, ho'⟩ hcircular

theorem SameContent.agree_iff (h : SameContent box icebox) : Agree box icebox cursors ↔
    ¬Circular icebox cursors ∧ Written icebox cursors := by
  constructor
  · rintro ⟨depth, out, found, hout, hfound, hsame⟩
    refine ⟨exists_resolved_iff.mp ⟨depth, out, hout⟩, fun c hc o ho => ?_⟩
    have hmem := (hsame o.loaded).mpr ⟨o, (mem_resolveChildrenInner hout).mpr ⟨c, hc, ho⟩, rfl⟩
    obtain ⟨o', heq, c', hc', hinteger, ho'⟩ := (h.mem_futureDependents hfound).mp hmem
    rw [h.eq_of_cursor (mem_of_reaches ho') (mem_of_reaches ho)
      (congrArg LoadedEnvelope.cursor heq)] at ho'
    exact ⟨c', hc', hinteger, ho'⟩
  · rintro ⟨hcircular, hwritten⟩
    obtain ⟨depth, out, hout⟩ := exists_resolved_iff.mpr hcircular
    obtain ⟨found, hfound⟩ := h.exists_futureDependents hcircular
    refine ⟨depth, out, found, hout, hfound, fun e => ?_⟩
    rw [h.mem_futureDependents hfound]
    simp only [mem_resolveChildrenInner hout]
    constructor
    · rintro ⟨o, heq, c, hc, -, ho⟩
      exact ⟨o, ⟨c, hc, ho⟩, heq⟩
    · rintro ⟨o, ⟨c, hc, ho⟩, heq⟩
      exact ⟨o, heq, hwritten c hc o ho⟩

/-- The lookup in memory ends with what waits for the cursors, and the query with the same, unless
iced envelopes that are found wait for each other in a circle, or for a number that is too large to
be written. -/
theorem resolveChildren_eq_futureDependents_iff (icebox : IceSet E) (cursors : List Cursor) :
    (Resolves icebox cursors ↔ ¬Circular icebox cursors) ∧
    ∀ box, SameContent box icebox →
      (Resolves icebox cursors ∧ Agree box icebox cursors ↔
        ¬Circular icebox cursors ∧ Written icebox cursors) := by
  refine ⟨resolves_iff, fun box h => ?_⟩
  rw [resolves_iff, h.agree_iff]
  constructor
  · exact And.right
  · intro hboth
    exact ⟨hboth.1, hboth⟩

def selfDependent : OrphanedEnvelope Extracted where
  cursor := { sequenceId := 1, originatorId := 10 }
  dependsOn := (default : GlobalCursor).insert 10 1
  payload := .message 1 (some ((default : GlobalCursor).insert 10 1)) 0
  groupId := [1]
  cursor_eq := rfl
  dependsOn_eq := rfl
  groupId_eq := rfl

/-- Nothing comes of a lookup that finds an envelope that depends on itself. -/
theorem not_resolves_selfDependent :
    ¬Resolves (ice .empty [selfDependent]) [selfDependent.cursor] := by
  rw [resolves_iff, not_not]
  have hiced : selfDependent ∈ iced (ice .empty [selfDependent]) selfDependent.cursor :=
    mem_iced.mpr ⟨List.mem_singleton_self _, by decide +kernel⟩
  exact ⟨_, List.mem_singleton_self _, selfDependent, .child hiced, .child hiced⟩

end InMemoryCursorStore

end LibXmtp.D14n
