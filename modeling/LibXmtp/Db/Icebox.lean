import LibXmtp.Data.RecursiveQuery
import LibXmtp.Db.RefreshState
import LibXmtp.D14n.Envelope

universe u

namespace LibXmtp.Db

open LibXmtp.Data LibXmtp.Types LibXmtp.D14n

/-- A row of the `icebox` table, whose primary key is the cursor. -/
structure IceboxRow (E : Type u) [Envelope E] where
  cursor : Cursor
  groupId : Bytes
  envelopePayload : E
  cursor_eq : Envelope.cursor envelopePayload = cursor
  groupId_eq : (groupMessage envelopePayload).map GroupMessage.groupId = some groupId

structure IceboxDependency where
  envelope : Cursor
  dependency : Cursor
  deriving DecidableEq

structure Icebox (E : Type u) [Envelope E] where
  icebox : Table (IceboxRow.cursor (E := E))
  dependencies : Table (id : IceboxDependency → IceboxDependency)
  recorded : ∀ r ∈ icebox.rows, ∀ dependency ∈ (D14n.dependencies r.envelopePayload).cursors,
    { envelope := r.cursor, dependency } ∈ dependencies.rows

namespace Icebox

variable {E : Type u} [Envelope E]

def empty : Icebox E := ⟨.empty, .empty, nofun⟩

def rowOf (o : OrphanedEnvelope E) : IceboxRow E :=
  { cursor := o.cursor
    groupId := o.groupId
    envelopePayload := o.payload
    cursor_eq := o.cursor_eq
    groupId_eq := o.groupId_eq }

def deps (o : OrphanedEnvelope E) : List IceboxDependency :=
  o.dependsOn.cursors.map fun dependency => { envelope := o.cursor, dependency }

def ice (box : Icebox E) (orphans : List (OrphanedEnvelope E)) : Icebox E where
  icebox := box.icebox.insertAllOrIgnore (orphans.map rowOf)
  dependencies := box.dependencies.insertAllOrIgnore (orphans.flatMap deps)
  recorded r hr dependency hdep := by
    rcases Table.mem_of_mem_insertAllOrIgnore hr with hr | ⟨hr, -⟩
    · exact Table.mem_insertAllOrIgnore_of_mem (box.recorded r hr dependency hdep)
    · obtain ⟨o, ho, rfl⟩ := List.mem_map.mp hr
      have hmem : { envelope := o.cursor, dependency } ∈ orphans.flatMap deps := by
        simp only [List.mem_flatMap, deps, List.mem_map]
        exact ⟨o, ho, dependency, o.dependsOn_eq ▸ hdep, rfl⟩
      have hkey := box.dependencies.key_mem_insertAllOrIgnore hmem
      rw [List.map_id] at hkey
      exact hkey

/-- A stored cursor of the row's group and originator has reached it. The columns hold signed
numbers, and that of the originator is the narrower one among the cursors. -/
def processed (states : RefreshStates) (r : IceboxRow E) : Bool :=
  states.rows.any fun s =>
    s.entityId == r.groupId &&
      (s.originatorId == r.cursor.originatorId && r.cursor.originatorId < 2 ^ 31) &&
      decide (asBigInt r.cursor.sequenceId ≤ asBigInt s.sequenceId) &&
      [EntityKind.applicationMessage, .commitMessage].contains s.entityKind

def pruneIcebox (states : RefreshStates) (box : Icebox E) : Icebox E where
  icebox := box.icebox.deleteWhere (processed states)
  dependencies := box.dependencies.deleteWhere fun d =>
    box.icebox.rows.any fun r => processed states r && r.cursor == d.envelope
  recorded r hr dependency hdep := by
    obtain ⟨hmem, hnot⟩ := Table.mem_deleteWhere.mp hr
    refine Table.mem_deleteWhere.mpr ⟨box.recorded r hmem dependency hdep, ?_⟩
    simp only [List.any_eq_false, Bool.and_eq_true, beq_iff_eq, not_and]
    intro r' hr' hproc hcursor
    rw [box.icebox.eq_of_key_eq hr' hmem hcursor, hnot] at hproc
    cases hproc

def children (box : Icebox E) (cursor : Cursor) : List (IceboxRow E) :=
  box.icebox.rows.filter fun r => box.dependencies.rows.contains
    { envelope := r.cursor, dependency := cursor }

/-- A literal above the greatest `i64` is read as a real number, which no stored number equals. -/
def isInteger (c : Cursor) : Bool := c.sequenceId < 2 ^ 63

/-- The envelopes that depend on any of the cursors, directly or through other ones, each once. The
cursors are written into the query as literals. A chain longer than the table visits a row twice,
and the query never ends. -/
def futureDependents (box : Icebox E) (cursors : List Cursor) : Option (List (IceboxRow E)) :=
  if cursors.isEmpty then some []
  else
    let startCursors := cursors.filter isInteger
    (unionAll box.children IceboxRow.cursor box.icebox.rows.length startCursors).map fun chain =>
      box.icebox.rows.filter fun r => chain.any fun r' => r'.cursor == r.cursor

variable {box : Icebox E} {cursors : List Cursor} {orphans : List (OrphanedEnvelope E)}
  {found : List (IceboxRow E)} {r : IceboxRow E}

theorem mem_of_mem_ice (h : r ∈ (box.ice orphans).icebox.rows) :
    r ∈ box.icebox.rows ∨ ∃ o ∈ orphans, rowOf o = r := by
  rcases Table.mem_of_mem_insertAllOrIgnore h with h | ⟨h, -⟩
  · exact .inl h
  · exact .inr (List.mem_map.mp h)

theorem mem_ice_of_mem (h : r ∈ box.icebox.rows) : r ∈ (box.ice orphans).icebox.rows :=
  Table.mem_insertAllOrIgnore_of_mem h

theorem exists_row_ice (box : Icebox E) {o : OrphanedEnvelope E} (h : o ∈ orphans) :
    ∃ r ∈ (box.ice orphans).icebox.rows, r.cursor = o.cursor := by
  have hrow : rowOf o ∈ orphans.map rowOf := List.mem_map_of_mem h
  exact List.mem_map.mp (box.icebox.key_mem_insertAllOrIgnore hrow)

theorem mem_children {c : Cursor} : r ∈ box.children c ↔
    r ∈ box.icebox.rows ∧ { envelope := r.cursor, dependency := c } ∈ box.dependencies.rows := by
  simp [children]

/-- `r` waits, directly or through other iced envelopes, for the envelope at `c`. -/
abbrev WaitsFor (box : Icebox E) (c : Cursor) (r : IceboxRow E) : Prop :=
  Descends box.children IceboxRow.cursor c r

theorem mem_rows_of_waitsFor {c : Cursor} (h : box.WaitsFor c r) : r ∈ box.icebox.rows :=
  h.mem fun _ _ hr => (mem_children.mp hr).1

theorem mem_futureDependents (h : box.futureDependents cursors = some found) :
    r ∈ found ↔ ∃ c ∈ cursors, isInteger c ∧ box.WaitsFor c r := by
  unfold futureDependents at h
  split at h
  · rename_i hnil
    rw [List.isEmpty_iff] at hnil
    simp_all
  · obtain ⟨chain, hchain, rfl⟩ := Option.map_eq_some_iff.mp h
    simp only [List.mem_filter, List.any_eq_true, beq_iff_eq]
    constructor
    · rintro ⟨hr, r', hr', hcursor⟩
      obtain ⟨c, hc, hwaits⟩ := (mem_unionAll hchain).mp hr'
      rw [box.icebox.eq_of_key_eq (mem_rows_of_waitsFor hwaits) hr hcursor] at hwaits
      obtain ⟨hc, hinteger⟩ := List.mem_filter.mp hc
      exact ⟨c, hc, hinteger, hwaits⟩
    · rintro ⟨c, hc, hinteger, hwaits⟩
      have hstart : c ∈ cursors.filter isInteger := List.mem_filter.mpr ⟨hc, hinteger⟩
      exact ⟨mem_rows_of_waitsFor hwaits, r, (mem_unionAll hchain).mpr ⟨c, hstart, hwaits⟩, rfl⟩

theorem futureDependents_eq_none_iff : box.futureDependents cursors = none ↔
    ∃ c ∈ cursors, isInteger c ∧ ∃ r, box.WaitsFor c r ∧ box.WaitsFor r.cursor r := by
  unfold futureDependents
  split
  · rename_i hnil
    rw [List.isEmpty_iff] at hnil
    simp [hnil]
  · rw [Option.map_eq_none_iff, unionAll_eq_none_iff fun _ _ hr => (mem_children.mp hr).1]
    simp only [List.mem_filter, and_assoc]

theorem nodup_futureDependents (h : box.futureDependents cursors = some found) :
    (found.map IceboxRow.cursor).Nodup := by
  unfold futureDependents at h
  split at h
  · simp_all
  · obtain ⟨chain, -, rfl⟩ := Option.map_eq_some_iff.mp h
    exact box.icebox.distinct.sublist (List.filter_sublist.map IceboxRow.cursor)

end Icebox

end LibXmtp.Db
