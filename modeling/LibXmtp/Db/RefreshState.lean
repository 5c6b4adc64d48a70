import LibXmtp.Data.Table
import LibXmtp.Types.GlobalCursor
import Mathlib.Algebra.Group.Int.Defs
import Mathlib.Algebra.Group.Nat.Defs

namespace LibXmtp.Db

open LibXmtp.Data LibXmtp.Types

inductive EntityKind
  | welcome
  | applicationMessage
  | commitLogUpload
  | commitLogDownload
  | commitLogForkCheckLocal
  | commitLogForkCheckRemote
  | commitMessage
  deriving DecidableEq

structure RefreshState where
  entityId : Bytes
  entityKind : EntityKind
  sequenceId : Nat
  originatorId : Nat

def RefreshState.key (s : RefreshState) : Bytes × EntityKind × Nat :=
  (s.entityId, s.entityKind, s.originatorId)

abbrev RefreshStates := Table RefreshState.key

def asBigInt (n : Nat) : Int := if n < 2 ^ 63 then n else n - 2 ^ 64

def upsertCursor (entityId : Bytes) (entityKind : EntityKind) (cursor : Cursor)
    (states : RefreshStates) : RefreshStates :=
  states.upsertWhere (fun s => s.sequenceId < cursor.sequenceId)
    { entityId, entityKind, sequenceId := cursor.sequenceId, originatorId := cursor.originatorId }

/-- The id of a message is cast to the column. One that does not fit comes out negative, below
whatever is stored of its originator. -/
def updateCursor (entityId : Bytes) (entityKind : EntityKind) (cursor : Cursor)
    (states : RefreshStates) : RefreshStates :=
  if cursor.sequenceId < 2 ^ 63 then upsertCursor entityId entityKind cursor states else states

/-- An originator that is not known yet is stored with the cursor it is answered with. -/
def getLastCursorForOriginator (entityId : Bytes) (entityKind : EntityKind) (originatorId : Nat)
    (states : RefreshStates) : Nat × RefreshStates :=
  match states.fetch (entityId, entityKind, originatorId) with
  | some state => (state.sequenceId, states)
  | none => (0, states.insertOrIgnore { entityId, entityKind, sequenceId := 0, originatorId })

def cursorOf (entityId : Bytes) (states : RefreshStates) (entityKind : EntityKind)
    (originatorId : Nat) : Nat :=
  (getLastCursorForOriginator entityId entityKind originatorId states).1

variable {id : Bytes}

theorem cursorOf_eq (states : RefreshStates) (kind : EntityKind) (originator : Nat) :
    cursorOf id states kind originator =
      ((states.fetch (id, kind, originator)).map RefreshState.sequenceId).getD 0 := by
  unfold cursorOf getLastCursorForOriginator
  cases states.fetch (id, kind, originator) with
  | none => rfl
  | some state => rfl

theorem cursorOf_getLastCursorForOriginator (id' : Bytes) (states : RefreshStates)
    (kind kind' : EntityKind) (originator originator' : Nat) :
    cursorOf id (getLastCursorForOriginator id' kind originator states).2 kind' originator' =
      cursorOf id states kind' originator' := by
  unfold getLastCursorForOriginator
  split
  · rfl
  · rename_i hnone
    rw [cursorOf_eq, cursorOf_eq, Table.fetch_insertOrIgnore_of_none hnone]
    split
    · rename_i hkey
      simp only [RefreshState.key] at hkey
      rw [← hkey, hnone]
      rfl
    · rfl

theorem fetch_getLastCursorForOriginator (id' : Bytes) (states : RefreshStates)
    (kind' : EntityKind) (originator' : Nat) {key : Bytes × EntityKind × Nat}
    (h : key ≠ (id', kind', originator')) :
    (getLastCursorForOriginator id' kind' originator' states).2.fetch key = states.fetch key := by
  unfold getLastCursorForOriginator
  split
  · rfl
  · rename_i hnone
    rw [Table.fetch_insertOrIgnore_of_none hnone]
    exact if_neg (Ne.symm h)

theorem fetch_upsertCursor (id' : Bytes) (states : RefreshStates) (kind' : EntityKind)
    (cursor : Cursor) {key : Bytes × EntityKind × Nat}
    (h : key ≠ (id', kind', cursor.originatorId)) :
    (upsertCursor id' kind' cursor states).fetch key = states.fetch key := by
  rw [upsertCursor, Table.fetch_upsertWhere]
  exact if_neg (Ne.symm h)

theorem fetch_updateCursor (id' : Bytes) (states : RefreshStates) (kind' : EntityKind)
    (cursor : Cursor) {key : Bytes × EntityKind × Nat}
    (h : key ≠ (id', kind', cursor.originatorId)) :
    (updateCursor id' kind' cursor states).fetch key = states.fetch key := by
  unfold updateCursor
  split
  · exact fetch_upsertCursor id' states kind' cursor h
  · rfl

theorem cursorOf_upsertCursor (id' : Bytes) (states : RefreshStates) (kind kind' : EntityKind)
    (cursor : Cursor) (originator : Nat) :
    cursorOf id (upsertCursor id' kind cursor states) kind' originator =
      if id' = id ∧ kind = kind' ∧ cursor.originatorId = originator then
        max (cursorOf id states kind' originator) cursor.sequenceId
      else cursorOf id states kind' originator := by
  rw [cursorOf_eq, cursorOf_eq, upsertCursor, Table.fetch_upsertWhere]
  simp only [RefreshState.key, Prod.mk.injEq]
  split
  · cases states.fetch (id, kind', originator) with
    | none => simp
    | some state =>
      simp only [Option.elim_some, Option.map_some, Option.getD_some]
      split
      · rename_i hstale
        have hlt := of_decide_eq_true hstale
        simp only
        omega
      · rename_i hstale
        have hle : cursor.sequenceId ≤ state.sequenceId := by simpa using hstale
        omega
  · rfl

theorem cursorOf_updateCursor (id' : Bytes) (states : RefreshStates) (kind kind' : EntityKind)
    (cursor : Cursor) (originator : Nat) :
    cursorOf id (updateCursor id' kind cursor states) kind' originator =
      if (id' = id ∧ kind = kind' ∧ cursor.originatorId = originator) ∧
          cursor.sequenceId < 2 ^ 63 then
        max (cursorOf id states kind' originator) cursor.sequenceId
      else cursorOf id states kind' originator := by
  unfold updateCursor
  split
  · rename_i hfits
    rw [cursorOf_upsertCursor]
    simp only [hfits, and_true]
  · rename_i hfits
    simp only [hfits, and_false, if_false]

end LibXmtp.Db
