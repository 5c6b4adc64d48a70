import LibXmtp.Data.Hex
import LibXmtp.Data.Table

namespace LibXmtp.Db

open LibXmtp.Data

def keysExpirationIntervalNs : Int64 := 86400000000000

structure NewKeyPackageHistoryEntry where
  keyPackageHashRef : Bytes
  postQuantumPublicKey : Option Bytes
  createdAtNs : Int64
  deriving DecidableEq

structure StoredKeyPackageHistoryEntry extends NewKeyPackageHistoryEntry where
  id : Nat
  deleteAtNs : Option Int64 := none
  deriving DecidableEq

namespace StoredKeyPackageHistoryEntry

variable (kp : StoredKeyPackageHistoryEntry)

def hashRef : Bytes := kp.keyPackageHashRef

def isExpired (now : Int64) : Bool := kp.deleteAtNs.any fun deleteAtNs => deleteAtNs ≤ now

def marked (deleteAtNs : Int64) : StoredKeyPackageHistoryEntry :=
  { kp with deleteAtNs := some deleteAtNs }

theorem hashRef_marked (deleteAtNs : Int64) (kp : StoredKeyPackageHistoryEntry) :
    (kp.marked deleteAtNs).hashRef = kp.hashRef := rfl

theorem deleteAtNs_marked (deleteAtNs : Int64) (kp : StoredKeyPackageHistoryEntry) :
    (kp.marked deleteAtNs).deleteAtNs = some deleteAtNs := rfl

end StoredKeyPackageHistoryEntry

structure KeyPackageHistory where
  entries : Table StoredKeyPackageHistoryEntry.hashRef
  nextId : Nat
  fresh : ∀ kp ∈ entries.rows, kp.id < nextId

namespace KeyPackageHistory

def empty : KeyPackageHistory := ⟨.empty, 1, fun _ h => absurd h List.not_mem_nil⟩

variable (h : KeyPackageHistory)

def rows : List StoredKeyPackageHistoryEntry := h.entries.rows

def findKeyPackageHistoryEntryByHashRef (hashRef : Bytes) : Option StoredKeyPackageHistoryEntry :=
  h.entries.fetch hashRef

def storeOrIgnore (entry : NewKeyPackageHistoryEntry) : KeyPackageHistory where
  entries := h.entries.insertOrIgnore { entry with id := h.nextId }
  nextId := h.nextId + 1
  fresh kp hkp := by
    rcases Table.mem_insertOrIgnore.mp hkp with hkp | ⟨rfl, -⟩
    · exact Nat.lt_succ_of_lt (h.fresh kp hkp)
    · exact Nat.lt_succ_self _

def storeKeyPackageHistoryEntry (hashRef : Bytes) (postQuantumPublicKey : Option Bytes)
    (now : Int64) : KeyPackageHistory × Option StoredKeyPackageHistoryEntry :=
  let stored := h.storeOrIgnore ⟨hashRef, postQuantumPublicKey, now⟩
  (stored, stored.findKeyPackageHistoryEntryByHashRef hashRef)

def markKeyPackageBeforeIdToBeDeleted (id : Nat) (now : Int64) : KeyPackageHistory where
  entries := h.entries.updateWhere (fun kp => kp.id < id && kp.deleteAtNs.isNone)
    (StoredKeyPackageHistoryEntry.hashRef_marked (now + keysExpirationIntervalNs))
  nextId := h.nextId
  fresh kp hkp := by
    obtain ⟨old, hold, rfl⟩ := Table.mem_updateWhere _ _ _ |>.mp hkp
    split
    · exact h.fresh old hold
    · exact h.fresh old hold

def getExpiredKeyPackages (now : Int64) : List StoredKeyPackageHistoryEntry :=
  h.rows.filter fun kp => kp.isExpired now

def deleteKeyPackageHistoryUpToId (id : Nat) : KeyPackageHistory where
  entries := h.entries.deleteWhere fun kp => kp.id ≤ id
  nextId := h.nextId
  fresh kp hkp := h.fresh kp (Table.mem_deleteWhere.mp hkp).1

variable {h} {kp : StoredKeyPackageHistoryEntry} {id : Nat} {now : Int64}

theorem mem_rows_storeOrIgnore {entry : NewKeyPackageHistoryEntry} :
    kp ∈ (h.storeOrIgnore entry).rows ↔ kp ∈ h.rows ∨
      kp = { entry with id := h.nextId } ∧ entry.keyPackageHashRef ∉ h.rows.map (·.hashRef) :=
  Table.mem_insertOrIgnore

theorem mem_rows_mark : kp ∈ (h.markKeyPackageBeforeIdToBeDeleted id now).rows ↔
    ∃ old ∈ h.rows, (if old.id < id && old.deleteAtNs.isNone then
      old.marked (now + keysExpirationIntervalNs) else old) = kp :=
  Table.mem_updateWhere _ _ (StoredKeyPackageHistoryEntry.hashRef_marked _)

theorem mark_cases (hkp : kp ∈ (h.markKeyPackageBeforeIdToBeDeleted id now).rows) :
    (kp ∈ h.rows ∧ (kp.id < id → ∃ deleteAtNs, kp.deleteAtNs = some deleteAtNs)) ∨
      ∃ old ∈ h.rows, old.id < id ∧ old.deleteAtNs = none ∧
        kp = old.marked (now + keysExpirationIntervalNs) := by
  obtain ⟨old, hold, rfl⟩ := mem_rows_mark.mp hkp
  by_cases hbefore : old.id < id
  · cases hdeleteAt : old.deleteAtNs with
    | none => exact .inr ⟨old, hold, hbefore, hdeleteAt, by simp [hbefore]⟩
    | some deleteAtNs => exact .inl (by simp [hold, hdeleteAt])
  · exact .inl (by simp [hold, hbefore])

theorem mem_getExpiredKeyPackages :
    kp ∈ h.getExpiredKeyPackages now ↔ kp ∈ h.rows ∧ kp.isExpired now = true :=
  List.mem_filter

theorem mem_rows_delete :
    kp ∈ (h.deleteKeyPackageHistoryUpToId id).rows ↔ kp ∈ h.rows ∧ id < kp.id := by
  rw [rows, deleteKeyPackageHistoryUpToId, Table.mem_deleteWhere, decide_eq_false_iff_not,
    Nat.not_le, rows]

end KeyPackageHistory

end LibXmtp.Db
