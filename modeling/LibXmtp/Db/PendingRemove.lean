import LibXmtp.Data.Hex
import LibXmtp.Data.Table

namespace LibXmtp.Db

open LibXmtp.Data

structure PendingRemove where
  groupId : Bytes
  inboxId : String
  messageId : Bytes

def PendingRemove.key (r : PendingRemove) : String × Bytes := (r.inboxId, r.groupId)

abbrev PendingRemoves := Table PendingRemove.key

namespace PendingRemoves

variable (t : PendingRemoves) (groupId : Bytes)

def getPendingRemoveUsers : List String :=
  (t.rows.filter fun r => r.groupId = groupId).map PendingRemove.inboxId

def getUserPendingRemoveStatus (inboxId : String) : Bool :=
  t.rows.any fun r => r.groupId = groupId && r.inboxId = inboxId

def deletePendingRemoveUsers (inboxIds : List String) : PendingRemoves :=
  t.deleteWhere fun r => inboxIds.contains r.inboxId && r.groupId = groupId

variable {t groupId} {x : String}

theorem mem_getPendingRemoveUsers : x ∈ t.getPendingRemoveUsers groupId ↔
    ∃ r ∈ t.rows, r.groupId = groupId ∧ r.inboxId = x := by
  simp only [getPendingRemoveUsers, List.mem_map, List.mem_filter, decide_eq_true_eq, and_assoc]

theorem getUserPendingRemoveStatus_iff :
    t.getUserPendingRemoveStatus groupId x = true ↔ x ∈ t.getPendingRemoveUsers groupId := by
  simp only [getUserPendingRemoveStatus, List.any_eq_true, Bool.and_eq_true, decide_eq_true_eq,
    mem_getPendingRemoveUsers]

@[simp] theorem mem_insertOrIgnore_users {r : PendingRemove} :
    x ∈ getPendingRemoveUsers (t.insertOrIgnore r) groupId ↔
      x ∈ t.getPendingRemoveUsers groupId ∨ r.groupId = groupId ∧ r.inboxId = x := by
  simp only [mem_getPendingRemoveUsers, Table.mem_insertOrIgnore]
  constructor
  · rintro ⟨s, hs | ⟨rfl, -⟩, hgroup, hinbox⟩
    · exact .inl ⟨s, hs, hgroup, hinbox⟩
    · exact .inr ⟨hgroup, hinbox⟩
  · rintro (⟨s, hs, hgroup, hinbox⟩ | ⟨hgroup, hinbox⟩)
    · exact ⟨s, .inl hs, hgroup, hinbox⟩
    · by_cases hkey : r.key ∈ t.rows.map PendingRemove.key
      · obtain ⟨s, hs, heq⟩ := List.mem_map.mp hkey
        obtain ⟨hx, hg⟩ := Prod.mk.inj heq
        exact ⟨s, .inl hs, hg.trans hgroup, hx.trans hinbox⟩
      · exact ⟨r, .inr ⟨rfl, hkey⟩, hgroup, hinbox⟩

@[simp] theorem mem_deletePendingRemoveUsers {inboxIds : List String} :
    x ∈ (t.deletePendingRemoveUsers groupId inboxIds).getPendingRemoveUsers groupId ↔
      x ∈ t.getPendingRemoveUsers groupId ∧ x ∉ inboxIds := by
  simp only [deletePendingRemoveUsers, mem_getPendingRemoveUsers, Table.mem_deleteWhere]
  constructor
  · rintro ⟨r, ⟨hr, hkept⟩, rfl, rfl⟩
    exact ⟨⟨r, hr, rfl, rfl⟩, by simpa using hkept⟩
  · rintro ⟨⟨r, hr, rfl, rfl⟩, hkept⟩
    exact ⟨r, ⟨hr, by simpa using hkept⟩, rfl, rfl⟩

end PendingRemoves

end LibXmtp.Db
