import LibXmtp.Archive.ExportStream

namespace LibXmtp.Archive

open LibXmtp.Data LibXmtp.Db

structure RestoreDb where
  groups : GroupTable := .empty
  messages : Table StoredMessageRow.key := .empty
  consents : ConsentTable := .empty
  groupTimestamps : HashMap Bytes (Option Int) := .empty

inductive DeviceSyncError
  | missingDmId (groupId : Bytes)
  | missingGroup (groupId : Bytes)

def latest : Option Int → Option Int → Option Int
  | some e, some s => some (max e s)
  | none, some s => some s
  | some e, none => some e
  | none, none => none

def restoredGroup (now : Int) (save : StoredGroup) (conversationType : ConversationType) : StoredGroup where
  id := save.id
  createdAtNs := now
  membershipState := .restored
  conversationType := conversationType
  dmId := save.dmId

def restoreGroup (now : Int) (save : StoredGroup) (db : RestoreDb) : Except DeviceSyncError RestoreDb :=
  match db.groups.fetch save.id with
  | some existing =>
    let timestamp := latest existing.lastMessageNs save.lastMessageNs
    .ok { db with groupTimestamps := db.groupTimestamps.insert existing.id timestamp }
  | none =>
    let db := { db with groupTimestamps := db.groupTimestamps.insert save.id save.lastMessageNs }
    match save.conversationType, save.dmId with
    | .dm, none => .error (.missingDmId save.id)
    | .dm, some _ => .ok { db with groups := db.groups.insertOrIgnore (restoredGroup now save .dm) }
    | _, _ => .ok { db with groups := db.groups.insertOrIgnore (restoredGroup now save .group) }

/-- An insert that ignores rows whose primary key is taken still fails on the foreign key. -/
def storeOrIgnore (message : StoredMessageRow) (db : RestoreDb) : Except DeviceSyncError RestoreDb :=
  if (db.groups.fetch message.groupId).isSome then
    .ok { db with messages := db.messages.insertOrIgnore message }
  else .error (.missingGroup message.groupId)

def insert (now : Int) (db : RestoreDb) : BackupElement → Except DeviceSyncError RestoreDb
  | .consent record => .ok { db with consents := (db.consents.insertNewerConsentRecord record).2 }
  | .group save => restoreGroup now save db
  | .groupMessage message => storeOrIgnore message db

def postImport (db : RestoreDb) : RestoreDb :=
  { db with
    groups := db.groupTimestamps.entries.foldl (fun groups (groupId, timestamp) =>
      groups.updateWhere (fun g => g.id = groupId)
        (f := fun g => { g with lastMessageNs := timestamp }) fun _ => rfl) db.groups }

def insertImporter (now : Int) (elements : List BackupElement) (db : RestoreDb) :
    Except DeviceSyncError RestoreDb := do
  let db ← elements.foldlM (insert now) db
  return postImport db

def Preceded (elements : List BackupElement) : Prop :=
  ∀ before m after, elements = before ++ .groupMessage m :: after →
    ∃ g, BackupElement.group g ∈ before ∧ g.id = m.groupId

def Restorable (elements : List BackupElement) : Prop :=
  ∀ now groupId, insertImporter now elements {} ≠ .error (.missingGroup groupId)

section Insert

variable {now : Int} {db db' : RestoreDb} {element : BackupElement} {groupId : Bytes}

theorem fetch_isSome_iff {groups : GroupTable} {id : Bytes} :
    (groups.fetch id).isSome = true ↔ ∃ g ∈ groups.rows, g.id = id := by
  rw [Option.isSome_iff_exists]
  exact exists_congr fun g => Table.fetch_eq_some_iff

theorem isSome_insertOrIgnore {groups : GroupTable} {g : StoredGroup} {id : Bytes}
    (h : (groups.fetch id).isSome = true ∨ g.id = id) :
    (Table.fetch (groups.insertOrIgnore g) id).isSome = true := by
  rw [fetch_isSome_iff]
  rcases h with h | rfl
  · obtain ⟨old, hold, hid⟩ := fetch_isSome_iff.mp h
    exact ⟨old, Table.mem_insertOrIgnore.mpr (.inl hold), hid⟩
  · exact List.mem_map.mp (groups.key_mem_insertOrIgnore g)

theorem groups_insert (h : insert now db element = .ok db') (id : Bytes)
    (hid : (db.groups.fetch id).isSome = true ∨ ∃ g, element = .group g ∧ g.id = id) :
    (db'.groups.fetch id).isSome = true := by
  cases element with
  | consent record =>
    cases h
    rcases hid with hid | ⟨g, hg, -⟩
    · exact hid
    · cases hg
  | group save =>
    have hsome : (db.groups.fetch id).isSome = true ∨ save.id = id := by
      rcases hid with hid | ⟨g, hg, rfl⟩
      · exact .inl hid
      · cases hg
        exact .inr rfl
    simp only [insert, restoreGroup] at h
    split at h
    · rename_i existing hexisting
      cases h
      rcases hsome with hsome | rfl
      · exact hsome
      · rw [hexisting]
        rfl
    · split at h
      · cases h
      · cases h
        exact isSome_insertOrIgnore hsome
      · cases h
        exact isSome_insertOrIgnore hsome
  | groupMessage m =>
    simp only [insert, storeOrIgnore] at h
    split at h
    · cases h
      rcases hid with hid | ⟨g, hg, -⟩
      · exact hid
      · cases hg
    · cases h

theorem insert_missingGroup (h : insert now db element = .error (.missingGroup groupId)) :
    ∃ m, element = .groupMessage m ∧ ¬(db.groups.fetch m.groupId).isSome = true := by
  cases element with
  | consent record => cases h
  | group save =>
    simp only [insert, restoreGroup] at h
    split at h
    · cases h
    · split at h <;> cases h
  | groupMessage m =>
    simp only [insert, storeOrIgnore] at h
    split at h
    · cases h
    · rename_i hnone
      exact ⟨m, rfl, hnone⟩

theorem foldlM_insert_ne {elements : List BackupElement} (seen : List BackupElement) (db : RestoreDb)
    (hseen : ∀ g, BackupElement.group g ∈ seen → (db.groups.fetch g.id).isSome = true)
    (h : ∀ before m after, elements = before ++ .groupMessage m :: after →
      ∃ g, BackupElement.group g ∈ seen ++ before ∧ g.id = m.groupId) :
    elements.foldlM (insert now) db ≠ .error (.missingGroup groupId) := by
  induction elements generalizing seen db with
  | nil => simp [pure, Except.pure]
  | cons element elements ih =>
    intro hfold
    rw [List.foldlM_cons] at hfold
    cases hinsert : insert now db element with
    | error e =>
      rw [hinsert] at hfold
      cases hfold
      obtain ⟨m, rfl, hnone⟩ := insert_missingGroup hinsert
      obtain ⟨g, hg, hid⟩ := h [] m elements rfl
      rw [List.append_nil] at hg
      exact hnone (hid ▸ hseen g hg)
    | ok next =>
      rw [hinsert] at hfold
      refine ih (seen ++ [element]) next (fun g hg => ?_) (fun before m after heq => ?_) hfold
      · refine groups_insert hinsert g.id ?_
        rcases List.mem_append.mp hg with hg | hg
        · exact .inl (hseen g hg)
        · exact .inr ⟨g, (List.mem_singleton.mp hg).symm, rfl⟩
      · rw [List.append_assoc]
        exact h (element :: before) m after (by rw [heq, List.cons_append])

theorem Preceded.restorable {elements : List BackupElement} (h : Preceded elements) :
    Restorable elements := by
  intro now groupId heq
  have hnone (g : StoredGroup) : BackupElement.group g ∈ [] →
      ((RestoreDb.groups {}).fetch g.id).isSome = true := fun hg => absurd hg List.not_mem_nil
  have hne : elements.foldlM (insert now) {} ≠ .error (.missingGroup groupId) :=
    foldlM_insert_ne [] {} hnone fun before m after heq => by simpa using h before m after heq
  unfold insertImporter at heq
  cases hfold : elements.foldlM (insert now) {} with
  | error e =>
    rw [hfold] at heq
    cases heq
    exact hne hfold
  | ok db =>
    rw [hfold] at heq
    cases heq

end Insert

end LibXmtp.Archive
