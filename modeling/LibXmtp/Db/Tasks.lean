import LibXmtp.Data.Hex
import LibXmtp.Data.Table

namespace LibXmtp.Db

open LibXmtp.Data

inductive TaskKind
  | processPendingSelfRemove (groupId : Bytes)
  | pullInDeadline (targetDataHash : TaskKind) (notLaterThanNs : Int)
  | kpRotation
  | kpDeletion
  | other (data : Bytes)
  deriving DecidableEq

def nsInDay : Int := 86400000000000

def neverExpires : Int := 9223372036854775807

structure NewTask where
  createdAtNs : Int
  expiresAtNs : Int
  attempts : Nat := 0
  maxAttempts : Nat := 20
  lastAttemptedAtNs : Int
  nextAttemptAtNs : Int
  data : TaskKind
  deriving DecidableEq

def NewTask.build (now : Int) (data : TaskKind) : NewTask where
  createdAtNs := now
  expiresAtNs := now + nsInDay * 3
  lastAttemptedAtNs := now
  nextAttemptAtNs := now
  data := data

structure Task extends NewTask where
  id : Nat
  deriving DecidableEq

namespace Task

def dataHash (t : Task) : TaskKind := t.data

def isDead (t : Task) (now : Int) : Bool := t.expiresAtNs < now || t.attempts ≥ t.maxAttempts

def isSelfRemove (t : Task) (groupId : Bytes) : Bool := t.data = .processPendingSelfRemove groupId

def rescheduled (attempts : Nat) (lastAttemptedAtNs nextAttemptAtNs : Int) (t : Task) : Task :=
  { t with attempts, lastAttemptedAtNs, nextAttemptAtNs }

theorem dataHash_rescheduled (attempts : Nat) (last next : Int) (t : Task) :
    (t.rescheduled attempts last next).dataHash = t.dataHash := rfl

def pulledIn (atNs : Int) (t : Task) : Task :=
  { t with nextAttemptAtNs := min t.nextAttemptAtNs atNs }

theorem dataHash_pulledIn (atNs : Int) (t : Task) : (t.pulledIn atNs).dataHash = t.dataHash := rfl

end Task

structure TaskTable where
  tasks : Table Task.dataHash
  nextId : Nat
  distinct : (tasks.rows.map Task.id).Nodup
  fresh : ∀ t ∈ tasks.rows, t.id < nextId

namespace TaskTable

def empty : TaskTable := ⟨.empty, 1, List.nodup_nil, fun _ h => absurd h List.not_mem_nil⟩

variable (t : TaskTable)

def rows : List Task := t.tasks.rows

theorem eq_of_id_eq {task task' : Task} (h : task ∈ t.rows) (h' : task' ∈ t.rows)
    (hid : task.id = task'.id) : task = task' :=
  List.inj_on_of_nodup_map t.distinct h h' hid

def deleteWhere (cond : Task → Bool) : TaskTable where
  tasks := t.tasks.deleteWhere cond
  nextId := t.nextId
  distinct := t.distinct.sublist (List.filter_sublist.map _)
  fresh task h := t.fresh task (Table.mem_deleteWhere.mp h).1

def createOrIgnoreTask (task : NewTask) : TaskTable where
  tasks := t.tasks.insertOrIgnore { task with id := t.nextId }
  nextId := t.nextId + 1
  distinct := by
    unfold Table.insertOrIgnore
    split
    · exact t.distinct
    · rw [List.map_append, List.nodup_append]
      refine ⟨t.distinct, List.nodup_singleton _, ?_⟩
      rintro id hid _ hnew rfl
      obtain ⟨old, hold, rfl⟩ := List.mem_map.mp hid
      rw [List.map_singleton, List.mem_singleton] at hnew
      exact absurd hnew (Nat.ne_of_lt (t.fresh old hold))
  fresh task' h := by
    rcases Table.mem_insertOrIgnore.mp h with h | ⟨rfl, -⟩
    · exact Nat.lt_succ_of_lt (t.fresh task' h)
    · exact Nat.lt_succ_self _

def getNextTask : Option Task := t.rows.minOn? fun task => task.nextAttemptAtNs

/-- A live task of the group stays as it is. The dead ones make room for the new one. -/
def upsertPendingSelfRemoveTask (now : Int) (groupId : Bytes) (task : NewTask) : TaskTable :=
  (t.deleteWhere fun old => old.isSelfRemove groupId && old.isDead now).createOrIgnoreTask task

def deleteTask (id : Nat) : TaskTable := t.deleteWhere fun task => task.id = id

def updateTask (id attempts : Nat) (lastAttemptedAtNs nextAttemptAtNs : Int) : Option TaskTable :=
  if t.rows.any fun task => task.id = id then
    some
      { tasks := t.tasks.updateWhere (fun task => task.id = id)
          (Task.dataHash_rescheduled attempts lastAttemptedAtNs nextAttemptAtNs)
        nextId := t.nextId
        distinct := by
          have hids (task : Task) : (if task.id = id then
              task.rescheduled attempts lastAttemptedAtNs nextAttemptAtNs else task).id = task.id := by
            split <;> rfl
          simp only [Table.updateWhere, List.map_map, Function.comp_def, decide_eq_true_eq, hids]
          exact t.distinct
        fresh := fun task h => by
          obtain ⟨old, hold, rfl⟩ := Table.mem_updateWhere _ _ _ |>.mp h
          split
          · exact t.fresh old hold
          · exact t.fresh old hold }
  else none

/-- The next attempt of a task is brought forward, never put off; with whether there is the task. -/
def pullInTaskDeadline (targetDataHash : TaskKind) (atNs : Int) : Bool × TaskTable where
  fst := t.rows.any fun task => task.dataHash = targetDataHash
  snd :=
    { tasks := t.tasks.updateWhere (fun task => task.dataHash = targetDataHash)
        (Task.dataHash_pulledIn atNs)
      nextId := t.nextId
      distinct := by
        have hids (task : Task) : (if task.dataHash = targetDataHash then
            task.pulledIn atNs else task).id = task.id := by
          split <;> rfl
        simp only [Table.updateWhere, List.map_map, Function.comp_def, decide_eq_true_eq, hids]
        exact t.distinct
      fresh := fun task h => by
        obtain ⟨old, hold, rfl⟩ := Table.mem_updateWhere _ _ _ |>.mp h
        split
        · exact t.fresh old hold
        · exact t.fresh old hold }

variable {t} {task old : Task} {new : NewTask} {groupId : Bytes} {now : Int}

theorem mem_of_getNextTask (h : t.getNextTask = some task) : task ∈ t.rows :=
  List.minOn?_mem h

@[simp] theorem mem_deleteWhere {cond : Task → Bool} :
    task ∈ (t.deleteWhere cond).rows ↔ task ∈ t.rows ∧ cond task = false :=
  Table.mem_deleteWhere

@[simp] theorem mem_deleteTask {id : Nat} :
    task ∈ (t.deleteTask id).rows ↔ task ∈ t.rows ∧ task.id ≠ id := by
  simp [deleteTask]

theorem mem_createOrIgnoreTask_of_mem (h : task ∈ t.rows) : task ∈ (t.createOrIgnoreTask new).rows :=
  Table.mem_insertOrIgnore.mpr (.inl h)

theorem mem_of_mem_createOrIgnoreTask (h : task ∈ (t.createOrIgnoreTask new).rows) :
    task ∈ t.rows ∨ task = { new with id := t.nextId } :=
  (Table.mem_insertOrIgnore.mp h).imp_right And.left

theorem exists_mem_createOrIgnoreTask (t : TaskTable) (new : NewTask) :
    ∃ task ∈ (t.createOrIgnoreTask new).rows, task.data = new.data ∧
      (task ∈ t.rows ∨ task = { new with id := t.nextId }) := by
  obtain ⟨task, hmem, hdata⟩ := List.mem_map.mp
    (t.tasks.key_mem_insertOrIgnore { new with id := t.nextId })
  exact ⟨task, hmem, hdata, mem_of_mem_createOrIgnoreTask hmem⟩

theorem exists_live_upsert (t : TaskTable) (hself : new.data = .processPendingSelfRemove groupId)
    (hexpires : now ≤ new.expiresAtNs) (hattempts : new.attempts < new.maxAttempts) :
    ∃ task ∈ (t.upsertPendingSelfRemoveTask now groupId new).rows,
      task.isSelfRemove groupId = true ∧ task.isDead now = false := by
  obtain ⟨task, hmem, hdata, hold | rfl⟩ := exists_mem_createOrIgnoreTask
    (t.deleteWhere fun old => old.isSelfRemove groupId && old.isDead now) new
  · have hkind : task.isSelfRemove groupId = true := decide_eq_true (hdata.trans hself)
    have hlive := (mem_deleteWhere.mp hold).2
    rw [hkind, Bool.true_and] at hlive
    exact ⟨task, hmem, hkind, hlive⟩
  · refine ⟨_, hmem, decide_eq_true hself, ?_⟩
    simp [Task.isDead, hexpires, hattempts]

theorem mem_updateTask {id attempts : Nat} {last next : Int} {t' : TaskTable}
    (h : t.updateTask id attempts last next = some t') : task ∈ t'.rows ↔
      ∃ old ∈ t.rows, (if old.id = id then old.rescheduled attempts last next else old) = task := by
  unfold updateTask at h
  split at h
  · cases h
    simp only [rows, Table.mem_updateWhere, decide_eq_true_eq]
  · cases h

theorem mem_pullInTaskDeadline {target : TaskKind} {atNs : Int} :
    task ∈ (t.pullInTaskDeadline target atNs).2.rows ↔
      ∃ old ∈ t.rows, (if old.dataHash = target then old.pulledIn atNs else old) = task := by
  simp only [pullInTaskDeadline, rows, Table.mem_updateWhere, decide_eq_true_eq]

theorem eq_of_data_eq {task task' : Task} (h : task ∈ t.rows) (h' : task' ∈ t.rows)
    (hdata : task.data = task'.data) : task = task' :=
  t.tasks.eq_of_key_eq h h' hdata

end TaskTable

end LibXmtp.Db
