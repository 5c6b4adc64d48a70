import LibXmtp.Db.KeyPackageRotation
import Mathlib.Logic.Relation

namespace LibXmtp.Mls.KeyPackageTasks

open LibXmtp.Data LibXmtp.Db Relation

def kpSeed (data : TaskKind) (now : Int) : NewTask :=
  { NewTask.build now data with expiresAtNs := neverExpires, maxAttempts := unlimitedAttempts }

section Store

variable (s : KeyPackageStore)

def enqueuePullIn (targetDataHash : TaskKind) (notLaterThanNs expiresAtNs now : Int) :
    KeyPackageStore :=
  s.createOrIgnoreTask
    { NewTask.build now (.pullInDeadline targetDataHash notLaterThanNs) with
      expiresAtNs
      maxAttempts := unlimitedAttempts }

def queueKeyRotation (seedNow now pullInNow : Int) : KeyPackageStore :=
  s.queueKeyRotationWithNudge .kpRotation (kpSeed .kpRotation seedNow) now pullInNow

def nudgeDeletion (deleteAtNs : Option Int) (now pullInNow : Int) : KeyPackageStore :=
  match deleteAtNs with
  | some deleteAt =>
    enqueuePullIn (s.createOrIgnoreTask (kpSeed .kpDeletion now)) .kpDeletion deleteAt neverExpires
      pullInNow
  | none => s

def reconcile (targetDataHash : TaskKind) (atNs : Option Int) (now : Int) : KeyPackageStore :=
  match atNs with
  | some notLaterThanNs => enqueuePullIn s targetDataHash notLaterThanNs neverExpires now
  | none => s

def seedAndReconcileKpTasks (deleteAtNs : Option Int) (now rotationNow deletionNow : Int) :
    KeyPackageStore :=
  let seeded := (s.createOrIgnoreTask (kpSeed .kpRotation now)).createOrIgnoreTask
    (kpSeed .kpDeletion now)
  reconcile (reconcile seeded .kpRotation seeded.nextKeyPackageRotationNs rotationNow) .kpDeletion
    deleteAtNs deletionNow

end Store

inductive TaskOutcome
  | done
  | rescheduleAt (nextAttemptAtNs : Int)

/-- What the task runner is at; a run that has failed has no outcome. -/
inductive Turn
  | waiting
  | read (task : Task)
  | started (task : Task) (now : Int)
  | rotating (task : Task) (now armNow : Int)
  | settled (task : Task) (now armNow : Int)
  | nudged (task : Task) (now armNow : Int)
  | ran (task : Task) (now : Int) (outcome : Option TaskOutcome)

def Turn.task : Turn → Option Task
  | .waiting => none
  | .read task => some task
  | .started task _ => some task
  | .rotating task _ _ => some task
  | .settled task _ _ => some task
  | .nudged task _ _ => some task
  | .ran task _ _ => some task

inductive Turn.Works (task : Task) (now : Int) : Turn → Prop
  | started : Works task now (.started task now)
  | rotating {armNow : Int} : Works task now (.rotating task now armNow)
  | settled {armNow : Int} : Works task now (.settled task now armNow)
  | nudged {armNow : Int} : Works task now (.nudged task now armNow)

structure World where
  store : KeyPackageStore
  turn : Turn := .waiting

def forRotation : TaskKind → Bool
  | .kpRotation => true
  | .pullInDeadline .kpRotation _ => true
  | _ => false

/-- The steps of the task runner, between which other threads write. -/
inductive Step (w : World) : World → Prop
  | fetched {task : Task} (h : w.turn = .waiting)
    (hnext : w.store.tasks.getNextTask = some task) : Step w { w with turn := .read task }
  | interrupted {task : Task} (h : w.turn = .read task) : Step w { w with turn := .waiting }
  | reaped {task : Task} {now : Int} (h : w.turn = .read task) (hnow : now ≤ neverExpires)
    (hdead : task.isDead now = true) :
    Step w ⟨w.store.withTasks (w.store.tasks.deleteTask task.id), .waiting⟩
  | early {task : Task} {now : Int} (h : w.turn = .read task) (hlive : task.isDead now = false)
    (hearly : now < task.nextAttemptAtNs) : Step w { w with turn := .waiting }
  | started {task : Task} {now : Int} (h : w.turn = .read task) (hlive : task.isDead now = false)
    (hdue : task.nextAttemptAtNs ≤ now) : Step w { w with turn := .started task now }
  | rotationDue {task : Task} {now armNow checkNow : Int} (h : w.turn = .started task now)
    (hdata : task.data = .kpRotation) (hneeds : w.store.isIdentityNeedsRotation checkNow = true) :
    Step w { w with turn := .rotating task now armNow }
  | rotationNotDue {task : Task} {now armNow checkNow : Int} (h : w.turn = .started task now)
    (hdata : task.data = .kpRotation) (hneeds : w.store.isIdentityNeedsRotation checkNow = false) :
    Step w { w with turn := .settled task now armNow }
  | rotated {task : Task} {now armNow checkNow setNow : Int}
    (h : w.turn = .rotating task now armNow) (hclock : checkNow ≤ setNow) :
    Step w ⟨w.store.resetKeyPackageRotationQueue keyPackageRotationIntervalNs checkNow setNow,
      .settled task now armNow⟩
  | nudgedDeletion {task : Task} {now armNow seedNow pullInNow : Int} {deleteAtNs : Option Int}
    (h : w.turn = .settled task now armNow) :
    Step w ⟨nudgeDeletion w.store deleteAtNs seedNow pullInNow, .nudged task now armNow⟩
  | readBack {task : Task} {now armNow : Int} (h : w.turn = .nudged task now armNow) :
    Step w { w with turn := .ran task now (some (.rescheduleAt
      (w.store.nextKeyPackageRotationNs.getD (armNow + keyPackageRotationIntervalNs)))) }
  | pulledIn {task : Task} {now notLaterThanNs : Int} {target : TaskKind}
    (h : w.turn = .started task now) (hdata : task.data = .pullInDeadline target notLaterThanNs) :
    Step w ⟨w.store.withTasks (w.store.tasks.pullInTaskDeadline target notLaterThanNs).2,
      .ran task now (some .done)⟩
  | other {task : Task} {now : Int} {outcome : TaskOutcome} (h : w.turn = .started task now)
    (hdata : task.data ≠ .kpRotation) (hpull : ∀ target d, task.data ≠ .pullInDeadline target d) :
    Step w { w with turn := .ran task now (some outcome) }
  | failed {task : Task} {now : Int} (h : w.turn.Works task now) :
    Step w { w with turn := .ran task now none }
  | done {task : Task} {now : Int} (h : w.turn = .ran task now (some .done)) :
    Step w ⟨w.store.withTasks (w.store.tasks.deleteTask task.id), .waiting⟩
  | rescheduled {task : Task} {now next : Int}
    (h : w.turn = .ran task now (some (.rescheduleAt next))) :
    Step w ⟨w.store.reschedule task.id 0 now next, .waiting⟩
  | retried {task : Task} {now next : Int} (h : w.turn = .ran task now none) :
    Step w ⟨w.store.reschedule task.id (task.attempts + 1) now next, .waiting⟩
  | stopped : Step w { w with turn := .waiting }
  | startedUp {deleteAtNs : Option Int} {now rotationNow deletionNow : Int} :
    Step w { w with
      store := seedAndReconcileKpTasks w.store deleteAtNs now rotationNow deletionNow }
  | queued {seedNow now pullInNow : Int} :
    Step w { w with store := queueKeyRotation w.store seedNow now pullInNow }
  | inserted {task : NewTask} (h : forRotation task.data = false) :
    Step w { w with store := w.store.createOrIgnoreTask task }
  | upserted {task : NewTask} {groupId : Bytes} {now : Int} (h : forRotation task.data = false) :
    Step w { w with
      store := w.store.withTasks (w.store.tasks.upsertPendingSelfRemoveTask now groupId task) }

def Lasting (tasks : TaskTable) : Prop :=
  ∀ task ∈ tasks.rows, forRotation task.data = true →
    task.expiresAtNs = neverExpires ∧ task.maxAttempts = unlimitedAttempts

def Tireless (tasks : TaskTable) : Prop :=
  ∀ task ∈ tasks.rows, forRotation task.data = true → task.attempts < task.maxAttempts

instance (tasks : TaskTable) : Decidable (Tireless tasks) :=
  inferInstanceAs (Decidable (∀ task ∈ tasks.rows, forRotation task.data = true →
    task.attempts < task.maxAttempts))

/-- A client that is registered and has started up, and one that registers after it has. -/
inductive Start : World → Prop
  | startedUp {s : KeyPackageStore} {deadline : Int} {deleteAtNs : Option Int}
    {now rotationNow deletionNow : Int} (hidentity : s.identity = some (some deadline))
    (hlasting : Lasting s.tasks) :
    Start ⟨seedAndReconcileKpTasks s deleteAtNs now rotationNow deletionNow, .waiting⟩
  | registered {s : KeyPackageStore} {deadline : Int} {row : Task}
    (hidentity : s.identity = some (some deadline)) (hlasting : Lasting s.tasks)
    (hrow : row ∈ s.tasks.rows) (hdata : row.data = .kpRotation)
    (hnext : row.nextAttemptAtNs ≤ deadline) : Start ⟨s, .waiting⟩

def Nudged (tasks : TaskTable) (deadline : Int) : Prop :=
  ∃ task ∈ tasks.rows, ∃ d, task.data = .pullInDeadline .kpRotation d ∧ d ≤ deadline

/-- The rotation is met. A failed attempt counts, and one that succeeds starts the count again, so
that it is positive if the last one has failed. -/
def NotStranded (s : KeyPackageStore) : Prop :=
  ∃ deadline, s.identity = some (some deadline) ∧ ∃ row ∈ s.tasks.rows, row.data = .kpRotation ∧
    (row.nextAttemptAtNs ≤ deadline ∨ Nudged s.tasks deadline ∨ 0 < row.attempts)

end LibXmtp.Mls.KeyPackageTasks
