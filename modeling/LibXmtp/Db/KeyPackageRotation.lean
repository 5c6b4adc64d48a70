import LibXmtp.Db.Tasks

namespace LibXmtp.Db

def keyPackageQueueIntervalNs : Int := 5000000000

def keyPackageRotationIntervalNs : Int := nsInDay * 30

def unlimitedAttempts : Nat := 2147483647

/-- What the client stores of its key packages. There is an identity once the client is registered;
its deadline may not be set. -/
structure KeyPackageStore where
  identity : Option (Option Int)
  tasks : TaskTable

namespace KeyPackageStore

variable (s : KeyPackageStore)

def withTasks (tasks : TaskTable) : KeyPackageStore := { s with tasks }

def createOrIgnoreTask (task : NewTask) : KeyPackageStore :=
  s.withTasks (s.tasks.createOrIgnoreTask task)

/-- `UPDATE identity SET next_key_package_rotation_ns = .. WHERE ..`. -/
def updateRotation (cond : Option Int → Bool) (rotateAtNs : Int) : KeyPackageStore :=
  { s with identity := s.identity.map fun next => if cond next then some rotateAtNs else next }

/-- The deadline is lowered, and a task left that brings the rotation forward to it. -/
def queueKeyRotationWithNudge (rotationTaskHash : TaskKind) (rotationSeed : NewTask)
    (now pullInNow : Int) : KeyPackageStore :=
  let rotateAtNs := now + keyPackageQueueIntervalNs
  let lowered := s.updateRotation (fun next => next.all fun ns => rotateAtNs < ns) rotateAtNs
  match lowered.identity with
  | none => lowered
  | some deadline =>
    (lowered.createOrIgnoreTask rotationSeed).createOrIgnoreTask
      { NewTask.build pullInNow
          (.pullInDeadline rotationTaskHash (deadline.getD rotateAtNs)) with
        expiresAtNs := neverExpires
        maxAttempts := unlimitedAttempts }

def resetKeyPackageRotationQueue (rotationIntervalNs now setNow : Int) : KeyPackageStore :=
  s.updateRotation (fun next => next.all fun ns => ns ≤ now) (setNow + rotationIntervalNs)

def isIdentityNeedsRotation (now : Int) : Bool :=
  match s.identity with
  | none => false
  | some none => true
  | some (some rotateAt) => rotateAt ≤ now

def nextKeyPackageRotationNs : Option Int := s.identity.join

/-- What `update_task` makes of a task that may have vanished. -/
def reschedule (id attempts : Nat) (lastAttemptedAtNs nextAttemptAtNs : Int) : KeyPackageStore :=
  match s.tasks.updateTask id attempts lastAttemptedAtNs nextAttemptAtNs with
  | some tasks => s.withTasks tasks
  | none => s

@[simp] theorem identity_withTasks (tasks : TaskTable) : (s.withTasks tasks).identity = s.identity :=
  rfl

@[simp] theorem tasks_withTasks (tasks : TaskTable) : (s.withTasks tasks).tasks = tasks := rfl

@[simp] theorem identity_createOrIgnoreTask (task : NewTask) :
    (s.createOrIgnoreTask task).identity = s.identity := rfl

@[simp] theorem tasks_createOrIgnoreTask (task : NewTask) :
    (s.createOrIgnoreTask task).tasks = s.tasks.createOrIgnoreTask task := rfl

@[simp] theorem tasks_updateRotation (cond : Option Int → Bool) (rotateAtNs : Int) :
    (s.updateRotation cond rotateAtNs).tasks = s.tasks := rfl

@[simp] theorem identity_reschedule (id attempts : Nat) (last next : Int) :
    (s.reschedule id attempts last next).identity = s.identity := by
  unfold reschedule
  split <;> rfl

end KeyPackageStore

end LibXmtp.Db
