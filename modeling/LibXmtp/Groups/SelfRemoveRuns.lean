import LibXmtp.Groups.LeaveRequests
import Mathlib.Logic.Relation

namespace LibXmtp.Groups

open LibXmtp.Data LibXmtp.Db Relation

inductive TaskOutcome
  | done
  | rescheduleAt (nextAttemptAtNs : Int)
  | failed
  deriving DecidableEq

inductive TaskTurn
  | waiting
  | read (task : Task)
  | running (task : Task) (phase : GroupHandle.RemovalPhase)
  | ran (task : Task) (outcome : TaskOutcome)
  deriving DecidableEq

def TaskTurn.task : TaskTurn → Option Task
  | .waiting => none
  | .read task => some task
  | .running task _ => some task
  | .ran task _ => some task

structure LeaveWorld where
  now : Int
  store : LeaveStore
  turn : TaskTurn := .waiting

inductive LeaveAction
  | waited (now : Int)
  | requested (message : LeaveRequest)
  | committed (changes : InboxChanges)
  | inserted (task : NewTask)
  | fetched
  | interrupted
  | started (outcome : TaskOutcome)
  | proceeded
  | failed
  | settled (nextAttemptAtNs : Int)
  deriving DecidableEq

namespace LeaveWorld

variable (g : GroupHandle) (w : LeaveWorld)

def withTasks (tasks : TaskTable) (turn : TaskTurn) : LeaveWorld :=
  { w with store := { w.store with tasks }, turn }

/-- `run_and_reschedule_task`, up to the run of the task. -/
def start (task : Task) (outcome : TaskOutcome) : LeaveWorld :=
  if task.isDead w.now then w.withTasks (w.store.tasks.deleteTask task.id) .waiting
  else if task.nextAttemptAtNs > w.now then { w with turn := .waiting }
  else if task.isSelfRemove g.groupId then { w with turn := .running task .started }
  else { w with turn := .ran task outcome }

def proceed (task : Task) (phase : GroupHandle.RemovalPhase) : LeaveWorld :=
  let (next, store) := g.processPendingSelfRemovals w.store phase
  { w with store, turn := if next = .done then .ran task .done else .running task next }

def reschedule (id attempts : Nat) (nextAttemptAtNs : Int) : LeaveWorld :=
  match w.store.tasks.updateTask id attempts w.now nextAttemptAtNs with
  | some tasks => w.withTasks tasks .waiting
  | none => { w with turn := .waiting }

def settle (task : Task) (nextAttemptAtNs : Int) : TaskOutcome → LeaveWorld
  | .done => w.withTasks (w.store.tasks.deleteTask task.id) .waiting
  | .rescheduleAt at_ns => w.reschedule task.id 0 at_ns
  | .failed => w.reschedule task.id (task.attempts + 1) nextAttemptAtNs

def act (action : LeaveAction) : LeaveWorld :=
  match action, w.turn with
  | .waited now, _ => { w with now }
  | .requested message, _ =>
    { w with store := g.processLeaveRequestMessage w.now message w.store }
  | .committed changes, _ => { w with store := g.processCommit changes w.store }
  | .inserted task, turn => w.withTasks (w.store.tasks.createOrIgnoreTask task) turn
  | .fetched, .waiting =>
    match w.store.tasks.getNextTask with
    | some task => { w with turn := .read task }
    | none => w
  | .interrupted, .read _ => { w with turn := .waiting }
  | .started outcome, .read task => w.start g task outcome
  | .proceeded, .running task phase => w.proceed g task phase
  | .failed, .running task _ => { w with turn := .ran task .failed }
  | .settled nextAttemptAtNs, .ran task outcome => w.settle task nextAttemptAtNs outcome
  | _, _ => w

/-- What can happen: a commit removes members, and promotes or demotes this client. The tasks of
the group come with its leave requests. -/
def Possible : LeaveAction → Prop
  | .committed changes => w.store.roster.isActive = true ∧ changes.addedInboxes = [] ∧
      changes.superAdminsAdded ⊆ [g.inboxId] ∧ changes.superAdminsRemoved ⊆ [g.inboxId]
  | .inserted task => task.data ≠ .processPendingSelfRemove g.groupId
  | _ => True

/-- The group is the client's to clear of those that have asked to leave. -/
structure Owner : Prop where
  active : w.store.roster.isActive = true
  superAdmin : g.inboxId ∈ w.store.roster.superAdmins
  stays : g.inboxId ∉ g.pendingRemoveList w.store

structure Due (x : String) : Prop where
  listed : x ∈ g.pendingRemoveList w.store
  member : x ∈ w.store.roster.members
  notSuperAdmin : x ∉ w.store.roster.superAdmins

def HasLiveTask : Prop :=
  ∃ task ∈ w.store.tasks.rows, task.isSelfRemove g.groupId = true ∧ task.isDead w.now = false

def Unread : Prop := ∃ task, w.turn = .running task .started

def Remembers : Prop := w.Owner g → (∃ x, w.Due g x) → w.HasLiveTask g ∨ w.Unread

/-- Nothing keeps the inbox from being removed by the task: no run of it is past the inbox, nor has
one failed for the last time. -/
def Awaits (x : String) : Prop :=
  match w.turn with
  | .waiting => True
  | .read _ => True
  | .running _ phase => phase.Awaits x
  | .ran task .done => task.isSelfRemove g.groupId = false
  | .ran task (.rescheduleAt _) => task.isSelfRemove g.groupId = false
  | .ran task .failed => task.isSelfRemove g.groupId = true → task.attempts + 1 < task.maxAttempts

/-- When a step of the run is safe: the task does not expire before it has done its work, nor does
it fail for the last time. A member that asks to leave is not behind a run that is under way. When
the client is promoted, what is due is not behind the task. -/
def Careful : LeaveAction → Prop
  | .waited now => w.Owner g → (∃ x, w.Due g x) → ∀ task ∈ w.store.tasks.rows,
      task.isSelfRemove g.groupId = true → task.isDead w.now = false → task.isDead now = false
  | .requested message => w.Owner g → message.senderInboxId ∈ w.store.roster.members →
      message.senderInboxId ∉ w.store.roster.superAdmins → w.Awaits g message.senderInboxId
  | .committed changes => g.inboxId ∈ changes.superAdminsAdded →
      g.inboxId ∉ w.store.roster.superAdmins → g.inboxId ∉ g.pendingRemoveList w.store →
      ∀ x, w.Due g x → x ∉ changes.removedInboxes → w.HasLiveTask g ∧ w.Awaits g x
  | .failed => w.Owner g → (∃ x, w.Due g x) →
      ∀ task phase, w.turn = .running task phase → task.attempts + 1 < task.maxAttempts
  | _ => True

/-- The client is a member of the group if it is active, nobody has asked to leave it, and the task
runner waits. -/
structure Fresh : Prop where
  member : g.OwnMember w.store
  list : g.pendingRemoveList w.store = []
  turn : w.turn = .waiting

end LeaveWorld

def LeaveStep (g : GroupHandle) (w w' : LeaveWorld) : Prop :=
  ∃ action, w.Possible g action ∧ w' = w.act g action

def CarefulLeaveStep (g : GroupHandle) (w w' : LeaveWorld) : Prop :=
  ∃ action, w.Possible g action ∧ w.Careful g action ∧ w' = w.act g action

namespace LeaveWorld

variable {g : GroupHandle} {w : LeaveWorld}

structure Sound (g : GroupHandle) (w : LeaveWorld) : Prop where
  member : g.OwnMember w.store
  snapshot : ∀ task, w.turn.task = some task → task.id < w.store.tasks.nextId ∧
    ∀ row ∈ w.store.tasks.rows, row.id = task.id → row = task
  self : ∀ task phase, w.turn = .running task phase → task.isSelfRemove g.groupId = true
  stale : ∀ task removed, w.turn = .running task (.stale removed) →
    ∀ x ∈ removed, x ∉ w.store.roster.members

def Kept (g : GroupHandle) (w : LeaveWorld) : Prop :=
  w.Owner g → ∀ x, w.Due g x → w.HasLiveTask g ∧ w.Awaits g x

theorem Fresh.sound (h : w.Fresh g) : w.Sound g where
  member := h.member
  snapshot task htask := by
    rw [h.turn] at htask
    cases htask
  self task phase hturn := by
    rw [h.turn] at hturn
    cases hturn
  stale task removed hturn := by
    rw [h.turn] at hturn
    cases hturn

theorem Fresh.kept (h : w.Fresh g) : w.Kept g := by
  intro _ x hdue
  have hlisted := hdue.listed
  rw [h.list] at hlisted
  cases hlisted

theorem Kept.remembers (h : w.Kept g) : w.Remembers g := by
  rintro howner ⟨x, hdue⟩
  exact .inl (h howner x hdue).1

inductive Acts (g : GroupHandle) (w : LeaveWorld) : LeaveAction → LeaveWorld → Prop
  | waited (now : Int) : Acts g w (.waited now) { w with now }
  | requested (message : LeaveRequest) : Acts g w (.requested message)
      { w with store := g.processLeaveRequestMessage w.now message w.store }
  | committed (changes : InboxChanges) : Acts g w (.committed changes)
      { w with store := g.processCommit changes w.store }
  | inserted (task : NewTask) : Acts g w (.inserted task)
      (w.withTasks (w.store.tasks.createOrIgnoreTask task) w.turn)
  | fetched {task : Task} (hturn : w.turn = .waiting) (hnext : w.store.tasks.getNextTask = some task) :
    Acts g w .fetched { w with turn := .read task }
  | returned {action : LeaveAction} {task : Task} (hturn : w.turn = .read task) :
    Acts g w action { w with turn := .waiting }
  | expired {task : Task} {outcome : TaskOutcome} (hturn : w.turn = .read task)
    (hdead : task.isDead w.now = true) : Acts g w (.started outcome)
      (w.withTasks (w.store.tasks.deleteTask task.id) .waiting)
  | started {task : Task} {outcome : TaskOutcome} (hturn : w.turn = .read task)
    (hself : task.isSelfRemove g.groupId = true) : Acts g w (.started outcome)
      { w with turn := .running task .started }
  | ranOther {task : Task} {outcome : TaskOutcome} (hturn : w.turn = .read task)
    (hother : task.isSelfRemove g.groupId = false) : Acts g w (.started outcome)
      { w with turn := .ran task outcome }
  | proceeded {task : Task} {phase : GroupHandle.RemovalPhase} (hturn : w.turn = .running task phase) :
    Acts g w .proceeded (w.proceed g task phase)
  | failed {task : Task} {phase : GroupHandle.RemovalPhase} (hturn : w.turn = .running task phase) :
    Acts g w .failed { w with turn := .ran task .failed }
  | settled {task : Task} {outcome : TaskOutcome} (nextAttemptAtNs : Int)
    (hturn : w.turn = .ran task outcome) :
    Acts g w (.settled nextAttemptAtNs) (w.settle task nextAttemptAtNs outcome)
  | idle {action : LeaveAction} : Acts g w action w

theorem acts_act (g : GroupHandle) (w : LeaveWorld) (action : LeaveAction) :
    Acts g w action (w.act g action) := by
  unfold act
  split
  · exact .waited _
  · exact .requested _
  · exact .committed _
  · exact .inserted _
  · rename_i hturn
    split
    · rename_i hnext
      exact .fetched hturn hnext
    · exact .idle
  · rename_i hturn
    exact .returned hturn
  · rename_i outcome task hturn
    unfold start
    split_ifs with hdead hearly hself
    · exact .expired hturn hdead
    · exact .returned hturn
    · exact .started hturn hself
    · exact .ranOther hturn (Bool.eq_false_iff.mpr hself)
  · rename_i hturn
    exact .proceeded hturn
  · rename_i hturn
    exact .failed hturn
  · rename_i hturn
    exact .settled _ hturn
  · exact .idle

section Rows

theorem snapshot_mono {w' : LeaveWorld} {task : Task} (hnext : w.store.tasks.nextId ≤ w'.store.tasks.nextId)
    (hrows : ∀ row ∈ w'.store.tasks.rows, row ∈ w.store.tasks.rows ∨ row.id = w.store.tasks.nextId)
    (h : task.id < w.store.tasks.nextId ∧ ∀ row ∈ w.store.tasks.rows, row.id = task.id → row = task) :
    task.id < w'.store.tasks.nextId ∧ ∀ row ∈ w'.store.tasks.rows, row.id = task.id → row = task := by
  refine ⟨Nat.lt_of_lt_of_le h.1 hnext, fun row hrow hid => ?_⟩
  rcases hrows row hrow with hold | hnew
  · exact h.2 row hold hid
  · exact absurd (hid.symm.trans hnew) (Nat.ne_of_lt h.1)

theorem HasLiveTask.delete {task : Task} {turn : TaskTurn}
    (hsnapshot : ∀ row ∈ w.store.tasks.rows, row.id = task.id → row = task)
    (hother : task.isSelfRemove g.groupId = true → task.isDead w.now = true) (h : w.HasLiveTask g) :
    (w.withTasks (w.store.tasks.deleteTask task.id) turn).HasLiveTask g := by
  obtain ⟨row, hrow, hself, hlive⟩ := h
  refine ⟨row, TaskTable.mem_deleteTask.mpr ⟨hrow, fun hid => ?_⟩, hself, hlive⟩
  have heq := hsnapshot row hrow hid
  rw [← heq, hlive] at hother
  exact Bool.false_ne_true (hother hself)

theorem HasLiveTask.reschedule {task : Task} {attempts : Nat} {nextAttemptAtNs : Int}
    (hsnapshot : ∀ row ∈ w.store.tasks.rows, row.id = task.id → row = task)
    (hattempts : task.isSelfRemove g.groupId = true → attempts < task.maxAttempts)
    (h : w.HasLiveTask g) : (w.reschedule task.id attempts nextAttemptAtNs).HasLiveTask g := by
  unfold LeaveWorld.reschedule
  split
  · rename_i tasks hupdate
    obtain ⟨row, hrow, hself, hlive⟩ := h
    refine ⟨_, (TaskTable.mem_updateTask hupdate).mpr ⟨row, hrow, rfl⟩, ?_⟩
    split
    · rename_i hid
      have heq := hsnapshot row hrow hid
      subst heq
      refine ⟨hself, ?_⟩
      simp only [Task.isDead, Bool.or_eq_false_iff, decide_eq_false_iff_not] at hlive ⊢
      exact ⟨hlive.1, Nat.not_le.mpr (hattempts hself)⟩
    · exact ⟨hself, hlive⟩
  · exact h

end Rows

section Soundness

theorem rows_upsert {now : Int} {tasks : TaskTable} {new : NewTask} {row : Task}
    (h : row ∈ (tasks.upsertPendingSelfRemoveTask now g.groupId new).rows) :
    row ∈ tasks.rows ∨ row.id = tasks.nextId := by
  rcases TaskTable.mem_of_mem_createOrIgnoreTask h with hold | rfl
  · exact .inl (TaskTable.mem_deleteWhere.mp hold).1
  · exact .inr rfl

theorem sound_of_waiting {w' : LeaveWorld} (hturn : w'.turn = .waiting)
    (hmember : g.OwnMember w'.store) : w'.Sound g where
  member := hmember
  snapshot task htask := by
    rw [hturn] at htask
    cases htask
  self task phase hphase := by
    rw [hturn] at hphase
    cases hphase
  stale task removed hphase := by
    rw [hturn] at hphase
    cases hphase

theorem settle_waiting (w : LeaveWorld) (task : Task) (next : Int) (outcome : TaskOutcome) :
    (w.settle task next outcome).turn = .waiting := by
  cases outcome <;> simp only [settle, reschedule, withTasks] <;> split <;> rfl

theorem settle_roster (w : LeaveWorld) (task : Task) (next : Int) (outcome : TaskOutcome) :
    (w.settle task next outcome).store.roster = w.store.roster := by
  cases outcome <;> simp only [settle, reschedule, withTasks] <;> split <;> rfl

theorem Sound.requested (h : w.Sound g) (message : LeaveRequest) :
    Sound g { w with store := g.processLeaveRequestMessage w.now message w.store } := by
  have hrequested := g.requested_processLeaveRequestMessage w.now message w.store
  generalize g.processLeaveRequestMessage w.now message w.store = store at hrequested
  refine ⟨?_, fun task htask => ?_, h.self, fun task removed hturn => ?_⟩
  · simpa only [GroupHandle.OwnMember, hrequested.roster] using h.member
  · apply snapshot_mono _ _ (h.snapshot task htask)
    · rw [hrequested.tasks]
      exact Nat.le_succ _
    · rw [hrequested.tasks]
      exact fun row hrow => rows_upsert hrow
  · simpa only [hrequested.roster] using h.stale task removed hturn

theorem Sound.committed (h : w.Sound g) {changes : InboxChanges} (hadded : changes.addedInboxes = []) :
    Sound g { w with store := g.processCommit changes w.store } := by
  have hmerged := g.merged_processCommit changes w.store
  refine ⟨h.member.merged hmerged, fun task htask => ?_, h.self, fun task removed hturn x hx => ?_⟩
  · rw [hmerged.tasks]
    exact h.snapshot task htask
  · rw [hmerged.roster, GroupHandle.mem_members_merge, hadded]
    rintro (hmember | hmember)
    · exact h.stale task removed hturn x hx hmember.1
    · cases hmember

theorem Sound.proceeded (h : w.Sound g) {task : Task} {phase : GroupHandle.RemovalPhase}
    (hturn : w.turn = .running task phase) : (w.proceed g task phase).Sound g := by
  have hshrinks := g.shrinks_processPendingSelfRemovals w.store phase
  have hmember := h.member.processPendingSelfRemovals phase
  have hsnapshot := h.snapshot task (by rw [hturn, TaskTurn.task])
  rw [← hshrinks.tasks] at hsnapshot
  unfold proceed
  dsimp only
  split
  · refine ⟨hmember, fun task' htask => ?_, fun _ _ hphase => ?_, fun _ _ hphase => ?_⟩
    · cases htask
      exact hsnapshot
    · cases hphase
    · cases hphase
  · refine ⟨hmember, fun task' htask => ?_, fun _ _ hphase => ?_, fun _ removed hphase x hx => ?_⟩
    · cases htask
      exact hsnapshot
    · cases hphase
      exact h.self task phase hturn
    · obtain ⟨-, hstale⟩ := TaskTurn.running.inj hphase
      exact GroupHandle.stale_processPendingSelfRemovals hstale hx

theorem Sound.acts {action : LeaveAction} {w' : LeaveWorld} (h : w.Sound g)
    (hpossible : w.Possible g action) (hacts : Acts g w action w') : w'.Sound g := by
  cases hacts with
  | waited now => exact ⟨h.member, h.snapshot, h.self, h.stale⟩
  | requested message => exact h.requested message
  | committed changes => exact h.committed hpossible.2.1
  | inserted new =>
    refine ⟨h.member, fun task htask => ?_, h.self, h.stale⟩
    refine snapshot_mono (Nat.le_succ _) (fun row hrow => ?_) (h.snapshot task htask)
    rcases TaskTable.mem_of_mem_createOrIgnoreTask hrow with hold | rfl
    · exact .inl hold
    · exact .inr rfl
  | @fetched task hturn hnext =>
    have hrow := TaskTable.mem_of_getNextTask hnext
    refine ⟨h.member, fun task' htask => ?_, fun _ _ hphase => ?_, fun _ _ hphase => ?_⟩
    · cases htask
      exact ⟨w.store.tasks.fresh task hrow, fun row hold hid => w.store.tasks.eq_of_id_eq hold hrow hid⟩
    · cases hphase
    · cases hphase
  | returned hturn => exact sound_of_waiting rfl h.member
  | expired hturn hdead => exact sound_of_waiting rfl h.member
  | @started task outcome hturn hself =>
    have hsnapshot := h.snapshot task (by rw [hturn, TaskTurn.task])
    refine ⟨h.member, fun task' htask => ?_, fun _ _ hphase => ?_, fun _ _ hphase => ?_⟩
    · cases htask
      exact hsnapshot
    · cases hphase
      exact hself
    · cases hphase
  | @ranOther task outcome hturn hother =>
    have hsnapshot := h.snapshot task (by rw [hturn, TaskTurn.task])
    refine ⟨h.member, fun task' htask => ?_, fun _ _ hphase => ?_, fun _ _ hphase => ?_⟩
    · cases htask
      exact hsnapshot
    · cases hphase
    · cases hphase
  | proceeded hturn => exact h.proceeded hturn
  | @failed task phase hturn =>
    have hsnapshot := h.snapshot task (by rw [hturn, TaskTurn.task])
    refine ⟨h.member, fun task' htask => ?_, fun _ _ hphase => ?_, fun _ _ hphase => ?_⟩
    · cases htask
      exact hsnapshot
    · cases hphase
    · cases hphase
  | @settled task outcome next hturn =>
    apply sound_of_waiting (settle_waiting w task next outcome)
    rw [GroupHandle.OwnMember, settle_roster]
    exact h.member
  | idle => exact h

end Soundness

section Keeping

theorem Kept.waited {now : Int} (h : w.Kept g) (hcareful : w.Careful g (.waited now)) :
    Kept g { w with now } := by
  intro howner x hdue
  have howner' : w.Owner g := ⟨howner.active, howner.superAdmin, howner.stays⟩
  have hdue' : w.Due g x := ⟨hdue.listed, hdue.member, hdue.notSuperAdmin⟩
  obtain ⟨⟨task, htask, hself, hlive⟩, hawaits⟩ := h howner' x hdue'
  exact ⟨⟨task, htask, hself, hcareful howner' ⟨x, hdue'⟩ task htask hself hlive⟩, hawaits⟩

theorem Kept.requested {message : LeaveRequest} (h : w.Kept g)
    (hcareful : w.Careful g (.requested message)) :
    Kept g { w with store := g.processLeaveRequestMessage w.now message w.store } := by
  intro howner x hdue
  have hrequested := g.requested_processLeaveRequestMessage w.now message w.store
  have hlive : ∃ task ∈ (g.processLeaveRequestMessage w.now message w.store).tasks.rows,
      task.isSelfRemove g.groupId = true ∧ task.isDead w.now = false := by
    rw [hrequested.tasks]
    refine TaskTable.exists_live_upsert w.store.tasks rfl ?_ (Nat.succ_pos 19)
    exact Int.le_add_of_nonneg_right (by decide)
  have howner' : w.Owner g := by
    refine ⟨?_, ?_, fun hlisted => howner.stays ((hrequested.list _).mpr (.inl hlisted))⟩
    · simpa only [hrequested.roster] using howner.active
    · simpa only [hrequested.roster] using howner.superAdmin
  have hmember := hdue.member
  have hnot := hdue.notSuperAdmin
  simp only [hrequested.roster] at hmember hnot
  refine ⟨hlive, ?_⟩
  rcases (hrequested.list x).mp hdue.listed with hlisted | rfl
  · exact (h howner' x ⟨hlisted, hmember, hnot⟩).2
  · exact hcareful howner' hmember hnot

theorem Kept.committed {changes : InboxChanges} (h : w.Kept g)
    (hpossible : w.Possible g (.committed changes)) (hcareful : w.Careful g (.committed changes)) :
    Kept g { w with store := g.processCommit changes w.store } := by
  intro howner x hdue
  obtain ⟨hactive, hadded, hpromoted, hdemoted⟩ := hpossible
  have hmerged := g.merged_processCommit changes w.store
  have hroster : (g.processCommit changes w.store).roster = _ := hmerged.roster
  obtain ⟨hisActive, hsuperAdmin, hstays⟩ := howner
  simp only [hroster] at hisActive hsuperAdmin
  obtain ⟨-, hkept⟩ := GroupHandle.isActive_merge.mp hisActive
  have hstays' : g.inboxId ∉ g.pendingRemoveList w.store :=
    fun hlisted => hstays ((hmerged.list _).mpr ⟨hlisted, hkept⟩)
  obtain ⟨hlisted, hremoved⟩ := (hmerged.list x).mp hdue.listed
  have hdue' : w.Due g x := by
    refine ⟨hlisted, ?_, fun hsuper => ?_⟩
    · have hmember := hdue.member
      simp only [hroster, GroupHandle.mem_members_merge, hadded, List.not_mem_nil, or_false] at hmember
      exact hmember.1
    · have hnot := hdue.notSuperAdmin
      simp only [hroster, GroupHandle.mem_superAdmins_merge, not_or, not_and, not_not] at hnot
      -- only this client is demoted, and it is not on the list
      have hself := List.mem_singleton.mp (hdemoted (hnot.1 hsuper))
      exact hstays' (hself ▸ hlisted)
  have hkeeps : w.HasLiveTask g ∧ w.Awaits g x := by
    by_cases hadmin : g.inboxId ∈ w.store.roster.superAdmins
    · exact h ⟨hactive, hadmin, hstays'⟩ x hdue'
    · have hsuper := GroupHandle.mem_superAdmins_merge.mp hsuperAdmin
      exact hcareful (hsuper.resolve_left fun hold => hadmin hold.1) hadmin hstays' x hdue' hremoved
  refine ⟨?_, hkeeps.2⟩
  simpa only [HasLiveTask, hmerged.tasks] using hkeeps.1

theorem Kept.proceeded {task : Task} {phase : GroupHandle.RemovalPhase} (h : w.Kept g)
    (hsound : w.Sound g) (hturn : w.turn = .running task phase)
    (hsound' : (w.proceed g task phase).Sound g) : (w.proceed g task phase).Kept g := by
  intro howner x hdue
  have hshrinks := g.shrinks_processPendingSelfRemovals w.store phase
  have hactive := hshrinks.active howner.active
  have hadmin : g.inboxId ∈ w.store.roster.superAdmins := hshrinks.superAdmins ▸ howner.superAdmin
  have hmember : g.inboxId ∈ (w.proceed g task phase).store.roster.members := hsound'.member howner.active
  have howner' : w.Owner g := by
    refine ⟨hactive, hadmin, fun hlisted => ?_⟩
    rcases GroupHandle.left_processPendingSelfRemovals hlisted howner.stays with
      hnot | ⟨removed, rfl, hremoved⟩
    · exact hnot hmember
    · exact hsound.stale task removed hturn _ hremoved (hshrinks.members hmember)
  have hlisted := hshrinks.list hdue.listed
  have hdue' : w.Due g x :=
    ⟨hlisted, hshrinks.members hdue.member, hshrinks.superAdmins ▸ hdue.notSuperAdmin⟩
  obtain ⟨hlive, hawaits⟩ := h howner' x hdue'
  rw [Awaits, hturn] at hawaits
  have hnext := GroupHandle.awaits_processPendingSelfRemovals (List.contains_iff_mem.mpr hadmin) hawaits
    hlisted hdue.member
  refine ⟨?_, ?_⟩
  · simpa only [HasLiveTask, proceed, hshrinks.tasks] using hlive
  · have hnotDone : (g.processPendingSelfRemovals w.store phase).1 ≠ .done := by
      intro hdone
      rw [hdone] at hnext
      rcases hnext with hstarted | hheld
      · cases hstarted
      · cases hheld
    simp only [Awaits, proceed, if_neg hnotDone]
    exact hnext

theorem Kept.of_store {w' : LeaveWorld} (h : w.Kept g) (hroster : w'.store.roster = w.store.roster)
    (hlist : w'.store.pendingRemoves = w.store.pendingRemoves)
    (hkeeps : w.Owner g → (∃ x, w.Due g x) → w.HasLiveTask g → ∀ x, w.Awaits g x →
      w'.HasLiveTask g ∧ w'.Awaits g x) : w'.Kept g := by
  intro howner x hdue
  have hpending : g.pendingRemoveList w'.store = g.pendingRemoveList w.store := by
    rw [GroupHandle.pendingRemoveList, hlist, GroupHandle.pendingRemoveList]
  have howner' : w.Owner g :=
    ⟨hroster ▸ howner.active, hroster ▸ howner.superAdmin, hpending ▸ howner.stays⟩
  have hdue' : w.Due g x :=
    ⟨hpending ▸ hdue.listed, hroster ▸ hdue.member, hroster ▸ hdue.notSuperAdmin⟩
  obtain ⟨hlive, hawaits⟩ := h howner' x hdue'
  exact hkeeps howner' ⟨x, hdue'⟩ hlive x hawaits

theorem Kept.settled {task : Task} {outcome : TaskOutcome} (h : w.Kept g) (hsound : w.Sound g)
    (hturn : w.turn = .ran task outcome) (next : Int) : (w.settle task next outcome).Kept g := by
  have hsnapshot := (hsound.snapshot task (by rw [hturn, TaskTurn.task])).2
  have hpending : (w.settle task next outcome).store.pendingRemoves = w.store.pendingRemoves := by
    cases outcome <;> simp only [settle, reschedule, withTasks] <;> split <;> rfl
  refine h.of_store (settle_roster w task next outcome) hpending fun _ _ hlive x hawaits => ?_
  constructor
  · rw [Awaits, hturn] at hawaits
    cases outcome with
    | done =>
      refine hlive.delete hsnapshot fun hself => ?_
      rw [hawaits] at hself
      cases hself
    | rescheduleAt at_ns =>
      refine hlive.reschedule hsnapshot fun hself => ?_
      rw [hawaits] at hself
      cases hself
    | failed => exact hlive.reschedule hsnapshot hawaits
  · rw [Awaits, settle_waiting]
    trivial

theorem Kept.acts {action : LeaveAction} {w' : LeaveWorld} (h : w.Kept g) (hsound : w.Sound g)
    (hpossible : w.Possible g action) (hcareful : w.Careful g action) (hacts : Acts g w action w') :
    w'.Kept g := by
  have hsound' := hsound.acts hpossible hacts
  cases hacts with
  | waited now => exact h.waited hcareful
  | requested message => exact h.requested hcareful
  | committed changes => exact h.committed hpossible hcareful
  | inserted new =>
    refine h.of_store rfl rfl fun _ _ hlive x hawaits => ⟨?_, hawaits⟩
    obtain ⟨task, htask, hself, hnotDead⟩ := hlive
    exact ⟨task, TaskTable.mem_createOrIgnoreTask_of_mem htask, hself, hnotDead⟩
  | fetched hturn hnext => exact h.of_store rfl rfl fun _ _ hlive _ _ => ⟨hlive, trivial⟩
  | returned hturn => exact h.of_store rfl rfl fun _ _ hlive _ _ => ⟨hlive, trivial⟩
  | @expired task outcome hturn hdead =>
    have hsnapshot := (hsound.snapshot task (by rw [hturn, TaskTurn.task])).2
    exact h.of_store rfl rfl fun _ _ hlive _ _ => ⟨hlive.delete hsnapshot fun _ => hdead, trivial⟩
  | started hturn hself => exact h.of_store rfl rfl fun _ _ hlive _ _ => ⟨hlive, .inl rfl⟩
  | @ranOther task outcome hturn hother =>
    refine h.of_store rfl rfl fun _ _ hlive x _ => ⟨hlive, ?_⟩
    cases outcome with
    | done => exact hother
    | rescheduleAt at_ns => exact hother
    | failed =>
      intro hself
      rw [hother] at hself
      cases hself
  | proceeded hturn => exact h.proceeded hsound hturn hsound'
  | failed hturn =>
    exact h.of_store rfl rfl fun howner hdue hlive _ _ =>
      ⟨hlive, fun _ => hcareful howner hdue _ _ hturn⟩
  | settled next hturn => exact h.settled hsound hturn next
  | idle => exact h

end Keeping

end LeaveWorld

/-- No leave request is forgotten in a run whose steps are all safe. -/
theorem no_leave_request_forgotten {g : GroupHandle} {w w' : LeaveWorld} (hfresh : w.Fresh g)
    (hrun : ReflTransGen (CarefulLeaveStep g) w w') : w'.Remembers g := by
  have hinvariant : w'.Sound g ∧ w'.Kept g := by
    induction hrun with
    | refl => exact ⟨hfresh.sound, hfresh.kept⟩
    | tail _ hstep ih =>
      obtain ⟨action, hpossible, hcareful, rfl⟩ := hstep
      exact ⟨ih.1.acts hpossible (LeaveWorld.acts_act g _ action),
        ih.2.acts ih.1 hpossible hcareful (LeaveWorld.acts_act g _ action)⟩
  exact hinvariant.2.remembers

namespace LeaveSample

def alice : GroupHandle := ⟨[1], "alice"⟩

def start : LeaveWorld where
  now := 0
  store := { roster := { members := ["alice", "bob", "carol"], superAdmins := ["alice"] } }

theorem fresh_start : start.Fresh alice := ⟨fun _ => by decide, by decide +kernel, rfl⟩

def after (actions : List LeaveAction) : LeaveWorld := actions.foldl (·.act alice) start

def crossing : List LeaveAction :=
  [.requested ⟨[2], "bob"⟩, .fetched, .started .done, .proceeded, .proceeded,
    .requested ⟨[3], "carol"⟩, .proceeded, .proceeded, .proceeded, .proceeded, .proceeded, .settled 0]

theorem runs_of_possible {actions : List LeaveAction} (w : LeaveWorld)
    (h : ∀ w : LeaveWorld, ∀ action ∈ actions, w.Possible alice action) :
    ReflTransGen (LeaveStep alice) w (actions.foldl (·.act alice) w) := by
  induction actions generalizing w with
  | nil => exact .refl
  | cons action actions ih =>
    have hfirst : LeaveStep alice w (w.act alice action) := ⟨action, h w _ List.mem_cons_self, rfl⟩
    exact .head hfirst (ih (w.act alice action) fun w a ha => h w a (List.mem_cons_of_mem _ ha))

theorem possible_crossing (w : LeaveWorld) : ∀ action ∈ crossing, w.Possible alice action := by
  simp [crossing, LeaveWorld.Possible]

end LeaveSample

open LeaveSample in
theorem no_leave_request_forgotten_bob : (after [.requested ⟨[2], "bob"⟩, .fetched]).Owner alice ∧
    (after [.requested ⟨[2], "bob"⟩, .fetched]).Due alice "bob" ∧
    (after [.requested ⟨[2], "bob"⟩, .fetched]).Remembers alice := by
  refine ⟨⟨by decide +kernel, by decide +kernel, by decide +kernel⟩,
    ⟨by decide +kernel, by decide +kernel, by decide +kernel⟩, ?_⟩
  have hasked : CarefulLeaveStep alice start (after [.requested ⟨[2], "bob"⟩]) :=
    ⟨.requested ⟨[2], "bob"⟩, trivial, fun _ _ _ => trivial, rfl⟩
  have hfetched : CarefulLeaveStep alice (after [.requested ⟨[2], "bob"⟩])
      (after [.requested ⟨[2], "bob"⟩, .fetched]) := ⟨.fetched, trivial, trivial, rfl⟩
  exact no_leave_request_forgotten fresh_start (.tail (.single hasked) hfetched)

open LeaveSample in
/-- The task is kept for carol, and deleted for bob. -/
theorem leave_request_forgotten : ¬ ∀ (g : GroupHandle) (w w' : LeaveWorld), w.Fresh g →
    ReflTransGen (LeaveStep g) w w' → w'.Remembers g := by
  intro h
  have howner : (after crossing).Owner alice :=
    ⟨by decide +kernel, by decide +kernel, by decide +kernel⟩
  have hdue : (after crossing).Due alice "carol" :=
    ⟨by decide +kernel, by decide +kernel, by decide +kernel⟩
  have hnone : (after crossing).store.tasks.rows = [] := by decide +kernel
  have hturn : (after crossing).turn = .waiting := by decide +kernel
  have hrun := runs_of_possible start possible_crossing
  rcases h alice start (after crossing) fresh_start hrun howner ⟨"carol", hdue⟩ with
    ⟨task, htask, -⟩ | ⟨task, hread⟩
  · rw [hnone] at htask
    cases htask
  · rw [hturn] at hread
    cases hread

end LibXmtp.Groups
