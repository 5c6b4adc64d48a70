import LibXmtp.Mls.KeyPackageTasks
import Mathlib.Algebra.Group.Nat.Defs

namespace LibXmtp.Mls.KeyPackageTasks

open LibXmtp.Data LibXmtp.Db Relation

/-- The rows of a table and what they are for, apart from the times of their attempts: rows that
have nothing to do with rotations can go, and rows that are new have new ids. -/
structure Carries (t t' : TaskTable) : Prop where
  nextId : t.nextId ≤ t'.nextId
  kept : ∀ task ∈ t.rows, forRotation task.data = true → ∃ task' ∈ t'.rows, task'.data = task.data
  source : ∀ task' ∈ t'.rows,
    (∃ task ∈ t.rows, task.id = task'.id ∧ task.data = task'.data ∧
      task.expiresAtNs = task'.expiresAtNs ∧ task.maxAttempts = task'.maxAttempts) ∨
    t.nextId ≤ task'.id ∧ (forRotation task'.data = true →
      task'.expiresAtNs = neverExpires ∧ task'.maxAttempts = unlimitedAttempts)

structure Evolves (t t' : TaskTable) : Prop extends Carries t t' where
  forward : ∀ row ∈ t.rows, row.data = .kpRotation → ∃ row' ∈ t'.rows, row'.data = .kpRotation ∧
    row'.nextAttemptAtNs ≤ row.nextAttemptAtNs ∧ row.attempts ≤ row'.attempts

structure Snapshot (tasks : TaskTable) (task : Task) : Prop where
  fresh : task.id < tasks.nextId
  data : ∀ row ∈ tasks.rows, row.id = task.id → row.data = task.data
  live : forRotation task.data = true → ∀ now ≤ neverExpires, task.isDead now = false

/-- What a turn that has come that far knows of the rotation. -/
def Turn.Agrees (s : KeyPackageStore) : Turn → Prop
  | .rotating task _ _ => task.data = .kpRotation
  | .settled task _ _ => task.data = .kpRotation
  | .nudged task _ _ => task.data = .kpRotation
  | .ran task _ (some .done) => task.data ≠ .kpRotation ∧
      ∀ d, task.data = .pullInDeadline .kpRotation d →
        ∃ row ∈ s.tasks.rows, row.data = .kpRotation ∧ row.nextAttemptAtNs ≤ d
  | .ran task _ (some (.rescheduleAt next)) => task.data = .kpRotation →
      ∃ deadline, s.identity = some (some deadline) ∧
        (next ≤ deadline ∨ Nudged s.tasks deadline)
  | _ => True

structure Sound (w : World) : Prop where
  lasting : Lasting w.store.tasks
  notStranded : NotStranded w.store
  snapshot : ∀ task, w.turn.task = some task → Snapshot w.store.tasks task
  agrees : w.turn.Agrees w.store

section Tables

variable {t t' t'' : TaskTable} {task : Task} {new : NewTask} {deadline : Int}

theorem Evolves.refl (t : TaskTable) : Evolves t t where
  nextId := Nat.le_refl _
  kept task h _ := ⟨task, h, rfl⟩
  source task h := .inl ⟨task, h, rfl, rfl, rfl, rfl⟩
  forward row h hdata := ⟨row, h, hdata, Int.le_refl _, Nat.le_refl _⟩

theorem Evolves.trans (h : Evolves t t') (h' : Evolves t' t'') : Evolves t t'' where
  nextId := Nat.le_trans h.nextId h'.nextId
  kept task htask hfor := by
    obtain ⟨task', htask', hdata'⟩ := h.kept task htask hfor
    obtain ⟨task'', htask'', hdata''⟩ := h'.kept task' htask' (hdata' ▸ hfor)
    exact ⟨task'', htask'', hdata''.trans hdata'⟩
  source task'' htask'' := by
    rcases h'.source task'' htask'' with ⟨task', htask', hid', hdata', hexpires', hmax'⟩ | ⟨hid', hnew⟩
    · rcases h.source task' htask' with ⟨task, htask, hid, hdata, hexpires, hmax⟩ | ⟨hid, hnew⟩
      · exact .inl ⟨task, htask, hid.trans hid', hdata.trans hdata', hexpires.trans hexpires',
          hmax.trans hmax'⟩
      · refine .inr ⟨hid' ▸ hid, fun hfor => ?_⟩
        obtain ⟨hexpires, hmax⟩ := hnew (hdata' ▸ hfor)
        exact ⟨hexpires'.symm.trans hexpires, hmax'.symm.trans hmax⟩
    · exact .inr ⟨Nat.le_trans h.nextId hid', hnew⟩
  forward row hrow hdata := by
    obtain ⟨row', hrow', hdata', hnext', hattempts'⟩ := h.forward row hrow hdata
    obtain ⟨row'', hrow'', hdata'', hnext'', hattempts''⟩ := h'.forward row' hrow' hdata'
    exact ⟨row'', hrow'', hdata'', Int.le_trans hnext'' hnext',
      Nat.le_trans hattempts' hattempts''⟩

theorem Lasting.carries (h : Lasting t) (hc : Carries t t') : Lasting t' := by
  intro task' htask' hfor
  rcases hc.source task' htask' with ⟨task, htask, _, hdata, hexpires, hmax⟩ | ⟨_, hnew⟩
  · obtain ⟨hnever, hunlimited⟩ := h task htask (hdata ▸ hfor)
    exact ⟨hexpires.symm.trans hnever, hmax.symm.trans hunlimited⟩
  · exact hnew hfor

theorem Snapshot.carries (h : Snapshot t task) (hc : Carries t t') : Snapshot t' task where
  fresh := Nat.lt_of_lt_of_le h.fresh hc.nextId
  data row hrow hid := by
    rcases hc.source row hrow with ⟨old, hold, hidOld, hdata, _⟩ | ⟨hnew, _⟩
    · exact hdata.symm.trans (h.data old hold (hidOld.trans hid))
    · exact absurd (Nat.lt_of_lt_of_le h.fresh hnew) (hid ▸ Nat.lt_irrefl _)
  live := h.live

theorem Nudged.carries (h : Nudged t deadline) (hc : Carries t t') : Nudged t' deadline := by
  obtain ⟨task, htask, d, hdata, hd⟩ := h
  obtain ⟨task', htask', hdata'⟩ := hc.kept task htask (by rw [hdata]; rfl)
  exact ⟨task', htask', d, hdata'.trans hdata, hd⟩

theorem Nudged.mono {deadline' : Int} (h : Nudged t deadline) (hle : deadline ≤ deadline') :
    Nudged t deadline' := by
  obtain ⟨task, htask, d, hdata, hd⟩ := h
  exact ⟨task, htask, d, hdata, Int.le_trans hd hle⟩

theorem evolves_createOrIgnoreTask (t : TaskTable)
    (h : forRotation new.data = true →
      new.expiresAtNs = neverExpires ∧ new.maxAttempts = unlimitedAttempts) :
    Evolves t (t.createOrIgnoreTask new) where
  nextId := Nat.le_succ _
  kept task htask _ := ⟨task, TaskTable.mem_createOrIgnoreTask_of_mem htask, rfl⟩
  source task' htask' := by
    rcases TaskTable.mem_of_mem_createOrIgnoreTask htask' with hold | rfl
    · exact .inl ⟨task', hold, rfl, rfl, rfl, rfl⟩
    · exact .inr ⟨Nat.le_refl _, h⟩
  forward row hrow hdata :=
    ⟨row, TaskTable.mem_createOrIgnoreTask_of_mem hrow, hdata, Int.le_refl _, Nat.le_refl _⟩

theorem evolves_deleteWhere (t : TaskTable) {cond : Task → Bool}
    (h : ∀ task ∈ t.rows, forRotation task.data = true → cond task = false) :
    Evolves t (t.deleteWhere cond) where
  nextId := Nat.le_refl _
  kept task htask hfor := ⟨task, TaskTable.mem_deleteWhere.mpr ⟨htask, h task htask hfor⟩, rfl⟩
  source task' htask' := .inl ⟨task', (TaskTable.mem_deleteWhere.mp htask').1, rfl, rfl, rfl, rfl⟩
  forward row hrow hdata :=
    ⟨row, TaskTable.mem_deleteWhere.mpr ⟨hrow, h row hrow (by rw [hdata]; rfl)⟩, hdata,
      Int.le_refl _, Nat.le_refl _⟩

theorem evolves_pullIn (t : TaskTable) (target : TaskKind) (atNs : Int) :
    Evolves t (t.pullInTaskDeadline target atNs).2 := by
  have hmem (task : Task) (h : task ∈ t.rows) :
      (if task.dataHash = target then task.pulledIn atNs else task) ∈
        (t.pullInTaskDeadline target atNs).2.rows :=
    TaskTable.mem_pullInTaskDeadline.mpr ⟨task, h, rfl⟩
  refine ⟨⟨Nat.le_refl _, fun task htask _ => ⟨_, hmem task htask, ?_⟩, fun task' htask' => ?_⟩,
    fun row hrow hdata => ⟨_, hmem row hrow, ?_, ?_, ?_⟩⟩
  · split <;> rfl
  · obtain ⟨task, htask, rfl⟩ := TaskTable.mem_pullInTaskDeadline.mp htask'
    refine .inl ⟨task, htask, ?_⟩
    split <;> exact ⟨rfl, rfl, rfl, rfl⟩
  · split <;> exact hdata
  · split
    · exact Int.min_le_left _ _
    · exact Int.le_refl _
  · split <;> exact Nat.le_refl _

theorem carries_updateTask {id attempts : Nat} {last next : Int}
    (h : t.updateTask id attempts last next = some t') : Carries t t' where
  nextId := by
    unfold TaskTable.updateTask at h
    split at h
    · cases h
      exact Nat.le_refl _
    · cases h
  kept task htask _ := by
    refine ⟨_, (TaskTable.mem_updateTask h).mpr ⟨task, htask, rfl⟩, ?_⟩
    split <;> rfl
  source task' htask' := by
    obtain ⟨task, htask, rfl⟩ := (TaskTable.mem_updateTask h).mp htask'
    refine .inl ⟨task, htask, ?_⟩
    split <;> exact ⟨rfl, rfl, rfl, rfl⟩

theorem evolves_updateTask {id attempts : Nat} {last next : Int}
    (h : t.updateTask id attempts last next = some t')
    (hid : ∀ row ∈ t.rows, row.data = .kpRotation → row.id ≠ id) : Evolves t t' where
  toCarries := carries_updateTask h
  forward row hrow hdata := by
    refine ⟨row, (TaskTable.mem_updateTask h).mpr ⟨row, hrow, ?_⟩, hdata, Int.le_refl _,
      Nat.le_refl _⟩
    rw [if_neg (hid row hrow hdata)]

end Tables

section Stores

variable {s s' : KeyPackageStore}

/-- The deadline is not lowered unless a task is left that brings the rotation forward to it. -/
structure Meets (s s' : KeyPackageStore) : Prop where
  tasks : Evolves s.tasks s'.tasks
  deadline : ∀ deadline, s.identity = some (some deadline) →
    ∃ deadline', s'.identity = some (some deadline') ∧
      (deadline ≤ deadline' ∨ Nudged s'.tasks deadline')

theorem Meets.of_identity (h : Evolves s.tasks s'.tasks) (hidentity : s'.identity = s.identity) :
    Meets s s' :=
  ⟨h, fun deadline hdeadline => ⟨deadline, hidentity.trans hdeadline, .inl (Int.le_refl _)⟩⟩

theorem Meets.trans {s'' : KeyPackageStore} (h : Meets s s') (h' : Meets s' s'') : Meets s s'' := by
  refine ⟨h.tasks.trans h'.tasks, fun deadline hdeadline => ?_⟩
  obtain ⟨deadline', hdeadline', hle⟩ := h.deadline deadline hdeadline
  obtain ⟨deadline'', hdeadline'', hle'⟩ := h'.deadline deadline' hdeadline'
  refine ⟨deadline'', hdeadline'', ?_⟩
  rcases hle' with hle' | hnudged
  · rcases hle with hle | hnudged
    · exact .inl (Int.le_trans hle hle')
    · exact .inr ((hnudged.carries h'.tasks.toCarries).mono hle')
  · exact .inr hnudged

theorem meets_createOrIgnoreTask (s : KeyPackageStore) {new : NewTask}
    (h : forRotation new.data = true →
      new.expiresAtNs = neverExpires ∧ new.maxAttempts = unlimitedAttempts) :
    Meets s (s.createOrIgnoreTask new) :=
  .of_identity (evolves_createOrIgnoreTask s.tasks h) rfl

theorem meets_kpSeed (s : KeyPackageStore) (data : TaskKind) (now : Int) :
    Meets s (s.createOrIgnoreTask (kpSeed data now)) :=
  meets_createOrIgnoreTask s fun _ => ⟨rfl, rfl⟩

theorem meets_enqueuePullIn (s : KeyPackageStore) (target : TaskKind) (notLaterThanNs now : Int) :
    Meets s (enqueuePullIn s target notLaterThanNs neverExpires now) :=
  meets_createOrIgnoreTask s fun _ => ⟨rfl, rfl⟩

theorem meets_reset (s : KeyPackageStore) {checkNow setNow : Int} (hclock : checkNow ≤ setNow) :
    Meets s (s.resetKeyPackageRotationQueue keyPackageRotationIntervalNs checkNow setNow) := by
  refine ⟨.refl _, fun deadline hdeadline => ?_⟩
  simp only [KeyPackageStore.resetKeyPackageRotationQueue, KeyPackageStore.updateRotation, hdeadline,
    Option.map_some, Option.all_some]
  split
  · rename_i hle
    have hle := of_decide_eq_true hle
    refine ⟨_, rfl, .inl ?_⟩
    rw [keyPackageRotationIntervalNs, nsInDay]
    omega
  · exact ⟨_, rfl, .inl (Int.le_refl _)⟩

theorem meets_nudgeDeletion (s : KeyPackageStore) (deleteAtNs : Option Int) (now pullInNow : Int) :
    Meets s (nudgeDeletion s deleteAtNs now pullInNow) := by
  cases deleteAtNs with
  | none => exact .of_identity (.refl _) rfl
  | some deleteAt => exact (meets_kpSeed _ _ _).trans (meets_enqueuePullIn _ _ _ _)

theorem meets_reconcile (s : KeyPackageStore) (target : TaskKind) (atNs : Option Int) (now : Int) :
    Meets s (reconcile s target atNs now) := by
  cases atNs with
  | none => exact .of_identity (.refl _) rfl
  | some notLaterThanNs => exact meets_enqueuePullIn _ _ _ _

theorem meets_seedAndReconcile (s : KeyPackageStore) (deleteAtNs : Option Int)
    (now rotationNow deletionNow : Int) :
    Meets s (seedAndReconcileKpTasks s deleteAtNs now rotationNow deletionNow) :=
  (((meets_kpSeed _ _ _).trans (meets_kpSeed _ _ _)).trans (meets_reconcile _ _ _ _)).trans
    (meets_reconcile _ _ _ _)

theorem nudged_createOrIgnoreTask (t : TaskTable) {new : NewTask} {deadline : Int}
    (h : new.data = .pullInDeadline .kpRotation deadline) :
    Nudged (t.createOrIgnoreTask new) deadline := by
  obtain ⟨task, htask, hdata, -⟩ := TaskTable.exists_mem_createOrIgnoreTask t new
  exact ⟨task, htask, deadline, hdata.trans h, Int.le_refl _⟩

theorem meets_queueKeyRotation (s : KeyPackageStore) (seedNow now pullInNow : Int) :
    Meets s (queueKeyRotation s seedNow now pullInNow) := by
  unfold queueKeyRotation KeyPackageStore.queueKeyRotationWithNudge
  simp only
  generalize hlowered : s.updateRotation _ _ = lowered
  have htasks : lowered.tasks = s.tasks := by
    rw [← hlowered]
    rfl
  have hset (deadline : Int) (hdeadline : s.identity = some (some deadline)) :
      ∃ deadline', lowered.identity = some (some deadline') := by
    rw [← hlowered, KeyPackageStore.updateRotation, hdeadline, Option.map_some]
    split
    · exact ⟨_, rfl⟩
    · exact ⟨_, rfl⟩
  cases hidentity : lowered.identity with
  | none =>
    refine ⟨htasks ▸ .refl _, fun deadline hdeadline => ?_⟩
    obtain ⟨deadline', hdeadline'⟩ := hset deadline hdeadline
    rw [hidentity] at hdeadline'
    cases hdeadline'
  | some next =>
    constructor
    · rw [← htasks]
      exact (meets_kpSeed lowered .kpRotation seedNow).tasks.trans
        (evolves_createOrIgnoreTask _ fun _ => ⟨rfl, rfl⟩)
    · intro deadline hdeadline
      obtain ⟨deadline', hdeadline'⟩ := hset deadline hdeadline
      rw [hidentity] at hdeadline'
      cases hdeadline'
      exact ⟨deadline', hidentity, .inr (nudged_createOrIgnoreTask _ rfl)⟩

end Stores

theorem Turn.Works.task {turn : Turn} {task : Task} {now : Int} (h : turn.Works task now) :
    turn.task = some task := by
  cases h <;> rfl

section Worlds

variable {w w' : World} {s' : KeyPackageStore} {task : Task}

theorem NotStranded.meets {s : KeyPackageStore} (h : NotStranded s) (hm : Meets s s') :
    NotStranded s' := by
  obtain ⟨deadline, hdeadline, row, hrow, hdata, howed⟩ := h
  obtain ⟨deadline', hdeadline', hle⟩ := hm.deadline deadline hdeadline
  obtain ⟨row', hrow', hdata', hnext, hattempts⟩ := hm.tasks.forward row hrow hdata
  refine ⟨deadline', hdeadline', row', hrow', hdata', ?_⟩
  rcases hle with hle | hnudged
  · rcases howed with hmet | hnudged | hfailed
    · exact .inl (Int.le_trans hnext (Int.le_trans hmet hle))
    · exact .inr (.inl ((hnudged.carries hm.tasks.toCarries).mono hle))
    · exact .inr (.inr (Nat.lt_of_lt_of_le hfailed hattempts))
  · exact .inr (.inl hnudged)

theorem Turn.Agrees.meets {s : KeyPackageStore} {turn : Turn} (h : turn.Agrees s)
    (hm : Meets s s') : turn.Agrees s' := by
  cases turn with
  | waiting | read | started | rotating | settled | nudged => exact h
  | ran task now outcome =>
    cases outcome with
    | none => exact trivial
    | some outcome =>
      cases outcome with
      | done =>
        refine ⟨h.1, fun d hd => ?_⟩
        obtain ⟨row, hrow, hdata, hnext⟩ := h.2 d hd
        obtain ⟨row', hrow', hdata', hnext', -⟩ := hm.tasks.forward row hrow hdata
        exact ⟨row', hrow', hdata', Int.le_trans hnext' hnext⟩
      | rescheduleAt next =>
        intro hdata
        obtain ⟨deadline, hdeadline, hmet⟩ := h hdata
        obtain ⟨deadline', hdeadline', hle⟩ := hm.deadline deadline hdeadline
        refine ⟨deadline', hdeadline', ?_⟩
        rcases hle with hle | hnudged
        · rcases hmet with hmet | hnudged
          · exact .inl (Int.le_trans hmet hle)
          · exact .inr ((hnudged.carries hm.tasks.toCarries).mono hle)
        · exact .inr hnudged

theorem Sound.meets (h : Sound w) (hm : Meets w.store s') : Sound ⟨s', w.turn⟩ where
  lasting := h.lasting.carries hm.tasks.toCarries
  notStranded := h.notStranded.meets hm
  snapshot task htask := (h.snapshot task htask).carries hm.tasks.toCarries
  agrees := h.agrees.meets hm

theorem Sound.turn (h : Sound w) {turn : Turn} (htask : ∀ task, turn.task = some task →
    w.turn.task = some task) (hagrees : turn.Agrees w.store) : Sound { w with turn } :=
  ⟨h.lasting, h.notStranded, fun task ht => h.snapshot task (htask task ht), hagrees⟩

theorem Sound.wait (h : Sound w) : Sound { w with turn := .waiting } :=
  h.turn (fun _ ht => by cases ht) trivial

theorem snapshot_of_mem {tasks : TaskTable} (hlasting : Lasting tasks) (htireless : Tireless tasks)
    (h : task ∈ tasks.rows) : Snapshot tasks task where
  fresh := tasks.fresh task h
  data row hrow hid := congrArg (fun t : Task => t.data) (tasks.eq_of_id_eq hrow h hid)
  live hfor now hnow := by
    obtain ⟨hexpires, -⟩ := hlasting task h hfor
    have hattempts := htireless task h hfor
    rw [Task.isDead, Bool.or_eq_false_iff, decide_eq_false_iff_not, decide_eq_false_iff_not,
      hexpires]
    exact ⟨Int.not_lt.mpr hnow, Nat.not_le.mpr hattempts⟩

theorem Sound.delete (h : Sound w) (hsnapshot : Snapshot w.store.tasks task)
    (hother : forRotation task.data = false) :
    Sound ⟨w.store.withTasks (w.store.tasks.deleteTask task.id), .waiting⟩ := by
  have hm : Meets w.store (w.store.withTasks (w.store.tasks.deleteTask task.id)) := by
    refine .of_identity (evolves_deleteWhere _ fun row hrow hfor => ?_) rfl
    refine decide_eq_false fun hid => ?_
    rw [hsnapshot.data row hrow hid, hother] at hfor
    cases hfor
  exact (h.meets hm).wait

theorem Sound.deletePullIn (h : Sound w) (hsnapshot : Snapshot w.store.tasks task) {d : Int}
    (hdata : task.data = .pullInDeadline .kpRotation d) {row : Task}
    (hrow : row ∈ w.store.tasks.rows) (hkp : row.data = .kpRotation)
    (hnext : row.nextAttemptAtNs ≤ d) :
    Sound ⟨w.store.withTasks (w.store.tasks.deleteTask task.id), .waiting⟩ := by
  refine ⟨fun t ht => h.lasting t (TaskTable.mem_deleteTask.mp ht).1, ?_, (fun _ ht => by cases ht),
    trivial⟩
  obtain ⟨deadline, hdeadline, row', hrow', hkp', howed⟩ := h.notStranded
  obtain rfl := w.store.tasks.eq_of_data_eq hrow hrow' (hkp.trans hkp'.symm)
  have hkept : row ∈ (w.store.tasks.deleteTask task.id).rows := by
    refine TaskTable.mem_deleteTask.mpr ⟨hrow, fun hid => ?_⟩
    have heq := hsnapshot.data row hrow hid
    rw [hkp, hdata] at heq
    cases heq
  refine ⟨deadline, hdeadline, row, hkept, hkp, ?_⟩
  rcases howed with hmet | ⟨pull, hpull, d', hpullData, hd'⟩ | hfailed
  · exact .inl hmet
  · by_cases hid : pull.id = task.id
    · have heq := (hpullData.symm.trans (hsnapshot.data pull hpull hid)).trans hdata
      cases heq
      exact .inl (Int.le_trans hnext hd')
    · exact .inr (.inl ⟨pull, TaskTable.mem_deleteTask.mpr ⟨hpull, hid⟩, d', hpullData, hd'⟩)
  · exact .inr (.inr hfailed)

theorem Sound.reschedule (h : Sound w) (hsnapshot : Snapshot w.store.tasks task)
    {attempts : Nat} {last next : Int}
    (hrotation : task.data = .kpRotation → 0 < attempts ∨ ∃ deadline,
      w.store.identity = some (some deadline) ∧
        (next ≤ deadline ∨ Nudged w.store.tasks deadline)) :
    Sound ⟨w.store.reschedule task.id attempts last next, .waiting⟩ := by
  unfold KeyPackageStore.reschedule
  cases hupdate : w.store.tasks.updateTask task.id attempts last next with
  | none => exact h.wait
  | some tasks =>
    have hcarries := carries_updateTask hupdate
    by_cases hdata : task.data = .kpRotation
    · refine ⟨h.lasting.carries hcarries, ?_, (fun _ ht => by cases ht), trivial⟩
      obtain ⟨deadline, hdeadline, row, hrow, hkp, howed⟩ := h.notStranded
      have hmem := (TaskTable.mem_updateTask hupdate).mpr ⟨row, hrow, rfl⟩
      refine ⟨deadline, hdeadline, _, hmem, ?_, ?_⟩
      · split
        · exact hkp
        · exact hkp
      · split
        · rcases hrotation hdata with hattempts | ⟨deadline', hdeadline', hmet⟩
          · exact .inr (.inr hattempts)
          · rw [hdeadline] at hdeadline'
            cases hdeadline'
            exact hmet.imp_right fun hnudged => .inl (hnudged.carries hcarries)
        · rcases howed with hmet | hnudged | hfailed
          · exact .inl hmet
          · exact .inr (.inl (hnudged.carries hcarries))
          · exact .inr (.inr hfailed)
    · have hevolves := evolves_updateTask hupdate fun row hrow hkp hid =>
        hdata ((hsnapshot.data row hrow hid).symm.trans hkp)
      have hmeets : Meets w.store (w.store.withTasks tasks) := .of_identity hevolves rfl
      exact (h.meets hmeets).wait

theorem Sound.done (h : Sound w) {now : Int} (hturn : w.turn = .ran task now (some .done)) :
    Sound ⟨w.store.withTasks (w.store.tasks.deleteTask task.id), .waiting⟩ := by
  have hagrees := h.agrees
  rw [hturn] at hagrees
  have hsnapshot := h.snapshot task (by rw [hturn]; rfl)
  cases hfor : forRotation task.data with
  | false => exact h.delete hsnapshot hfor
  | true =>
    obtain ⟨d, hdata⟩ : ∃ d, task.data = .pullInDeadline .kpRotation d := by
      unfold forRotation at hfor
      split at hfor
      · rename_i hdata
        exact absurd hdata hagrees.1
      · rename_i d hdata
        exact ⟨d, hdata⟩
      · cases hfor
    obtain ⟨row, hrow, hkp, hnext⟩ := hagrees.2 d hdata
    exact h.deletePullIn hsnapshot hdata hrow hkp hnext

theorem exists_pulledIn {s : KeyPackageStore} (h : NotStranded s) (d : Int) :
    ∃ row ∈ (s.tasks.pullInTaskDeadline .kpRotation d).2.rows, row.data = .kpRotation ∧
      row.nextAttemptAtNs ≤ d := by
  obtain ⟨_, _, row, hrow, hdata, _⟩ := h
  refine ⟨row.pulledIn d, TaskTable.mem_pullInTaskDeadline.mpr ⟨row, hrow, if_pos hdata⟩, hdata, ?_⟩
  exact Int.min_le_right _ _

theorem Sound.pulledIn (h : Sound w) {target : TaskKind} {now d : Int}
    (hturn : w.turn = .started task now) (hdata : task.data = .pullInDeadline target d) :
    Sound ⟨w.store.withTasks (w.store.tasks.pullInTaskDeadline target d).2,
      .ran task now (some .done)⟩ := by
  have hm : Meets w.store (w.store.withTasks (w.store.tasks.pullInTaskDeadline target d).2) :=
    .of_identity (evolves_pullIn _ _ _) rfl
  refine (h.meets hm).turn (fun t ht => ?_) ⟨?_, fun d' hd' => ?_⟩
  · rw [hturn]
    exact ht
  · rw [hdata]
    exact TaskKind.noConfusion
  · rw [hdata] at hd'
    cases hd'
    exact exists_pulledIn h.notStranded d

theorem Sound.step (h : Sound w) (htireless : Tireless w.store.tasks) (hstep : Step w w') :
    Sound w' := by
  cases hstep with
  | @fetched task hturn hnext =>
    have hmem := TaskTable.mem_of_getNextTask hnext
    refine ⟨h.lasting, h.notStranded, fun t ht => ?_, trivial⟩
    cases ht
    exact snapshot_of_mem h.lasting htireless hmem
  | interrupted | early | stopped => exact h.wait
  | @reaped task now hturn hnow hdead =>
    have hsnapshot := h.snapshot task (by rw [hturn]; rfl)
    refine h.delete hsnapshot (Bool.eq_false_iff.mpr fun hfor => ?_)
    rw [hsnapshot.live hfor now hnow] at hdead
    cases hdead
  | @started task now hturn => exact h.turn (fun t ht => by rw [hturn]; exact ht) trivial
  | @rotationDue task now armNow checkNow hturn hdata
  | @rotationNotDue task now armNow checkNow hturn hdata =>
    exact h.turn (fun t ht => by rw [hturn]; exact ht) hdata
  | @rotated task now armNow checkNow setNow hturn hclock =>
    have hagrees := h.agrees
    rw [hturn] at hagrees
    exact (h.meets (meets_reset _ hclock)).turn (fun t ht => by rw [hturn]; exact ht) hagrees
  | @nudgedDeletion task now armNow seedNow pullInNow deleteAtNs hturn =>
    have hagrees := h.agrees
    rw [hturn] at hagrees
    exact (h.meets (meets_nudgeDeletion _ _ _ _)).turn (fun t ht => by rw [hturn]; exact ht) hagrees
  | @readBack task now armNow hturn =>
    refine h.turn (fun t ht => by rw [hturn]; exact ht) fun _ => ?_
    obtain ⟨deadline, hdeadline, _⟩ := h.notStranded
    refine ⟨deadline, hdeadline, .inl ?_⟩
    rw [KeyPackageStore.nextKeyPackageRotationNs, hdeadline]
    exact Int.le_refl _
  | pulledIn hturn hdata => exact h.pulledIn hturn hdata
  | @other task now outcome hturn hdata hpull =>
    refine h.turn (fun t ht => by rw [hturn]; exact ht) ?_
    cases outcome with
    | done => exact ⟨hdata, fun d hd => absurd hd (hpull _ _)⟩
    | rescheduleAt next => exact fun hkp => absurd hkp hdata
  | @failed task now hworks =>
    exact h.turn (fun t ht => hworks.task.trans ht) trivial
  | done hturn => exact h.done hturn
  | @rescheduled task now next hturn =>
    have hagrees := h.agrees
    rw [hturn] at hagrees
    exact h.reschedule (h.snapshot task (by rw [hturn]; rfl)) fun hdata => .inr (hagrees hdata)
  | @retried task now next hturn =>
    exact h.reschedule (h.snapshot task (by rw [hturn]; rfl)) fun _ => .inl (Nat.succ_pos _)
  | startedUp => exact h.meets (meets_seedAndReconcile _ _ _ _ _)
  | queued => exact h.meets (meets_queueKeyRotation _ _ _ _)
  | inserted hother =>
    exact h.meets (meets_createOrIgnoreTask _ fun hfor => by rw [hother] at hfor; cases hfor)
  | @upserted task groupId now hother =>
    refine h.meets (.of_identity (.trans (evolves_deleteWhere _ fun row _ hfor => ?_)
      (evolves_createOrIgnoreTask _ fun hfor => by rw [hother] at hfor; cases hfor)) rfl)
    rw [Task.isSelfRemove, Bool.and_eq_false_iff, decide_eq_false_iff_not]
    refine .inl fun hdata => ?_
    rw [hdata] at hfor
    cases hfor

end Worlds

section Runs

variable {w₀ w : World}

@[simp] theorem identity_reconcile (s : KeyPackageStore) (target : TaskKind) (atNs : Option Int)
    (now : Int) : (reconcile s target atNs now).identity = s.identity := by
  cases atNs <;> rfl

theorem nudged_reconcile {s : KeyPackageStore} {deadline : Int}
    (h : s.identity = some (some deadline)) (now : Int) :
    Nudged (reconcile s .kpRotation s.nextKeyPackageRotationNs now).tasks deadline := by
  rw [KeyPackageStore.nextKeyPackageRotationNs, h]
  exact nudged_createOrIgnoreTask s.tasks rfl

theorem notStranded_seedAndReconcile {s : KeyPackageStore} {deadline : Int}
    (h : s.identity = some (some deadline)) (deleteAtNs : Option Int)
    (now rotationNow deletionNow : Int) :
    NotStranded (seedAndReconcileKpTasks s deleteAtNs now rotationNow deletionNow) := by
  obtain ⟨row, hrow, hdata, -⟩ :=
    TaskTable.exists_mem_createOrIgnoreTask s.tasks (kpSeed .kpRotation now)
  have hseeded := meets_kpSeed (s.createOrIgnoreTask (kpSeed .kpRotation now)) .kpDeletion now
  unfold seedAndReconcileKpTasks
  simp only
  generalize hs : (s.createOrIgnoreTask (kpSeed .kpRotation now)).createOrIgnoreTask
    (kpSeed .kpDeletion now) = seeded at hseeded
  have hidentity : seeded.identity = some (some deadline) := by
    rw [← hs]
    exact h
  have hrotation := meets_reconcile seeded .kpRotation seeded.nextKeyPackageRotationNs rotationNow
  have hdeletion := meets_reconcile
    (reconcile seeded .kpRotation seeded.nextKeyPackageRotationNs rotationNow) .kpDeletion
      deleteAtNs deletionNow
  obtain ⟨row', hrow', hdata', -⟩ :=
    (hseeded.trans (hrotation.trans hdeletion)).tasks.forward row hrow hdata
  exact ⟨deadline, by simp [hidentity], row', hrow', hdata',
    .inr (.inl ((nudged_reconcile hidentity rotationNow).carries hdeletion.tasks.toCarries))⟩

theorem Start.sound (h : Start w₀) : Sound w₀ := by
  cases h with
  | @startedUp s deadline deleteAtNs now rotationNow deletionNow hidentity hlasting =>
    have hm := meets_seedAndReconcile s deleteAtNs now rotationNow deletionNow
    exact ⟨hlasting.carries hm.tasks.toCarries, notStranded_seedAndReconcile hidentity _ _ _ _,
      (fun _ ht => by cases ht), trivial⟩
  | @registered s deadline row hidentity hlasting hrow hdata hnext =>
    exact ⟨hlasting, ⟨deadline, hidentity, row, hrow, hdata, .inl hnext⟩,
      (fun _ ht => by cases ht), trivial⟩

/-- A step after which no task of the rotation has failed for the last time. -/
def TirelessStep (w w' : World) : Prop := Step w w' ∧ Tireless w'.store.tasks

/-- A rotation is not stranded, whatever the runner and the threads beside it have done. -/
theorem notStranded_of_run (hstart : Start w₀) (htireless : Tireless w₀.store.tasks)
    (hrun : ReflTransGen TirelessStep w₀ w) : NotStranded w.store := by
  have hsound : Sound w ∧ Tireless w.store.tasks := by
    induction hrun with
    | refl => exact ⟨hstart.sound, htireless⟩
    | tail _ hstep ih => exact ⟨ih.1.step ih.2 hstep.1, hstep.2⟩
  exact hsound.1.notStranded

end Runs

namespace GivenUp

theorem rows_deleteTask (t : TaskTable) (id : Nat) :
    (t.deleteTask id).rows = t.rows.filter fun task => task.id ≠ id := by
  simp [TaskTable.deleteTask, TaskTable.deleteWhere, TaskTable.rows, Table.deleteWhere]

theorem rows_pullInTaskDeadline (t : TaskTable) (target : TaskKind) (atNs : Int) :
    (t.pullInTaskDeadline target atNs).2.rows =
      t.rows.map fun task => if task.data = target then task.pulledIn atNs else task := by
  apply List.map_congr_left
  intro task _
  by_cases h : task.data = target
  · rw [if_pos h]
    exact if_pos (decide_eq_true h)
  · rw [if_neg h]
    exact if_neg fun hhash => h (of_decide_eq_true hhash)

theorem rows_createOrIgnoreTask (t : TaskTable) (new : NewTask) :
    (t.createOrIgnoreTask new).rows =
      if new.data ∈ t.rows.map fun task => task.data then t.rows
      else t.rows ++ [{ new with id := t.nextId }] := by
  have hrows : (t.createOrIgnoreTask new).rows =
      (t.tasks.insertOrIgnore { new with id := t.nextId }).rows := rfl
  rw [hrows]
  unfold Table.insertOrIgnore
  split
  · rename_i h
    exact (if_pos h).symm
  · rename_i h
    exact (if_neg h).symm

theorem rows_reschedule {s : KeyPackageStore} {task : Task} (h : task ∈ s.tasks.rows) (attempts : Nat)
    (last next : Int) : (s.reschedule task.id attempts last next).tasks.rows =
      s.tasks.rows.map fun row =>
        if row.id = task.id then row.rescheduled attempts last next else row := by
  have hany : (s.tasks.rows.any fun row => row.id = task.id) = true :=
    List.any_eq_true.mpr ⟨task, h, decide_eq_true rfl⟩
  unfold KeyPackageStore.reschedule TaskTable.updateTask
  rw [if_pos hany]
  simp only [TaskTable.rows, KeyPackageStore.tasks_withTasks, Table.updateWhere, decide_eq_true_eq]

theorem getNextTask_eq_some {t : TaskTable} {task : Task} (h : task ∈ t.rows)
    (hfirst : ∀ other ∈ t.rows, other ≠ task → task.nextAttemptAtNs < other.nextAttemptAtNs) :
    t.getNextTask = some task := by
  obtain ⟨next, hnext⟩ := Option.isSome_iff_exists.mp
    (List.isSome_minOn?_of_mem (f := fun task : Task => task.nextAttemptAtNs) h)
  have hle := List.apply_get_minOn?_le_of_mem (f := fun task : Task => task.nextAttemptAtNs) h
  simp only [hnext, Option.get_some] at hle
  by_cases heq : next = task
  · exact heq ▸ hnext
  · exact absurd (hfirst next (List.minOn?_mem hnext) heq) (Int.not_lt.mpr hle)

def moment (k : Nat) : Int := k * 1000000

def backoff (attempts : Nat) : Int :=
  min ((2000000000 * 3 ^ attempts / 2 ^ attempts : Nat) : Int) 60000000000

structure IsRotation (attempts : Nat) (row : Task) : Prop where
  data : row.data = .kpRotation
  attempts : row.attempts = attempts
  maxAttempts : row.maxAttempts = unlimitedAttempts
  expiresAtNs : row.expiresAtNs = neverExpires

structure IsDeletion (row : Task) : Prop where
  data : row.data = .kpDeletion
  next : row.nextAttemptAtNs = keyPackageRotationIntervalNs

structure Resting (attempts : Nat) (w : World) : Prop where
  turn : w.turn = .waiting
  identity : w.store.identity = some (some 0)
  rows : ∃ row deletion, w.store.tasks.rows = [row, deletion] ∧ IsRotation attempts row ∧
    row.nextAttemptAtNs = 0 ∧ IsDeletion deletion

structure Queued (attempts : Nat) (w : World) : Prop where
  turn : w.turn = .waiting
  identity : w.store.identity = some (some 0)
  rows : ∃ row deletion pullIn, w.store.tasks.rows = [row, deletion, pullIn] ∧
    IsRotation attempts row ∧ moment attempts < row.nextAttemptAtNs ∧ IsDeletion deletion ∧
    pullIn.data = .pullInDeadline .kpRotation 0 ∧ pullIn.nextAttemptAtNs = moment attempts ∧
    pullIn.expiresAtNs = neverExpires ∧ pullIn.attempts < pullIn.maxAttempts

theorem moment_lt {k : Nat} (h : k ≤ unlimitedAttempts) : moment k < keyPackageRotationIntervalNs := by
  rw [unlimitedAttempts] at h
  rw [moment, keyPackageRotationIntervalNs, nsInDay]
  omega

theorem isDead_eq_false {task : Task} {k : Nat} (hk : k ≤ unlimitedAttempts)
    (hexpires : task.expiresAtNs = neverExpires) (hattempts : task.attempts < task.maxAttempts) :
    task.isDead (moment k) = false := by
  have hlt := moment_lt hk
  rw [keyPackageRotationIntervalNs, nsInDay] at hlt
  rw [Task.isDead, Bool.or_eq_false_iff, decide_eq_false_iff_not, decide_eq_false_iff_not, hexpires,
    neverExpires]
  omega

theorem Queued.resting {k : Nat} {w : World} (h : Queued k w) (hk : k ≤ unlimitedAttempts) :
    ∃ w', ReflTransGen Step w w' ∧ Resting k w' := by
  obtain ⟨row, deletion, pullIn, hrows, hrow, hnext, hdeletion, hpull, hdue, hexpires, hattempts⟩ :=
    h.rows
  have hmem : pullIn ∈ w.store.tasks.rows := by simp [hrows]
  have hfetch : w.store.tasks.getNextTask = some pullIn := by
    refine getNextTask_eq_some hmem fun other hother hne => ?_
    rw [hdue]
    simp only [hrows, List.mem_cons, List.not_mem_nil, or_false] at hother
    rcases hother with rfl | rfl | rfl
    · exact hnext
    · rw [hdeletion.next]
      exact moment_lt hk
    · exact absurd rfl hne
  have hids : ∀ other ∈ w.store.tasks.rows, other.data ≠ pullIn.data → other.id ≠ pullIn.id :=
    fun other hother hne hid => hne (congrArg (fun t : Task => t.data)
      (w.store.tasks.eq_of_id_eq hother hmem hid))
  have hrowId : row.id ≠ pullIn.id :=
    hids row (by simp [hrows]) (by rw [hrow.data, hpull]; exact TaskKind.noConfusion)
  have hdeletionId : deletion.id ≠ pullIn.id :=
    hids deletion (by simp [hrows]) (by rw [hdeletion.data, hpull]; exact TaskKind.noConfusion)
  refine ⟨_, .tail (.tail (.tail (.tail .refl (.fetched h.turn hfetch)) (@Step.started _ _ (moment k) rfl
    (isDead_eq_false hk hexpires hattempts) (Int.le_of_eq hdue))) (.pulledIn rfl hpull)) (.done rfl),
    rfl, h.identity, row.pulledIn 0, deletion, ?_, ⟨hrow.data, hrow.attempts, hrow.maxAttempts,
      hrow.expiresAtNs⟩, ?_, hdeletion⟩
  · simp only [KeyPackageStore.tasks_withTasks, rows_deleteTask, rows_pullInTaskDeadline, hrows,
      List.map_cons, List.map_nil, hrow.data, hdeletion.data, hpull, if_true, reduceCtorEq, if_false]
    have hpulledId : (row.pulledIn 0).id ≠ pullIn.id := hrowId
    simp [hpulledId, hdeletionId]
  · have hpositive : 0 ≤ moment k := by
      rw [moment]
      omega
    exact Int.min_eq_right (Int.le_trans hpositive (Int.le_of_lt hnext))

theorem le_backoff {attempts : Nat} (h : 0 < attempts) : 3000000000 ≤ backoff attempts := by
  have hpow : 3 * 2 ^ attempts ≤ 2 * 3 ^ attempts := by
    induction attempts with
    | zero => cases h
    | succ n ih =>
      cases n with
      | zero => decide
      | succ n =>
        have hn := ih (Nat.succ_pos n)
        rw [Nat.pow_succ 2 (n + 1), Nat.pow_succ 3 (n + 1)]
        omega
  have hdiv : 3000000000 ≤ 2000000000 * 3 ^ attempts / 2 ^ attempts :=
    (Nat.le_div_iff_mul_le (Nat.two_pow_pos attempts)).mpr (by omega)
  rw [backoff]
  omega

theorem queueKeyRotation_due {s : KeyPackageStore} (h : s.identity = some (some 0)) {now : Int}
    (hnow : 0 ≤ now) (seedNow pullInNow : Int) :
    queueKeyRotation s seedNow now pullInNow =
      enqueuePullIn (s.createOrIgnoreTask (kpSeed .kpRotation seedNow)) .kpRotation 0 neverExpires
        pullInNow := by
  have hkept : ¬now + keyPackageQueueIntervalNs < 0 := by
    rw [keyPackageQueueIntervalNs]
    omega
  obtain ⟨identity, tasks⟩ := s
  cases h
  simp [queueKeyRotation, KeyPackageStore.queueKeyRotationWithNudge,
    KeyPackageStore.updateRotation, hkept, enqueuePullIn]

theorem rows_enqueued {s : KeyPackageStore} {row deletion : Task}
    (hrows : s.tasks.rows = [row, deletion]) (hrow : row.data = .kpRotation)
    (hdeletion : deletion.data = .kpDeletion) (seedNow now : Int) :
    ∃ pullIn : Task, (enqueuePullIn (s.createOrIgnoreTask (kpSeed .kpRotation seedNow)) .kpRotation 0
        neverExpires now).tasks.rows = [row, deletion, pullIn] ∧
      pullIn.data = .pullInDeadline .kpRotation 0 ∧ pullIn.nextAttemptAtNs = now ∧
      pullIn.expiresAtNs = neverExpires ∧ pullIn.attempts < pullIn.maxAttempts := by
  have hseeded : (s.createOrIgnoreTask (kpSeed .kpRotation seedNow)).tasks.rows =
      [row, deletion] := by
    rw [KeyPackageStore.tasks_createOrIgnoreTask, rows_createOrIgnoreTask, hrows, if_pos]
    simp [hrow, kpSeed, NewTask.build]
  have hpull : (enqueuePullIn (s.createOrIgnoreTask (kpSeed .kpRotation seedNow)) .kpRotation 0
      neverExpires now).tasks.rows = _ := rows_createOrIgnoreTask _ _
  rw [hseeded, if_neg (by simp [hrow, hdeletion, NewTask.build])] at hpull
  exact ⟨_, hpull, rfl, rfl, rfl, Nat.succ_pos _⟩

theorem getNextTask_resting {t : TaskTable} {row deletion : Task} (hrows : t.rows = [row, deletion])
    (hdue : row.nextAttemptAtNs = 0) (hdeletion : IsDeletion deletion) :
    t.getNextTask = some row := by
  refine getNextTask_eq_some (by simp [hrows]) fun other hother hne => ?_
  simp only [hrows, List.mem_cons, List.not_mem_nil, or_false] at hother
  rcases hother with rfl | rfl
  · exact absurd rfl hne
  · rw [hdeletion.next, hdue]
    decide

theorem Resting.queued {k : Nat} {w : World} (h : Resting k w) (hk : k < unlimitedAttempts) :
    ∃ w', ReflTransGen Step w w' ∧ Queued (k + 1) w' := by
  obtain ⟨row, deletion, hrows, hrow, hdue, hdeletion⟩ := h.rows
  have hmem : row ∈ w.store.tasks.rows := by simp [hrows]
  have hfetch := getNextTask_resting hrows hdue hdeletion
  have hdeletionId : deletion.id ≠ row.id := by
    intro hid
    have heq := w.store.tasks.eq_of_id_eq (by simp [hrows]) hmem hid
    have hdata := hdeletion.data
    rw [heq, hrow.data] at hdata
    cases hdata
  have hlive : row.isDead (moment (k + 1)) = false :=
    isDead_eq_false hk hrow.expiresAtNs (by rw [hrow.attempts, hrow.maxAttempts]; exact hk)
  have hpositive : 0 ≤ moment (k + 1) := by
    rw [moment]
    omega
  have hneeds : w.store.isIdentityNeedsRotation (moment (k + 1)) = true := by
    simp [KeyPackageStore.isIdentityNeedsRotation, h.identity, hpositive]
  have hrescheduled := rows_reschedule hmem (row.attempts + 1) (moment (k + 1))
    (moment (k + 1) + backoff (k + 1))
  simp only [hrows, List.map_cons, List.map_nil, if_true, if_neg hdeletionId] at hrescheduled
  have hidentity : (w.store.reschedule row.id (row.attempts + 1) (moment (k + 1))
      (moment (k + 1) + backoff (k + 1))).identity = some (some 0) := by
    rw [KeyPackageStore.identity_reschedule]
    exact h.identity
  obtain ⟨pullIn, hpulled, hdata, hnext, hexpires, hattempts⟩ :=
    rows_enqueued hrescheduled hrow.data hdeletion.data (moment (k + 1)) (moment (k + 1))
  refine ⟨_, .tail (.tail (.tail (.tail (.tail (.tail .refl (.fetched h.turn hfetch))
    (@Step.started _ _ (moment (k + 1)) rfl hlive (hdue ▸ hpositive)))
      (@Step.rotationDue _ _ _ (moment (k + 1)) _ rfl hrow.data hneeds)) (.failed .rotating))
        (@Step.retried _ _ _ (moment (k + 1) + backoff (k + 1)) rfl))
          (@Step.queued _ (moment (k + 1)) (moment (k + 1)) (moment (k + 1))), rfl, ?_, ?_⟩
  · simp only [queueKeyRotation_due hidentity hpositive]
    exact hidentity
  · simp only [queueKeyRotation_due hidentity hpositive]
    refine ⟨_, deletion, pullIn, hpulled, ⟨hrow.data, ?_, hrow.maxAttempts, hrow.expiresAtNs⟩, ?_,
      hdeletion, hdata, hnext, hexpires, hattempts⟩
    · exact congrArg Nat.succ hrow.attempts
    · have hle : 3000000000 ≤ backoff (k + 1) := le_backoff (Nat.succ_pos k)
      have hlt : moment (k + 1) < moment (k + 1) + backoff (k + 1) := by omega
      exact hlt

theorem Resting.givenUp {w : World} (h : Resting unlimitedAttempts w) :
    ∃ w', ReflTransGen Step w w' ∧ w'.turn = .waiting ∧
      ∀ row ∈ w'.store.tasks.rows, row.data ≠ .kpRotation := by
  obtain ⟨row, deletion, hrows, hrow, hdue, hdeletion⟩ := h.rows
  have hmem : row ∈ w.store.tasks.rows := by simp [hrows]
  have hfetch := getNextTask_resting hrows hdue hdeletion
  have hdead : row.isDead 0 = true := by
    rw [Task.isDead, hrow.attempts, hrow.maxAttempts]
    simp
  refine ⟨_, .tail (.tail .refl (.fetched h.turn hfetch)) (.reaped rfl (by decide) hdead), rfl, ?_⟩
  intro other hother hdata
  obtain ⟨hold, hid⟩ := TaskTable.mem_deleteTask.mp hother
  exact hid (congrArg Task.id (w.store.tasks.eq_of_data_eq hold hmem (hdata.trans hrow.data.symm)))

theorem exists_queued {w : World} (h : Queued 0 w) (k : Nat) (hk : k ≤ unlimitedAttempts) :
    ∃ w', ReflTransGen Step w w' ∧ Queued k w' := by
  induction k with
  | zero => exact ⟨w, .refl, h⟩
  | succ k ih =>
    obtain ⟨w₁, hrun₁, hqueued⟩ := ih (Nat.le_of_succ_le hk)
    obtain ⟨w₂, hrun₂, hresting⟩ := hqueued.resting (Nat.le_of_succ_le hk)
    obtain ⟨w₃, hrun₃, hqueued'⟩ := hresting.queued hk
    exact ⟨w₃, (hrun₁.trans hrun₂).trans hrun₃, hqueued'⟩

def rotationRow : NewTask := { kpSeed .kpRotation 0 with nextAttemptAtNs := 3000000000 }

def deletionRow : NewTask :=
  { kpSeed .kpDeletion 0 with nextAttemptAtNs := keyPackageRotationIntervalNs }

def stored : KeyPackageStore :=
  ⟨some (some 0), (TaskTable.empty.createOrIgnoreTask rotationRow).createOrIgnoreTask deletionRow⟩

def begun : World := ⟨seedAndReconcileKpTasks stored none 0 0 0, .waiting⟩

theorem start_begun : Start begun := @Start.startedUp stored 0 none 0 0 0 rfl (by
  unfold Lasting
  decide +kernel)

theorem queued_begun : Queued 0 begun := by
  refine ⟨rfl, rfl, { rotationRow with id := 1 }, { deletionRow with id := 2 },
    { kpSeed (.pullInDeadline .kpRotation 0) 0 with id := 5 }, by decide +kernel,
    ⟨rfl, rfl, rfl, rfl⟩, by decide, ⟨rfl, rfl⟩, rfl, rfl, rfl, by decide⟩

end GivenUp

open GivenUp in
/-- A rotation whose every attempt fails, and that is queued again after each, is given up in the
end. -/
theorem exists_stranded : ∃ w₀ w, Start w₀ ∧ ReflTransGen Step w₀ w ∧ w.turn = .waiting ∧
    ¬NotStranded w.store := by
  obtain ⟨w₁, hrun₁, hqueued⟩ := exists_queued queued_begun unlimitedAttempts (Nat.le_refl _)
  obtain ⟨w₂, hrun₂, hresting⟩ := hqueued.resting (Nat.le_refl _)
  obtain ⟨w₃, hrun₃, hturn, hnone⟩ := hresting.givenUp
  refine ⟨begun, w₃, start_begun, (hrun₁.trans hrun₂).trans hrun₃, hturn, ?_⟩
  rintro ⟨deadline, hdeadline, row, hrow, hdata, howed⟩
  exact hnone row hrow hdata

open GivenUp in
theorem notStranded_of_run_begun : ∃ w, ReflTransGen TirelessStep begun w ∧
    w.store.identity = some (some 5000000033) ∧ NotStranded w.store := by
  have hrun : ∃ w, ReflTransGen TirelessStep begun w ∧
      w.store.identity = some (some 5000000033) := by
    refine ⟨_, .tail (.tail (.tail (.tail (.tail (.tail (.tail (.tail (.tail (.tail (.tail (.tail
      (.tail .refl
        ⟨@Step.fetched _ { kpSeed (.pullInDeadline .kpRotation 0) 0 with id := 5 } rfl
          (by decide +kernel), by decide +kernel⟩)
        ⟨@Step.started _ _ 10 rfl (by decide) (by decide), by decide +kernel⟩)
        ⟨.pulledIn rfl rfl, by decide +kernel⟩)
        ⟨.done rfl, by decide +kernel⟩)
        ⟨@Step.fetched _ { rotationRow with nextAttemptAtNs := 0, id := 1 } rfl
          (by decide +kernel), by decide +kernel⟩)
        ⟨@Step.started _ _ 20 rfl (by decide) (by decide), by decide +kernel⟩)
        ⟨@Step.rotationDue _ _ _ 21 22 rfl rfl (by decide +kernel),
          by decide +kernel⟩)
        ⟨@Step.rotated _ _ _ _ 30 31 rfl (by decide), by decide +kernel⟩)
        ⟨@Step.queued _ 32 33 34, by decide +kernel⟩)
        ⟨@Step.nudgedDeletion _ _ _ _ 35 36 none rfl,
          by decide +kernel⟩)
        ⟨.readBack rfl, by decide +kernel⟩)
        ⟨@Step.queued _ 40 41 42, by decide +kernel⟩)
        ⟨.rescheduled rfl, by decide +kernel⟩, by decide +kernel⟩
  obtain ⟨w, hsteps, hidentity⟩ := hrun
  exact ⟨w, hsteps, hidentity, notStranded_of_run start_begun (by decide +kernel) hsteps⟩

end LibXmtp.Mls.KeyPackageTasks
