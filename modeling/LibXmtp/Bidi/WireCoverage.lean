import LibXmtp.Bidi.LeasedTopics
import LibXmtp.Bidi.OwedTask

/-! Whether the waves on a wire, with those that wait for it, leave the leased topics subscribed and
no others. -/

namespace LibXmtp.Bidi

open LibXmtp.Data LibXmtp.Types
open LibXmtp.Subscriptions (chunkByBudget flatten_chunkByBudget topicWireCost)

variable {M : DeliveryKind → Type} {C : Type} {order : HashOrder} {W : WireBinding M C}

def Mutate.apply (mutate : Mutate C) (topic : Topic) (sub : Bool) : Bool :=
  if mutate.removes.contains topic then false
  else sub || mutate.adds.any fun add => add.1 == topic

def subscribed (waves : List (Mutate C)) (topic : Topic) : Bool :=
  waves.foldl (fun sub wave => wave.apply topic sub) false

section Subscribed

variable {waves waves' : List (Mutate C)} {topic : Topic}

theorem subscribed_append : subscribed (waves ++ waves') topic =
    waves'.foldl (fun sub wave => wave.apply topic sub) (subscribed waves topic) :=
  List.foldl_append

theorem subscribed_append_adds (h : ∀ wave ∈ waves', wave.removes = []) :
    subscribed (waves ++ waves') topic = true ↔
      subscribed waves topic = true ∨ topic ∈ (waves'.flatMap Mutate.adds).map Prod.fst := by
  rw [subscribed_append]
  generalize subscribed waves topic = sub
  induction waves' generalizing sub with
  | nil => simp
  | cons wave waves' ih =>
    have hremoves : wave.removes = [] := h wave List.mem_cons_self
    rw [List.foldl_cons, ih fun w hw => h w (List.mem_cons_of_mem _ hw), Mutate.apply, hremoves]
    simp [or_assoc]

theorem subscribed_adds (h : ∀ wave ∈ waves, wave.removes = []) :
    subscribed waves topic = true ↔ topic ∈ (waves.flatMap Mutate.adds).map Prod.fst := by
  rw [← List.nil_append waves, subscribed_append_adds h, List.nil_append]
  exact or_iff_right Bool.false_ne_true

theorem subscribed_append_removes (h : ∀ wave ∈ waves', wave.adds = []) :
    subscribed (waves ++ waves') topic = true ↔
      subscribed waves topic = true ∧ topic ∉ waves'.flatMap Mutate.removes := by
  rw [subscribed_append]
  generalize subscribed waves topic = sub
  induction waves' generalizing sub with
  | nil => simp
  | cons wave waves' ih =>
    have hadds : wave.adds = [] := h wave List.mem_cons_self
    rw [List.foldl_cons, ih fun w hw => h w (List.mem_cons_of_mem _ hw), Mutate.apply, hadds]
    cases hcontains : wave.removes.contains topic with
    | true => simp [List.contains_iff_mem.mp hcontains]
    | false =>
      have hmem : topic ∉ wave.removes := by
        rw [← List.contains_iff_mem, hcontains]
        exact Bool.false_ne_true
      simp [hmem]

theorem subscribed_of_filter {queue : List (QueuedWave C)} {p : QueuedWave C → Bool}
    (h : ∀ wave ∈ queue, p wave = false → wave.mutate.removes = [])
    (hsub : subscribed (waves ++ (queue.filter p).map QueuedWave.mutate) topic = true) :
    subscribed (waves ++ queue.map QueuedWave.mutate) topic = true := by
  have hless (sub sub' : Bool) (hle : sub = true → sub' = true) :
      ((queue.filter p).map QueuedWave.mutate).foldl (fun sub wave => wave.apply topic sub) sub =
        true →
      (queue.map QueuedWave.mutate).foldl (fun sub wave => wave.apply topic sub) sub' = true := by
    clear hsub
    induction queue generalizing sub sub' with
    | nil => exact hle
    | cons wave queue ih =>
      have hqueue := ih fun w hw => h w (List.mem_cons_of_mem _ hw)
      cases hp : p wave with
      | true =>
        rw [List.filter_cons_of_pos hp, List.map_cons, List.foldl_cons, List.map_cons,
          List.foldl_cons]
        apply hqueue
        rw [Mutate.apply, Mutate.apply]
        split
        · exact fun heq => heq
        · rw [Bool.or_eq_true, Bool.or_eq_true]
          exact Or.imp_left hle
      | false =>
        rw [List.filter_cons_of_neg (by rw [hp]; exact Bool.false_ne_true), List.map_cons,
          List.foldl_cons]
        apply hqueue
        intro hsub
        rw [Mutate.apply, h wave List.mem_cons_self hp, hle hsub]
        rfl
  rw [subscribed_append] at hsub ⊢
  exact hless _ _ (fun heq => heq) hsub

end Subscribed

namespace LedgerTask

def onWire (task : LedgerTask M C) : List (Mutate C) :=
  task.conn.getD [] ++ task.outbox.map QueuedWave.mutate

/-- On a live wire the leased topics are subscribed and no others. -/
def Covered (task : LedgerTask M C) : Prop :=
  task.conn.isSome = true → ∀ topic,
    subscribed task.onWire topic = true ↔ task.ledger.Leased topic

/-- What is left on the wire without the queued waves of leases that a ledger does not have. -/
def staying (task : LedgerTask M C) (ledger' : Ledger M C) : List (Mutate C) :=
  task.conn.getD [] ++ (task.outbox.filter fun wave =>
    wave.lease.all fun lease => (ledger'.asked lease).isSome).map QueuedWave.mutate

/-- No lease is dropped whose queued waves are all that adds a topic of a lease that stays. -/
def KeepsAdds (task task' : LedgerTask M C) : Prop :=
  task.conn.isSome = true → ∀ lease topics floors, task.ledger.asked lease = some (topics, floors) →
    (task'.ledger.asked lease).isSome = true → ∀ topic ∈ topics,
      subscribed (task.staying task'.ledger) topic = true

/-- There is an outbox only with a wire, and a wave in it that belongs to a lease only adds. -/
structure Queued (task : LedgerTask M C) : Prop where
  sound : task.ledger.Sound
  idle : task.conn = none → task.outbox = []
  adds : ∀ wave ∈ task.outbox, ∀ lease, wave.lease = some lease →
    (task.ledger.asked lease).isSome = true ∧ wave.mutate.removes = []

structure SameWire (task task' : LedgerTask M C) : Prop where
  conn : task'.conn = task.conn
  outbox : task'.outbox = task.outbox
  ledger : task.ledger.SameLeases task'.ledger

variable {task task' : LedgerTask M C} {topic : Topic}

section Same

theorem SameWire.queued (h : task.SameWire task') (hqueued : task.Queued) : task'.Queued where
  sound := hqueued.sound.same h.ledger
  idle hconn := by
    rw [h.conn] at hconn
    rw [h.outbox, hqueued.idle hconn]
  adds wave hwave lease hlease := by
    rw [h.outbox] at hwave
    rw [h.ledger.asked]
    exact hqueued.adds wave hwave lease hlease

theorem SameWire.covered (h : task.SameWire task') (hcovered : task.Covered) : task'.Covered := by
  rw [Covered, onWire, h.conn, h.outbox]
  intro hconn topic
  rw [h.ledger.leased_iff]
  exact hcovered hconn topic

theorem SameWire.refl (task : LedgerTask M C) : task.SameWire task := ⟨rfl, rfl, .refl _⟩

theorem SameWire.symm (h : task.SameWire task') : task'.SameWire task :=
  ⟨h.conn.symm, h.outbox.symm, h.ledger.symm⟩

theorem SameWire.covered_iff (h : task.SameWire task') : task'.Covered ↔ task.Covered :=
  ⟨h.symm.covered, h.covered⟩

theorem SameWire.keepsAdds_iff {last last' : LedgerTask M C} (h : task.SameWire task')
    (hlast : last.SameWire last') : task'.KeepsAdds last' ↔ task.KeepsAdds last := by
  simp only [KeepsAdds, staying, h.conn, h.outbox, h.ledger.asked, hlast.ledger.asked]

theorem exists_asked_of_leased {ledger : Ledger M C} (h : ledger.Leased topic) :
    ∃ lease topics floors, ledger.asked lease = some (topics, floors) ∧ topic ∈ topics := by
  obtain ⟨lease, state, hstate, htopic⟩ := h
  exact ⟨lease, state.topics, state.floors, by rw [Ledger.asked, hstate]; rfl, htopic⟩

theorem leased_of_asked {ledger : Ledger M C} {lease : LeaseId} {topics : List Topic}
    {floors : HashMap Topic C} (h : ledger.asked lease = some (topics, floors))
    (htopic : topic ∈ topics) : ledger.Leased topic := by
  obtain ⟨state, hstate, heq⟩ := Option.map_eq_some_iff.mp h
  cases heq
  exact ⟨lease, state, hstate, htopic⟩

theorem staying_eq {ledger' : Ledger M C} (hkept : ∀ wave ∈ task.outbox, ∀ lease,
    wave.lease = some lease → (ledger'.asked lease).isSome = true) :
    task.staying ledger' = task.onWire := by
  rw [staying, onWire, List.filter_eq_self.mpr]
  intro wave hwave
  rw [Option.all_eq_true]
  exact hkept wave hwave

theorem keepsAdds_of_staying (hcovered : task.Covered)
    (hstaying : task.staying task'.ledger = task.onWire) : task.KeepsAdds task' := by
  intro hconn lease topics floors hasked _ topic htopic
  rw [hstaying]
  exact (hcovered hconn topic).mpr (leased_of_asked hasked htopic)

theorem Queued.keepsAdds (h : task.Queued) (hcovered : task.Covered)
    (hkept : ∀ lease, (task.ledger.asked lease).isSome = true →
      (task'.ledger.asked lease).isSome = true) : task.KeepsAdds task' := by
  apply keepsAdds_of_staying hcovered
  apply staying_eq
  exact fun wave hwave lease hlease => hkept lease (h.adds wave hwave lease hlease).1

end Same

section Drop

/-- Leases are gone, with their queued waves, and the list has the topics that nobody holds
anymore. -/
structure Dropped (task : LedgerTask M C) (removes : List Topic)
    (r : LedgerTask M C × List Topic) : Prop where
  queued : r.1.Queued
  conn : r.1.conn = task.conn
  outbox : r.1.outbox = task.outbox.filter fun wave =>
    wave.lease.all fun lease => (r.1.ledger.asked lease).isSome
  asked : ∀ lease, (r.1.ledger.asked lease).isSome = true →
    r.1.ledger.asked lease = task.ledger.asked lease
  releases : Ledger.Releases (task.ledger, removes) (r.1.ledger, r.2)

theorem Queued.dropped_refl (h : task.Queued) (removes : List Topic) :
    task.Dropped removes (task, removes) where
  queued := h
  conn := rfl
  outbox := by
    rw [List.filter_eq_self.mpr]
    intro wave hwave
    rw [Option.all_eq_true]
    exact fun lease hlease => (h.adds wave hwave lease hlease).1
  asked _ _ := rfl
  releases := .refl _

theorem Queued.dropLeasesFrom {fuel : Nat} (h : task.Queued) (dropped : List LeaseId)
    (removes : List Topic) :
    task.Dropped removes (dropLeasesFrom order W fuel task dropped removes) := by
  induction fuel generalizing task dropped removes with
  | zero => exact h.dropped_refl removes
  | succ fuel ih =>
    rw [LedgerTask.dropLeasesFrom]
    cases hlast : dropped.getLast? with
    | none => exact h.dropped_refl removes
    | some lease =>
      have hasked := task.ledger.asked_deref order W dropped.dropLast lease (task.purge lease)
      have hsound : (task.ledger.deref order W dropped.dropLast lease
        (task.purge lease)).1.1.Sound := h.sound.deref
      have hreleases := task.ledger.releases_deref order W dropped.dropLast lease
        (task.purge lease) removes
      dsimp only
      generalize task.ledger.deref order W dropped.dropLast lease (task.purge lease) = step
        at hasked hsound hreleases ⊢
      have hkept (lease' : LeaseId) (hsome : (step.1.1.asked lease').isSome = true) :
          lease' ≠ lease ∧ step.1.1.asked lease' = task.ledger.asked lease' := by
        rw [hasked] at hsome ⊢
        by_cases heq : (lease == lease') = true
        · rw [if_pos heq] at hsome
          cases hsome
        · exact ⟨fun hself => heq (by rw [hself]; exact BEq.rfl), if_neg heq⟩
      have hnext : { task with
          ledger := step.1.1
          outbox := task.outbox.filter fun wave => wave.lease != some lease }.Queued := by
        refine ⟨hsound, ?_, ?_⟩
        · intro hconn
          dsimp only
          rw [h.idle hconn]
          rfl
        · intro wave hwave lease' hlease'
          obtain ⟨hmem, hother⟩ := List.mem_filter.mp hwave
          obtain ⟨hlive, hremoves⟩ := h.adds wave hmem lease' hlease'
          refine ⟨?_, hremoves⟩
          have hne : ¬(lease == lease') = true := by
            intro heq
            rw [hlease', eq_of_beq heq, bne_self_eq_false] at hother
            cases hother
          dsimp only
          rw [hasked, if_neg hne]
          exact hlive
      have hrest := ih hnext step.1.2 (removes ++ step.2)
      generalize LedgerTask.dropLeasesFrom order W fuel _ step.1.2 (removes ++ step.2) = r
        at hrest ⊢
      refine ⟨hrest.queued, hrest.conn, ?_, ?_, hreleases.trans hrest.releases⟩
      · refine hrest.outbox.trans ?_
        dsimp only
        rw [List.filter_filter]
        apply List.filter_congr
        intro wave _
        cases hstays : wave.lease.all fun lease' => (r.1.ledger.asked lease').isSome with
        | false => rfl
        | true =>
          rw [Bool.true_and, bne_iff_ne]
          intro hlease
          rw [hlease, Option.all_some] at hstays
          have hsome := hstays
          rw [hrest.asked lease hstays] at hsome
          exact (hkept lease hsome).1 rfl
      · intro lease' hsome
        have hsame := hrest.asked lease' hsome
        rw [hsame] at hsome ⊢
        exact (hkept lease' hsome).2

theorem same_answerAll (task : LedgerTask M C) : task.SameWire task.answerAll :=
  ⟨rfl, rfl, .refl _⟩

theorem same_settleIdleWaiters (task : LedgerTask M C) : task.SameWire task.settleIdleWaiters := by
  rw [settleIdleWaiters]
  split
  · exact ⟨rfl, rfl, fun _ => rfl, rfl, rfl⟩
  · exact ⟨rfl, rfl, .refl _⟩

theorem same_settleCaughtUpWaiters (task : LedgerTask M C) :
    task.SameWire task.settleCaughtUpWaiters := by
  rw [settleCaughtUpWaiters]
  split
  · exact ⟨rfl, rfl, .refl _⟩
  · exact same_answerAll task

theorem SameWire.trans {task'' : LedgerTask M C} (h : task.SameWire task')
    (h' : task'.SameWire task'') : task.SameWire task'' :=
  ⟨h'.conn.trans h.conn, h'.outbox.trans h.outbox, h.ledger.trans h'.ledger⟩

theorem same_retire (task : LedgerTask M C) (removes : List Topic) :
    task.ledger.SameLeases (task.retire removes).ledger := by
  rw [retire]
  split
  · exact .refl _
  split
  · exact .refl _
  · exact ⟨fun _ => rfl, rfl, rfl⟩

theorem exists_retire {sent : List (Mutate C)} (hconn : task.conn = some sent)
    (hleases : ¬task.ledger.leases.entries.isEmpty = true) (removes : List Topic) :
    ∃ waves : List (QueuedWave C), (task.retire removes).outbox = task.outbox ++ waves ∧
      (task.retire removes).conn = some sent ∧
      (∀ wave ∈ waves, wave.lease = none ∧ wave.mutate.adds = []) ∧
      waves.flatMap (fun wave => wave.mutate.removes) = removes := by
  rw [retire, if_neg hleases, hconn]
  split
  · rename_i hnone
    have hremoves : removes = [] := by simpa using hnone
    exact ⟨[], (List.append_nil _).symm, hconn, by simp, by simp [hremoves]⟩
  · refine ⟨_, rfl, rfl, ?_, ?_⟩
    · intro wave hwave
      obtain ⟨_, _, rfl⟩ := List.mem_map.mp hwave
      exact ⟨rfl, rfl⟩
    · have hflatten : (chunkByBudget task.ledger.chunkCap task.ledger.chunkBytes topicWireCost
          removes).flatten = removes := flatten_chunkByBudget removes
      rw [List.flatMap_def, List.map_map]
      exact (congrArg List.flatten (List.zipIdx_map_fst 0 _)).trans hflatten

section Retire

variable {r : LedgerTask M C × List Topic}

theorem Dropped.mem_removes (hdropped : task.Dropped [] r) (h : task.Queued) :
    topic ∈ r.2 ↔ task.ledger.Leased topic ∧ ¬r.1.ledger.Leased topic := by
  rw [hdropped.releases.removes, h.sound.leased_iff, hdropped.queued.sound.leased_iff]
  simp

theorem Dropped.covered_iff (hdropped : task.Dropped [] r) (h : task.Queued)
    (hcovered : task.Covered) (hconn : task.conn.isSome = true) {waves : List (QueuedWave C)}
    (hadds : ∀ wave ∈ waves, wave.lease = none ∧ wave.mutate.adds = [])
    (hremoves : waves.flatMap (fun wave => wave.mutate.removes) = r.2) :
    (∀ topic, subscribed (task.staying r.1.ledger ++ waves.map QueuedWave.mutate) topic = true ↔
      r.1.ledger.Leased topic) ↔ task.KeepsAdds r.1 := by
  have hsub (topic : Topic) :
      subscribed (task.staying r.1.ledger ++ waves.map QueuedWave.mutate) topic = true ↔
        subscribed (task.staying r.1.ledger) topic = true ∧ topic ∉ r.2 := by
    rw [subscribed_append_removes, List.flatMap_map, hremoves]
    intro wave hwave
    obtain ⟨queued, hqueued, rfl⟩ := List.mem_map.mp hwave
    exact (hadds queued hqueued).2
  constructor
  · intro hafter _ lease topics floors hasked hstays topic htopic
    have hleased : r.1.ledger.Leased topic :=
      leased_of_asked ((hdropped.asked lease hstays).trans hasked) htopic
    exact ((hsub topic).mp ((hafter topic).mpr hleased)).1
  · intro hkeeps topic
    rw [hsub]
    constructor
    · rintro ⟨hstaying, hnot⟩
      by_contra hunleased
      refine hnot ((hdropped.mem_removes h).mpr ⟨(hcovered hconn topic).mp ?_, hunleased⟩)
      refine subscribed_of_filter ?_ hstaying
      intro wave hwave hgone
      cases hlease : wave.lease with
      | some lease => exact (h.adds wave hwave lease hlease).2
      | none =>
        rw [hlease] at hgone
        cases hgone
    · intro hleased
      obtain ⟨lease, topics, floors, hasked, htopic⟩ := exists_asked_of_leased hleased
      have hstays : (r.1.ledger.asked lease).isSome = true := by rw [hasked]; rfl
      have hbefore := (hdropped.asked lease hstays).symm.trans hasked
      exact ⟨hkeeps hconn lease topics floors hbefore hstays topic htopic,
        fun hmem => ((hdropped.mem_removes h).mp hmem).2 hleased⟩

theorem Dropped.retire (hdropped : task.Dropped [] r) (h : task.Queued) (hcovered : task.Covered) :
    (r.1.retire r.2).Queued ∧
      ((r.1.retire r.2).Covered ↔ task.KeepsAdds (r.1.retire r.2)) := by
  have hsame := same_retire r.1 r.2
  have hsound := hdropped.queued.sound.same hsame
  have hkeeps : task.KeepsAdds (r.1.retire r.2) ↔ task.KeepsAdds r.1 := by
    simp only [KeepsAdds, staying, hsame.asked]
  rw [hkeeps]
  by_cases hleases : r.1.ledger.leases.entries.isEmpty = true
  · have hnone := HashMap.isEmpty_entries_iff.mp hleases
    rw [LedgerTask.retire, if_pos hleases]
    refine ⟨⟨hdropped.queued.sound, fun _ => rfl, by simp⟩, iff_of_true ?_ ?_⟩
    · intro hlive
      cases hlive
    · intro _ lease topics floors _ hstays
      rw [Ledger.asked, hnone] at hstays
      cases hstays
  · cases hconn : task.conn with
    | none =>
      have hdead : r.1.conn = none := hdropped.conn.trans hconn
      have hretire : r.1.retire r.2 = r.1 := by
        rw [LedgerTask.retire, if_neg hleases, hdead]
        exact if_pos (Bool.or_true _)
      rw [hretire]
      refine ⟨hdropped.queued, iff_of_true ?_ ?_⟩
      · intro hlive
        rw [hdead] at hlive
        cases hlive
      · intro hlive
        rw [hconn] at hlive
        cases hlive
    | some sent =>
      obtain ⟨waves, houtbox, hlive, hwaves, hremoves⟩ :=
        exists_retire (hdropped.conn.trans hconn) hleases r.2
      have honWire : (r.1.retire r.2).onWire =
          task.staying r.1.ledger ++ waves.map QueuedWave.mutate := by
        rw [onWire, hlive, houtbox, hdropped.outbox, staying, hconn, List.map_append,
          List.append_assoc]
      refine ⟨⟨hsound, ?_, ?_⟩, ?_⟩
      · intro hdead
        rw [hlive] at hdead
        cases hdead
      · intro wave hwave lease hlease
        rw [houtbox] at hwave
        rw [hsame.asked]
        cases List.mem_append.mp hwave with
        | inl hmem => exact hdropped.queued.adds wave hmem lease hlease
        | inr hmem =>
          rw [(hwaves wave hmem).1] at hlease
          cases hlease
      · rw [← hdropped.covered_iff h hcovered (by rw [hconn]; rfl) hwaves hremoves, Covered,
          honWire, hlive]
        simp only [hsame.leased_iff, Option.isSome_some, true_implies]

end Retire

theorem Queued.dropAndRetire (h : task.Queued) (hcovered : task.Covered) (dropped : List LeaseId) :
    (task.dropAndRetire order W dropped).Queued ∧
      ((task.dropAndRetire order W dropped).Covered ↔
        task.KeepsAdds (task.dropAndRetire order W dropped)) := by
  have hdropped : task.Dropped [] (task.dropLeases order W dropped) :=
    h.dropLeasesFrom dropped []
  rw [LedgerTask.dropAndRetire]
  dsimp only
  generalize task.dropLeases order W dropped = r at hdropped ⊢
  have hsettled := (same_settleIdleWaiters (r.1.retire r.2)).trans (same_settleCaughtUpWaiters _)
  rw [hsettled.covered_iff, (SameWire.refl task).keepsAdds_iff hsettled]
  obtain ⟨hqueued, hiff⟩ := hdropped.retire h hcovered
  exact ⟨hsettled.queued hqueued, hiff⟩

end Drop

section Waves

theorem adds_chunkWaves (ledger : Ledger M C) (adds : List (Topic × C)) :
    (ledger.chunkWaves adds).1.flatMap (fun chunk => chunk.mutate.adds) = adds := by
  have hflatten : (chunkByBudget ledger.chunkCap ledger.chunkBytes (fun add => topicWireCost add.1)
      adds).flatten = adds := flatten_chunkByBudget adds
  rw [Ledger.chunkWaves]
  dsimp only
  rw [List.flatMap_def, List.map_map]
  exact (congrArg List.flatten (List.zipIdx_map_fst 0 _)).trans hflatten

theorem removes_chunkWaves {ledger : Ledger M C} {adds : List (Topic × C)}
    {chunk : Ledger.ChunkWave C} (h : chunk ∈ (ledger.chunkWaves adds).1) :
    chunk.mutate.removes = [] := by
  obtain ⟨_, _, rfl⟩ := List.mem_map.mp h
  rfl

theorem adds_planWaves (ledger : Ledger M C) (plan : ReconnectPlan C) :
    (planWaves ledger plan).1.flatMap (fun wave => wave.2.mutate.adds) = plan.addSets.flatten := by
  have hfold (reissues : List (Reissue C))
      (s : List (WaveOwner × Ledger.ChunkWave C) × Ledger M C) :
      (reissues.foldl addReissue s).1.flatMap (fun wave => wave.2.mutate.adds) =
        s.1.flatMap (fun wave => wave.2.mutate.adds) ++ reissues.flatMap Reissue.adds := by
    induction reissues generalizing s with
    | nil => simp
    | cons reissue reissues ih =>
      rw [List.foldl_cons, ih, addReissue]
      dsimp only
      rw [List.flatMap_append, List.flatMap_map, adds_chunkWaves, List.flatMap_cons,
        List.append_assoc]
  rw [planWaves]
  dsimp only
  rw [hfold, List.flatMap_map, adds_chunkWaves, ReconnectPlan.addSets, List.flatten_cons,
    List.flatMap_def]

theorem removes_planWaves (ledger : Ledger M C) (plan : ReconnectPlan C) :
    ∀ wave ∈ (planWaves ledger plan).1, wave.2.mutate.removes = [] := by
  have hfold (reissues : List (Reissue C))
      (s : List (WaveOwner × Ledger.ChunkWave C) × Ledger M C)
      (hs : ∀ wave ∈ s.1, wave.2.mutate.removes = []) :
      ∀ wave ∈ (reissues.foldl addReissue s).1, wave.2.mutate.removes = [] := by
    induction reissues generalizing s with
    | nil => exact hs
    | cons reissue reissues ih =>
      apply ih
      intro wave hwave
      cases List.mem_append.mp hwave with
      | inl hmem => exact hs wave hmem
      | inr hmem =>
        obtain ⟨chunk, hchunk, rfl⟩ := List.mem_map.mp hmem
        exact removes_chunkWaves hchunk
  refine hfold plan.reissues _ ?_
  intro wave hwave
  obtain ⟨chunk, hchunk, rfl⟩ := List.mem_map.mp hwave
  exact removes_chunkWaves hchunk

theorem mem_addSets_iff {B : TransportBinding C} {ledger : Ledger M C} {plan : ReconnectPlan C}
    (hledger : ledger.WellFormed) (hplan : ledger.reconnectPlan B = some plan) :
    topic ∈ plan.addSets.flatten.map Prod.fst ↔ ledger.Leased topic := by
  obtain ⟨hresume, hreissues, _⟩ := eqs_of_reconnectPlan hplan
  rw [hledger.leased_iff, ← HashMap.containsKey_eq_isSome_get]
  constructor
  · intro hmem
    obtain ⟨add, hadd, rfl⟩ := List.mem_map.mp hmem
    obtain ⟨adds, hadds, hadd⟩ := List.mem_flatten.mp hadd
    exact leased_of_mem_addSets hledger hresume hreissues hadds hadd
  · intro htopic
    obtain ⟨_, _, hadds, _⟩ := exists_addsOnly hledger hresume hreissues htopic
    exact hadds.mem

end Waves

section Quiet

theorem Queued.onSameWire (h : task.Queued) (hcovered : task.Covered) (hsame : task.SameWire task') :
    task'.Queued ∧ (task'.Covered ↔ task.KeepsAdds task') := by
  refine ⟨hsame.queued h, iff_of_true (hsame.covered hcovered) (h.keepsAdds hcovered ?_)⟩
  intro lease hlease
  rw [hsame.ledger.asked]
  exact hlease

theorem Queued.offWire (h : task.Queued) (hcovered : task.Covered) (hconn : task'.conn = none)
    (houtbox : task'.outbox = []) (hsound : task'.ledger.Sound)
    (hkept : ∀ lease, (task.ledger.asked lease).isSome = true →
      (task'.ledger.asked lease).isSome = true) :
    task'.Queued ∧ (task'.Covered ↔ task.KeepsAdds task') := by
  refine ⟨⟨hsound, fun _ => houtbox, ?_⟩, iff_of_true ?_ (h.keepsAdds hcovered hkept)⟩
  · intro wave hwave
    rw [houtbox] at hwave
    cases hwave
  · intro hlive
    rw [hconn] at hlive
    cases hlive

theorem Queued.flushOutbox (h : task.Queued) (hcovered : task.Covered) (n : Nat) :
    (task.flushOutbox n).Queued ∧
      ((task.flushOutbox n).Covered ↔ task.KeepsAdds (task.flushOutbox n)) := by
  have hkeeps : task.KeepsAdds (task.flushOutbox n) := by
    apply h.keepsAdds hcovered
    intro lease hlease
    rw [LedgerTask.flushOutbox]
    split <;> exact hlease
  rw [LedgerTask.flushOutbox] at hkeeps ⊢
  cases hconn : task.conn with
  | none => exact ⟨h, iff_of_true hcovered (h.keepsAdds hcovered fun _ hlease => hlease)⟩
  | some sent =>
    rw [hconn] at hkeeps
    refine ⟨⟨h.sound, ?_, ?_⟩, iff_of_true ?_ hkeeps⟩
    · intro hdead
      cases hdead
    · intro wave hwave
      exact h.adds wave (List.mem_of_mem_drop hwave)
    · intro _ topic
      rw [← hcovered (by rw [hconn]; rfl) topic, onWire, onWire, hconn]
      dsimp only [Option.getD_some]
      rw [List.append_assoc, ← List.map_append, List.take_append_drop]

end Quiet

section Lease

variable {subs : List (Topic × C)} {tx : Sender M}

theorem asked_register {ledger : Ledger M C} {lease : LeaseId}
    (h : (ledger.asked lease).isSome = true) :
    ((ledger.register (subs.map Prod.fst) (.ofList subs) tx).1.asked lease).isSome = true := by
  rw [Ledger.asked, Ledger.register]
  dsimp only
  rw [HashMap.get_insert]
  split
  · rfl
  · exact h

theorem Queued.registerLease (h : task.Queued) {chunks queued : List (Ledger.ChunkWave C)}
    (hchunks : ∀ chunk ∈ queued, chunk.mutate.removes = [])
    (hwire : task.conn.isSome = true → ∀ topic, subscribed task.onWire topic = true ∨
        topic ∈ (queued.flatMap fun chunk => chunk.mutate.adds).map Prod.fst ↔
      topic ∈ subs.map Prod.fst ∨ task.ledger.Leased topic) :
    (task.registerLease subs tx chunks queued).Queued ∧
      (task.registerLease subs tx chunks queued).Covered := by
  have hsame : (task.ledger.register (subs.map Prod.fst) (.ofList subs) tx).1.SameLeases
      (task.registerLease subs tx chunks queued).ledger := ⟨fun _ => rfl, rfl, rfl⟩
  have hconn : (task.registerLease subs tx chunks queued).conn = task.conn := rfl
  have houtbox : (task.registerLease subs tx chunks queued).outbox =
      if task.conn.isSome then
        task.outbox ++ queued.map fun chunk =>
          ⟨some ⟨task.ledger.nextLease⟩, chunk.id, chunk.mutate⟩
      else task.outbox := rfl
  refine ⟨⟨(h.sound.register subs tx).same hsame, ?_, ?_⟩, ?_⟩
  · intro hdead
    rw [hconn] at hdead
    rw [houtbox, hdead]
    exact h.idle hdead
  · intro wave hwave lease hlease
    rw [hsame.asked]
    rw [houtbox] at hwave
    split at hwave
    · cases List.mem_append.mp hwave with
      | inl hmem =>
        obtain ⟨hlive, hremoves⟩ := h.adds wave hmem lease hlease
        exact ⟨asked_register hlive, hremoves⟩
      | inr hmem =>
        obtain ⟨chunk, hchunk, rfl⟩ := List.mem_map.mp hmem
        cases hlease
        refine ⟨?_, hchunks chunk hchunk⟩
        rw [Ledger.isSome_asked, Ledger.register]
        dsimp only
        rw [HashMap.get_insert, if_pos BEq.rfl]
        rfl
    · obtain ⟨hlive, hremoves⟩ := h.adds wave hwave lease hlease
      exact ⟨asked_register hlive, hremoves⟩
  · intro hlive topic
    rw [hconn] at hlive
    have honWire : (task.registerLease subs tx chunks queued).onWire =
        task.onWire ++ queued.map Ledger.ChunkWave.mutate := by
      rw [onWire, hconn, houtbox, if_pos hlive, List.map_append, ← List.append_assoc, List.map_map]
      rfl
    rw [honWire, hsame.leased_iff, h.sound.leased_register, subscribed_append_adds,
      List.flatMap_map]
    · exact hwire hlive topic
    · intro wave hwave
      obtain ⟨chunk, hchunk, rfl⟩ := List.mem_map.mp hwave
      exact hchunks chunk hchunk

theorem kept_registerLease {ledger : Ledger M C} (hsame : ledger.SameLeases task.ledger)
    (chunks queued : List (Ledger.ChunkWave C)) {lease : LeaseId}
    (h : (ledger.asked lease).isSome = true) :
    ((task.registerLease subs tx chunks queued).ledger.asked lease).isSome = true := by
  rw [← hsame.asked] at h
  exact asked_register h

theorem Queued.coldLease (h : task.Queued) (hconn : task.conn = none) {ledger : Ledger M C}
    (hsame : task.ledger.SameLeases ledger) (hleases : ledger.leases.entries.isEmpty = true)
    {initial : Ledger.ChunkWave C}
    {rest : List (Ledger.ChunkWave C)}
    (hremoves : ∀ chunk ∈ initial :: rest, chunk.mutate.removes = [])
    (hadds : (initial :: rest).flatMap (fun chunk => chunk.mutate.adds) = subs)
    (deferred : List (Cmd C)) :
    ({ task with ledger, deferred, conn := some [initial.mutate] }.registerLease subs tx
        (initial :: rest) rest).Queued ∧
      ({ task with ledger, deferred, conn := some [initial.mutate] }.registerLease subs tx
        (initial :: rest) rest).Covered := by
  have houtbox := h.idle hconn
  have hopened : { task with ledger, deferred, conn := some [initial.mutate] }.Queued := by
    refine ⟨h.sound.same hsame, ?_, ?_⟩
    · intro hdead
      cases hdead
    · intro wave hwave
      rw [show _ = [] from houtbox] at hwave
      cases hwave
  apply hopened.registerLease
  · exact fun chunk hchunk => hremoves chunk (List.mem_cons_of_mem _ hchunk)
  · intro _ topic
    have hnone : ¬ledger.Leased topic := by
      intro hleased
      obtain ⟨lease, state, hstate, _⟩ := hleased
      rw [HashMap.isEmpty_entries_iff.mp hleases lease] at hstate
      cases hstate
    have hinitial : subscribed [initial.mutate] topic = true ↔ _ :=
      subscribed_adds (by simpa using hremoves initial List.mem_cons_self)
    have honWire : { task with ledger, deferred, conn := some [initial.mutate] }.onWire =
        [initial.mutate] := by
      rw [onWire, houtbox]
      rfl
    rw [honWire, hinitial, ← hadds, List.flatMap_cons, List.map_append, List.mem_append]
    simp [hnone]

theorem Queued.lease (h : task.Queued) (hcovered : task.Covered) (subs : List (Topic × C))
    (tx : Sender M) (dial : Dial C) : (task.lease subs tx dial).Queued ∧
      ((task.lease subs tx dial).Covered ↔ task.KeepsAdds (task.lease subs tx dial)) := by
  have hadds := adds_chunkWaves task.ledger subs
  have hremoves (chunk : Ledger.ChunkWave C) (h : chunk ∈ (task.ledger.chunkWaves subs).1) :
      chunk.mutate.removes = [] := removes_chunkWaves h
  have hsame : task.ledger.SameLeases (task.ledger.chunkWaves subs).2 := ⟨fun _ => rfl, rfl, rfl⟩
  have hkeeps {task' : LedgerTask M C} (hgood : task'.Queued ∧ task'.Covered)
      (hkept : ∀ lease, (task.ledger.asked lease).isSome = true →
        (task'.ledger.asked lease).isSome = true) :
      task'.Queued ∧ (task'.Covered ↔ task.KeepsAdds task') :=
    ⟨hgood.1, iff_of_true hgood.2 (h.keepsAdds hcovered hkept)⟩
  rw [LedgerTask.lease]
  cases hwaves : task.ledger.chunkWaves subs with
  | mk chunks ledger =>
    rw [hwaves] at hadds hremoves hsame
    -- with a wire all waves are queued, and without one none is
    have hwarm : ({ task with ledger }.registerLease subs tx chunks chunks).Queued ∧
        ({ task with ledger }.registerLease subs tx chunks chunks).Covered := by
      have hnext : task.SameWire { task with ledger } := ⟨rfl, rfl, hsame⟩
      refine (hnext.queued h).registerLease hremoves fun hlive topic => ?_
      rw [hadds, or_comm]
      exact or_congr_right (hnext.covered hcovered hlive topic)
    cases chunks with
    | nil => exact hkeeps hwarm fun _ => kept_registerLease hsame _ _
    | cons initial rest =>
      dsimp only
      split
      · rename_i hcold
        rw [Bool.and_eq_true, Bool.and_eq_true] at hcold
        have hconn : task.conn = none := Option.isNone_iff_eq_none.mp hcold.1.1
        cases dial.outcome with
        | opened =>
          exact hkeeps (h.coldLease hconn hsame hcold.1.2 hremoves hadds _)
            fun _ => kept_registerLease hsame _ _
        | failed _ => exact h.onSameWire hcovered ⟨rfl, rfl, hsame⟩
        | shutdown =>
          exact h.offWire hcovered rfl rfl (h.sound.same hsame) fun lease hlease =>
            (congrArg Option.isSome (hsame.asked lease)).trans hlease
        | suspended =>
          have hnext : task.SameWire ({ task with
              ledger, deferred := task.deferred ++ dial.absorbed } : LedgerTask M C).suspendPreempted :=
            ⟨rfl, rfl, hsame⟩
          refine hkeeps ((hnext.queued h).registerLease ?_ ?_) fun _ => kept_registerLease hsame _ _
          · exact fun chunk hchunk => hremoves chunk (List.mem_cons_of_mem _ hchunk)
          · intro hlive
            rw [hnext.conn, hconn] at hlive
            cases hlive
      · exact hkeeps hwarm fun _ => kept_registerLease hsame _ _

end Lease

section Reopen

theorem kept_dropLeasesFrom {fuel : Nat} {dropped : List LeaseId} (removes : List Topic)
    (hfree : ∀ lease ∈ dropped, ∀ wave ∈ task.outbox, wave.lease ≠ some lease) {lease : LeaseId}
    (hlease : lease ∉ dropped) (hasked : (task.ledger.asked lease).isSome = true) :
    ((dropLeasesFrom order W fuel task dropped removes).1.ledger.asked lease).isSome = true := by
  induction fuel generalizing task dropped removes with
  | zero => exact hasked
  | succ fuel ih =>
    rw [LedgerTask.dropLeasesFrom]
    cases hlast : dropped.getLast? with
    | none => exact hasked
    | some lease' =>
      have hmem : lease' ∈ dropped := List.mem_of_getLast? hlast
      have hpurge : task.purge lease' = [] := by
        rw [purge, List.filter_eq_nil_iff.mpr, List.map_nil]
        intro wave hwave heq
        exact hfree lease' hmem wave hwave (eq_of_beq heq)
      have hsame : (task.ledger.deref order W dropped.dropLast lease' []).1.2 =
          dropped.dropLast := by
        cases hstate : task.ledger.leases.get lease' with
        | none => rw [Ledger.deref_of_none hstate]
        | some state =>
          rw [Ledger.deref_of_some hstate]
          have hreleased : task.ledger.released order lease' [] = [] := by
            rw [Ledger.released, List.filter_eq_nil_iff.mpr, List.flatMap_nil]
            intro wave _ hforgets
            exact Bool.false_ne_true (Bool.and_eq_true_iff.mp hforgets).2
          rw [hreleased]
          rfl
      have hne : ¬(lease' == lease) = true := by
        intro heq
        rw [eq_of_beq heq] at hmem
        exact hlease hmem
      dsimp only
      rw [hpurge]
      apply ih
      · intro dropped' hdropped' wave hwave
        rw [hsame] at hdropped'
        exact hfree dropped' (List.dropLast_subset _ hdropped') wave (List.mem_filter.mp hwave).1
      · rw [hsame]
        exact fun h => hlease (List.dropLast_subset _ h)
      · dsimp only
        rw [Ledger.asked_deref, if_neg hne]
        exact hasked

theorem kept_dropAndRetire {dropped : List LeaseId}
    (hfree : ∀ lease ∈ dropped, ∀ wave ∈ task.outbox, wave.lease ≠ some lease) {lease : LeaseId}
    (hlease : lease ∉ dropped) (hasked : (task.ledger.asked lease).isSome = true) :
    ((task.dropAndRetire order W dropped).ledger.asked lease).isSome = true := by
  have hkept : ((task.dropLeases order W dropped).1.ledger.asked lease).isSome = true :=
    kept_dropLeasesFrom [] hfree hlease hasked
  rw [LedgerTask.dropAndRetire]
  dsimp only
  generalize task.dropLeases order W dropped = r at hkept ⊢
  have hsettled := (same_settleIdleWaiters (r.1.retire r.2)).trans (same_settleCaughtUpWaiters _)
  rw [hsettled.ledger.asked, (same_retire r.1 r.2).asked]
  exact hkept

theorem asked_of_mem_planWaves {B : TransportBinding C} {ledger : Ledger M C}
    {plan : ReconnectPlan C} (hplan : ledger.reconnectPlan B = some plan) :
    ∀ lease chunk, (.lease lease, chunk) ∈ (planWaves ledger plan).1 →
      (ledger.asked lease).isSome = true := by
  intro lease chunk h
  have hfold (reissues : List (Reissue C))
      (s : List (WaveOwner × Ledger.ChunkWave C) × Ledger M C)
      (hmem : (.lease lease, chunk) ∈ (reissues.foldl addReissue s).1) :
      (.lease lease, chunk) ∈ s.1 ∨ ∃ reissue ∈ reissues, reissue.lease = lease := by
    induction reissues generalizing s with
    | nil => exact .inl hmem
    | cons reissue reissues ih =>
      cases ih (addReissue s reissue) hmem with
      | inr hlater =>
        obtain ⟨reissue', hreissue', hlease⟩ := hlater
        exact .inr ⟨reissue', List.mem_cons_of_mem _ hreissue', hlease⟩
      | inl hnow =>
        refine (List.mem_append.mp hnow).imp_right fun hchunk => ?_
        obtain ⟨_, _, heq⟩ := List.mem_map.mp hchunk
        exact ⟨reissue, List.mem_cons_self, WaveOwner.lease.inj (congrArg Prod.fst heq)⟩
  obtain ⟨_, hreissues, _⟩ := eqs_of_reconnectPlan hplan
  cases hfold plan.reissues _ h with
  | inl hresumed =>
    obtain ⟨_, _, heq⟩ := List.mem_map.mp hresumed
    cases congrArg Prod.fst heq
  | inr hreissued =>
    obtain ⟨reissue, hreissue, rfl⟩ := hreissued
    rw [hreissues] at hreissue
    obtain ⟨carried, hcarried, hsome⟩ := List.mem_filterMap.mp hreissue
    obtain ⟨_, hsome⟩ := Option.ite_none_left_eq_some.mp hsome
    obtain ⟨⟨draft, idx⟩, hdraft, rfl⟩ := List.mem_map.mp hcarried
    obtain ⟨state, hstate, _⟩ :=
      exists_state_of_mem_drafts (List.mem_of_getElem? (List.mem_zipIdx_iff_getElem?.mp hdraft))
    rw [← Option.some.inj hsome, Ledger.isSome_asked, hstate]
    rfl

theorem Queued.reopened (h : task.Queued) (hconn : task.conn = none) {plan : ReconnectPlan C}
    {ledger : Ledger M C} {initial : WaveOwner × Ledger.ChunkWave C}
    {rest : List (WaveOwner × Ledger.ChunkWave C)}
    (hplan : task.ledger.reconnectPlan W.toTransportBinding = some plan)
    (hwaves : planWaves task.ledger plan = (initial :: rest, ledger)) (deferred : List (Cmd C)) :
    ({ task with ledger, deferred }.reopened order W plan.orphans initial rest).Queued ∧
      ({ task with ledger, deferred }.reopened order W plan.orphans initial rest).Covered := by
  have hmints := mints_of_planWaves hwaves
  have hsame : task.ledger.SameLeases ledger := by
    rw [hmints.only]
    exact ⟨fun _ => rfl, rfl, rfl⟩
  have hadds := adds_planWaves task.ledger plan
  have hremoves := removes_planWaves task.ledger plan
  have hasked := asked_of_mem_planWaves hplan
  rw [hwaves] at hadds hremoves hasked
  dsimp only at hadds hremoves hasked
  rw [LedgerTask.reopened]
  dsimp only
  generalize hreleased : plan.orphans ++ (order.iterate
    ledger.pendingWaves.entries).flatMap (fun wave => wave.2.holds) = released
  have hpending (wave : WaveOwner × Ledger.ChunkWave C) (hmem : wave ∈ initial :: rest) :=
    get_pendingOf hmints.nodup hmem
  generalize pendingOf (initial :: rest) = pendingWaves at hpending ⊢
  have hpended : ledger.SameLeases { ledger with pendingWaves } := ⟨fun _ => rfl, rfl, rfl⟩
  have hcompleted : ledger.SameLeases
      ({ ledger with pendingWaves }.completeAll order W [] released).1 :=
    hpended.trans (Ledger.same_completeAll _ [] released)
  have hfree (lease : LeaseId)
      (hmem : lease ∈ ({ ledger with pendingWaves }.completeAll order W [] released).2) :=
    (Ledger.not_owns_of_mem_completeAll hmem).resolve_left List.not_mem_nil
  generalize { ledger with pendingWaves }.completeAll order W [] released = r at hcompleted hfree ⊢
  have hleases := hsame.trans hcompleted
  have houtbox : task.outbox ++ rest.map queuedOf = rest.map queuedOf := by
    rw [h.idle hconn, List.nil_append]
  rw [houtbox]
  -- a wave of the outbox belongs to a lease that has a wave in flight
  have htagged : ∀ wave ∈ rest.map queuedOf, ∀ lease, wave.lease = some lease →
      (r.1.asked lease).isSome = true ∧ lease ∉ r.2 ∧ wave.mutate.removes = [] := by
    intro wave hwave lease hlease
    obtain ⟨⟨owner, chunk⟩, hmem, rfl⟩ := List.mem_map.mp hwave
    have hin := List.mem_cons_of_mem initial hmem
    cases owner with
    | resume => cases hlease
    | lease owner =>
      cases hlease
      refine ⟨?_, ?_, hremoves _ hin⟩
      · rw [hleases.asked]
        exact hasked lease chunk hin
      · intro hdropped
        exact hfree lease hdropped ⟨chunk.id, _, hpending _ hin, rfl⟩
  have hopened : { task with
      ledger := r.1
      deferred
      conn := some [initial.2.mutate]
      outbox := rest.map queuedOf }.Queued := by
    refine ⟨h.sound.same hleases, ?_, ?_⟩
    · intro hdead
      cases hdead
    · intro wave hwave lease hlease
      obtain ⟨hlive, _, hnone⟩ := htagged wave hwave lease hlease
      exact ⟨hlive, hnone⟩
  have hcovered : { task with
      ledger := r.1
      deferred
      conn := some [initial.2.mutate]
      outbox := rest.map queuedOf }.Covered := by
    intro _ topic
    have honWire : { task with
        ledger := r.1
        deferred
        conn := some [initial.2.mutate]
        outbox := rest.map queuedOf }.onWire = (initial :: rest).map fun wave => wave.2.mutate := by
      rw [onWire, List.map_map]
      rfl
    rw [honWire, subscribed_adds, List.flatMap_map, hadds, mem_addSets_iff h.sound.toWellFormed hplan,
      hleases.leased_iff]
    intro wave hwave
    obtain ⟨planned, hplanned, rfl⟩ := List.mem_map.mp hwave
    exact hremoves planned hplanned
  obtain ⟨hqueued, hiff⟩ := hopened.dropAndRetire hcovered r.2
  refine ⟨hqueued, hiff.mpr (keepsAdds_of_staying hcovered (staying_eq ?_))⟩
  intro wave hwave lease hlease
  obtain ⟨hlive, hstays, _⟩ := htagged wave hwave lease hlease
  refine kept_dropAndRetire ?_ hstays hlive
  intro dropped hdropped wave' hwave' hlease'
  exact (htagged wave' hwave' dropped hlease').2.1 hdropped

theorem Queued.reopen (h : task.Queued) (hcovered : task.Covered) (hconn : task.conn = none)
    (dial : Dial C) : (task.reopen order W dial).Queued ∧
      ((task.reopen order W dial).Covered ↔ task.KeepsAdds (task.reopen order W dial)) := by
  have hdead (task' : LedgerTask M C) : task.KeepsAdds task' := by
    intro hlive
    rw [hconn] at hlive
    cases hlive
  rw [LedgerTask.reopen]
  cases hplan : task.ledger.reconnectPlan W.toTransportBinding with
  | none => exact h.onSameWire hcovered (same_answerAll task)
  | some plan =>
    dsimp only
    cases hwaves : planWaves task.ledger plan with
    | mk waves ledger =>
      have hsame : task.ledger.SameLeases ledger := by
        rw [(mints_of_planWaves hwaves).only]
        exact ⟨fun _ => rfl, rfl, rfl⟩
      cases waves with
      | nil => exact h.onSameWire hcovered ⟨rfl, rfl, hsame⟩
      | cons initial rest =>
        have hshut (task' : LedgerTask M C) (hledger : task'.ledger = ledger) :
            task'.shutdown.Queued ∧ (task'.shutdown.Covered ↔ task.KeepsAdds task'.shutdown) := by
          subst hledger
          exact h.offWire hcovered rfl rfl (h.sound.same hsame) fun lease hlease =>
            (congrArg Option.isSome (hsame.asked lease)).trans hlease
        dsimp only
        cases dial.outcome with
        | opened =>
          obtain ⟨hqueued, hafter⟩ := h.reopened hconn hplan hwaves (task.deferred ++ dial.absorbed)
          exact ⟨hqueued, iff_of_true hafter (hdead _)⟩
        | suspended => exact h.onSameWire hcovered ⟨rfl, rfl, hsame⟩
        | shutdown => exact hshut _ rfl
        | failed retryable =>
          cases retryable with
          | true => exact h.onSameWire hcovered ⟨rfl, rfl, hsame⟩
          | false => exact hshut _ rfl

end Reopen

section Rounds

theorem Queued.resume (h : task.Queued) (hcovered : task.Covered) (waiter : Nat) (dial : Dial C) :
    (task.resume order W waiter dial).Queued ∧
      ((task.resume order W waiter dial).Covered ↔
        task.KeepsAdds (task.resume order W waiter dial)) := by
  have hparked : task.SameWire { task with
      suspended := false, resumeNotify := task.resumeNotify ++ [waiter] } := ⟨rfl, rfl, .refl _⟩
  rw [LedgerTask.resume]
  dsimp only
  split
  · exact h.onSameWire hcovered (hparked.trans (same_settleCaughtUpWaiters _))
  split
  · exact h.onSameWire hcovered (hparked.trans (same_settleIdleWaiters _))
  · rename_i hconn _
    obtain ⟨hqueued, hiff⟩ := (hparked.queued h).reopen (hparked.covered hcovered)
      (Option.not_isSome_iff_eq_none.mp hconn) dial
    exact ⟨hqueued, hiff.trans (hparked.keepsAdds_iff (.refl _))⟩

theorem Queued.handle (h : task.Queued) (hcovered : task.Covered) (cmd : Cmd C) (dial : Dial C) :
    (task.handle order W cmd dial).Queued ∧
      ((task.handle order W cmd dial).Covered ↔ task.KeepsAdds (task.handle order W cmd dial)) := by
  cases cmd with
  | lease subs _ depth received => exact h.lease hcovered subs _ dial
  | deref id => exact h.dropAndRetire hcovered [id]
  | suspend => exact h.offWire hcovered rfl rfl h.sound fun _ hlease => hlease
  | resume waiter => exact h.resume hcovered waiter dial

theorem Queued.wireEvent (h : task.Queued) (hcovered : task.Covered) (event : WireEvent M) :
    (task.wireEvent order W event).Queued ∧
      ((task.wireEvent order W event).Covered ↔
        task.KeepsAdds (task.wireEvent order W event)) := by
  have hrouted : task.SameWire { task with ledger := (task.ledger.route order W event).1 } :=
    ⟨rfl, rfl, Ledger.same_route _ event⟩
  obtain ⟨hqueued, hiff⟩ := (hrouted.queued h).dropAndRetire (hrouted.covered hcovered)
    (task.ledger.route order W event).2
  have hdropped := And.intro hqueued (hiff.trans (hrouted.keepsAdds_iff (.refl _)))
  cases event with
  | catchUpComplete mutateId =>
    cases mutateId with
    | zero => exact h.offWire hcovered rfl rfl h.sound fun _ hlease => hlease
    | succ _ => exact hdropped
  | started => exact hdropped
  | topicsLive _ => exact hdropped
  | messages _ _ _ => exact hdropped

theorem Queued.wireDied (h : task.Queued) (hcovered : task.Covered) :
    task.wireDied.Queued ∧ (task.wireDied.Covered ↔ task.KeepsAdds task.wireDied) := by
  have hsettled := same_settleIdleWaiters ({ task with outbox := [], conn := none })
  refine h.offWire hcovered hsettled.conn hsettled.outbox (h.sound.same hsettled.ledger) ?_
  intro lease hlease
  rw [LedgerTask.wireDied, hsettled.ledger.asked]
  exact hlease

theorem Queued.perform (h : task.Queued) (hcovered : task.Covered) (dial : Dial C)
    {step : Step M C} (hwakes : task.wakesFor step = true) :
    (task.perform order W dial step).Queued ∧
      ((task.perform order W dial step).Covered ↔
        task.KeepsAdds (task.perform order W dial step)) := by
  cases step with
  | cmd cmd =>
    cases cmd with
    | none => exact h.offWire hcovered rfl rfl h.sound fun _ hlease => hlease
    | some cmd => exact h.handle hcovered cmd dial
  | wire event =>
    cases event with
    | none => exact h.wireDied hcovered
    | some event => exact h.wireEvent hcovered event
  | retry => exact h.onSameWire hcovered (.refl task)
  | reconnect =>
    rw [wakesFor, Bool.and_eq_true, Bool.and_eq_true] at hwakes
    exact h.reopen hcovered (Option.isNone_iff_eq_none.mp hwakes.1.1) dial

theorem Queued.round (h : task.Queued) (hcovered : task.Covered) (hround : Round W task task') :
    task'.Queued ∧ (task'.Covered ↔ task.KeepsAdds task') := by
  cases hround with
  | flush n _ => exact h.flushOutbox hcovered n
  | next order dial step _ _ hwakes => exact h.perform hcovered dial hwakes
  | @deferred order dial cmd cmds _ _ =>
    have htaken : task.SameWire { task with deferred := cmds } := ⟨rfl, rfl, .refl _⟩
    obtain ⟨hqueued, hiff⟩ := (htaken.queued h).handle (htaken.covered hcovered) cmd dial
    exact ⟨hqueued, hiff.trans (htaken.keepsAdds_iff (.refl _))⟩

theorem queued_initial (suspended : Bool) (chunkCap chunkBytes : Nat) :
    (initial suspended chunkCap chunkBytes : LedgerTask M C).Queued := by
  refine ⟨⟨⟨?_, ?_, ?_⟩, ?_⟩, fun _ => rfl, ?_⟩
  · intro lease state hstate
    cases hstate
  · intro topic lease
    refine iff_of_false ?_ ?_
    · rintro ⟨_, hholders, _⟩
      cases hholders
    · rintro ⟨_, hstate, _⟩
      cases hstate
  · intro topic holders hholders
    cases hholders
  · intro lease hlease
    cases hlease
  · intro wave hwave
    cases hwave

end Rounds

/-- The wire stays covered in every run whose rounds keep the adds of the leases that stay, and the
first round that does not leaves it uncovered. -/
theorem covered_iff_keepsAdds {suspended : Bool} {chunkCap chunkBytes : Nat}
    (hrun : Relation.ReflTransGen (fun task task' => Round W task task' ∧ task.KeepsAdds task')
      (initial suspended chunkCap chunkBytes) task) :
    task.Covered ∧ ∀ task', Round W task task' → (task'.Covered ↔ task.KeepsAdds task') := by
  have hinvariant : task.Queued ∧ task.Covered := by
    induction hrun with
    | refl =>
      refine ⟨queued_initial suspended chunkCap chunkBytes, fun hlive => ?_⟩
      cases hlive
    | tail _ hround ih =>
      obtain ⟨hqueued, hiff⟩ := ih.1.round ih.2 hround.1
      exact ⟨hqueued, hiff.mpr hround.2⟩
  exact ⟨hinvariant.2, fun task' hround => (hinvariant.1.round hinvariant.2 hround).2⟩

section Shared

def keepsAdds (task task' : LedgerTask M C) : Bool :=
  task.ledger.leases.entries.all fun (lease, state) =>
    (task'.ledger.asked lease).isNone ||
      state.topics.all fun topic => subscribed (task.staying task'.ledger) topic

theorem keepsAdds_of_all (h : task.keepsAdds task' = true) : task.KeepsAdds task' := by
  intro _ lease topics floors hasked hstays topic htopic
  obtain ⟨state, hstate, heq⟩ := Option.map_eq_some_iff.mp hasked
  cases heq
  have hkeeps := List.all_eq_true.mp h _ (HashMap.get_eq_some_iff.mp hstate)
  rw [Bool.or_eq_true, List.all_eq_true, Option.isNone_iff_eq_none] at hkeeps
  cases hkeeps with
  | inl hgone =>
    rw [hgone] at hstays
    cases hstays
  | inr hall => exact hall topic htopic

def keepsAllAdds (order : HashOrder) (W : WireBinding M C) (dial : Dial C) :
    LedgerTask M C → List (Step M C) → Bool
  | _, [] => true
  | task, step :: steps =>
    task.ready step && task.keepsAdds (task.perform order W dial step) &&
      keepsAllAdds order W dial (task.perform order W dial step) steps

theorem run_of_keepsAllAdds {start : LedgerTask M C} {dial : Dial C} {steps : List (Step M C)}
    (hrun : Relation.ReflTransGen (fun task task' => Round W task task' ∧ task.KeepsAdds task')
      start task)
    (h : task.keepsAllAdds order W dial steps = true) :
    Relation.ReflTransGen (fun task task' => Round W task task' ∧ task.KeepsAdds task') start
      (steps.foldl (fun task step => task.perform order W dial step) task) := by
  induction steps generalizing task with
  | nil => exact hrun
  | cons step steps ih =>
    rw [keepsAllAdds, Bool.and_eq_true, Bool.and_eq_true] at h
    exact ih (hrun.tail ⟨.of_ready dial h.1.1, keepsAdds_of_all h.1.2⟩) h.2

/-- A second lease of the topic, from further on, whose channel holds a single event. Its wave is
still queued when that event is offered. -/
def narrow : Step (fun _ => Topic × UInt64) UInt64 :=
  .cmd (some (.lease [([1], 5)] (List.cons_ne_nil _ _) 1 fun _ => some 0))

def sharing : LedgerTask (fun _ => Topic × UInt64) UInt64 :=
  [leased 1 0, narrow, .wire (some (.messages .group [([1], 3)] 1)),
    .wire (some (.topicsLive [[1]]))].foldl
    (fun task step => task.perform listed placed dialed step) (initial false 8 64)

/-- The next event finds the channel full. The second lease goes with its wave, and the topic stays
on the wire by the wave of the first one. -/
def unshared : LedgerTask (fun _ => Topic × UInt64) UInt64 :=
  sharing.perform listed placed dialed (.wire (some (.topicsLive [[1]])))

theorem covered_unshared :
    (sharing.conn.map List.length, sharing.outbox.map QueuedWave.lease) = (some 1, [some ⟨1⟩]) ∧
      sharing.ledger.leases.keys = [⟨0⟩, ⟨1⟩] ∧ unshared.ledger.leases.keys = [⟨0⟩] ∧
      sharing.KeepsAdds unshared ∧ unshared.Covered ∧
      ∀ task', Round placed unshared task' → (task'.Covered ↔ unshared.KeepsAdds task') := by
  have hrun := @run_of_keepsAllAdds _ _ listed placed (initial false 8 64) (initial false 8 64)
    dialed [leased 1 0, narrow, .wire (some (.messages .group [([1], 3)] 1)),
      .wire (some (.topicsLive [[1]]))] .refl (by decide +kernel)
  have hkeeps : sharing.KeepsAdds unshared := keepsAdds_of_all (by decide +kernel)
  have hround : Round placed sharing unshared := .of_ready dialed (by decide +kernel)
  exact ⟨by decide +kernel, by decide +kernel, by decide +kernel, hkeeps,
    covered_iff_keepsAdds (hrun.tail ⟨hround, hkeeps⟩)⟩

end Shared

section Crowded

/-- The wire dies under 65 leases of their own topics and two of a shared one, and comes up again. -/
def crowding : List (Step (fun _ => Topic × UInt64) UInt64) :=
  ((List.range 65).map fun i => leased (UInt8.ofNat i) 0) ++
    [leased 100 0, leased 100 5, .wire none, .reconnect]

def crowded : LedgerTask (fun _ => Topic × UInt64) UInt64 :=
  crowding.foldl (fun task step => task.perform listed placed dialed step)
    (initial false 1000 16777216)

def uncovered : LedgerTask (fun _ => Topic × UInt64) UInt64 :=
  (crowded.flushOutbox 64).perform listed placed dialed (.cmd (some (.deref ⟨65⟩)))

theorem not_covered_uncovered : uncovered.Reachable placed ∧ ¬uncovered.Covered := by
  obtain ⟨hready, hopen, hderef, hlive, hheld, hunsubscribed⟩ :
      readyAll listed placed dialed (initial false 1000 16777216) crowding = true ∧
        crowded.closed = false ∧
        (crowded.flushOutbox 64).ready (.cmd (some (.deref ⟨65⟩))) = true ∧
        uncovered.conn.isSome = true ∧
        ((uncovered.ledger.leases.get ⟨66⟩).any fun state => state.topics.contains [100]) = true ∧
        subscribed uncovered.onWire [100] = false := by
    decide +kernel
  have hcrowded : crowded.Reachable placed :=
    Reachable.performAll ⟨false, 1000, 16777216, .refl⟩ hready
  refine ⟨(hcrowded.tail (.flush 64 hopen)).tail (.of_ready dialed hderef), fun hcovered => ?_⟩
  obtain ⟨state, hstate, htopic⟩ := (Option.any_eq_true _ _).mp hheld
  have hsubscribed := (hcovered hlive [100]).mpr
    ⟨⟨66⟩, state, hstate, List.contains_iff_mem.mp htopic⟩
  rw [hunsubscribed] at hsubscribed
  cases hsubscribed

end Crowded

end LedgerTask

end LibXmtp.Bidi
