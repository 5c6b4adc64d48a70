import LibXmtp.Bidi.OwedCompletions
import LibXmtp.Bidi.ReconnectCoverage

namespace LibXmtp.Bidi

open LibXmtp.Data LibXmtp.Types
open LibXmtp.Subscriptions (chunkByBudget flatten_chunkByBudget topicWireCost)

variable {M : DeliveryKind → Type} {C : Type} {order : HashOrder} {W : WireBinding M C}

namespace Ledger

variable {ledger ledger' ledger'' : Ledger M C} {lease : LeaseId} {waves waves' : List WaveId}

def Minted (ledger : Ledger M C) : Prop :=
  ∀ id, (ledger.pendingWaves.get id).isSome = true → id.id < ledger.nextWave

theorem Minted.within (h : ledger.Minted) (hwithin : ledger.Within ledger') : ledger'.Minted := by
  intro id hid
  rw [hwithin.nextWave]
  exact h id (hwithin.waves id hid)

structure Mints (ledger ledger' : Ledger M C) (waves : List WaveId) : Prop where
  only : ledger' = { ledger with nextWave := ledger'.nextWave }
  le : ledger.nextWave ≤ ledger'.nextWave
  nodup : waves.Nodup
  bounds : ∀ id ∈ waves, ledger.nextWave ≤ id.id ∧ id.id < ledger'.nextWave

theorem Mints.append (h : ledger.Mints ledger' waves) (h' : ledger'.Mints ledger'' waves') :
    ledger.Mints ledger'' (waves ++ waves') where
  only := by rw [h'.only, h.only]
  le := h.le.trans h'.le
  nodup := by
    refine List.nodup_append.mpr ⟨h.nodup, h'.nodup, ?_⟩
    intro id hid id' hid' heq
    rw [heq] at hid
    exact absurd (h.bounds id' hid).2 (Nat.not_lt_of_le (h'.bounds id' hid').1)
  bounds id hid := by
    cases List.mem_append.mp hid with
    | inl hmem => exact ⟨(h.bounds id hmem).1, (h.bounds id hmem).2.trans_le h'.le⟩
    | inr hmem => exact ⟨h.le.trans (h'.bounds id hmem).1, (h'.bounds id hmem).2⟩

theorem mints_chunkWaves (ledger : Ledger M C) (adds : List (Topic × C)) :
    ledger.Mints (ledger.chunkWaves adds).2 ((ledger.chunkWaves adds).1.map ChunkWave.id) := by
  have hids : (ledger.chunkWaves adds).1.map ChunkWave.id =
      (List.range (chunkByBudget ledger.chunkCap ledger.chunkBytes
        (fun add => topicWireCost add.1) adds).length).map fun i => ⟨ledger.nextWave + i⟩ := by
    rw [chunkWaves]
    dsimp only
    rw [List.map_map, List.range_eq_range', ← List.zipIdx_map_snd, List.map_map]
    rfl
  refine ⟨rfl, Nat.le_add_right _ _, ?_, ?_⟩
  · rw [hids]
    refine List.Nodup.map ?_ List.nodup_range
    intro i j heq
    exact Nat.add_left_cancel (WaveId.mk.inj heq)
  · intro id hid
    rw [hids] at hid
    obtain ⟨i, hi, heq⟩ := List.mem_map.mp hid
    subst heq
    exact ⟨Nat.le_add_right _ _, Nat.add_lt_add_left (List.mem_range.mp hi) _⟩

theorem chunkWaves_ne_nil (ledger : Ledger M C) {adds : List (Topic × C)} (h : adds ≠ []) :
    (ledger.chunkWaves adds).1 ≠ [] := by
  intro hnil
  have hgroups : chunkByBudget ledger.chunkCap ledger.chunkBytes
      (fun add => topicWireCost add.1) adds = [] := by
    have hlength := congrArg List.length hnil
    rw [chunkWaves, List.length_map, List.length_zipIdx] at hlength
    exact List.length_eq_zero_iff.mp hlength
  have hflatten : (chunkByBudget ledger.chunkCap ledger.chunkBytes
      (fun add => topicWireCost add.1) adds).flatten = adds := flatten_chunkByBudget adds
  rw [hgroups] at hflatten
  exact h hflatten.symm

section Pending

variable {chunks : List (ChunkWave C)} {topics : List Topic} {floors : HashMap Topic C}
  {tx : Sender M}

theorem Mints.get_addPending (hmints : ledger.Mints ledger' (chunks.map ChunkWave.id))
    (hminted : ledger.Minted) {id : WaveId} {wave : PendingWave C}
    (hwave : ledger.pendingWaves.get id = some wave) (owner : WaveOwner) :
    (ledger'.addPending owner chunks).pendingWaves.get id = some wave := by
  have hnew : id ∉ chunks.map ChunkWave.id := by
    intro hmem
    have hlt := hminted id (by rw [hwave]; rfl)
    exact absurd hlt (Nat.not_lt_of_le (hmints.bounds id hmem).1)
  rw [addPending]
  dsimp only
  rw [HashMap.get_foldl_insert_of_notMem _ _ hnew, hmints.only]
  exact hwave

theorem Mints.minted_addPending (hmints : ledger.Mints ledger' (chunks.map ChunkWave.id))
    (hminted : ledger.Minted) (owner : WaveOwner) : (ledger'.addPending owner chunks).Minted := by
  intro id hid
  by_cases hmem : id ∈ chunks.map ChunkWave.id
  · exact (hmints.bounds id hmem).2
  · rw [addPending] at hid
    dsimp only at hid
    rw [HashMap.get_foldl_insert_of_notMem _ _ hmem, hmints.only] at hid
    exact (hminted id hid).trans_le hmints.le

theorem Owed.register (h : ledger.Owed [] []) (hminted : ledger.Minted)
    (hmints : ledger.Mints ledger' (chunks.map ChunkWave.id)) (hchunks : chunks ≠ []) :
    ((ledger'.register topics floors tx).1.addPending
      (.lease (ledger'.register topics floors tx).2) chunks).Owed [] [] := by
  have hleases : ledger'.leases = ledger.leases := by rw [hmints.only]
  constructor
  · intro lease state hstate hcatching
    right
    by_cases hself : ((⟨ledger'.nextLease⟩ : LeaseId) == lease) = true
    · obtain ⟨chunk, hchunk⟩ := List.exists_mem_of_ne_nil chunks hchunks
      refine ⟨chunk.id, { owner := .lease lease, claims := chunk.claims }, ?_, .inl rfl⟩
      rw [← eq_of_beq hself, addPending]
      exact HashMap.get_foldl_insert_of_mem _ _ hmints.nodup hchunk _
    · have hbefore : ledger.leases.get lease = some state := by
        rw [addPending, Ledger.register] at hstate
        dsimp only at hstate
        rwa [HashMap.get_insert, if_neg hself, hleases] at hstate
      obtain ⟨id, wave, hwave, hby⟩ :=
        (h.waiting lease state hbefore hcatching).resolve_left List.not_mem_nil
      exact ⟨id, wave, hmints.get_addPending hminted hwave _, hby⟩
  · intro lease state hstate hcaught
    rw [addPending, Ledger.register] at hstate
    dsimp only at hstate
    rw [HashMap.get_insert] at hstate
    by_cases hself : ((⟨ledger'.nextLease⟩ : LeaseId) == lease) = true
    · rw [if_pos hself] at hstate
      cases hstate
      cases hcaught
    · rw [if_neg hself, hleases] at hstate
      exact h.told lease state hstate hcaught

end Pending

end Ledger

namespace LedgerTask

section PlanWaves

variable {ledger : Ledger M C}

theorem get_pendingOf {waves : List (WaveOwner × Ledger.ChunkWave C)}
    (hids : (waves.map fun wave => wave.2.id).Nodup) {wave : WaveOwner × Ledger.ChunkWave C}
    (h : wave ∈ waves) :
    (pendingOf waves).get wave.2.id = some { owner := wave.1, claims := wave.2.claims } :=
  HashMap.get_foldl_insert_of_mem (fun wave : WaveOwner × Ledger.ChunkWave C => wave.2.id) _ hids h _

theorem mints_addReissue {s : List (WaveOwner × Ledger.ChunkWave C) × Ledger M C}
    (h : ledger.Mints s.2 (s.1.map fun wave => wave.2.id)) (reissue : Reissue C) :
    ledger.Mints (addReissue s reissue).2 ((addReissue s reissue).1.map fun wave => wave.2.id) := by
  rw [addReissue]
  dsimp only
  rw [List.map_append, List.map_map]
  exact h.append (Ledger.mints_chunkWaves s.2 reissue.adds)

theorem mints_planWaves (ledger : Ledger M C) (plan : ReconnectPlan C) :
    ledger.Mints (planWaves ledger plan).2
      ((planWaves ledger plan).1.map fun wave => wave.2.id) := by
  have hfold (reissues : List (Reissue C))
      (s : List (WaveOwner × Ledger.ChunkWave C) × Ledger M C)
      (h : ledger.Mints s.2 (s.1.map fun wave => wave.2.id)) :
      ledger.Mints (reissues.foldl addReissue s).2
        ((reissues.foldl addReissue s).1.map fun wave => wave.2.id) := by
    induction reissues generalizing s with
    | nil => exact h
    | cons reissue reissues ih => exact ih _ (mints_addReissue h reissue)
  have hresumed := Ledger.mints_chunkWaves ledger plan.resumeAdds
  refine hfold plan.reissues
    ((ledger.chunkWaves plan.resumeAdds).1.map fun chunk => (.resume, chunk),
      (ledger.chunkWaves plan.resumeAdds).2) ?_
  rw [List.map_map]
  exact hresumed

theorem mints_of_planWaves {plan : ReconnectPlan C} {ledger' : Ledger M C}
    {waves : List (WaveOwner × Ledger.ChunkWave C)} (h : planWaves ledger plan = (waves, ledger')) :
    ledger.Mints ledger' (waves.map fun wave => wave.2.id) := by
  have hmints := mints_planWaves ledger plan
  rw [h] at hmints
  exact hmints

theorem exists_mem_planWaves {plan : ReconnectPlan C} {reissue : Reissue C}
    (h : reissue ∈ plan.reissues) (hadds : reissue.adds ≠ []) :
    ∃ chunk, (.lease reissue.lease, chunk) ∈ (planWaves ledger plan).1 := by
  have hkept (reissues : List (Reissue C))
      (s : List (WaveOwner × Ledger.ChunkWave C) × Ledger M C) :
      s.1 ⊆ (reissues.foldl addReissue s).1 := by
    induction reissues generalizing s with
    | nil => exact List.Subset.refl _
    | cons reissue reissues ih =>
      exact List.Subset.trans (List.subset_append_left _ _) (ih (addReissue s reissue))
  have hfold (reissues : List (Reissue C)) (hmem : reissue ∈ reissues)
      (s : List (WaveOwner × Ledger.ChunkWave C) × Ledger M C) :
      ∃ chunk, (.lease reissue.lease, chunk) ∈ (reissues.foldl addReissue s).1 := by
    induction reissues generalizing s with
    | nil => exact absurd hmem List.not_mem_nil
    | cons reissue' reissues ih =>
      cases List.mem_cons.mp hmem with
      | inr hmem => exact ih hmem _
      | inl heq =>
        subst heq
        obtain ⟨chunk, hchunk⟩ :=
          List.exists_mem_of_ne_nil _ (s.2.chunkWaves_ne_nil hadds)
        refine ⟨chunk, hkept reissues _ (List.mem_append_right _ ?_)⟩
        exact List.mem_map.mpr ⟨chunk, hchunk, rfl⟩
  exact hfold plan.reissues h _

theorem reissued_or_orphan {plan : ReconnectPlan C} (B : TransportBinding C)
    (hplan : ledger.reconnectPlan B = some plan) {lease : LeaseId} {state : LeaseState M C}
    (hstate : ledger.leases.get lease = some state) (hcatching : state.caughtUp = false) :
    (∃ chunk, (.lease lease, chunk) ∈ (planWaves ledger plan).1) ∨ lease ∈ plan.orphans := by
  obtain ⟨_, hreissues, horphans⟩ := eqs_of_reconnectPlan hplan
  have hcount := count_resumed hreissues horphans hstate hcatching
  have hmem : lease ∈ plan.reissues.map Reissue.lease ++ plan.orphans :=
    List.count_pos_iff.mp (hcount ▸ Nat.zero_lt_one)
  refine (List.mem_append.mp hmem).imp_left fun hmem => ?_
  obtain ⟨reissue, hreissue, hlease⟩ := List.mem_map.mp hmem
  have hcarried := hreissue
  rw [hreissues] at hcarried
  obtain ⟨_, _, hsome⟩ := List.mem_filterMap.mp hcarried
  obtain ⟨hadds, hsome⟩ := Option.ite_none_left_eq_some.mp hsome
  cases hsome
  rw [← hlease]
  apply exists_mem_planWaves hreissue
  rwa [List.isEmpty_iff] at hadds

end PlanWaves

/-- Every lease that is not about to be dropped is told or waited for, and nobody was told too
early that all leases are caught up. -/
structure Settled (task : LedgerTask M C) (dropped : List LeaseId) : Prop where
  owed : task.ledger.Owed [] dropped
  minted : task.ledger.Minted
  answered : ∀ answer ∈ task.answered, answer.live = true → answer.owed = false

variable {task task' : LedgerTask M C} {dropped : List LeaseId}

theorem settled_initial (suspended : Bool) (chunkCap chunkBytes : Nat) :
    (initial suspended chunkCap chunkBytes : LedgerTask M C).Settled [] := by
  refine ⟨⟨?_, ?_⟩, ?_, ?_⟩
  · intro lease state hstate
    cases hstate
  · intro lease state hstate
    cases hstate
  · intro id hid
    cases hid
  · intro answer hanswer
    cases hanswer

section Settle

theorem Settled.congr (h : task.Settled dropped) (hledger : task'.ledger = task.ledger)
    (hanswered : task'.answered = task.answered) : task'.Settled dropped := by
  refine ⟨?_, ?_, ?_⟩
  · rw [hledger]
    exact h.owed
  · rw [hledger]
    exact h.minted
  · rw [hanswered]
    exact h.answered

theorem Settled.answerAll (h : task.Settled dropped) (hquiet : task.conn.isSome = true →
    ∀ id state, task.ledger.leases.get id = some state → state.completed = true) :
    task.answerAll.Settled dropped := by
  refine ⟨h.owed, h.minted, ?_⟩
  intro answer hanswer hlive
  cases List.mem_append.mp hanswer with
  | inl hbefore => exact h.answered answer hbefore hlive
  | inr hnow =>
    obtain ⟨waiter, _, heq⟩ := List.mem_map.mp hnow
    rw [← heq] at hlive ⊢
    dsimp only at hlive ⊢
    rw [List.any_eq_false]
    intro state hstate
    obtain ⟨entry, hentry, hvalue⟩ := List.mem_map.mp hstate
    rw [← hvalue, hquiet hlive entry.1 entry.2 (HashMap.get_eq_some_iff.mpr hentry)]
    exact Bool.false_ne_true

theorem Settled.settleIdleWaiters (h : task.Settled []) : task.settleIdleWaiters.Settled [] := by
  rw [LedgerTask.settleIdleWaiters]
  split
  · rename_i hempty
    have hnone := HashMap.isEmpty_entries_iff.mp hempty
    have hcleared : { task with
        ledger := { task.ledger with pendingWaves := .empty } }.Settled [] := by
      refine ⟨⟨?_, ?_⟩, ?_, h.answered⟩
      · intro lease state hstate
        rw [hnone lease] at hstate
        cases hstate
      · intro lease state hstate
        rw [hnone lease] at hstate
        cases hstate
      · intro id hid
        cases hid
    apply hcleared.answerAll
    intro _ lease state hstate
    rw [hnone lease] at hstate
    cases hstate
  · exact h

theorem Settled.completed (h : task.Settled [])
    (hquiet : task.ledger.pendingWaves.entries.isEmpty = true) {lease : LeaseId}
    {state : LeaseState M C} (hstate : task.ledger.leases.get lease = some state) :
    state.completed = true := by
  cases hcaught : state.caughtUp with
  | true => exact (h.owed.told lease state hstate hcaught).resolve_left List.not_mem_nil
  | false =>
    obtain ⟨id, wave, hwave, _⟩ :=
      (h.owed.waiting lease state hstate hcaught).resolve_left List.not_mem_nil
    rw [HashMap.isEmpty_entries_iff.mp hquiet id] at hwave
    cases hwave

theorem Settled.settleCaughtUpWaiters (h : task.Settled []) :
    task.settleCaughtUpWaiters.Settled [] := by
  rw [LedgerTask.settleCaughtUpWaiters]
  split
  · exact h
  · rename_i hquiet
    rw [Bool.or_eq_true, not_or, Bool.not_eq_true', Bool.not_eq_false] at hquiet
    exact h.answerAll fun _ _ _ hstate => h.completed hquiet.2 hstate

theorem Settled.retire (h : task.Settled dropped) (removes : List Topic) :
    (task.retire removes).Settled dropped := by
  rw [LedgerTask.retire]
  split
  · exact h.congr rfl rfl
  split
  · exact h
  · refine ⟨⟨h.owed.waiting, h.owed.told⟩, ?_, h.answered⟩
    intro id hid
    exact (h.minted id hid).trans_le (Nat.le_add_right _ _)

end Settle

section Drop

theorem Settled.dropLeasesFrom {fuel : Nat} (removes : List Topic) (h : task.Settled dropped)
    (hfuel : dropped.length + task.ledger.catching ≤ fuel) :
    (dropLeasesFrom order W fuel task dropped removes).1.Settled [] := by
  induction fuel generalizing task dropped removes with
  | zero =>
    have hnil : dropped = [] := List.length_eq_zero_iff.mp (by omega)
    rw [LedgerTask.dropLeasesFrom, ← hnil]
    exact h
  | succ fuel ih =>
    rw [LedgerTask.dropLeasesFrom]
    cases hlast : dropped.getLast? with
    | none =>
      dsimp only
      rw [← List.getLast?_eq_none_iff.mp hlast]
      exact h
    | some lease =>
      have hdropped : dropped.dropLast ++ [lease] = dropped :=
        List.dropLast_append_getLast? lease hlast
      have hlength : dropped.length = dropped.dropLast.length + 1 := by
        conv_lhs => rw [← hdropped]
        exact List.length_append
      have howed := h.owed
      rw [← hdropped] at howed
      have hcatching := task.ledger.catching_deref order W dropped.dropLast lease (task.purge lease)
      have hnext : (task.ledger.deref order W dropped.dropLast lease (task.purge lease)).1.2.length +
          (task.ledger.deref order W dropped.dropLast lease (task.purge lease)).1.1.catching ≤
            fuel := by
        omega
      refine ih _ ?_ hnext
      exact ⟨howed.deref, h.minted.within (Ledger.within_deref _ _ _ _), h.answered⟩

theorem Settled.dropAndRetire (h : task.Settled dropped) :
    (task.dropAndRetire order W dropped).Settled [] :=
  ((h.dropLeasesFrom [] (Nat.le_refl _)).retire _).settleIdleWaiters.settleCaughtUpWaiters

end Drop

section Wire

theorem Settled.chunkWaves (h : task.Settled dropped) (adds : List (Topic × C)) :
    { task with ledger := (task.ledger.chunkWaves adds).2 }.Settled dropped := by
  refine ⟨⟨h.owed.waiting, h.owed.told⟩, ?_, h.answered⟩
  intro id hid
  exact (h.minted id hid).trans_le (Nat.le_add_right _ _)

theorem Settled.suspendPreempted (h : task.Settled dropped) (hconn : task.conn = none) :
    task.suspendPreempted.Settled dropped := by
  apply Settled.answerAll
  · exact h.congr rfl rfl
  · intro hlive
    rw [show ({ task with suspended := true } : LedgerTask M C).parkDeferredResumes.conn = none
      from hconn] at hlive
    cases hlive

theorem Settled.reopened (h : task.Settled []) {plan : ReconnectPlan C} {ledger : Ledger M C}
    {initial : WaveOwner × Ledger.ChunkWave C} {rest : List (WaveOwner × Ledger.ChunkWave C)}
    (hplan : task.ledger.reconnectPlan W.toTransportBinding = some plan)
    (hwaves : planWaves task.ledger plan = (initial :: rest, ledger)) (deferred : List (Cmd C)) :
    ({ task with ledger, deferred }.reopened order W plan.orphans initial rest).Settled [] := by
  have hmints := mints_of_planWaves hwaves
  have hleases : ledger.leases = task.ledger.leases := by rw [hmints.only]
  rw [LedgerTask.reopened]
  apply Settled.dropAndRetire
  refine ⟨Ledger.Owed.completeAll ⟨?_, ?_⟩, Ledger.Minted.within ?_ (Ledger.within_completeAll _ _ _),
    h.answered⟩
  · intro lease state hstate hcatching
    rw [hleases] at hstate
    cases reissued_or_orphan W.toTransportBinding hplan hstate hcatching with
    | inr horphan => exact .inl (List.mem_append_left _ horphan)
    | inl hreissued =>
      obtain ⟨chunk, hchunk⟩ := hreissued
      rw [hwaves] at hchunk
      exact .inr ⟨chunk.id, _, get_pendingOf hmints.nodup hchunk, .inl rfl⟩
  · intro lease state hstate hcaught
    rw [hleases] at hstate
    exact h.owed.told lease state hstate hcaught
  · intro id hid
    by_cases hmem : id ∈ (initial :: rest).map fun wave => wave.2.id
    · exact (hmints.bounds id hmem).2
    · dsimp only at hid
      rw [pendingOf, HashMap.get_foldl_insert_of_notMem _ _ hmem] at hid
      cases hid

theorem Settled.reopen (h : task.Settled []) (hconn : task.conn = none) (dial : Dial C) :
    (task.reopen order W dial).Settled [] := by
  rw [LedgerTask.reopen]
  cases hplan : task.ledger.reconnectPlan W.toTransportBinding with
  | none =>
    apply h.answerAll
    intro hlive
    rw [hconn] at hlive
    cases hlive
  | some plan =>
    dsimp only
    cases hwaves : planWaves task.ledger plan with
    | mk waves ledger =>
      have hmints := mints_of_planWaves hwaves
      have hplanned : { task with ledger }.Settled [] := by
        refine ⟨?_, ?_, h.answered⟩
        · rw [hmints.only]
          exact ⟨h.owed.waiting, h.owed.told⟩
        · rw [hmints.only]
          intro id hid
          exact (h.minted id hid).trans_le hmints.le
      cases waves with
      | nil => exact hplanned
      | cons initial rest =>
        have hdialed : { task with ledger, deferred := task.deferred ++ dial.absorbed }.Settled [] :=
          hplanned.congr rfl rfl
        dsimp only
        cases dial.outcome with
        | opened => exact h.reopened hplan hwaves _
        | suspended => exact hdialed.suspendPreempted hconn
        | shutdown => exact hdialed.congr rfl rfl
        | failed retryable => cases retryable <;> exact hdialed.congr rfl rfl

end Wire

section Commands

theorem Settled.registerLease (h : task.Settled []) {ledger : Ledger M C}
    {chunks queued : List (Ledger.ChunkWave C)} (hminted : ledger.Minted)
    (hmints : ledger.Mints task.ledger (chunks.map Ledger.ChunkWave.id)) (hchunks : chunks ≠ [])
    (howed : ledger.Owed [] []) (subs : List (Topic × C)) (tx : Sender M) :
    (task.registerLease subs tx chunks queued).Settled [] where
  owed := howed.register hminted hmints hchunks
  minted := hmints.minted_addPending hminted (.lease ⟨task.ledger.nextLease⟩)
  answered := h.answered

theorem Settled.lease (h : task.Settled []) {subs : List (Topic × C)} (hsubs : subs ≠ [])
    (tx : Sender M) (dial : Dial C) : (task.lease subs tx dial).Settled [] := by
  have hmints := task.ledger.mints_chunkWaves subs
  have hchunks := task.ledger.chunkWaves_ne_nil hsubs
  have hadvanced := h.chunkWaves subs
  rw [LedgerTask.lease]
  cases hwaves : task.ledger.chunkWaves subs with
  | mk chunks ledger =>
    rw [hwaves] at hmints hchunks hadvanced
    have hregistered (task' : LedgerTask M C) (hsettled : task'.Settled [])
        (hledger : task'.ledger = ledger) (queued : List (Ledger.ChunkWave C)) :
        (task'.registerLease subs tx chunks queued).Settled [] := by
      rw [← hledger] at hmints
      exact hsettled.registerLease h.minted hmints hchunks h.owed subs tx
    cases chunks with
    | nil => exact absurd rfl hchunks
    | cons initial rest =>
      dsimp only
      split
      · rename_i hcold
        have hconn : task.conn = none := by
          rw [Bool.and_eq_true, Bool.and_eq_true] at hcold
          exact Option.isNone_iff_eq_none.mp hcold.1.1
        have hdialed : { task with ledger, deferred := task.deferred ++ dial.absorbed }.Settled [] :=
          hadvanced.congr rfl rfl
        have hopened : { task with
            ledger
            conn := some [initial.mutate]
            deferred := task.deferred ++ dial.absorbed }.Settled [] := hdialed.congr rfl rfl
        cases dial.outcome with
        | opened => exact hregistered _ hopened rfl rest
        | failed _ => exact hdialed
        | suspended => exact hregistered _ (hdialed.suspendPreempted hconn) rfl rest
        | shutdown => exact hdialed.congr rfl rfl
      · exact hregistered _ hadvanced rfl _

theorem Settled.suspend (h : task.Settled []) : task.suspend.Settled [] := by
  apply Settled.answerAll
  · exact h.congr rfl rfl
  · intro hlive
    cases hlive

theorem Settled.resume (h : task.Settled []) (waiter : Nat) (dial : Dial C) :
    (task.resume order W waiter dial).Settled [] := by
  have hparked : { task with
      suspended := false, resumeNotify := task.resumeNotify ++ [waiter] }.Settled [] :=
    h.congr rfl rfl
  rw [LedgerTask.resume]
  dsimp only
  split
  · exact hparked.settleCaughtUpWaiters
  split
  · exact hparked.settleIdleWaiters
  · rename_i hconn _
    exact hparked.reopen (Option.not_isSome_iff_eq_none.mp hconn) dial

theorem Settled.handle (h : task.Settled []) (cmd : Cmd C) (dial : Dial C) :
    (task.handle order W cmd dial).Settled [] := by
  cases cmd with
  | lease subs nonempty depth received => exact h.lease nonempty _ dial
  | deref id =>
    have howed : task.ledger.Owed [] [id] := h.owed.carries (.refl _) (List.nil_subset _)
    exact Settled.dropAndRetire ⟨howed, h.minted, h.answered⟩
  | suspend => exact h.suspend
  | resume waiter => exact h.resume waiter dial

end Commands

section Rounds

theorem Settled.wireEvent (h : task.Settled []) (event : WireEvent M) :
    (task.wireEvent order W event).Settled [] := by
  have hrouted : ({ task with ledger := (task.ledger.route order W event).1 }.dropAndRetire order W
      (task.ledger.route order W event).2).Settled [] := by
    apply Settled.dropAndRetire
    exact ⟨h.owed.route event, h.minted.within (Ledger.within_route _ _), h.answered⟩
  cases event with
  | catchUpComplete mutateId =>
    cases mutateId with
    | zero => exact h.congr rfl rfl
    | succ _ => exact hrouted
  | started => exact hrouted
  | topicsLive _ => exact hrouted
  | messages _ _ _ => exact hrouted

theorem Settled.perform (h : task.Settled []) (dial : Dial C) {step : Step M C}
    (hwakes : task.wakesFor step = true) : (task.perform order W dial step).Settled [] := by
  cases step with
  | cmd cmd =>
    cases cmd with
    | none => exact h.congr rfl rfl
    | some cmd => exact h.handle cmd dial
  | wire event =>
    cases event with
    | none => exact Settled.settleIdleWaiters (h.congr rfl rfl)
    | some event => exact h.wireEvent event
  | retry => exact h
  | reconnect =>
    rw [wakesFor, Bool.and_eq_true, Bool.and_eq_true] at hwakes
    exact h.reopen (Option.isNone_iff_eq_none.mp hwakes.1.1) dial

theorem Settled.flushOutbox (h : task.Settled []) (n : Nat) : (task.flushOutbox n).Settled [] := by
  rw [LedgerTask.flushOutbox]
  split
  · exact h
  · exact h.congr rfl rfl

theorem Settled.round (h : task.Settled []) (hround : Round W task task') : task'.Settled [] := by
  cases hround with
  | flush n _ => exact h.flushOutbox n
  | next order dial step _ _ hwakes => exact h.perform dial hwakes
  | @deferred order dial cmd cmds _ _ =>
    have htaken : { task with deferred := cmds }.Settled [] := h.congr rfl rfl
    exact htaken.handle cmd dial

theorem Reachable.settled (h : task.Reachable W) : task.Settled [] := by
  obtain ⟨suspended, chunkCap, chunkBytes, hrun⟩ := h
  induction hrun with
  | refl => exact settled_initial suspended chunkCap chunkBytes
  | tail _ hround ih => exact ih.round hround

end Rounds

/-- A lease that has not been told that it has caught up waits for a wave in flight. With none in
flight all have been told, and no `resume()` has returned on a live wire before that. -/
structure NoneStranded (task : LedgerTask M C) : Prop where
  waits : ∀ lease state, task.ledger.leases.get lease = some state → state.completed = false →
    task.ledger.Awaits lease
  quiet : task.ledger.pendingWaves.entries = [] →
    ∀ lease state, task.ledger.leases.get lease = some state → state.completed = true
  answered : ∀ answer ∈ task.answered, answer.live = true → answer.owed = false

theorem Reachable.noneStranded (h : task.Reachable W) : task.NoneStranded where
  waits lease state hstate hcompleted := by
    cases hcaught : state.caughtUp with
    | false =>
      exact (h.settled.owed.waiting lease state hstate hcaught).resolve_left List.not_mem_nil
    | true =>
      have htold := (h.settled.owed.told lease state hstate hcaught).resolve_left List.not_mem_nil
      rw [htold] at hcompleted
      cases hcompleted
  quiet hquiet _ _ hstate := h.settled.completed (List.isEmpty_iff.mpr hquiet) hstate
  answered := h.settled.answered

section Runs

def ready (task : LedgerTask M C) (step : Step M C) : Bool :=
  !task.closed && task.deferred.isEmpty && task.wakesFor step

def readyAll (order : HashOrder) (W : WireBinding M C) (dial : Dial C) :
    LedgerTask M C → List (Step M C) → Bool
  | _, [] => true
  | task, step :: steps =>
    task.ready step && readyAll order W dial (task.perform order W dial step) steps

theorem Round.of_ready {step : Step M C} (dial : Dial C) (h : task.ready step = true) :
    Round W task (task.perform order W dial step) := by
  rw [ready, Bool.and_eq_true, Bool.and_eq_true, Bool.not_eq_true', List.isEmpty_iff] at h
  exact .next order dial step h.1.1 h.1.2 h.2

theorem Reachable.tail (h : task.Reachable W) (hround : Round W task task') :
    task'.Reachable W := by
  obtain ⟨suspended, chunkCap, chunkBytes, hrun⟩ := h
  exact ⟨suspended, chunkCap, chunkBytes, hrun.tail hround⟩

theorem Reachable.performAll {dial : Dial C} {steps : List (Step M C)} (h : task.Reachable W)
    (hready : task.readyAll order W dial steps = true) :
    (steps.foldl (fun task step => task.perform order W dial step) task).Reachable W := by
  induction steps generalizing task with
  | nil => exact h
  | cons step steps ih =>
    rw [readyAll, Bool.and_eq_true] at hready
    exact ih (h.tail (.of_ready dial hready.1)) hready.2

end Runs

section Parked

/-- Messages that are no more than a place on a topic, listed maps, and a dial that succeeds. -/
def placed : WireBinding (fun _ => Topic × UInt64) UInt64 where
  toTransportBinding := V3Binding
  topicOf message := some message.1
  cursorOf message := some message.2

def listed : HashOrder := ⟨fun as => as, fun as => .refl as⟩

def dialed : Dial UInt64 := ⟨[], rfl, .opened⟩

def leased (topic : UInt8) (cursor : UInt64) : Step (fun _ => Topic × UInt64) UInt64 :=
  .cmd (some (.lease [([topic], cursor)] (List.cons_ne_nil _ _) 4 fun _ => some 0))

/-- Two leases of one topic, the second from further back. The wave of the first one ends, and its
completion waits for the other wave. -/
def parked : LedgerTask (fun _ => Topic × UInt64) UInt64 :=
  [leased 1 5, leased 1 2, .wire (some (.catchUpComplete 1))].foldl
    (fun task step => task.perform listed placed dialed step) (initial false 8 64)

theorem reachable_parked : parked.Reachable placed :=
  Reachable.performAll ⟨false, 8, 64, .refl⟩ (by decide +kernel)

theorem noneStranded_parked : parked.NoneStranded := reachable_parked.noneStranded

example : (parked.ledger.pendingWaves.get ⟨2⟩).map PendingWave.holds = some [⟨0⟩] := by
  decide +kernel

end Parked

end LedgerTask

end LibXmtp.Bidi
