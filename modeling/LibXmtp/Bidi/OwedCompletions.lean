import LibXmtp.Bidi.RoutedLeases

namespace LibXmtp.Bidi

open LibXmtp.Data LibXmtp.Types

variable {M : DeliveryKind → Type} {C : Type} {order : HashOrder} {W : WireBinding M C}

namespace Ledger

/-- A wave of the lease's own is in flight, or one that the lease's completion waits for. -/
def Awaits (ledger : Ledger M C) (lease : LeaseId) : Prop :=
  ∃ id wave, ledger.pendingWaves.get id = some wave ∧
    (wave.owner = .lease lease ∨ lease ∈ wave.holds)

/-- What is owed while the leases of one list are still to be completed and those of the other are
still to be dropped. -/
structure Owed (ledger : Ledger M C) (released dropped : List LeaseId) : Prop where
  waiting : ∀ lease state, ledger.leases.get lease = some state → state.caughtUp = false →
    lease ∈ released ∨ ledger.Awaits lease
  told : ∀ lease state, ledger.leases.get lease = some state → state.caughtUp = true →
    lease ∈ dropped ∨ state.completed = true

structure Within (ledger ledger' : Ledger M C) : Prop where
  waves : ∀ id, (ledger'.pendingWaves.get id).isSome = true →
    (ledger.pendingWaves.get id).isSome = true
  nextWave : ledger'.nextWave = ledger.nextWave

variable {ledger ledger' ledger'' : Ledger M C} {lease : LeaseId}
  {released dropped dropped' : List LeaseId}

theorem Within.refl (ledger : Ledger M C) : ledger.Within ledger := ⟨fun _ h => h, rfl⟩

theorem Within.trans (h : ledger.Within ledger') (h' : ledger'.Within ledger'') :
    ledger.Within ledger'' :=
  ⟨fun id hid => h.waves id (h'.waves id hid), h'.nextWave.trans h.nextWave⟩

theorem Carries.within (h : ledger.Carries ledger') : ledger.Within ledger' where
  waves id hid := by rwa [h.pendingWaves] at hid
  nextWave := h.nextWave

theorem Carries.awaits (h : ledger.Carries ledger') (hawaits : ledger.Awaits lease) :
    ledger'.Awaits lease := by
  rw [Awaits, h.pendingWaves]
  exact hawaits

theorem Owed.carries (h : ledger.Owed released dropped) (hcarries : ledger.Carries ledger')
    (hdropped : dropped ⊆ dropped') : ledger'.Owed released dropped' where
  waiting lease state' hstate' hcatching := by
    obtain ⟨state, hstate, hsame⟩ := hcarries.exists_before hstate'
    rw [hsame.caughtUp] at hcatching
    exact (h.waiting lease state hstate hcatching).imp_right hcarries.awaits
  told lease state' hstate' hcaught := by
    obtain ⟨state, hstate, hsame⟩ := hcarries.exists_before hstate'
    rw [hsame.caughtUp] at hcaught
    exact (h.told lease state hstate hcaught).imp (fun hmem => hdropped hmem) hsame.completed

section Complete

variable {events : List (LeaseEvent M)} {state : LeaseState M C}

theorem sent_of_deliver {event : LeaseEvent M} (hstate : ledger.leases.get lease = some state)
    (h : (ledger.deliver lease event).2 = true) : ∃ tx,
      (ledger.deliver lease event).1.leases.get lease = some { state with tx } ∧
        tx.sent = state.tx.sent ++ [event] := by
  rw [deliver, hstate] at h ⊢
  refine ⟨(state.tx.trySend event).1, ?_, Sender.sent_trySend h⟩
  dsimp only
  rw [HashMap.get_insert, if_pos BEq.rfl]

theorem sent_of_deliverAll (hstate : ledger.leases.get lease = some state)
    (h : (ledger.deliverAll lease events).2 = true) : ∃ state',
      (ledger.deliverAll lease events).1.leases.get lease = some state' ∧
        state'.tx.sent = state.tx.sent ++ events := by
  induction events generalizing ledger state with
  | nil => exact ⟨state, hstate, (List.append_nil _).symm⟩
  | cons event events ih =>
    rw [deliverAll] at h ⊢
    dsimp only at h ⊢
    cases hsent : (ledger.deliver lease event).2 with
    | false =>
      rw [hsent] at h
      cases h
    | true =>
      rw [hsent, if_pos rfl] at h
      rw [if_pos rfl]
      obtain ⟨tx, hnext, htx⟩ := sent_of_deliver hstate hsent
      obtain ⟨state', hstate', hall⟩ := ih hnext h
      refine ⟨state', hstate', ?_⟩
      rw [hall, List.append_cons]
      exact congrArg (· ++ events) htx

/-- What `complete` does: nothing, or the completion waits for a wave, or the lease is caught up and
either has been told or is to be dropped. -/
inductive Completed (ledger : Ledger M C) (dropped : List LeaseId) (lease : LeaseId) :
    Ledger M C × List LeaseId → Prop
  | done (h : ∀ state, ledger.leases.get lease = some state → state.caughtUp = true) :
    Completed ledger dropped lease (ledger, dropped)
  | parked {id : WaveId} {wave : PendingWave C} (h : ledger.pendingWaves.get id = some wave) :
    Completed ledger dropped lease
      ({ ledger with pendingWaves := ledger.pendingWaves.insert id (wave.hold lease) }, dropped)
  | caughtUp {state : LeaseState M C} {ledger' : Ledger M C} {sent : Bool}
    (hstate : ledger.leases.get lease = some state) (hcatching : state.caughtUp = false)
    (hfree : ∀ id wave, ledger.pendingWaves.get id = some wave → wave.owner ≠ .lease lease)
    (hcarries : { ledger with
      leases := ledger.leases.insert lease state.catchUp }.Carries ledger')
    (htold : sent = true → ∃ state', ledger'.leases.get lease = some state' ∧
      state'.completed = true) :
    Completed ledger dropped lease (ledger', if sent then dropped else dropped ++ [lease])

theorem completed_complete (ledger : Ledger M C) (dropped : List LeaseId) (lease : LeaseId) :
    ledger.Completed dropped lease (ledger.complete order W dropped lease) := by
  rw [complete]
  cases hstate : ledger.leases.get lease with
  | none =>
    refine .done fun state heq => ?_
    rw [hstate] at heq
    cases heq
  | some state =>
    dsimp only
    cases hcaught : state.caughtUp with
    | true =>
      rw [if_pos rfl]
      refine .done fun state' heq => ?_
      rw [hstate] at heq
      cases heq
      exact hcaught
    | false =>
      rw [if_neg Bool.false_ne_true]
      split
      · rename_i id wave hblocker
        have hmem := List.mem_of_find?_eq_some hblocker
        rw [(order.iterate_perm _).mem_iff] at hmem
        exact .parked (HashMap.get_eq_some_iff.mpr hmem)
      · rename_i hblocker
        refine .caughtUp hstate hcaught ?_ (carries_deliverAll _ lease _) ?_
        · intro id wave hwave howner
          have hmem : (id, wave) ∈ order.iterate ledger.pendingWaves.entries := by
            rw [(order.iterate_perm _).mem_iff]
            exact HashMap.get_eq_some_iff.mp hwave
          have hblocks := List.find?_eq_none.mp hblocker (id, wave) hmem
          rw [PendingWave.blocks, howner, BEq.rfl, Bool.true_or] at hblocks
          exact hblocks rfl
        intro hsent
        have hself : { ledger with
            leases := ledger.leases.insert lease state.catchUp }.leases.get lease =
              some state.catchUp := by
          rw [HashMap.get_insert, if_pos BEq.rfl]
        obtain ⟨state', hstate', hall⟩ := sent_of_deliverAll hself hsent
        refine ⟨state', hstate', List.any_eq_true.mpr ⟨.catchUpComplete, ?_, rfl⟩⟩
        rw [hall]
        exact List.mem_append_right _ (List.mem_append_right _ (List.mem_singleton_self _))

theorem mem_hold (wave : PendingWave C) (lease : LeaseId) : lease ∈ (wave.hold lease).holds := by
  rw [PendingWave.hold]
  split
  · rename_i h
    exact List.contains_iff_mem.mp h
  · exact List.mem_append_right _ (List.mem_singleton_self lease)

theorem owner_hold (wave : PendingWave C) (lease : LeaseId) :
    (wave.hold lease).owner = wave.owner := by
  rw [PendingWave.hold]
  split <;> rfl

theorem subset_hold (wave : PendingWave C) (lease : LeaseId) :
    wave.holds ⊆ (wave.hold lease).holds := by
  rw [PendingWave.hold]
  split
  · exact List.Subset.refl _
  · exact List.subset_append_left _ _

variable {id : WaveId} {wave : PendingWave C}

theorem awaits_parked {lease' : LeaseId} (h : ledger.pendingWaves.get id = some wave)
    (hawaits : ledger.Awaits lease') :
    { ledger with
      pendingWaves := ledger.pendingWaves.insert id (wave.hold lease) }.Awaits lease' := by
  obtain ⟨id', wave', hwave', hby⟩ := hawaits
  by_cases heq : (id == id') = true
  · rw [← eq_of_beq heq, h] at hwave'
    cases hwave'
    refine ⟨id, wave.hold lease, ?_, ?_⟩
    · rw [HashMap.get_insert, if_pos BEq.rfl]
    · rw [owner_hold]
      exact hby.imp_right fun hmem => subset_hold wave lease hmem
  · refine ⟨id', wave', ?_, hby⟩
    rw [HashMap.get_insert, if_neg heq]
    exact hwave'

theorem awaits_of_parked :
    { ledger with pendingWaves := ledger.pendingWaves.insert id (wave.hold lease) }.Awaits lease := by
  refine ⟨id, wave.hold lease, ?_, .inr (mem_hold wave lease)⟩
  rw [HashMap.get_insert, if_pos BEq.rfl]

theorem Owed.complete (h : ledger.Owed (lease :: released) dropped) :
    (ledger.complete order W dropped lease).1.Owed released
      (ledger.complete order W dropped lease).2 := by
  have hcompleted : ledger.Completed dropped lease (ledger.complete order W dropped lease) :=
    completed_complete ledger dropped lease
  generalize ledger.complete order W dropped lease = r at hcompleted ⊢
  cases hcompleted with
  | done hdone =>
    refine ⟨?_, h.told⟩
    intro lease' state hstate hcatching
    cases h.waiting lease' state hstate hcatching with
    | inr hawaits => exact .inr hawaits
    | inl hmem =>
      cases List.mem_cons.mp hmem with
      | inr hmem => exact .inl hmem
      | inl heq =>
        rw [heq] at hstate
        rw [hdone state hstate] at hcatching
        cases hcatching
  | parked hwave =>
    refine ⟨?_, h.told⟩
    intro lease' state hstate hcatching
    cases h.waiting lease' state hstate hcatching with
    | inr hawaits => exact .inr (awaits_parked hwave hawaits)
    | inl hmem =>
      cases List.mem_cons.mp hmem with
      | inr hmem => exact .inl hmem
      | inl heq =>
        rw [heq]
        exact .inr awaits_of_parked
  | @caughtUp state ledger' sent hstate hcatching _ hcarries htold =>
    have hother : ∀ lease' state', ledger'.leases.get lease' = some state' → lease' ≠ lease →
        ∃ state, ledger.leases.get lease' = some state ∧ state.Carries state' := by
      intro lease' state' hstate' hne
      obtain ⟨before, hbefore, hsame⟩ := hcarries.exists_before hstate'
      rw [HashMap.get_insert, if_neg (by simpa using hne.symm)] at hbefore
      exact ⟨before, hbefore, hsame⟩
    have hself : ∀ state', ledger'.leases.get lease = some state' → state'.caughtUp = true := by
      intro state' hstate'
      obtain ⟨before, hbefore, hsame⟩ := hcarries.exists_before hstate'
      rw [HashMap.get_insert, if_pos BEq.rfl] at hbefore
      cases hbefore
      exact hsame.caughtUp
    constructor
    · intro lease' state' hstate' hcatching'
      have hne : lease' ≠ lease := by
        intro heq
        rw [heq] at hstate'
        rw [hself state' hstate'] at hcatching'
        cases hcatching'
      obtain ⟨before, hbefore, hsame⟩ := hother lease' state' hstate' hne
      rw [hsame.caughtUp] at hcatching'
      cases h.waiting lease' before hbefore hcatching' with
      | inr hawaits => exact .inr (hcarries.awaits hawaits)
      | inl hmem => exact .inl ((List.mem_cons.mp hmem).resolve_left hne)
    · intro lease' state' hstate' hcaught
      by_cases heq : lease' = lease
      · subst heq
        cases sent with
        | false => exact .inl (List.mem_append_right _ (List.mem_singleton_self _))
        | true =>
          obtain ⟨told, htold, hcompleted⟩ := htold rfl
          rw [hstate'] at htold
          cases htold
          exact .inr hcompleted
      · obtain ⟨before, hbefore, hsame⟩ := hother lease' state' hstate' heq
        rw [hsame.caughtUp] at hcaught
        refine (h.told lease' before hbefore hcaught).imp ?_ hsame.completed
        intro hmem
        cases sent with
        | false => exact List.mem_append_left _ hmem
        | true => exact hmem

theorem within_complete (ledger : Ledger M C) (dropped : List LeaseId) (lease : LeaseId) :
    ledger.Within (ledger.complete order W dropped lease).1 := by
  have hcompleted : ledger.Completed dropped lease (ledger.complete order W dropped lease) :=
    completed_complete ledger dropped lease
  generalize ledger.complete order W dropped lease = r at hcompleted ⊢
  cases hcompleted with
  | done _ => exact .refl ledger
  | caughtUp _ _ _ hcarries _ => exact ⟨hcarries.within.waves, hcarries.nextWave⟩
  | @parked id wave hwave =>
    refine ⟨fun id' hid' => ?_, rfl⟩
    rw [HashMap.get_insert] at hid'
    by_cases heq : (id == id') = true
    · rw [← eq_of_beq heq, hwave]
      rfl
    · rwa [if_neg heq] at hid'

theorem catching_complete (ledger : Ledger M C) (dropped : List LeaseId) (lease : LeaseId) :
    (ledger.complete order W dropped lease).1.catching +
      (ledger.complete order W dropped lease).2.length ≤ ledger.catching + dropped.length := by
  have hcompleted : ledger.Completed dropped lease (ledger.complete order W dropped lease) :=
    completed_complete ledger dropped lease
  generalize ledger.complete order W dropped lease = r at hcompleted ⊢
  cases hcompleted with
  | done _ => exact Nat.le_refl _
  | parked _ => exact Nat.le_refl _
  | @caughtUp state ledger' sent hstate hcatching _ hcarries _ =>
    have hcount := HashMap.countP_insert (w := state.catchUp) (fun e => !e.2.caughtUp) hstate
    have hbefore : (!state.caughtUp) = true := by rw [hcatching]; rfl
    rw [if_pos hbefore, if_neg (by exact Bool.false_ne_true)] at hcount
    have hafter : ledger'.catching + 1 = ledger.catching := by
      rw [hcarries.catching]
      exact hcount
    cases sent with
    | true => exact Nat.add_le_add_right (Nat.le.intro hafter) _
    | false =>
      have hlength : (if false = true then dropped else dropped ++ [lease]).length =
          dropped.length + 1 := by
        rw [if_neg Bool.false_ne_true, List.length_append, List.length_singleton]
      rw [hlength, ← hafter]
      exact Nat.le_of_eq (by rw [Nat.add_right_comm, Nat.add_assoc])

def Owns (ledger : Ledger M C) (lease : LeaseId) : Prop :=
  ∃ id wave, ledger.pendingWaves.get id = some wave ∧ wave.owner = .lease lease

theorem owns_complete {lease' : LeaseId} (howns : ledger.Owns lease') :
    (ledger.complete order W dropped lease).1.Owns lease' := by
  have hcompleted : ledger.Completed dropped lease (ledger.complete order W dropped lease) :=
    completed_complete ledger dropped lease
  generalize ledger.complete order W dropped lease = r at hcompleted ⊢
  obtain ⟨id', wave', hwave', howner⟩ := howns
  cases hcompleted with
  | done _ => exact ⟨id', wave', hwave', howner⟩
  | caughtUp _ _ _ hcarries _ =>
    refine ⟨id', wave', ?_, howner⟩
    rw [hcarries.pendingWaves]
    exact hwave'
  | @parked id wave hwave =>
    by_cases heq : (id == id') = true
    · rw [← eq_of_beq heq, hwave] at hwave'
      cases hwave'
      refine ⟨id, wave'.hold lease, ?_, (owner_hold wave' lease).trans howner⟩
      rw [HashMap.get_insert, if_pos BEq.rfl]
    · refine ⟨id', wave', ?_, howner⟩
      rw [HashMap.get_insert, if_neg heq]
      exact hwave'

theorem not_owns_of_mem_complete {lease' : LeaseId}
    (h : lease' ∈ (ledger.complete order W dropped lease).2) :
    lease' ∈ dropped ∨ ¬ledger.Owns lease' := by
  have hcompleted : ledger.Completed dropped lease (ledger.complete order W dropped lease) :=
    completed_complete ledger dropped lease
  generalize ledger.complete order W dropped lease = r at hcompleted h
  cases hcompleted with
  | done _ => exact .inl h
  | parked _ => exact .inl h
  | @caughtUp _ _ sent _ _ hfree _ _ =>
    cases sent with
    | true => exact .inl h
    | false =>
      refine (List.mem_append.mp h).imp_right fun hself howns => ?_
      obtain ⟨id, wave, hwave, howner⟩ := howns
      rw [List.mem_singleton.mp hself] at howner
      exact hfree id wave hwave howner

theorem not_owns_of_mem_completeAll {lease' : LeaseId}
    (h : lease' ∈ (ledger.completeAll order W dropped released).2) :
    lease' ∈ dropped ∨ ¬ledger.Owns lease' := by
  rw [Ledger.completeAll] at h
  induction released generalizing ledger dropped with
  | nil => exact .inl h
  | cons lease released ih =>
    cases ih h with
    | inl hmem => exact not_owns_of_mem_complete hmem
    | inr hfree => exact .inr fun howns => hfree (owns_complete howns)

theorem Owed.completeAll (h : ledger.Owed released dropped) :
    (ledger.completeAll order W dropped released).1.Owed []
      (ledger.completeAll order W dropped released).2 := by
  rw [Ledger.completeAll]
  induction released generalizing ledger dropped with
  | nil => exact h
  | cons lease released ih => exact ih h.complete

theorem within_completeAll (ledger : Ledger M C) (dropped released : List LeaseId) :
    ledger.Within (ledger.completeAll order W dropped released).1 := by
  rw [Ledger.completeAll]
  induction released generalizing ledger dropped with
  | nil => exact .refl ledger
  | cons lease released ih => exact (within_complete ledger dropped lease).trans (ih _ _)

theorem catching_completeAll (ledger : Ledger M C) (dropped released : List LeaseId) :
    (ledger.completeAll order W dropped released).1.catching +
      (ledger.completeAll order W dropped released).2.length ≤
        ledger.catching + dropped.length := by
  rw [Ledger.completeAll]
  induction released generalizing ledger dropped with
  | nil => exact Nat.le_refl _
  | cons lease released ih => exact (ih _ _).trans (catching_complete ledger dropped lease)

end Complete

section Deref

variable {state : LeaseState M C} {purged : List WaveId}

theorem releaseTopics_eq (topics : List Topic) (s : Ledger M C × List Topic) :
    ∃ byTopic lastSeen removes, topics.foldl (releaseTopic lease) s =
      ({ s.1 with byTopic, lastSeen }, removes) := by
  induction topics generalizing s with
  | nil => exact ⟨s.1.byTopic, s.1.lastSeen, s.2, rfl⟩
  | cons topic topics ih =>
    rw [List.foldl_cons]
    obtain ⟨byTopic, lastSeen, removes, heq⟩ := ih (releaseTopic lease s topic)
    refine ⟨byTopic, lastSeen, removes, heq.trans ?_⟩
    rw [releaseTopic]
    dsimp only
    cases s.1.byTopic.get topic with
    | none => rfl
    | some holders =>
      dsimp only
      split <;> rfl

theorem leases_removeLease (ledger : Ledger M C) (lease : LeaseId) (state : LeaseState M C)
    (purged : List WaveId) :
    (ledger.removeLease lease state purged).1.leases = ledger.leases.remove lease := by
  rw [removeLease]
  obtain ⟨_, _, _, heq⟩ := releaseTopics_eq state.topics _
  rw [heq]

theorem get_pendingWaves_removeLease (id : WaveId) :
    (ledger.removeLease lease state purged).1.pendingWaves.get id =
      ((ledger.pendingWaves.get id).filter fun wave => !forgets lease purged id wave).map
        fun wave => { wave with holds := wave.holds.filter (· != lease) } := by
  rw [removeLease]
  obtain ⟨_, _, _, heq⟩ := releaseTopics_eq state.topics _
  rw [heq]
  dsimp only
  rw [HashMap.get_mapValues, HashMap.get_retain]

theorem within_removeLease (ledger : Ledger M C) (lease : LeaseId) (state : LeaseState M C)
    (purged : List WaveId) : ledger.Within (ledger.removeLease lease state purged).1 where
  waves id hid := by
    rw [get_pendingWaves_removeLease, Option.isSome_map] at hid
    obtain ⟨wave, hwave⟩ := Option.isSome_iff_exists.mp hid
    rw [(Option.filter_eq_some_iff.mp hwave).1]
    rfl
  nextWave := by
    rw [removeLease]
    obtain ⟨_, _, _, heq⟩ := releaseTopics_eq state.topics _
    rw [heq]

theorem get_leases_of_removeLease {lease' : LeaseId} {state' : LeaseState M C}
    (h : (ledger.removeLease lease state purged).1.leases.get lease' = some state') :
    lease' ≠ lease ∧ ledger.leases.get lease' = some state' := by
  rw [leases_removeLease, HashMap.get_remove] at h
  by_cases heq : (lease == lease') = true
  · rw [if_pos heq] at h
    cases h
  · rw [if_neg heq] at h
    exact ⟨fun hself => heq (by rw [hself]; exact BEq.rfl), h⟩

theorem Owed.removeLease (h : ledger.Owed [] (dropped ++ [lease])) (state : LeaseState M C)
    (purged : List WaveId) : (ledger.removeLease lease state purged).1.Owed
      (ledger.released order lease purged) dropped := by
  constructor
  · intro lease' state' hstate' hcatching
    obtain ⟨hne, hbefore⟩ := get_leases_of_removeLease hstate'
    obtain ⟨id, wave, hwave, hby⟩ :=
      (h.waiting lease' state' hbefore hcatching).resolve_left List.not_mem_nil
    cases hforgotten : forgets lease purged id wave with
    | true =>
      have howner : wave.owner = .lease lease := eq_of_beq (Bool.and_eq_true_iff.mp hforgotten).1
      have hheld : lease' ∈ wave.holds := by
        refine hby.resolve_left fun hown => ?_
        rw [howner] at hown
        cases hown
        exact hne rfl
      refine .inl (List.mem_flatMap.mpr ⟨(id, wave), List.mem_filter.mpr ⟨?_, hforgotten⟩, hheld⟩)
      rw [(order.iterate_perm _).mem_iff]
      exact HashMap.get_eq_some_iff.mp hwave
    | false =>
      right
      refine ⟨id, { wave with holds := wave.holds.filter (· != lease) }, ?_, ?_⟩
      · rw [get_pendingWaves_removeLease, hwave, Option.filter_some, hforgotten]
        rfl
      · exact hby.imp_right fun hmem => List.mem_filter.mpr ⟨hmem, bne_iff_ne.mpr hne⟩
  · intro lease' state' hstate' hcaught
    obtain ⟨hne, hbefore⟩ := get_leases_of_removeLease hstate'
    refine (h.told lease' state' hbefore hcaught).imp_left fun hmem => ?_
    exact (List.mem_append.mp hmem).resolve_right fun hself => hne (List.mem_singleton.mp hself)

theorem deref_of_none (hstate : ledger.leases.get lease = none) :
    ledger.deref order W dropped lease purged = ((ledger, dropped), []) := by
  rw [deref, hstate]

theorem deref_of_some (hstate : ledger.leases.get lease = some state) :
    ledger.deref order W dropped lease purged =
      ((ledger.removeLease lease state purged).1.completeAll order W dropped
        (ledger.released order lease purged), (ledger.removeLease lease state purged).2) := by
  rw [deref, hstate]

theorem Owed.deref (h : ledger.Owed [] (dropped ++ [lease])) :
    (ledger.deref order W dropped lease purged).1.1.Owed []
      (ledger.deref order W dropped lease purged).1.2 := by
  cases hstate : ledger.leases.get lease with
  | none =>
    rw [deref_of_none hstate]
    refine ⟨h.waiting, ?_⟩
    intro lease' state' hstate' hcaught
    refine (h.told lease' state' hstate' hcaught).imp_left fun hmem => ?_
    refine (List.mem_append.mp hmem).resolve_right fun hself => ?_
    rw [List.mem_singleton.mp hself, hstate] at hstate'
    cases hstate'
  | some state =>
    rw [deref_of_some hstate]
    exact (h.removeLease state purged).completeAll

theorem within_deref (ledger : Ledger M C) (dropped : List LeaseId) (lease : LeaseId)
    (purged : List WaveId) :
    ledger.Within (ledger.deref order W dropped lease purged).1.1 := by
  cases hstate : ledger.leases.get lease with
  | none =>
    rw [deref_of_none hstate]
    exact .refl ledger
  | some state =>
    rw [deref_of_some hstate]
    exact (within_removeLease ledger lease state purged).trans (within_completeAll _ dropped _)

theorem catching_deref (order : HashOrder) (W : WireBinding M C) (ledger : Ledger M C)
    (dropped : List LeaseId) (lease : LeaseId) (purged : List WaveId) :
    (ledger.deref order W dropped lease purged).1.1.catching +
      (ledger.deref order W dropped lease purged).1.2.length ≤
        ledger.catching + dropped.length := by
  cases hstate : ledger.leases.get lease with
  | none =>
    rw [deref_of_none hstate]
  | some state =>
    rw [deref_of_some hstate]
    refine (catching_completeAll _ dropped _).trans (Nat.add_le_add_right ?_ _)
    rw [catching, leases_removeLease]
    exact HashMap.countP_remove_le _ ledger.leases lease

end Deref

section Route

theorem Owed.route (event : WireEvent M) (h : ledger.Owed [] []) :
    (ledger.route order W event).1.Owed [] (ledger.route order W event).2 := by
  cases event with
  | started => exact h
  | topicsLive topics =>
    exact h.carries (carries_deliverEach ledger [] _) (List.nil_subset _)
  | messages kind batch mutateId =>
    exact h.carries ((carries_demux ledger batch mutateId).trans (carries_deliverEach _ _ _))
      (List.nil_subset _)
  | catchUpComplete mutateId =>
    rw [Ledger.route]
    cases hwave : ledger.pendingWaves.get ⟨mutateId⟩ with
    | none => exact h
    | some wave =>
      dsimp only
      apply Owed.completeAll
      refine ⟨?_, h.told⟩
      intro lease state hstate hcatching
      obtain ⟨id, wave', hwave', hby⟩ :=
        (h.waiting lease state hstate hcatching).resolve_left List.not_mem_nil
      by_cases heq : ((⟨mutateId⟩ : WaveId) == id) = true
      · rw [← eq_of_beq heq, hwave] at hwave'
        cases hwave'
        left
        cases hby with
        | inr hmem => exact List.mem_append_right _ hmem
        | inl howner =>
          rw [howner]
          exact List.mem_append_left _ (List.mem_singleton_self lease)
      · refine .inr ⟨id, wave', ?_, hby⟩
        dsimp only
        rw [HashMap.get_remove, if_neg heq]
        exact hwave'

theorem within_route (ledger : Ledger M C) (event : WireEvent M) :
    ledger.Within (ledger.route order W event).1 := by
  cases event with
  | started => exact .refl ledger
  | topicsLive topics => exact (carries_deliverEach ledger [] _).within
  | messages kind batch mutateId =>
    exact ((carries_demux ledger batch mutateId).trans (carries_deliverEach _ _ _)).within
  | catchUpComplete mutateId =>
    rw [route]
    cases hwave : ledger.pendingWaves.get ⟨mutateId⟩ with
    | none => exact .refl ledger
    | some wave =>
      have hremoved : ledger.Within
          { ledger with pendingWaves := ledger.pendingWaves.remove ⟨mutateId⟩ } := by
        refine ⟨fun id hid => ?_, rfl⟩
        dsimp only at hid
        rw [HashMap.get_remove] at hid
        by_cases heq : ((⟨mutateId⟩ : WaveId) == id) = true
        · rw [if_pos heq] at hid
          cases hid
        · rwa [if_neg heq] at hid
      exact hremoved.trans (within_completeAll _ _ _)

end Route

end Ledger

end LibXmtp.Bidi
