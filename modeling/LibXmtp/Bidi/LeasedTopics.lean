import LibXmtp.Bidi.OwedCompletions

namespace LibXmtp.Bidi

open LibXmtp.Data LibXmtp.Types

variable {M : DeliveryKind → Type} {C : Type} {order : HashOrder} {W : WireBinding M C}

namespace Ledger

def asked (ledger : Ledger M C) (lease : LeaseId) : Option (List Topic × HashMap Topic C) :=
  (ledger.leases.get lease).map fun state => (state.topics, state.floors)

def Leased (ledger : Ledger M C) (topic : Topic) : Prop :=
  ∃ lease state, ledger.leases.get lease = some state ∧ topic ∈ state.topics

structure Sound (ledger : Ledger M C) : Prop extends ledger.WellFormed where
  fresh : ∀ lease, (ledger.leases.get lease).isSome = true → lease.id < ledger.nextLease

structure SameLeases (ledger ledger' : Ledger M C) : Prop where
  asked : ∀ lease, ledger'.asked lease = ledger.asked lease
  byTopic : ledger'.byTopic = ledger.byTopic
  nextLease : ledger'.nextLease = ledger.nextLease

variable {ledger ledger' ledger'' : Ledger M C} {lease : LeaseId} {topic : Topic}
  {dropped : List LeaseId}

@[refl] theorem SameLeases.refl (ledger : Ledger M C) : ledger.SameLeases ledger :=
  ⟨fun _ => rfl, rfl, rfl⟩

@[trans] theorem SameLeases.trans (h : ledger.SameLeases ledger')
    (h' : ledger'.SameLeases ledger'') : ledger.SameLeases ledger'' where
  asked lease := (h'.asked lease).trans (h.asked lease)
  byTopic := h'.byTopic.trans h.byTopic
  nextLease := h'.nextLease.trans h.nextLease

section Same

theorem SameLeases.exists_before (h : ledger.SameLeases ledger') {state' : LeaseState M C}
    (hstate' : ledger'.leases.get lease = some state') :
    ∃ state, ledger.leases.get lease = some state ∧ state.topics = state'.topics ∧
      state.floors = state'.floors := by
  have hasked := h.asked lease
  rw [Ledger.asked, Ledger.asked, hstate'] at hasked
  obtain ⟨state, hstate, heq⟩ := Option.map_eq_some_iff.mp hasked.symm
  exact ⟨state, hstate, congrArg Prod.fst heq, congrArg Prod.snd heq⟩

theorem SameLeases.symm (h : ledger.SameLeases ledger') : ledger'.SameLeases ledger :=
  ⟨fun lease => (h.asked lease).symm, h.byTopic.symm, h.nextLease.symm⟩

theorem SameLeases.leased (h : ledger.SameLeases ledger') (hleased : ledger'.Leased topic) :
    ledger.Leased topic := by
  obtain ⟨lease, state', hstate', htopic⟩ := hleased
  obtain ⟨state, hstate, htopics, _⟩ := h.exists_before hstate'
  rw [← htopics] at htopic
  exact ⟨lease, state, hstate, htopic⟩

theorem SameLeases.leased_iff (h : ledger.SameLeases ledger') :
    ledger'.Leased topic ↔ ledger.Leased topic := ⟨h.leased, h.symm.leased⟩

theorem Sound.same (h : ledger.Sound) (hsame : ledger.SameLeases ledger') : ledger'.Sound where
  floors lease state' hstate' topic htopic := by
    obtain ⟨state, hstate, htopics, hfloors⟩ := hsame.exists_before hstate'
    rw [← htopics] at htopic
    rw [← hfloors]
    exact h.floors lease state hstate topic htopic
  holds_iff topic lease := by
    have hholds : ledger'.Holds topic lease ↔ ledger.Holds topic lease := by
      rw [Holds, Holds, hsame.byTopic]
    rw [hholds, h.holds_iff]
    constructor
    · rintro ⟨state, hstate, htopic⟩
      obtain ⟨state', hstate', htopics, _⟩ := hsame.symm.exists_before hstate
      exact ⟨state', hstate', htopics ▸ htopic⟩
    · rintro ⟨state', hstate', htopic⟩
      obtain ⟨state, hstate, htopics, _⟩ := hsame.exists_before hstate'
      exact ⟨state, hstate, htopics ▸ htopic⟩
  nonempty topic holders hholders := by
    rw [hsame.byTopic] at hholders
    exact h.nonempty topic holders hholders
  fresh lease hlease := by
    obtain ⟨state', hstate'⟩ := Option.isSome_iff_exists.mp hlease
    obtain ⟨state, hstate, _⟩ := hsame.exists_before hstate'
    rw [hsame.nextLease]
    exact h.fresh lease (by rw [hstate]; rfl)

theorem Carries.same (h : ledger.Carries ledger') : ledger.SameLeases ledger' where
  asked lease := by
    rw [Ledger.asked, Ledger.asked]
    have hrel := h.leases lease
    cases hafter : ledger'.leases.get lease with
    | some state' =>
      obtain ⟨state, hstate, hcarries⟩ := h.exists_before hafter
      rw [hstate]
      exact congrArg some (Prod.ext hcarries.topics hcarries.floors)
    | none =>
      cases hbefore : ledger.leases.get lease with
      | none => rfl
      | some state =>
        obtain ⟨state', hstate', _⟩ := h.exists_after hbefore
        rw [hafter] at hstate'
        cases hstate'
  byTopic := h.byTopic
  nextLease := h.nextLease

theorem same_complete (ledger : Ledger M C) (dropped : List LeaseId) (lease : LeaseId) :
    ledger.SameLeases (ledger.complete order W dropped lease).1 := by
  have hcompleted : ledger.Completed dropped lease (ledger.complete order W dropped lease) :=
    completed_complete ledger dropped lease
  generalize ledger.complete order W dropped lease = r at hcompleted ⊢
  cases hcompleted with
  | done _ => exact .refl ledger
  | parked _ => exact ⟨fun _ => rfl, rfl, rfl⟩
  | @caughtUp state ledger' sent hstate _ _ hcarries _ =>
    have hcaught : ledger.SameLeases
        { ledger with leases := ledger.leases.insert lease state.catchUp } := by
      refine ⟨fun lease' => ?_, rfl, rfl⟩
      rw [Ledger.asked, Ledger.asked, HashMap.get_insert]
      by_cases heq : (lease == lease') = true
      · rw [if_pos heq, ← eq_of_beq heq, hstate]
        rfl
      · rw [if_neg heq]
    exact hcaught.trans hcarries.same

theorem same_completeAll (ledger : Ledger M C) (dropped released : List LeaseId) :
    ledger.SameLeases (ledger.completeAll order W dropped released).1 := by
  rw [completeAll]
  induction released generalizing ledger dropped with
  | nil => exact .refl ledger
  | cons lease released ih => exact (same_complete ledger dropped lease).trans (ih _ _)

theorem same_route (ledger : Ledger M C) (event : WireEvent M) :
    ledger.SameLeases (ledger.route order W event).1 := by
  cases event with
  | started => exact .refl ledger
  | topicsLive topics => exact (carries_deliverEach ledger [] _).same
  | messages kind batch mutateId =>
    exact ((carries_demux ledger batch mutateId).trans (carries_deliverEach _ _ _)).same
  | catchUpComplete mutateId =>
    rw [route]
    cases hwave : ledger.pendingWaves.get ⟨mutateId⟩ with
    | none => exact .refl ledger
    | some wave =>
      have hremoved : ledger.SameLeases
          { ledger with pendingWaves := ledger.pendingWaves.remove ⟨mutateId⟩ } :=
        ⟨fun _ => rfl, rfl, rfl⟩
      exact hremoved.trans (same_completeAll _ _ _)

end Same

section Register

variable {byTopic : HashMap Topic (HashSet LeaseId)}

def addHolder (lease : LeaseId) (byTopic : HashMap Topic (HashSet LeaseId)) (topic : Topic) :
    HashMap Topic (HashSet LeaseId) :=
  byTopic.modifyOr topic (·.insert lease) (HashSet.empty.insert lease)

theorem mem_addHolder {lease' : LeaseId} {topic' : Topic} :
    (∃ holders, (addHolder lease byTopic topic').get topic = some holders ∧
        lease' ∈ holders.entries) ↔
      (∃ holders, byTopic.get topic = some holders ∧ lease' ∈ holders.entries) ∨
        topic' = topic ∧ lease' = lease := by
  have hinsert (holders : HashSet LeaseId) :
      lease' ∈ (holders.insert lease).entries ↔ lease' ∈ holders.entries ∨ lease' = lease :=
    HashSet.mem_insert fun _ _ heq => eq_of_beq heq
  rw [addHolder, HashMap.get_modifyOr]
  by_cases heq : (topic' == topic) = true
  · rw [if_pos heq, ← eq_of_beq heq]
    cases byTopic.get topic' with
    | none => simp [hinsert, HashSet.empty]
    | some holders => simp [hinsert]
  · rw [if_neg heq]
    have hne : ¬topic' = topic := fun h => heq (by rw [h]; exact BEq.rfl)
    simp [hne]

theorem nonempty_addHolder {topic' : Topic}
    (h : ∀ topic holders, byTopic.get topic = some holders → holders.entries ≠ [])
    {holders : HashSet LeaseId}
    (hholders : (addHolder lease byTopic topic').get topic = some holders) :
    holders.entries ≠ [] := by
  have hinsert (holders : HashSet LeaseId) : (holders.insert lease).entries ≠ [] := by
    apply List.ne_nil_of_mem (a := lease)
    exact (HashSet.mem_insert fun _ _ heq => eq_of_beq heq).mpr (.inr rfl)
  rw [addHolder, HashMap.get_modifyOr] at hholders
  split at hholders
  · cases Option.some.inj hholders
    cases byTopic.get topic' with
    | none => exact hinsert _
    | some _ => exact hinsert _
  · exact h topic holders hholders

theorem mem_addHolders (topics : List Topic) {lease' : LeaseId} :
    (∃ holders, (topics.foldl (addHolder lease) byTopic).get topic = some holders ∧
        lease' ∈ holders.entries) ↔
      (∃ holders, byTopic.get topic = some holders ∧ lease' ∈ holders.entries) ∨
        topic ∈ topics ∧ lease' = lease := by
  induction topics generalizing byTopic with
  | nil => simp
  | cons topic' topics ih =>
    rw [List.foldl_cons, ih, mem_addHolder, List.mem_cons, or_assoc, ← or_and_right,
      eq_comm (a := topic')]

theorem nonempty_addHolders (topics : List Topic)
    (h : ∀ topic holders, byTopic.get topic = some holders → holders.entries ≠ []) :
    ∀ topic holders, (topics.foldl (addHolder lease) byTopic).get topic = some holders →
      holders.entries ≠ [] := by
  induction topics generalizing byTopic with
  | nil => exact h
  | cons topic' topics ih =>
    exact ih fun _ _ hholders => nonempty_addHolder h hholders

variable {subs : List (Topic × C)} {tx : Sender M}

theorem isSome_get_ofList {add : Topic × C} (h : add ∈ subs) :
    ((HashMap.ofList subs).get add.1).isSome = true := by
  rw [HashMap.get_ofList, Option.isSome_map, List.getLast?_isSome]
  exact List.ne_nil_of_mem (List.mem_filter.mpr ⟨h, BEq.rfl⟩)

theorem get_leases_register {lease : LeaseId} {state : LeaseState M C} (hne :
      lease ≠ ⟨ledger.nextLease⟩) :
    (ledger.register (subs.map Prod.fst) (.ofList subs) tx).1.leases.get lease = some state ↔
      ledger.leases.get lease = some state := by
  rw [Ledger.register]
  dsimp only
  rw [HashMap.get_insert, if_neg (by simpa using hne.symm)]

theorem exists_registered (ledger : Ledger M C) (subs : List (Topic × C)) (tx : Sender M) : ∃ state,
    (ledger.register (subs.map Prod.fst) (.ofList subs) tx).1.leases.get ⟨ledger.nextLease⟩ =
      some state ∧ state.topics = subs.map Prod.fst ∧ state.floors = .ofList subs := by
  rw [Ledger.register]
  dsimp only
  rw [HashMap.get_insert, if_pos BEq.rfl]
  exact ⟨_, rfl, rfl, rfl⟩

theorem Sound.get_nextLease (h : ledger.Sound) : ledger.leases.get ⟨ledger.nextLease⟩ = none := by
  cases hstate : ledger.leases.get ⟨ledger.nextLease⟩ with
  | none => rfl
  | some state => exact absurd (h.fresh _ (by rw [hstate]; rfl)) (Nat.lt_irrefl _)

theorem Sound.leased_register (h : ledger.Sound) :
    (ledger.register (subs.map Prod.fst) (.ofList subs) tx).1.Leased topic ↔
      topic ∈ subs.map Prod.fst ∨ ledger.Leased topic := by
  obtain ⟨registered, hregistered, htopics, _⟩ := exists_registered ledger subs tx
  constructor
  · rintro ⟨lease, state, hstate, htopic⟩
    by_cases hself : lease = ⟨ledger.nextLease⟩
    · rw [hself, hregistered] at hstate
      cases hstate
      rw [htopics] at htopic
      exact .inl htopic
    · exact .inr ⟨lease, state, (get_leases_register hself).mp hstate, htopic⟩
  · rintro (htopic | ⟨lease, state, hstate, htopic⟩)
    · rw [← htopics] at htopic
      exact ⟨_, registered, hregistered, htopic⟩
    · have hne : lease ≠ ⟨ledger.nextLease⟩ := by
        intro heq
        rw [heq, h.get_nextLease] at hstate
        cases hstate
      exact ⟨lease, state, (get_leases_register hne).mpr hstate, htopic⟩

theorem Sound.register (h : ledger.Sound) (subs : List (Topic × C)) (tx : Sender M) :
    (ledger.register (subs.map Prod.fst) (.ofList subs) tx).1.Sound := by
  obtain ⟨registered, hregistered, htopics, hfloors⟩ :=
    exists_registered ledger subs tx
  refine ⟨⟨?_, ?_, ?_⟩, ?_⟩
  · intro lease state hstate topic htopic
    by_cases hself : lease = ⟨ledger.nextLease⟩
    · rw [hself, hregistered] at hstate
      cases hstate
      rw [htopics] at htopic
      obtain ⟨add, hadd, heq⟩ := List.mem_map.mp htopic
      rw [hfloors, ← heq]
      exact isSome_get_ofList hadd
    · exact h.floors lease state ((get_leases_register hself).mp hstate) topic htopic
  · intro topic lease
    have hholds : (ledger.register (subs.map Prod.fst) (.ofList subs) tx).1.Holds topic lease ↔
        ledger.Holds topic lease ∨ topic ∈ subs.map Prod.fst ∧ lease = ⟨ledger.nextLease⟩ :=
      mem_addHolders (subs.map Prod.fst)
    rw [hholds, h.holds_iff]
    by_cases hself : lease = ⟨ledger.nextLease⟩
    · rw [hself, h.get_nextLease, hregistered]
      simp [htopics]
    · simp only [hself, and_false, or_false]
      exact exists_congr fun state => and_congr_left' (get_leases_register hself).symm
  · exact nonempty_addHolders (subs.map Prod.fst) h.nonempty
  · intro lease hlease
    by_cases hself : lease = ⟨ledger.nextLease⟩
    · rw [hself]
      exact Nat.lt_succ_self _
    · obtain ⟨state, hstate⟩ := Option.isSome_iff_exists.mp hlease
      rw [get_leases_register hself] at hstate
      exact (h.fresh lease (by rw [hstate]; rfl)).trans (Nat.lt_succ_self _)

end Register

section Release

def without (lease : LeaseId) (holders : HashSet LeaseId) : Option (HashSet LeaseId) :=
  if (holders.filter (· != lease)).entries.isEmpty then none else some (holders.filter (· != lease))

variable {s : Ledger M C × List Topic}

theorem get_releaseTopic (lease : LeaseId) (s : Ledger M C × List Topic) (topic topic' : Topic) :
    (releaseTopic lease s topic').1.byTopic.get topic =
      if topic' == topic then (s.1.byTopic.get topic).bind (without lease)
      else s.1.byTopic.get topic := by
  rw [releaseTopic]
  dsimp only
  by_cases heq : (topic' == topic) = true
  · rw [if_pos heq, ← eq_of_beq heq]
    cases hholders : s.1.byTopic.get topic' with
    | none => exact hholders
    | some holders =>
      dsimp only
      rw [Option.bind_some, without]
      split
      · exact (HashMap.get_remove _ _ _).trans (if_pos BEq.rfl)
      · exact (HashMap.get_insert _ _ _ _).trans (if_pos BEq.rfl)
  · rw [if_neg heq]
    cases s.1.byTopic.get topic' with
    | none => rfl
    | some holders =>
      dsimp only
      split
      · exact (HashMap.get_remove _ _ _).trans (if_neg heq)
      · exact (HashMap.get_insert _ _ _ _).trans (if_neg heq)

theorem mem_without {lease' : LeaseId} {o : Option (HashSet LeaseId)} :
    (∃ holders, o.bind (without lease) = some holders ∧ lease' ∈ holders.entries) ↔
      (∃ holders, o = some holders ∧ lease' ∈ holders.entries) ∧ lease' ≠ lease := by
  have hfilter (holders : HashSet LeaseId) :
      lease' ∈ (holders.filter (· != lease)).entries ↔ lease' ∈ holders.entries ∧ lease' ≠ lease := by
    rw [HashSet.filter, List.mem_filter, bne_iff_ne]
  cases o with
  | none => simp
  | some holders =>
    rw [Option.bind_some, without]
    split
    · rename_i hempty
      rw [List.isEmpty_iff] at hempty
      have hnone : ¬(lease' ∈ holders.entries ∧ lease' ≠ lease) := by
        rw [← hfilter, hempty]
        exact List.not_mem_nil
      simpa using hnone
    · simp [hfilter]

structure Releases (s s' : Ledger M C × List Topic) : Prop where
  kept : ∀ topic, (s'.1.byTopic.get topic).isSome = true → (s.1.byTopic.get topic).isSome = true
  removes : ∀ topic, topic ∈ s'.2 ↔ topic ∈ s.2 ∨
    (s.1.byTopic.get topic).isSome = true ∧ ¬(s'.1.byTopic.get topic).isSome = true

@[refl] theorem Releases.refl (s : Ledger M C × List Topic) : Releases s s :=
  ⟨fun _ h => h, fun _ => (or_iff_left fun h => h.2 h.1).symm⟩

@[trans] theorem Releases.trans {s s' s'' : Ledger M C × List Topic} (h : Releases s s')
    (h' : Releases s' s'') : Releases s s'' where
  kept topic htopic := h.kept topic (h'.kept topic htopic)
  removes topic := by
    have hkept := h.kept topic
    have hkept' := h'.kept topic
    rw [h'.removes, h.removes]
    tauto

theorem releases_releaseTopic (lease : LeaseId) (s : Ledger M C × List Topic) (topic' : Topic) :
    Releases s (releaseTopic lease s topic') := by
  rw [releaseTopic]
  dsimp only
  cases hholders : s.1.byTopic.get topic' with
  | none => exact .refl s
  | some holders =>
    dsimp only
    have hsome : (s.1.byTopic.get topic').isSome = true := by rw [hholders]; rfl
    split
    · constructor
      · intro topic htopic
        dsimp only at htopic
        rw [HashMap.get_remove] at htopic
        split at htopic
        · cases htopic
        · exact htopic
      · intro topic
        rw [List.mem_append, List.mem_singleton, HashMap.get_remove]
        by_cases heq : (topic' == topic) = true
        · rw [if_pos heq, ← eq_of_beq heq]
          simp [hsome]
        · have hne : ¬topic = topic' := fun h => heq (by rw [h]; exact BEq.rfl)
          rw [if_neg heq]
          simp only [hne, or_false]
          exact (or_iff_left fun h => h.2 h.1).symm
    · have hget (topic : Topic) : ((s.1.byTopic.insert topic'
          (holders.filter (· != lease))).get topic).isSome = (s.1.byTopic.get topic).isSome := by
        rw [HashMap.get_insert]
        by_cases heq : (topic' == topic) = true
        · rw [if_pos heq, ← eq_of_beq heq, hsome]
          rfl
        · rw [if_neg heq]
      constructor
      · intro topic htopic
        exact (hget topic).symm.trans htopic
      · intro topic
        rw [hget]
        exact (or_iff_left fun h => h.2 h.1).symm

theorem releases_releaseTopics (topics : List Topic) (s : Ledger M C × List Topic) :
    Releases s (topics.foldl (releaseTopic lease) s) := by
  induction topics generalizing s with
  | nil => exact .refl s
  | cons topic' topics ih => exact (releases_releaseTopic lease s topic').trans (ih _)

theorem mem_releaseTopics (topics : List Topic) {lease' : LeaseId} :
    (∃ holders, (topics.foldl (releaseTopic lease) s).1.byTopic.get topic = some holders ∧
        lease' ∈ holders.entries) ↔
      (∃ holders, s.1.byTopic.get topic = some holders ∧ lease' ∈ holders.entries) ∧
        ¬(topic ∈ topics ∧ lease' = lease) := by
  induction topics generalizing s with
  | nil => simp
  | cons topic' topics ih =>
    rw [List.foldl_cons, ih, get_releaseTopic, List.mem_cons]
    by_cases heq : (topic' == topic) = true
    · rw [if_pos heq, mem_without, eq_of_beq heq]
      simp only [true_or, true_and, and_assoc]
      exact and_congr_right' ⟨fun h => h.1, fun h => ⟨h, fun h' => h h'.2⟩⟩
    · have hne : ¬topic = topic' := fun h => heq (by rw [h]; exact BEq.rfl)
      rw [if_neg heq]
      simp [hne]

theorem nonempty_releaseTopics (topics : List Topic)
    (h : ∀ topic holders, s.1.byTopic.get topic = some holders → holders.entries ≠ []) :
    ∀ topic holders, (topics.foldl (releaseTopic lease) s).1.byTopic.get topic = some holders →
      holders.entries ≠ [] := by
  induction topics generalizing s with
  | nil => exact h
  | cons topic' topics ih =>
    apply ih
    intro topic holders hholders
    rw [get_releaseTopic] at hholders
    split at hholders
    · obtain ⟨before, _, hwithout⟩ := Option.bind_eq_some_iff.mp hholders
      rw [without] at hwithout
      obtain ⟨hne, heq⟩ := Option.ite_none_left_eq_some.mp hwithout
      rw [← Option.some.inj heq]
      rwa [List.isEmpty_iff] at hne
    · exact h topic holders hholders

variable {state : LeaseState M C} {purged : List WaveId}

theorem nextLease_removeLease :
    (ledger.removeLease lease state purged).1.nextLease = ledger.nextLease := by
  rw [Ledger.removeLease]
  obtain ⟨_, _, _, heq⟩ := releaseTopics_eq state.topics _
  rw [heq]

theorem Sound.removeLease (h : ledger.Sound) (hstate : ledger.leases.get lease = some state) :
    (ledger.removeLease lease state purged).1.Sound := by
  have hback (lease' : LeaseId) (state' : LeaseState M C) :
      (ledger.removeLease lease state purged).1.leases.get lease' = some state' ↔
        lease' ≠ lease ∧ ledger.leases.get lease' = some state' := by
    constructor
    · exact get_leases_of_removeLease
    · rintro ⟨hne, hstate'⟩
      rw [leases_removeLease, HashMap.get_remove, if_neg (by simpa using hne.symm)]
      exact hstate'
  refine ⟨⟨?_, ?_, ?_⟩, ?_⟩
  · intro lease' state' hstate' topic htopic
    exact h.floors lease' state' ((hback lease' state').mp hstate').2 topic htopic
  · intro topic lease'
    have hholds : (ledger.removeLease lease state purged).1.Holds topic lease' ↔
        ledger.Holds topic lease' ∧ ¬(topic ∈ state.topics ∧ lease' = lease) :=
      mem_releaseTopics state.topics
    rw [hholds, h.holds_iff]
    by_cases hself : lease' = lease
    · simp [hself, hback, hstate]
    · simp [hself, hback]
  · exact nonempty_releaseTopics state.topics h.nonempty
  · intro lease' hlease'
    obtain ⟨state', hstate'⟩ := Option.isSome_iff_exists.mp hlease'
    have hfresh := h.fresh lease' (by rw [((hback lease' state').mp hstate').2]; rfl)
    rwa [nextLease_removeLease]

theorem WellFormed.leased_iff (h : ledger.WellFormed) :
    ledger.Leased topic ↔ (ledger.byTopic.get topic).isSome = true := by
  rw [Option.isSome_iff_exists]
  constructor
  · rintro ⟨lease, state, hstate, htopic⟩
    obtain ⟨holders, hholders, _⟩ := (h.holds_iff topic lease).mpr ⟨state, hstate, htopic⟩
    exact ⟨holders, hholders⟩
  · rintro ⟨holders, hholders⟩
    obtain ⟨lease, hlease⟩ := List.exists_mem_of_ne_nil _ (h.nonempty topic holders hholders)
    obtain ⟨state, hstate, htopic⟩ := (h.holds_iff topic lease).mp ⟨holders, hholders, hlease⟩
    exact ⟨lease, state, hstate, htopic⟩

theorem Sound.deref (h : ledger.Sound) :
    (ledger.deref order W dropped lease purged).1.1.Sound := by
  cases hstate : ledger.leases.get lease with
  | none =>
    rw [deref_of_none hstate]
    exact h
  | some state =>
    rw [deref_of_some hstate]
    exact (h.removeLease hstate).same (same_completeAll _ dropped _)

theorem isSome_asked (ledger : Ledger M C) (lease : LeaseId) :
    (ledger.asked lease).isSome = (ledger.leases.get lease).isSome :=
  Option.isSome_map

theorem asked_deref (order : HashOrder) (W : WireBinding M C) (ledger : Ledger M C)
    (dropped : List LeaseId) (lease : LeaseId) (purged : List WaveId) (lease' : LeaseId) :
    (ledger.deref order W dropped lease purged).1.1.asked lease' =
      if lease == lease' then none else ledger.asked lease' := by
  cases hstate : ledger.leases.get lease with
  | none =>
    rw [deref_of_none hstate]
    by_cases heq : (lease == lease') = true
    · rw [if_pos heq, ← eq_of_beq heq, asked, hstate]
      rfl
    · rw [if_neg heq]
  | some state =>
    rw [deref_of_some hstate]
    refine ((same_completeAll _ dropped _).asked lease').trans ?_
    rw [asked, leases_removeLease, HashMap.get_remove, asked]
    split <;> rfl

theorem releases_deref (order : HashOrder) (W : WireBinding M C) (ledger : Ledger M C)
    (dropped : List LeaseId) (lease : LeaseId) (purged : List WaveId) (removes : List Topic) :
    Releases (ledger, removes) ((ledger.deref order W dropped lease purged).1.1,
      removes ++ (ledger.deref order W dropped lease purged).2) := by
  cases hstate : ledger.leases.get lease with
  | none =>
    rw [deref_of_none hstate, List.append_nil]
  | some state =>
    have hreleases : Releases _ (ledger.removeLease lease state purged) :=
      releases_releaseTopics state.topics _
    rw [deref_of_some hstate]
    have hsame : (ledger.removeLease lease state purged).1.SameLeases
        ((ledger.removeLease lease state purged).1.completeAll order W dropped
          (ledger.released order lease purged)).1 := same_completeAll _ dropped _
    constructor
    · intro topic htopic
      dsimp only at htopic
      rw [hsame.byTopic] at htopic
      exact hreleases.kept topic htopic
    · intro topic
      rw [List.mem_append, hreleases.removes]
      simp only [List.not_mem_nil, false_or, hsame.byTopic]

end Release

end Ledger

end LibXmtp.Bidi
