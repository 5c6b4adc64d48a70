import LibXmtp.Bidi.ReconnectPlan

/-! What the reconnect plan adds again: every leased topic in one wave, below the line of each of
its holders. -/

namespace LibXmtp.Bidi

open LibXmtp.Data LibXmtp.Types

variable {M : DeliveryKind → Type} {C : Type} {B : TransportBinding C} {ledger : Ledger M C} {topic : Topic}
  {drafts : List (Draft C)} {draft : Draft C} {plan : TopicPlan C} {cursor : C}

/-- Where the feed of a holder goes on: at its floor pushed past what replays delivered while it
is owed history, and otherwise at the wire position if there is one. -/
def resumeLine (B : TransportBinding C) (ledger : Ledger M C) (state : LeaseState M C)
    (topic : Topic) : Option C :=
  (state.floors.get topic).map fun floor =>
    if state.owedOn B topic then (state.replayed.get topic).elim floor (B.advance floor)
    else (ledger.lastSeen.get topic).getD floor

def ReconnectPlan.addSets (plan : ReconnectPlan C) : List (List (Topic × C)) :=
  plan.resumeAdds :: plan.reissues.map Reissue.adds

/-- One add-set alone has the topic, `n` times and always at the cursor. -/
def ReconnectPlan.AddsOnly (plan : ReconnectPlan C) (topic : Topic) (n : Nat) (cursor : C) : Prop :=
  ∃ adds, (plan.addSets.filter fun adds => adds.any fun add => add.1 == topic) = [adds] ∧
    (adds.filter fun add => add.1 == topic) = List.replicate n (topic, cursor)

structure ReconnectPlan.Covers (B : TransportBinding C) (ledger : Ledger M C)
    (plan : ReconnectPlan C) : Prop where
  added : ∀ topic, ledger.byTopic.containsKey topic = true → ∃ n cursor,
    plan.AddsOnly topic n cursor ∧
    (n = 1 ∨ ∃ id state, ledger.leases.get id = some state ∧ topic ∈ state.topics ∧
      n = state.topics.count topic) ∧
    ∀ id state, ledger.leases.get id = some state → topic ∈ state.topics →
      ∃ line, resumeLine B ledger state topic = some line ∧ B.covers line cursor = true
  once : (∀ id state, ledger.leases.get id = some state → state.topics.Nodup) →
    ∀ topic, ledger.byTopic.containsKey topic = true →
      (plan.addSets.flatten.map Prod.fst).count topic = 1
  leased : ∀ adds ∈ plan.addSets, ∀ add ∈ adds, ledger.byTopic.containsKey add.1 = true
  resumed : ∀ id state, ledger.leases.get id = some state → state.caughtUp = false →
    (plan.reissues.map Reissue.lease ++ plan.orphans).count id = 1

section Lists

variable {α : Type}

theorem filter_eq_singleton {l : List α} {p : α → Bool} {a : α} (hl : l.Nodup) (ha : a ∈ l)
    (h : ∀ b ∈ l, p b = true ↔ b = a) : l.filter p = [a] := by
  induction l with
  | nil => exact absurd ha List.not_mem_nil
  | cons b l ih =>
    obtain ⟨hb, hl⟩ := List.nodup_cons.mp hl
    obtain ⟨hpb, hpl⟩ := List.forall_mem_cons.mp h
    cases List.mem_cons.mp ha with
    | inl heq =>
      subst heq
      rw [List.filter_cons_of_pos (hpb.mpr rfl), List.filter_eq_nil_iff.mpr]
      intro c hc hpc
      rw [(hpl c hc).mp hpc] at hc
      exact hb hc
    | inr ha =>
      rw [List.filter_cons_of_neg, ih hl ha hpl]
      intro hpb'
      rw [hpb.mp hpb'] at hb
      exact hb ha

theorem filter_flatten_filter_any (p : α → Bool) (ls : List (List α)) :
    ls.flatten.filter p = (ls.filter fun l => l.any p).flatten.filter p := by
  induction ls with
  | nil => rfl
  | cons l ls ih =>
    rw [List.flatten_cons, List.filter_append, ih, List.filter_cons]
    by_cases hany : l.any p = true
    · rw [if_pos hany, List.flatten_cons, List.filter_append]
    · rw [if_neg hany, List.filter_eq_nil_iff.mpr, List.nil_append]
      intro a ha hp
      exact hany (List.any_eq_true.mpr ⟨a, ha, hp⟩)

end Lists

section Plans

def offers (drafts : List (Draft C)) : List (Topic × Nat × C) :=
  drafts.zipIdx.flatMap fun (draft, idx) => draft.cands.map fun (topic, cursor) =>
    (topic, idx, cursor)

theorem mem_offers {idx : Nat} : (topic, idx, cursor) ∈ offers drafts ↔
    ∃ draft, drafts[idx]? = some draft ∧ (topic, cursor) ∈ draft.cands := by
  simp only [offers, List.mem_flatMap, List.mem_map, Prod.exists, List.mem_zipIdx_iff_getElem?]
  constructor
  · rintro ⟨draft, i, hdraft, t, c, hmem, heq⟩
    cases heq
    exact ⟨draft, hdraft, hmem⟩
  · rintro ⟨draft, hdraft, hmem⟩
    exact ⟨draft, idx, hdraft, topic, cursor, hmem, rfl⟩

def joinAll (B : TransportBinding C) (es : List (Nat × C)) (o : Option (TopicPlan C)) :
    Option (TopicPlan C) :=
  es.foldl (fun o e => some (o.elim ⟨e.2, e.1⟩ (TopicPlan.join B e.1 e.2))) o

theorem get_topicPlans (drafts : List (Draft C)) (topic : Topic) :
    (topicPlans B drafts).get topic =
      joinAll B (((offers drafts).filter fun e => e.1 == topic).map Prod.snd) none := by
  have hflat : topicPlans B drafts = (offers drafts).foldl
      (fun plans e => plans.modifyOr e.1 (TopicPlan.join B e.2.1 e.2.2) ⟨e.2.2, e.2.1⟩) .empty := by
    simp only [topicPlans, offers, List.foldl_flatMap, List.foldl_map]
  rw [hflat]
  exact HashMap.get_foldl_modifyOr (f := fun e : Nat × C => TopicPlan.join B e.1 e.2)
    (g := fun e => ⟨e.2, e.1⟩) (offers drafts) .empty topic

theorem joinAll_some (es : List (Nat × C)) (plan : TopicPlan C) :
    ∃ plan', joinAll B es (some plan) = some plan' ∧ B.covers plan.meet plan'.meet = true ∧
      (∀ e ∈ es, B.covers e.2 plan'.meet = true) ∧
      (plan'.best = plan.best ∨ ∃ e ∈ es, e.1 = plan'.best) := by
  induction es generalizing plan with
  | nil => exact ⟨plan, rfl, B.covers_refl _, fun e he => absurd he List.not_mem_nil, .inl rfl⟩
  | cons e es ih =>
    obtain ⟨plan', hplan', hmeet, hall, hbest⟩ := ih (plan.join B e.1 e.2)
    refine ⟨plan', hplan', ?_, ?_, ?_⟩
    · exact B.covers_trans (B.covers_meet_left plan.meet e.2) hmeet
    · refine List.forall_mem_cons.mpr ⟨?_, hall⟩
      exact B.covers_trans (B.covers_meet_right plan.meet e.2) hmeet
    · cases hbest with
      | inr hlater =>
        obtain ⟨e', he', heq⟩ := hlater
        exact .inr ⟨e', List.mem_cons_of_mem e he', heq⟩
      | inl hjoin =>
        rw [TopicPlan.join] at hjoin
        dsimp only at hjoin
        split at hjoin
        · exact .inr ⟨e, List.mem_cons_self, hjoin.symm⟩
        · exact .inl hjoin

theorem exists_joinAll {es : List (Nat × C)} (h : es ≠ []) :
    ∃ plan, joinAll B es none = some plan ∧ (∀ e ∈ es, B.covers e.2 plan.meet = true) ∧
      ∃ e ∈ es, e.1 = plan.best := by
  cases es with
  | nil => exact absurd rfl h
  | cons e es =>
    obtain ⟨plan, hplan, hmeet, hall, hbest⟩ := joinAll_some (B := B) es ⟨e.2, e.1⟩
    refine ⟨plan, hplan, List.forall_mem_cons.mpr ⟨hmeet, hall⟩, ?_⟩
    cases hbest with
    | inl heq => exact ⟨e, List.mem_cons_self, heq.symm⟩
    | inr hlater =>
      obtain ⟨e', he', heq⟩ := hlater
      exact ⟨e', List.mem_cons_of_mem e he', heq⟩

theorem topicPlans_covers (hdraft : draft ∈ drafts) (hcand : (topic, cursor) ∈ draft.cands) :
    ∃ plan, (topicPlans B drafts).get topic = some plan := by
  obtain ⟨idx, hidx⟩ := List.mem_iff_getElem?.mp hdraft
  have hne : ((offers drafts).filter fun e => e.1 == topic).map Prod.snd ≠ [] := by
    apply List.ne_nil_of_mem (a := (idx, cursor))
    refine List.mem_map.mpr ⟨(topic, idx, cursor), List.mem_filter.mpr ⟨?_, BEq.rfl⟩, rfl⟩
    exact mem_offers.mpr ⟨draft, hidx, hcand⟩
  obtain ⟨plan, hplan, _⟩ := exists_joinAll (B := B) hne
  exact ⟨plan, (get_topicPlans drafts topic).trans hplan⟩

theorem topicPlans_eq_some (h : (topicPlans B drafts).get topic = some plan) :
    (∀ draft ∈ drafts, ∀ cursor, (topic, cursor) ∈ draft.cands →
      B.covers cursor plan.meet = true) ∧
    ∃ draft, drafts[plan.best]? = some draft ∧ ∃ cursor, (topic, cursor) ∈ draft.cands := by
  rw [get_topicPlans] at h
  have hmem {idx : Nat} {cursor : C} :
      (idx, cursor) ∈ ((offers drafts).filter fun e => e.1 == topic).map Prod.snd ↔
        ∃ draft, drafts[idx]? = some draft ∧ (topic, cursor) ∈ draft.cands := by
    rw [← mem_offers, List.mem_map]
    constructor
    · rintro ⟨e, he, heq⟩
      obtain ⟨he, hkey⟩ := List.mem_filter.mp he
      rw [← eq_of_beq hkey, ← heq]
      exact he
    · intro hoffer
      exact ⟨(topic, idx, cursor), List.mem_filter.mpr ⟨hoffer, BEq.rfl⟩, rfl⟩
  have hne : ((offers drafts).filter fun e => e.1 == topic).map Prod.snd ≠ [] := by
    intro hnil
    rw [hnil] at h
    cases h
  obtain ⟨plan', hplan', hall, e, he, hbest⟩ := exists_joinAll (B := B) hne
  rw [h] at hplan'
  cases hplan'
  constructor
  · intro draft hdraft cursor hcand
    obtain ⟨idx, hidx⟩ := List.mem_iff_getElem?.mp hdraft
    exact hall (idx, cursor) (hmem.mpr ⟨draft, hidx, hcand⟩)
  · obtain ⟨draft, hdraft, hcand⟩ := hmem.mp he
    rw [hbest] at hdraft
    exact ⟨draft, hdraft, e.2, hcand⟩

end Plans

section Drafts

variable {lease : LeaseId} {state : LeaseState M C}

theorem draft_eq_some : ledger.draft B lease = some draft ↔
    ∃ state, ledger.leases.get lease = some state ∧ state.caughtUp = false ∧
      draft = { lease := lease, cands := ledger.cands B state } := by
  rw [Ledger.draft]
  cases hstate : ledger.leases.get lease with
  | none => simp
  | some state =>
    rw [Option.bind_eq_bind, Option.bind_some]
    constructor
    · intro h
      cases hcaught : state.caughtUp with
      | true =>
        rw [hcaught] at h
        cases h
      | false =>
        rw [hcaught] at h
        cases h
        exact ⟨state, rfl, hcaught, rfl⟩
    · rintro ⟨_, heq, hcaught, rfl⟩
      cases heq
      rw [hcaught]
      rfl

theorem mem_interrupted_or_held (h : ledger.leases.get lease = some state)
    (hcatching : state.caughtUp = false) :
    lease ∈ ledger.interrupted.map Prod.snd ++ ledger.held := by
  rw [List.mem_append]
  cases hwaved : ledger.interrupted.any fun wave => wave.2 == lease with
  | true =>
    obtain ⟨wave, hwave, heq⟩ := List.any_eq_true.mp hwaved
    exact .inl (List.mem_map.mpr ⟨wave, hwave, eq_of_beq heq⟩)
  | false =>
    right
    rw [Ledger.held, List.mem_insertionSort, List.mem_map]
    refine ⟨(lease, state), List.mem_filter.mpr ⟨HashMap.get_eq_some_iff.mp h, ?_⟩, rfl⟩
    simp only [hcatching, hwaved, Bool.not_false, Bool.and_self]

theorem exists_state_of_mem_drafts (h : draft ∈ ledger.drafts B) :
    ∃ state, ledger.leases.get draft.lease = some state ∧ state.caughtUp = false ∧
      draft.cands = ledger.cands B state := by
  obtain ⟨lease, _, hdraft⟩ := List.mem_filterMap.mp h
  obtain ⟨state, hstate, hcatching, rfl⟩ := draft_eq_some.mp hdraft
  exact ⟨state, hstate, hcatching, rfl⟩

theorem mem_drafts (h : ledger.leases.get lease = some state) (hcatching : state.caughtUp = false) :
    { lease := lease, cands := ledger.cands B state } ∈ ledger.drafts B := by
  refine List.mem_filterMap.mpr ⟨lease, ?_, draft_eq_some.mpr ⟨state, h, hcatching, rfl⟩⟩
  have hfirst : lease ∈ (firstByKey id [] (ledger.interrupted.map Prod.snd ++
      ledger.held)).map id := by
    refine mem_map_firstByKey.mpr ⟨List.not_mem_nil, ?_⟩
    rw [List.map_id]
    exact mem_interrupted_or_held h hcatching
  rwa [List.map_id] at hfirst

theorem nodup_drafts : ((ledger.drafts B).map Draft.lease).Nodup := by
  have hfirst : ((firstByKey id [] (ledger.interrupted.map Prod.snd ++ ledger.held)).map id).Nodup :=
    nodup_map_firstByKey _ []
  rw [List.map_id] at hfirst
  refine List.pairwise_map.mpr (List.pairwise_filterMap.mpr (hfirst.imp ?_))
  intro lease lease' hne draft hdraft draft' hdraft'
  obtain ⟨_, _, _, rfl⟩ := draft_eq_some.mp hdraft
  obtain ⟨_, _, _, rfl⟩ := draft_eq_some.mp hdraft'
  exact hne

theorem mem_cands : (topic, cursor) ∈ ledger.cands B state ↔ topic ∈ state.topics ∧
    ∃ floor, state.floors.get topic = some floor ∧
      ledger.candidate B state topic floor = cursor := by
  simp only [Ledger.cands, List.mem_filterMap, Option.map_eq_some_iff, Prod.mk.injEq]
  constructor
  · rintro ⟨t, ht, floor, hfloor, rfl, hcand⟩
    exact ⟨ht, floor, hfloor, hcand⟩
  · rintro ⟨ht, floor, hfloor, hcand⟩
    exact ⟨topic, ht, floor, hfloor, rfl, hcand⟩

theorem map_fst_cands (h : ∀ topic ∈ state.topics, (state.floors.get topic).isSome = true) :
    (ledger.cands B state).map Prod.fst = state.topics := by
  rw [Ledger.cands, List.map_filterMap]
  conv_rhs => rw [← List.filterMap_some (l := state.topics)]
  refine List.filterMap_congr fun topic htopic => ?_
  obtain ⟨floor, hfloor⟩ := Option.isSome_iff_exists.mp (h topic htopic)
  rw [hfloor]
  rfl

theorem owedOn_of_floor {floor : C} (hcatching : state.caughtUp = false)
    (hfloor : state.floors.get topic = some floor) :
    state.owedOn B topic = (match state.liveSnap.get topic with
      | none => true
      | some snap =>
        !B.covers floor snap &&
          (state.replayed.get topic).all fun replayed => !B.covers replayed snap) := by
  rw [LeaseState.owedOn, hcatching, hfloor]
  cases state.liveSnap.get topic with
  | none => rfl
  | some snap => cases state.replayed.get topic <;> rfl

theorem resumeLine_of_catching {floor : C} (hcatching : state.caughtUp = false)
    (hfloor : state.floors.get topic = some floor) :
    resumeLine B ledger state topic = some (ledger.candidate B state topic floor) := by
  rw [resumeLine, hfloor, Option.map_some, owedOn_of_floor hcatching hfloor]
  rfl

theorem resumeLine_of_caughtUp {floor : C} (hcaught : state.caughtUp = true)
    (hfloor : state.floors.get topic = some floor) :
    resumeLine B ledger state topic = some ((ledger.lastSeen.get topic).getD floor) := by
  rw [resumeLine, hfloor, Option.map_some, LeaseState.owedOn, hcaught]
  rfl

end Drafts

section Holders

variable {lease : LeaseId} {state : LeaseState M C}

theorem foldCaughtUp_covers (B : TransportBinding C) (ledger : Ledger M C) (topic : Topic)
    (plan : TopicPlan C) :
    (ledger.foldCaughtUp B topic plan).best = plan.best ∧
      B.covers plan.meet (ledger.foldCaughtUp B topic plan).meet = true ∧
      ∀ lease, ledger.Holds topic lease → ∀ line, ledger.caughtUpLine topic lease = some line →
        B.covers line (ledger.foldCaughtUp B topic plan).meet = true := by
  rw [Ledger.foldCaughtUp]
  cases hholders : ledger.byTopic.get topic with
  | none =>
    refine ⟨rfl, B.covers_refl _, ?_⟩
    rintro lease ⟨holders, heq, _⟩
    rw [hholders] at heq
    cases heq
  | some holders =>
    obtain ⟨hstart, hall⟩ := B.covers_foldl_meet
      (holders.entries.filterMap (ledger.caughtUpLine topic)) plan.meet
    refine ⟨rfl, hstart, ?_⟩
    rintro lease ⟨holders', heq, hmem⟩ line hline
    rw [hholders] at heq
    cases heq
    exact hall line (List.mem_filterMap.mpr ⟨lease, hmem, hline⟩)

theorem plans_eq_some : (ledger.plans B).get topic = some plan ↔
    ∃ base, (topicPlans B (ledger.drafts B)).get topic = some base ∧
      ledger.foldCaughtUp B topic base = plan := by
  rw [Ledger.plans, HashMap.get_mapValues, Option.map_eq_some_iff]

theorem line_covers_of_planned (hledger : ledger.WellFormed)
    (hplan : (ledger.plans B).get topic = some plan) (hstate : ledger.leases.get lease = some state)
    (htopic : topic ∈ state.topics) :
    ∃ line, resumeLine B ledger state topic = some line ∧ B.covers line plan.meet = true := by
  obtain ⟨base, hbase, rfl⟩ := plans_eq_some.mp hplan
  obtain ⟨_, hmeet, hholders⟩ := foldCaughtUp_covers B ledger topic base
  obtain ⟨floor, hfloor⟩ := Option.isSome_iff_exists.mp (hledger.floors lease state hstate topic htopic)
  cases hcaught : state.caughtUp with
  | false =>
    refine ⟨_, resumeLine_of_catching hcaught hfloor, ?_⟩
    have hcand : (topic, _) ∈ ledger.cands B state := mem_cands.mpr ⟨htopic, floor, hfloor, rfl⟩
    have hbelow := (topicPlans_eq_some hbase).1 _ (mem_drafts hstate hcaught) _ hcand
    exact B.covers_trans hbelow hmeet
  | true =>
    refine ⟨_, resumeLine_of_caughtUp hcaught hfloor, ?_⟩
    apply hholders lease ((hledger.holds_iff topic lease).mpr ⟨state, hstate, htopic⟩)
    rw [Ledger.caughtUpLine, hstate, Option.bind_eq_bind, Option.bind_some, hcaught, if_pos rfl,
      hfloor]
    cases ledger.lastSeen.get topic <;> rfl

theorem caughtUp_of_unplanned (hledger : ledger.WellFormed)
    (hplan : (ledger.plans B).get topic = none) (hstate : ledger.leases.get lease = some state)
    (htopic : topic ∈ state.topics) : state.caughtUp = true := by
  cases hcaught : state.caughtUp with
  | true => rfl
  | false =>
    obtain ⟨floor, hfloor⟩ :=
      Option.isSome_iff_exists.mp (hledger.floors lease state hstate topic htopic)
    have hcand : (topic, _) ∈ ledger.cands B state := mem_cands.mpr ⟨htopic, floor, hfloor, rfl⟩
    obtain ⟨base, hbase⟩ := topicPlans_covers (B := B) (mem_drafts hstate hcaught) hcand
    rw [plans_eq_some.mpr ⟨base, hbase, rfl⟩] at hplan
    cases hplan

theorem exists_resumeCursor (hledger : ledger.WellFormed)
    (hplan : (ledger.plans B).get topic = none) {holders : HashSet LeaseId}
    (hholders : ledger.byTopic.get topic = some holders) :
    ∃ cursor, ledger.resumeCursor B topic holders = some cursor ∧
      ∀ lease state, ledger.leases.get lease = some state → topic ∈ state.topics →
        ∃ line, resumeLine B ledger state topic = some line ∧ B.covers line cursor = true := by
  have hline : ∀ lease state, ledger.leases.get lease = some state → topic ∈ state.topics →
      ∃ floor, state.floors.get topic = some floor ∧
        resumeLine B ledger state topic = some ((ledger.lastSeen.get topic).getD floor) := by
    intro lease state hstate htopic
    obtain ⟨floor, hfloor⟩ :=
      Option.isSome_iff_exists.mp (hledger.floors lease state hstate topic htopic)
    have hcaught := caughtUp_of_unplanned hledger hplan hstate htopic
    exact ⟨floor, hfloor, resumeLine_of_caughtUp hcaught hfloor⟩
  rw [Ledger.resumeCursor]
  cases hseen : ledger.lastSeen.get topic with
  | some seen =>
    refine ⟨seen, rfl, ?_⟩
    intro lease state hstate htopic
    obtain ⟨floor, _, hresume⟩ := hline lease state hstate htopic
    rw [hseen] at hresume
    exact ⟨seen, hresume, B.covers_refl seen⟩
  | none =>
    have hfloors : ∀ lease state floor, ledger.leases.get lease = some state →
        topic ∈ state.topics → state.floors.get topic = some floor →
        floor ∈ ledger.holderFloors topic holders := by
      intro lease state floor hstate htopic hfloor
      obtain ⟨holders', heq, hmem⟩ := (hledger.holds_iff topic lease).mpr ⟨state, hstate, htopic⟩
      rw [hholders] at heq
      cases heq
      refine List.mem_filterMap.mpr ⟨lease, hmem, ?_⟩
      rw [hstate, Option.bind_eq_bind, Option.bind_some, hfloor]
    have hne : ledger.holderFloors topic holders ≠ [] := by
      obtain ⟨lease, hlease⟩ :=
        List.exists_mem_of_ne_nil _ (hledger.nonempty topic holders hholders)
      obtain ⟨state, hstate, htopic⟩ :=
        (hledger.holds_iff topic lease).mp ⟨holders, hholders, hlease⟩
      obtain ⟨floor, hfloor, _⟩ := hline lease state hstate htopic
      exact List.ne_nil_of_mem (hfloors lease state floor hstate htopic hfloor)
    obtain ⟨cursor, hcursor, hall⟩ := B.exists_meetAll hne
    refine ⟨cursor, hcursor, ?_⟩
    intro lease state hstate htopic
    obtain ⟨floor, hfloor, hresume⟩ := hline lease state hstate htopic
    rw [hseen] at hresume
    exact ⟨floor, hresume, hall floor (hfloors lease state floor hstate htopic hfloor)⟩

end Holders

section Carriers

variable {plans : HashMap Topic (TopicPlan C)} {idx : Nat}

theorem carriedAdd_eq_some {add : Topic × C} : carriedAdd plans idx topic = some add ↔
    ∃ plan, plans.get topic = some plan ∧ plan.best = idx ∧ add = (topic, plan.meet) := by
  rw [carriedAdd, Option.bind_eq_bind, Option.bind_eq_some_iff]
  refine exists_congr fun plan => and_congr_right fun _ => ?_
  rw [Option.ite_none_right_eq_some, Option.some.injEq, eq_comm (a := add)]

theorem mem_carriedAdds : (topic, cursor) ∈ carriedAdds plans draft idx ↔
    topic ∈ draft.cands.map Prod.fst ∧
      ∃ plan, plans.get topic = some plan ∧ plan.best = idx ∧ plan.meet = cursor := by
  rw [carriedAdds, List.mem_filterMap]
  constructor
  · rintro ⟨cand, hcand, hadd⟩
    obtain ⟨plan, hplan, hbest, heq⟩ := carriedAdd_eq_some.mp hadd
    cases heq
    exact ⟨List.mem_map_of_mem hcand, plan, hplan, hbest, rfl⟩
  · rintro ⟨hmem, plan, hplan, hbest, rfl⟩
    obtain ⟨cand, hcand, rfl⟩ := List.mem_map.mp hmem
    exact ⟨cand, hcand, carriedAdd_eq_some.mpr ⟨plan, hplan, hbest, rfl⟩⟩

theorem any_carriedAdds :
    ((carriedAdds plans draft idx).any fun add => add.1 == topic) = true ↔
      topic ∈ draft.cands.map Prod.fst ∧
        ∃ plan, plans.get topic = some plan ∧ plan.best = idx := by
  rw [List.any_eq_true]
  constructor
  · rintro ⟨add, hadd, heq⟩
    rw [← eq_of_beq heq]
    obtain ⟨hmem, plan, hplan, hbest, _⟩ := mem_carriedAdds.mp hadd
    exact ⟨hmem, plan, hplan, hbest⟩
  · rintro ⟨hmem, plan, hplan, hbest⟩
    exact ⟨(topic, plan.meet), mem_carriedAdds.mpr ⟨hmem, plan, hplan, hbest, rfl⟩, BEq.rfl⟩

theorem filter_carriedAdds (hplan : plans.get topic = some plan) :
    ((carriedAdds plans draft plan.best).filter fun add => add.1 == topic) =
      List.replicate ((draft.cands.map Prod.fst).count topic) (topic, plan.meet) := by
  rw [carriedAdds]
  induction draft.cands with
  | nil => rfl
  | cons e es ih =>
    rw [List.map_cons, List.count_cons]
    by_cases hkey : (e.1 == topic) = true
    · have hcarried : carriedAdd plans plan.best e.1 = some (topic, plan.meet) :=
        carriedAdd_eq_some.mpr ⟨plan, by rw [eq_of_beq hkey, hplan], rfl, by rw [eq_of_beq hkey]⟩
      rw [List.filterMap_cons, hcarried, if_pos hkey, List.replicate_succ, ← ih]
      exact List.filter_cons_of_pos BEq.rfl
    · rw [if_neg hkey, Nat.add_zero, ← ih]
      cases hcarried : carriedAdd plans plan.best e.1 with
      | none => rw [List.filterMap_cons, hcarried]
      | some add =>
        obtain ⟨plan', _, _, heq⟩ := carriedAdd_eq_some.mp hcarried
        rw [List.filterMap_cons, hcarried]
        apply List.filter_cons_of_neg
        rw [heq]
        exact hkey

theorem map_adds_reissueOf (carried : List (LeaseId × List (Topic × C))) :
    (carried.filterMap reissueOf).map Reissue.adds =
      (carried.map Prod.snd).filter fun adds => !adds.isEmpty := by
  induction carried with
  | nil => rfl
  | cons c cs ih =>
    rw [List.map_cons, List.filterMap_cons, List.filter_cons, reissueOf]
    cases hempty : c.2.isEmpty with
    | true => exact ih
    | false => exact congrArg (c.2 :: ·) ih

theorem perm_reissues_orphans (carried : List (LeaseId × List (Topic × C))) :
    ((carried.filterMap reissueOf).map Reissue.lease ++ carried.filterMap orphanOf).Perm
      (carried.map Prod.fst) := by
  induction carried with
  | nil => rfl
  | cons c cs ih =>
    rw [List.map_cons, List.filterMap_cons, List.filterMap_cons, reissueOf, orphanOf]
    cases hempty : c.2.isEmpty with
    | true => exact List.perm_middle.trans (ih.cons c.1)
    | false => exact ih.cons c.1

theorem filter_reissues (p : List (Topic × C) → Bool) (hp : p [] = false) :
    (((ledger.carried B).filterMap reissueOf).map Reissue.adds).filter p =
      ((ledger.drafts B).zipIdx.filter fun d => p (carriedAdds (ledger.plans B) d.1 d.2)).map
        fun d => carriedAdds (ledger.plans B) d.1 d.2 := by
  have hnonempty : ∀ adds : List (Topic × C), (p adds && !adds.isEmpty) = p adds := by
    intro adds
    cases adds with
    | nil => rw [hp, Bool.false_and]
    | cons add adds => exact Bool.and_true _
  rw [map_adds_reissueOf, List.filter_filter]
  simp only [hnonempty]
  rw [Ledger.carried, List.map_map, List.filter_map]
  rfl

theorem filter_reissues_of_unplanned (hplan : (ledger.plans B).get topic = none) :
    (((ledger.carried B).filterMap reissueOf).map Reissue.adds).filter
      (fun adds => adds.any fun add => add.1 == topic) = [] := by
  rw [filter_reissues (fun adds => adds.any fun add => add.1 == topic) rfl,
    List.filter_eq_nil_iff.mpr, List.map_nil]
  intro d _ hany
  obtain ⟨_, plan, heq, _⟩ := any_carriedAdds.mp hany
  rw [hplan] at heq
  cases heq

theorem filter_reissues_of_planned (hplan : (ledger.plans B).get topic = some plan) :
    ∃ draft ∈ ledger.drafts B, topic ∈ draft.cands.map Prod.fst ∧
      (((ledger.carried B).filterMap reissueOf).map Reissue.adds).filter
        (fun adds => adds.any fun add => add.1 == topic) =
          [carriedAdds (ledger.plans B) draft plan.best] := by
  obtain ⟨base, hbase, hfold⟩ := plans_eq_some.mp hplan
  obtain ⟨hbest, _⟩ := foldCaughtUp_covers B ledger topic base
  rw [hfold] at hbest
  obtain ⟨_, draft, hdraft, cursor, hcand⟩ := topicPlans_eq_some hbase
  rw [← hbest] at hdraft
  have htopic : topic ∈ draft.cands.map Prod.fst := List.mem_map.mpr ⟨_, hcand, rfl⟩
  refine ⟨draft, List.mem_of_getElem? hdraft, htopic, ?_⟩
  rw [filter_reissues (fun adds => adds.any fun add => add.1 == topic) rfl]
  have hsingle : ((ledger.drafts B).zipIdx.filter fun d =>
      (carriedAdds (ledger.plans B) d.1 d.2).any fun add => add.1 == topic) =
        [(draft, plan.best)] := by
    apply filter_eq_singleton
    · apply List.Nodup.of_map Prod.snd
      rw [List.zipIdx_map_snd]
      exact List.nodup_range'
    · exact List.mem_zipIdx_iff_getElem?.mpr hdraft
    · rintro ⟨draft', idx⟩ hmem
      rw [any_carriedAdds]
      constructor
      · rintro ⟨_, plan', hplan', rfl⟩
        rw [hplan] at hplan'
        cases hplan'
        have hdraft' := List.mem_zipIdx_iff_getElem?.mp hmem
        rw [hdraft] at hdraft'
        rw [Option.some.inj hdraft']
      · intro heq
        cases heq
        exact ⟨htopic, plan, hplan, rfl⟩
  rw [hsingle]
  rfl

end Carriers

section ResumeAdds

theorem mem_resumeAdds : (topic, cursor) ∈ ledger.resumeAdds B ↔
    (ledger.plans B).get topic = none ∧ ∃ holders, ledger.byTopic.get topic = some holders ∧
      ledger.resumeCursor B topic holders = some cursor := by
  simp only [Ledger.resumeAdds, List.mem_filterMap, Prod.exists, HashMap.containsKey_eq_isSome_get,
    Option.ite_none_left_eq_some, Option.map_eq_some_iff, Prod.mk.injEq,
    Option.not_isSome_iff_eq_none]
  constructor
  · rintro ⟨t, holders, hmem, hplan, c, hcursor, rfl, rfl⟩
    exact ⟨hplan, holders, HashMap.get_eq_some_iff.mpr hmem, hcursor⟩
  · rintro ⟨hplan, holders, hget, hcursor⟩
    exact ⟨topic, holders, HashMap.get_eq_some_iff.mp hget, hplan, cursor, hcursor, rfl, rfl⟩

theorem nodup_resumeAdds : (ledger.resumeAdds B).Nodup := by
  rw [Ledger.resumeAdds]
  refine List.pairwise_filterMap.mpr (ledger.byTopic.distinct.imp ?_)
  rintro ⟨t, holders⟩ ⟨t', holders'⟩ hne add hadd add' hadd' heq
  obtain ⟨_, hadd⟩ := Option.ite_none_left_eq_some.mp hadd
  obtain ⟨_, hadd'⟩ := Option.ite_none_left_eq_some.mp hadd'
  obtain ⟨c, _, rfl⟩ := Option.map_eq_some_iff.mp hadd
  obtain ⟨c', _, rfl⟩ := Option.map_eq_some_iff.mp hadd'
  rw [Prod.mk.injEq] at heq
  rw [heq.1, BEq.rfl] at hne
  cases hne

theorem filter_resumeAdds {holders : HashSet LeaseId} (hplan : (ledger.plans B).get topic = none)
    (hholders : ledger.byTopic.get topic = some holders)
    (hcursor : ledger.resumeCursor B topic holders = some cursor) :
    ((ledger.resumeAdds B).filter fun add => add.1 == topic) = [(topic, cursor)] := by
  apply filter_eq_singleton nodup_resumeAdds
  · exact mem_resumeAdds.mpr ⟨hplan, holders, hholders, hcursor⟩
  · rintro ⟨t, c⟩ hmem
    constructor
    · intro heq
      have htopic : t = topic := eq_of_beq heq
      rw [htopic] at hmem
      obtain ⟨_, holders', hholders', hcursor'⟩ := mem_resumeAdds.mp hmem
      rw [hholders] at hholders'
      cases hholders'
      rw [hcursor] at hcursor'
      rw [htopic, Option.some.inj hcursor']
    · intro heq
      cases heq
      exact BEq.rfl

end ResumeAdds

theorem ReconnectPlan.AddsOnly.count_eq {plan : ReconnectPlan C} {n : Nat}
    (h : plan.AddsOnly topic n cursor) : (plan.addSets.flatten.map Prod.fst).count topic = n := by
  obtain ⟨adds, hadds, hfilter⟩ := h
  have hall : plan.addSets.flatten.filter (fun add => add.1 == topic) =
      List.replicate n (topic, cursor) := by
    rw [filter_flatten_filter_any, hadds, List.flatten_singleton, hfilter]
  rw [List.count, List.countP_map, List.countP_eq_length_filter]
  exact (congrArg List.length hall).trans List.length_replicate

theorem ReconnectPlan.AddsOnly.mem {plan : ReconnectPlan C} {n : Nat}
    (h : plan.AddsOnly topic n cursor) : topic ∈ plan.addSets.flatten.map Prod.fst := by
  obtain ⟨adds, hadds, _⟩ := h
  have hmem : adds ∈ plan.addSets.filter fun adds => adds.any fun add => add.1 == topic := by
    rw [hadds]
    exact List.mem_singleton_self adds
  obtain ⟨hset, hany⟩ := List.mem_filter.mp hmem
  obtain ⟨add, hadd, heq⟩ := List.any_eq_true.mp hany
  exact List.mem_map.mpr ⟨add, List.mem_flatten.mpr ⟨adds, hset, hadd⟩, eq_of_beq heq⟩

section Plan

variable {plan : ReconnectPlan C}

theorem exists_reconnectPlan (h : ledger.byTopic.entries ≠ []) :
    ∃ plan, ledger.reconnectPlan B = some plan ∧ plan.resumeAdds = ledger.resumeAdds B ∧
      plan.reissues = (ledger.carried B).filterMap reissueOf ∧
      plan.orphans = (ledger.carried B).filterMap orphanOf := by
  rw [Ledger.reconnectPlan, if_neg (by rwa [List.isEmpty_iff])]
  exact ⟨_, rfl, rfl, rfl, rfl⟩

theorem eqs_of_reconnectPlan (h : ledger.reconnectPlan B = some plan) :
    plan.resumeAdds = ledger.resumeAdds B ∧
      plan.reissues = (ledger.carried B).filterMap reissueOf ∧
      plan.orphans = (ledger.carried B).filterMap orphanOf := by
  obtain ⟨_, heq⟩ := Option.ite_none_left_eq_some.mp h
  cases heq
  exact ⟨rfl, rfl, rfl⟩

theorem addsOnly_of_unplanned (hresume : plan.resumeAdds = ledger.resumeAdds B)
    (hreissues : plan.reissues = (ledger.carried B).filterMap reissueOf)
    {holders : HashSet LeaseId} (hplan : (ledger.plans B).get topic = none)
    (hholders : ledger.byTopic.get topic = some holders)
    (hcursor : ledger.resumeCursor B topic holders = some cursor) :
    plan.AddsOnly topic 1 cursor := by
  have hfilter := filter_resumeAdds hplan hholders hcursor
  refine ⟨ledger.resumeAdds B, ?_, hfilter⟩
  rw [ReconnectPlan.addSets, hresume, hreissues, List.filter_cons_of_pos,
    filter_reissues_of_unplanned hplan]
  exact List.any_eq_true.mpr ⟨(topic, cursor),
    mem_resumeAdds.mpr ⟨hplan, holders, hholders, hcursor⟩, BEq.rfl⟩

theorem addsOnly_of_planned {topicPlan : TopicPlan C} (hledger : ledger.WellFormed)
    (hresume : plan.resumeAdds = ledger.resumeAdds B)
    (hreissues : plan.reissues = (ledger.carried B).filterMap reissueOf)
    (hplan : (ledger.plans B).get topic = some topicPlan) :
    ∃ id state, ledger.leases.get id = some state ∧ topic ∈ state.topics ∧
      plan.AddsOnly topic (state.topics.count topic) topicPlan.meet := by
  obtain ⟨draft, hdraft, htopic, hcarrier⟩ := filter_reissues_of_planned hplan
  obtain ⟨state, hstate, _, hcands⟩ := exists_state_of_mem_drafts hdraft
  have htopics : draft.cands.map Prod.fst = state.topics := by
    rw [hcands]
    exact map_fst_cands (hledger.floors draft.lease state hstate)
  rw [htopics] at htopic
  refine ⟨draft.lease, state, hstate, htopic, carriedAdds (ledger.plans B) draft topicPlan.best,
    ?_, ?_⟩
  · rw [ReconnectPlan.addSets, hresume, hreissues, List.filter_cons_of_neg, hcarrier]
    intro hany
    obtain ⟨⟨t, c⟩, hmem, heq⟩ := List.any_eq_true.mp hany
    have hunplanned := (mem_resumeAdds.mp hmem).1
    rw [show t = topic from eq_of_beq heq, hplan] at hunplanned
    cases hunplanned
  · rw [filter_carriedAdds hplan, htopics]

theorem exists_addsOnly (hledger : ledger.WellFormed)
    (hresume : plan.resumeAdds = ledger.resumeAdds B)
    (hreissues : plan.reissues = (ledger.carried B).filterMap reissueOf)
    (htopic : ledger.byTopic.containsKey topic = true) : ∃ n cursor,
      plan.AddsOnly topic n cursor ∧
      (n = 1 ∨ ∃ id state, ledger.leases.get id = some state ∧ topic ∈ state.topics ∧
        n = state.topics.count topic) ∧
      ∀ id state, ledger.leases.get id = some state → topic ∈ state.topics →
        ∃ line, resumeLine B ledger state topic = some line ∧ B.covers line cursor = true := by
  rw [HashMap.containsKey_eq_isSome_get] at htopic
  obtain ⟨holders, hholders⟩ := Option.isSome_iff_exists.mp htopic
  cases hplanned : (ledger.plans B).get topic with
  | none =>
    obtain ⟨cursor, hcursor, hlines⟩ := exists_resumeCursor hledger hplanned hholders
    exact ⟨1, cursor, addsOnly_of_unplanned hresume hreissues hplanned hholders hcursor,
      .inl rfl, hlines⟩
  | some topicPlan =>
    obtain ⟨id, state, hstate, hmem, hadds⟩ :=
      addsOnly_of_planned hledger hresume hreissues hplanned
    exact ⟨_, topicPlan.meet, hadds, .inr ⟨id, state, hstate, hmem, rfl⟩,
      fun id state hstate htopic => line_covers_of_planned hledger hplanned hstate htopic⟩

theorem leased_of_mem_addSets (hledger : ledger.WellFormed)
    (hresume : plan.resumeAdds = ledger.resumeAdds B)
    (hreissues : plan.reissues = (ledger.carried B).filterMap reissueOf)
    {adds : List (Topic × C)} (hadds : adds ∈ plan.addSets) {add : Topic × C} (hadd : add ∈ adds) :
    ledger.byTopic.containsKey add.1 = true := by
  rw [ReconnectPlan.addSets, hresume, hreissues, map_adds_reissueOf] at hadds
  rw [HashMap.containsKey_eq_isSome_get]
  cases List.mem_cons.mp hadds with
  | inl heq =>
    subst heq
    obtain ⟨_, holders, hholders, _⟩ := mem_resumeAdds.mp hadd
    rw [hholders]
    rfl
  | inr hcarried =>
    obtain ⟨carried, hmem, rfl⟩ := List.mem_map.mp (List.mem_filter.mp hcarried).1
    obtain ⟨⟨draft, idx⟩, hdraft, rfl⟩ := List.mem_map.mp hmem
    obtain ⟨hcand, _⟩ := mem_carriedAdds.mp hadd
    obtain ⟨state, hstate, _, hcands⟩ :=
      exists_state_of_mem_drafts (List.mem_of_getElem? (List.mem_zipIdx_iff_getElem?.mp hdraft))
    rw [hcands, map_fst_cands (hledger.floors draft.lease state hstate)] at hcand
    obtain ⟨holders, hholders, _⟩ :=
      (hledger.holds_iff add.1 draft.lease).mpr ⟨state, hstate, hcand⟩
    rw [hholders]
    rfl

theorem count_resumed (hreissues : plan.reissues = (ledger.carried B).filterMap reissueOf)
    (horphans : plan.orphans = (ledger.carried B).filterMap orphanOf) {id : LeaseId}
    {state : LeaseState M C} (hstate : ledger.leases.get id = some state)
    (hcatching : state.caughtUp = false) :
    (plan.reissues.map Reissue.lease ++ plan.orphans).count id = 1 := by
  have hleases : (ledger.carried B).map Prod.fst = (ledger.drafts B).map Draft.lease := by
    conv_rhs => rw [← List.zipIdx_map_fst 0 (ledger.drafts B), List.map_map]
    rw [Ledger.carried, List.map_map]
    rfl
  rw [hreissues, horphans, (perm_reissues_orphans (ledger.carried B)).count_eq, hleases]
  apply List.count_eq_one_of_mem nodup_drafts
  exact List.mem_map.mpr ⟨_, mem_drafts hstate hcatching, rfl⟩

end Plan

theorem reconnectPlan_covers (B : TransportBinding C) (ledger : Ledger M C)
    (hledger : ledger.WellFormed) (hleased : ledger.byTopic.entries ≠ []) :
    ∃ plan, ledger.reconnectPlan B = some plan ∧ plan.Covers B ledger := by
  obtain ⟨plan, hplan, hresume, hreissues, horphans⟩ := exists_reconnectPlan (B := B) hleased
  refine ⟨plan, hplan, fun _ => exists_addsOnly hledger hresume hreissues, ?_, ?_, ?_⟩
  · intro hdistinct topic htopic
    obtain ⟨n, cursor, hadds, hn, _⟩ := exists_addsOnly hledger hresume hreissues htopic
    rw [hadds.count_eq]
    rcases hn with hn | ⟨id, state, hstate, hmem, hn⟩
    · exact hn
    · rw [hn]
      exact List.count_eq_one_of_mem (hdistinct id state hstate) hmem
  · intro adds hadds add hadd
    exact leased_of_mem_addSets hledger hresume hreissues hadds hadd
  · intro id state hstate hcatching
    exact count_resumed hreissues horphans hstate hcatching

def leaseOf (floors : List (Topic × C)) : LeaseState (fun _ => Nat) C where
  tx := { depth := 1 }
  topics := floors.map Prod.fst
  floors := .ofList floors

/-- The wire has died under three leases of one topic. The first one is replaying it, the second
one waits for it without a wave of its own, and the third one is caught up on it and on another. -/
def flapped (low high : C) : Ledger (fun _ => Nat) C where
  leases := .ofList
    [({ id := 1 }, leaseOf [([1], low), ([2], low)]), ({ id := 2 }, leaseOf [([1], high)]),
      ({ id := 3 }, { leaseOf [([1], high), ([3], low)] with caughtUp := true })]
  byTopic := .ofList
    [([1], HashSet.empty.extend [{ id := 1 }, { id := 2 }, { id := 3 }]),
      ([2], HashSet.empty.extend [{ id := 1 }]), ([3], HashSet.empty.extend [{ id := 3 }])]
  lastSeen := .ofList [([3], high)]
  pendingWaves := .ofList [({ id := 5 }, { owner := .lease { id := 1 } })]

theorem reconnectPlan_covers_flapped :
    (∃ plan, (flapped 3 7).reconnectPlan V3Binding = some plan ∧
      plan.Covers V3Binding (flapped 3 7)) ∧
    ∃ plan, (flapped ((default : GlobalCursor).insert 1 3)
        ((default : GlobalCursor).insert 2 7)).reconnectPlan VectorBinding = some plan ∧
      plan.Covers VectorBinding (flapped ((default : GlobalCursor).insert 1 3)
        ((default : GlobalCursor).insert 2 7)) := by
  constructor
  · apply reconnectPlan_covers V3Binding (flapped 3 7)
    · exact Ledger.wellFormed_of_isWellFormed (by decide +kernel)
    · exact List.ne_nil_of_mem List.mem_cons_self
  · apply reconnectPlan_covers VectorBinding
    · exact Ledger.wellFormed_of_isWellFormed (by decide +kernel)
    · exact List.ne_nil_of_mem List.mem_cons_self

example : (flapped 3 7).reconnectPlan V3Binding = some {
    resumeAdds := [([3], 7)]
    reissues := [{ lease := { id := 1 }, adds := [([1], 3), ([2], 3)] }]
    orphans := [{ id := 2 }] } := by
  rfl

def listedTwice : Ledger (fun _ => Nat) UInt64 where
  leases := .ofList [({ id := 1 }, leaseOf [([1], 0), ([1], 0)])]
  byTopic := .ofList [([1], HashSet.empty.extend [{ id := 1 }])]
  pendingWaves := .ofList [({ id := 1 }, { owner := .lease { id := 1 } })]

theorem listedTwice_added_twice : listedTwice.WellFormed ∧
    ∃ plan, listedTwice.reconnectPlan V3Binding = some plan ∧
      (plan.addSets.flatten.map Prod.fst).count [1] = 2 :=
  ⟨Ledger.wellFormed_of_isWellFormed (by decide +kernel), _, rfl, by decide +kernel⟩

end LibXmtp.Bidi
