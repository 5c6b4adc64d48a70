import LibXmtp.Mls.IdentityUpdates

namespace LibXmtp.Mls

open LibXmtp.Data LibXmtp.Associations LibXmtp.Db

section

variable {Key : Type} (env : Env Key)

structure CachedState (updates : IdentityUpdates) (c : StoredAssociationState) : Prop where
  stored : ∃ u ∈ updates.rows, u.key = c.key
  state : ∃ proto s t, env.codec.decodeState c.state = some proto ∧
    AssociationState.tryFrom env.crates proto = .ok s ∧
    stateAt env updates c.inboxId c.sequenceId = .ok t ∧ s.Equiv t

/-- The database holds these updates, and its cache is right about them. -/
structure Consistent (updates : IdentityUpdates) (db : Database) : Prop where
  identityUpdates : db.identityUpdates = updates
  cache : ∀ c ∈ db.associationState.rows, CachedState env updates c

def replayState (updates : IdentityUpdates) (inboxId : String) (toSequenceId : Option Int) :
    Except ClientError AssociationState := do
  let last ← okOr (getIdentityUpdates updates inboxId none toSequenceId).getLast?
    missingIdentityUpdate
  rejectIf (toSequenceId.any (· != last.sequenceId)) missingIdentityUpdate
  stateAt env updates inboxId last.sequenceId

def reached (updates : IdentityUpdates) (inboxId : String) (start : Int) (ending : Option Int) :
    Int :=
  ((getIdentityUpdates updates inboxId (some start) ending).getLast?.map
    StoredIdentityUpdate.sequenceId).getD start

structure DiffResult (updates : IdentityUpdates) (inboxId : String) (start : Int)
    (ending : Option Int) (r : Except ClientError AssociationStateDiff) : Prop where
  failed : ∀ e, replayState env updates inboxId (some start) = .error e → r = .error e
  gap : ∀ s last, replayState env updates inboxId (some start) = .ok s →
    (getIdentityUpdates updates inboxId (some start) ending).getLast? = some last →
    ending.any (· != last.sequenceId) → r = .error missingIdentityUpdate
  ok : ∀ d, r = .ok d → ∃ s t, replayState env updates inboxId (some start) = .ok s ∧
    stateAt env updates inboxId (reached updates inboxId start ending) = .ok t ∧
    d.Equiv (s.diff t)
  unchanged : ∀ s, replayState env updates inboxId (some start) = .ok s →
    getIdentityUpdates updates inboxId (some start) ending = [] → ∃ d, r = .ok d

variable {env}

theorem stateAt_eq_ok {updates : IdentityUpdates} {inboxId : String} {k : Int}
    {s : AssociationState} :
    stateAt env updates inboxId k = .ok s ↔
      ∃ us, loadUpdates env (getIdentityUpdates updates inboxId none (some k)) = .ok us ∧
        getState env.crates us = .ok s := by
  simp [stateAt]

theorem replayState_eq_ok {updates : IdentityUpdates} {inboxId : String} {toId : Option Int}
    {s : AssociationState} :
    replayState env updates inboxId toId = .ok s ↔
      ∃ last, (getIdentityUpdates updates inboxId none toId).getLast? = some last ∧
        toId.any (· != last.sequenceId) = false ∧
        stateAt env updates inboxId last.sequenceId = .ok s := by
  simp [replayState]

theorem loadUpdates_append {as bs : List StoredIdentityUpdate} {us vs : List IdentityUpdate}
    (has : loadUpdates env as = .ok us) (hbs : loadUpdates env bs = .ok vs) :
    loadUpdates env (as ++ bs) = .ok (us ++ vs) := by
  simp only [loadUpdates, verifyUpdates, bind_eq_ok, mapError_eq_ok] at has hbs ⊢
  obtain ⟨ua, hua, hus⟩ := has
  obtain ⟨ub, hub, hvs⟩ := hbs
  exact ⟨ua ++ ub, mapM_append_eq_ok.mpr ⟨ua, ub, hua, hub, rfl⟩,
    mapM_append_eq_ok.mpr ⟨us, vs, hus, hvs, rfl⟩⟩

theorem stateAt_increment {updates : IdentityUpdates} {inboxId : String} {j k : Int}
    {s s₀ t₀ : AssociationState} {vs : List IdentityUpdate} (hjk : j ≤ k)
    (hs : stateAt env updates inboxId j = .ok s) (heq : s₀.Equiv s)
    (hvs : loadUpdates env (getIdentityUpdates updates inboxId (some j) (some k)) = .ok vs)
    (ht : vs.foldlM (applyUpdate env.crates) s₀ = .ok t₀) :
    ∃ t, stateAt env updates inboxId k = .ok t ∧ t₀.Equiv t := by
  obtain ⟨us, hus, hstate⟩ := stateAt_eq_ok.mp hs
  obtain ⟨t, ht, heq'⟩ := getState_append_of_equiv hstate heq ht
  refine ⟨t, stateAt_eq_ok.mpr ⟨us ++ vs, ?_, ht⟩, heq'⟩
  rw [getIdentityUpdates_append hjk]
  exact loadUpdates_append hus hvs

theorem Consistent.write {updates : IdentityUpdates} {db : Database} {inboxId : String} {k : Int}
    {s₀ s : AssociationState} (order : IterOrder) (h : Consistent env updates db)
    (hstored : ∃ u ∈ updates.rows, u.key = (inboxId, k))
    (hs : stateAt env updates inboxId k = .ok s) (heq : s₀.Equiv s) :
    Consistent env updates
      (db.writeToCache env.codec inboxId k (s₀.toProto env.crates order)) where
  identityUpdates := h.identityUpdates
  cache c hc := by
    rcases Table.mem_insertOrIgnore.mp hc with hc | ⟨rfl, _⟩
    · exact h.cache c hc
    · obtain ⟨s₁, hs₁, heq₁⟩ := AssociationState.tryFrom_toProto env.crates order s₀
      exact ⟨hstored, _, s₁, s, env.codec.decodeState_encodeState _, hs₁, hs, heq₁.trans heq⟩

theorem Consistent.read {updates : IdentityUpdates} {db : Database}
    (h : Consistent env updates db) (inboxId : String) (k : Int) :
    db.readFromCache env.codec inboxId k = .ok none ∨
      ∃ proto s t, db.readFromCache env.codec inboxId k = .ok (some proto) ∧
        AssociationState.tryFrom env.crates proto = .ok s ∧
        stateAt env updates inboxId k = .ok t ∧ s.Equiv t := by
  unfold Database.readFromCache
  split
  · rename_i c hc
    obtain ⟨hmem, hkey⟩ := Table.fetch_eq_some_iff.mp hc
    obtain ⟨rfl, rfl⟩ := Prod.ext_iff.mp hkey
    obtain ⟨proto, s, t, hproto, hs, ht, heq⟩ := (h.cache c hmem).state
    exact .inr ⟨proto, s, t, by simp [hproto], hs, ht, heq⟩
  · exact .inl rfl

theorem getAssociationState_spec (updates : IdentityUpdates) (order : IterOrder) (inboxId : String)
    (toId : Option Int) :
    Session.Triple (Consistent env updates)
      (getAssociationStateWithVerifier env order inboxId toId)
      fun r db => Consistent env updates db ∧
        Agree AssociationState.Equiv r (replayState env updates inboxId toId) := by
  apply Session.Triple.get_bind
  intro db hdb
  rw [hdb.identityUpdates]
  apply Session.At.ofExcept_bind
  · intro e he
    simp only [replayState, he]
    exact ⟨hdb, .error⟩
  intro last hlast
  apply Session.At.ofExcept_bind
  · intro e he
    simp only [replayState, hlast, ok_bind, he]
    exact ⟨hdb, .error⟩
  intro _ hto
  have hreplay : replayState env updates inboxId toId =
      stateAt env updates inboxId last.sequenceId := by
    simp only [replayState, hlast, ok_bind, hto]
  rw [hreplay]
  rw [okOr_eq_ok] at hlast
  apply Session.At.ofExcept_bind
  · intro e he
    obtain ⟨e', he', _⟩ := mapError_eq_error.mp he
    rcases hdb.read inboxId last.sequenceId with hread | ⟨_, _, _, hread, _⟩ <;>
      simp [hread] at he'
  intro cached hcached
  rw [mapError_eq_ok] at hcached
  rcases hdb.read inboxId last.sequenceId with hread | ⟨proto, s, t, hread, hs, ht, heq⟩
  · -- nothing is cached: the stored updates are replayed, and the state is written
    cases hcached.symm.trans hread
    have hstate : stateAt env updates inboxId last.sequenceId = (do
        let us ← loadUpdates env (getIdentityUpdates updates inboxId none toId)
        (getState env.crates us).mapError .association) := by
      rw [stateAt, getIdentityUpdates_to_last hlast]
    apply Session.At.ofExcept_bind
    · intro e he
      rw [hstate, he]
      exact ⟨hdb, .error⟩
    intro us hus
    apply Session.At.ofExcept_bind
    · intro e he
      rw [hstate, hus, ok_bind, he]
      exact ⟨hdb, .error⟩
    intro s hs
    have hat : stateAt env updates inboxId last.sequenceId = .ok s := by
      rw [hstate, hus, ok_bind, hs]
    rw [hat]
    apply Session.At.modify_bind
    apply Session.At.pure
    have hmem := mem_getIdentityUpdates.mp (List.mem_of_getLast? hlast)
    exact ⟨hdb.write order ⟨last, hmem.1, Prod.ext hmem.2.1 rfl⟩ hat (.refl s), .ok (.refl s)⟩
  · cases hcached.symm.trans hread
    apply Session.At.ofExcept
    rw [hs, ht]
    exact ⟨hdb, .ok heq⟩

theorem stateAt_reached {updates : IdentityUpdates} {inboxId : String} {start : Int}
    {ending : Option Int} {s s₀ t₀ : AssociationState} {vs : List IdentityUpdate}
    (hs : stateAt env updates inboxId start = .ok s) (heq : s₀.Equiv s)
    (hvs : loadUpdates env (getIdentityUpdates updates inboxId (some start) ending) = .ok vs)
    (ht : vs.foldlM (applyUpdate env.crates) s₀ = .ok t₀) :
    ∃ t, stateAt env updates inboxId (reached updates inboxId start ending) = .ok t ∧
      t₀.Equiv t := by
  unfold reached
  cases hlast : (getIdentityUpdates updates inboxId (some start) ending).getLast? with
  | none =>
    rw [List.getLast?_eq_none_iff.mp hlast] at hvs
    cases hvs
    cases ht
    exact ⟨s, hs, heq⟩
  | some last =>
    have hfrom := (mem_getIdentityUpdates.mp (List.mem_of_getLast? hlast)).2.2.1 start rfl
    rw [← getIdentityUpdates_to_last hlast] at hvs
    exact stateAt_increment (le_of_lt hfrom) hs heq hvs ht

section DiffResult

variable {updates : IdentityUpdates} {inboxId : String} {start : Int} {ending : Option Int}
  {s : AssociationState}

theorem DiffResult.of_failed {e : ClientError}
    (h : replayState env updates inboxId (some start) = .error e) :
    DiffResult env updates inboxId start ending (.error e) where
  failed e' he := by
    cases h.symm.trans he
    rfl
  gap s last hs := by simp [h] at hs
  ok := nofun
  unchanged s hs := by simp [h] at hs

theorem DiffResult.of_gap (hs : replayState env updates inboxId (some start) = .ok s)
    (hne : getIdentityUpdates updates inboxId (some start) ending ≠ []) :
    DiffResult env updates inboxId start ending (.error missingIdentityUpdate) where
  failed e he := by simp [hs] at he
  gap _ _ _ _ _ := rfl
  ok := nofun
  unchanged _ _ hnil := absurd hnil hne

theorem DiffResult.of_error (e : ClientError)
    (hs : replayState env updates inboxId (some start) = .ok s)
    (hgap : ∀ last, (getIdentityUpdates updates inboxId (some start) ending).getLast? = some last →
      ending.any (· != last.sequenceId) = false)
    (hne : getIdentityUpdates updates inboxId (some start) ending ≠ []) :
    DiffResult env updates inboxId start ending (.error e) where
  failed e he := by simp [hs] at he
  gap _ last _ hlast hany := by simp [hgap last hlast] at hany
  ok := nofun
  unchanged _ _ hnil := absurd hnil hne

theorem DiffResult.of_ok {t : AssociationState} {d : AssociationStateDiff}
    (hs : replayState env updates inboxId (some start) = .ok s)
    (hgap : ∀ last, (getIdentityUpdates updates inboxId (some start) ending).getLast? = some last →
      ending.any (· != last.sequenceId) = false)
    (ht : stateAt env updates inboxId (reached updates inboxId start ending) = .ok t)
    (hd : d.Equiv (s.diff t)) : DiffResult env updates inboxId start ending (.ok d) where
  failed e he := by simp [hs] at he
  gap _ last _ hlast hany := by simp [hgap last hlast] at hany
  ok d' hd' := by
    cases hd'
    exact ⟨s, t, hs, ht, hd⟩
  unchanged _ _ _ := ⟨d, rfl⟩

end DiffResult

theorem getAssociationStateDiff_spec (updates : IdentityUpdates) (order : IterOrder)
    (inboxId : String) (starting ending : Option Int) :
    Session.Triple (Consistent env updates)
      (getAssociationStateDiff env order inboxId starting ending)
      fun r db => Consistent env updates db ∧
        ∀ start, starting = some start → DiffResult env updates inboxId start ending r := by
  unfold getAssociationStateDiff
  cases starting with
  | none =>
    rw [if_pos Option.isNone_none]
    apply Session.Triple.bind (R := fun _ db => Consistent env updates db)
    · apply (getAssociationState_spec updates order inboxId ending).consequence (fun _ h => h)
      intro r db h
      cases r with
      | ok s => exact h.1
      | error e => exact ⟨h.1, nofun⟩
    · intro s
      apply Session.Triple.pure
      intro db hdb
      exact ⟨hdb, nofun⟩
  | some start =>
    rw [if_neg nofun]
    simp only [Option.some.injEq, forall_eq']
    apply Session.Triple.bind (R := fun (s₀ : AssociationState) db =>
      Consistent env updates db ∧
        ∃ s, replayState env updates inboxId (some start) = .ok s ∧ s₀.Equiv s)
    · apply (getAssociationState_spec updates order inboxId (some start)).consequence
        (fun _ h => h)
      intro r db h
      cases r with
      | ok s₀ => exact ⟨h.1, h.2.exists_of_ok⟩
      | error e => exact ⟨h.1, .of_failed h.2.eq_of_error⟩
    intro s₀
    apply Session.Triple.get_bind
    intro db h
    obtain ⟨hdb, s, hs, heq⟩ := h
    rw [hdb.identityUpdates]
    apply Session.At.ofExcept_bind
    · -- the bound was not reached
      intro e he
      obtain ⟨hgap, rfl⟩ := rejectIf_eq_error.mp he
      refine ⟨hdb, .of_gap hs ?_⟩
      intro hnil
      simp [hnil] at hgap
    intro _ hcheck
    have hgap : ∀ last,
        (getIdentityUpdates updates inboxId (some start) ending).getLast? = some last →
        ending.any (· != last.sequenceId) = false := by
      intro last hlast
      rw [rejectIf_eq_ok, hlast] at hcheck
      cases ending with
      | none => rfl
      | some k => simpa [bne_comm] using hcheck
    apply Session.At.ofExcept_bind
    · intro e he
      refine ⟨hdb, .of_error e hs hgap ?_⟩
      intro hnil
      rw [hnil] at he
      cases he
    intro vs hvs
    apply Session.At.ofExcept_bind
    · intro e he
      refine ⟨hdb, .of_error e hs hgap ?_⟩
      intro hnil
      rw [hnil] at hvs
      cases hvs
      cases he
    intro t₀ ht₀
    rw [mapError_eq_ok] at ht₀
    obtain ⟨last, _, hto, hat⟩ := replayState_eq_ok.mp hs
    have hstart : start = last.sequenceId := by simpa using hto
    obtain ⟨t, ht, heq'⟩ := stateAt_reached (hstart ▸ hat) heq hvs ht₀
    have hresult : DiffResult env updates inboxId start ending (.ok (s₀.diff t₀)) :=
      .of_ok hs hgap ht (heq.diff heq')
    unfold reached at ht
    cases hincrement : (getIdentityUpdates updates inboxId (some start) ending).getLast? with
    | none =>
      apply Session.At.pure
      exact ⟨hdb, hresult⟩
    | some u =>
      rw [hincrement] at ht
      apply Session.At.modify_bind
      apply Session.At.pure
      have hmem := mem_getIdentityUpdates.mp (List.mem_of_getLast? hincrement)
      exact ⟨hdb.write order ⟨u, hmem.1, Prod.ext hmem.2.1 rfl⟩ ht heq', hresult⟩

def Above (updates : IdentityUpdates) (batch : List StoredIdentityUpdate) : Prop :=
  ∀ u ∈ batch, u.key ∉ updates.rows.map StoredIdentityUpdate.key →
    ∀ v ∈ updates.rows, v.inboxId = u.inboxId → v.sequenceId < u.sequenceId

theorem Consistent.insert {updates : IdentityUpdates} {db : Database}
    {batch : List StoredIdentityUpdate} (h : Consistent env updates db)
    (habove : Above updates batch) :
    Consistent env (updates.insertAllOrIgnore batch) (db.insertOrIgnoreIdentityUpdates batch) where
  identityUpdates := by rw [Database.insertOrIgnoreIdentityUpdates, h.identityUpdates]
  cache c hc := by
    obtain ⟨⟨u, hu, hkey⟩, proto, s, t, hproto, hs, ht, heq⟩ := h.cache c hc
    refine ⟨⟨u, Table.mem_insertAllOrIgnore_of_mem hu, hkey⟩, proto, s, t, hproto, hs, ?_, heq⟩
    obtain ⟨hid, hseq⟩ := Prod.ext_iff.mp hkey
    rw [stateAt, getIdentityUpdates_insert]
    · exact ht
    · intro v hv hfresh hvid
      have hlt := habove v hv hfresh u hu (hid.trans hvid.symm)
      exact lt_of_eq_of_lt hseq.symm hlt

variable (env) in
/-- The databases of a client: it starts with some updates and nothing cached, asks for states and
for diffs, and stores new updates. -/
inductive Reachable : Database → Prop
  | start (updates : IdentityUpdates) : Reachable ⟨updates, .empty⟩
  | state (order : IterOrder) (inboxId : String) (toId : Option Int) : Reachable db →
      Reachable ((getAssociationStateWithVerifier env order inboxId toId).outcome db).2
  | diff (order : IterOrder) (inboxId : String) (starting ending : Option Int) : Reachable db →
      Reachable ((getAssociationStateDiff env order inboxId starting ending).outcome db).2
  | insert (batch : List StoredIdentityUpdate) : Reachable db → Above db.identityUpdates batch →
      Reachable (db.insertOrIgnoreIdentityUpdates batch)

theorem Reachable.consistent {db : Database} (h : Reachable env db) :
    Consistent env db.identityUpdates db := by
  induction h with
  | start updates => exact ⟨rfl, nofun⟩
  | state order inboxId toId _ ih =>
    have hnext := ((getAssociationState_spec _ order inboxId toId).run _ ih).1
    exact { hnext with identityUpdates := rfl, cache := hnext.identityUpdates ▸ hnext.cache }
  | diff order inboxId starting ending _ ih =>
    have hnext := ((getAssociationStateDiff_spec _ order inboxId starting ending).run _ ih).1
    exact { hnext with identityUpdates := rfl, cache := hnext.identityUpdates ▸ hnext.cache }
  | insert batch _ habove ih => exact ih.insert habove

/-- What is cached does not show: a state is the one that the stored updates replay to. -/
theorem cache_transparent {db : Database} (h : Reachable env db) (order : IterOrder)
    (inboxId : String) (toId : Option Int) :
    Agree AssociationState.Equiv
      ((getAssociationStateWithVerifier env order inboxId toId).outcome db).1
      (replayState env db.identityUpdates inboxId toId) :=
  ((getAssociationState_spec _ order inboxId toId).run db h.consistent).2

end

namespace Sample

open Associations.Sample

noncomputable def later : Database :=
  ((getAssociationStateWithVerifier env order inboxId (some 1)).outcome
    ⟨creation, .empty⟩).2.insertOrIgnoreIdentityUpdates [row 2]

theorem identityUpdates_cached :
    ((getAssociationStateWithVerifier env order inboxId (some 1)).outcome
      ⟨creation, .empty⟩).2.identityUpdates = creation :=
  ((@getAssociationState_spec Bytes env creation order inboxId (some 1)).run
    ⟨creation, .empty⟩ ⟨rfl, nofun⟩).1.identityUpdates

theorem identityUpdates_later : later.identityUpdates = creation.insertAllOrIgnore [row 2] := by
  rw [later, Database.insertOrIgnoreIdentityUpdates, identityUpdates_cached]

theorem reachable_later : Reachable env later := by
  apply Reachable.insert
  · apply Reachable.state
    apply Reachable.start
  · rw [identityUpdates_cached]
    intro u hu _ v hv _
    cases List.mem_singleton.mp hu
    cases List.mem_singleton.mp hv
    decide

end Sample

open Sample Associations.Sample in
theorem cache_transparent_later :
    (replayState env later.identityUpdates inboxId none).isOk = true ∧ Agree AssociationState.Equiv
      ((getAssociationStateWithVerifier env order inboxId none).outcome later).1
      (replayState env later.identityUpdates inboxId none) := by
  refine ⟨?_, cache_transparent reachable_later order inboxId none⟩
  rw [identityUpdates_later]
  decide +kernel

end LibXmtp.Mls
