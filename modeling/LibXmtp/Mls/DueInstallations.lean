import LibXmtp.Mls.AssociationStateCache
import LibXmtp.Mls.InstallationDiff

namespace LibXmtp.Mls

open LibXmtp.Data LibXmtp.Associations LibXmtp.Db LibXmtp.Groups

theorem mem_filterMap_installationKey {ms : List MemberIdentifier} {i : Bytes} :
    i ∈ ms.filterMap installationKey ↔ .installation i ∈ ms := by
  rw [List.mem_filterMap]
  constructor
  · rintro ⟨m, hm, hi⟩
    cases m with
    | installation key =>
      cases hi
      exact hm
    | ethereum => cases hi
    | passkey => cases hi
  · intro hm
    exact ⟨_, hm, rfl⟩

theorem mem_keys_installation {s : AssociationState} {i : Bytes} :
    .installation i ∈ s.members.keys ↔ s.isMember (.installation i) = true := by
  apply HashMap.mem_keys_iff
  intro l hl
  cases l with
  | installation key => exact congrArg _ (beq_iff_eq.mp hl)
  | ethereum => cases hl
  | passkey => cases hl

theorem mem_newInstallations_asDiff {d : AssociationStateDiff} {s : AssociationState} {i : Bytes}
    (h : d.Equiv s.asDiff) : i ∈ d.newInstallations ↔ s.isMember (.installation i) = true := by
  rw [AssociationStateDiff.newInstallations, mem_filterMap_installationKey, h.newMembers.mem_iff]
  exact mem_keys_installation

theorem mem_removedInstallations_diff {d : AssociationStateDiff} {s t : AssociationState} {i : Bytes}
    (h : d.Equiv (s.diff t)) :
    i ∈ d.removedInstallations ↔
      s.isMember (.installation i) = true ∧ t.isMember (.installation i) = false := by
  rw [AssociationStateDiff.removedInstallations, mem_filterMap_installationKey,
    h.removedMembers.mem_iff, AssociationState.diff, List.mem_filter, mem_keys_installation]
  simp [AssociationState.isMember]

section

variable {Key : Type} (env : Env Key)

/-- What a removed inbox had is due, and what an updated inbox had and has no more. -/
structure Covers (updates : IdentityUpdates) (old new : GroupMembership)
    (expected : InstallationDiff) : Prop where
  removedInbox : ∀ inboxId ∈ (old.diff new).removedInboxes, ∃ s,
    replayState env updates inboxId ((old.get inboxId).map asI64) = .ok s ∧
      ∀ i, s.isMember (.installation i) = true → i ∈ expected.removedInstallations
  updatedInbox : ∀ inboxId ∈ (old.diff new).updatedInboxes, ∀ k, old.get inboxId = some k → k ≠ 0 →
    ∃ s t, replayState env updates inboxId (some (asI64 k)) = .ok s ∧
      stateAt env updates inboxId
        (reached updates inboxId (asI64 k) ((new.get inboxId).map asI64)) = .ok t ∧
      ∀ i, s.isMember (.installation i) = true → t.isMember (.installation i) = false →
        i ∈ expected.removedInstallations

variable {env}

theorem le_latestSequenceId {updates : IdentityUpdates} {u : StoredIdentityUpdate}
    (hu : u ∈ updates.rows) :
    ∃ k, latestSequenceId updates u.inboxId = some k ∧ u.sequenceId ≤ k := by
  have hmem : u.sequenceId ∈
      (updates.rows.filter fun v => v.inboxId = u.inboxId).map StoredIdentityUpdate.sequenceId :=
    List.mem_map_of_mem (List.mem_filter.mpr ⟨hu, decide_eq_true rfl⟩)
  unfold latestSequenceId
  cases hmax : ((updates.rows.filter fun v => v.inboxId = u.inboxId).map
      StoredIdentityUpdate.sequenceId).max? with
  | none =>
    rw [List.max?_eq_none_iff.mp hmax] at hmem
    cases hmem
  | some k => exact ⟨k, rfl, (List.max?_eq_some_iff.mp hmax).2 _ hmem⟩

theorem above_of_response {api : ApiClient} {updates : IdentityUpdates} {inboxIds : List String}
    {batch : List StoredIdentityUpdate}
    (h : api.getIdentityUpdatesV2
      (inboxIds.map fun inboxId => (inboxId, latestSequenceId updates inboxId)) = some batch) :
    Above updates batch := by
  intro u hu _ v hv hid
  obtain ⟨filter, hfilter, hinbox, hnewer⟩ := api.newer _ _ h u hu
  obtain ⟨inboxId, _, rfl⟩ := List.mem_map.mp hfilter
  obtain ⟨k, hk, hle⟩ := le_latestSequenceId hv
  rw [hid, ← hinbox] at hk
  exact lt_of_le_of_lt hle (hnewer k hk)

theorem loadIdentityUpdates_spec (api : ApiClient) (inboxIds : List String) :
    Session.Triple (fun db => Consistent env db.identityUpdates db) (loadIdentityUpdates api inboxIds)
      fun _ db => Consistent env db.identityUpdates db := by
  unfold loadIdentityUpdates
  split
  · apply Session.Triple.pure
    exact fun db hdb => hdb
  · apply Session.Triple.get_bind
    intro db hdb
    apply Session.At.ofExcept_bind
    · intro e _
      exact hdb
    intro batch hbatch
    rw [okOr_eq_ok] at hbatch
    apply Session.At.modify
    exact hdb.insert (above_of_response hbatch)

theorem inboxDiff_spec (updates : IdentityUpdates) (order : IterOrder) (old new : GroupMembership)
    (inboxId : String) :
    Session.Triple (Consistent env updates) (inboxDiff env order old new inboxId) fun r db =>
      Consistent env updates db ∧ ∀ d, r = .ok d → ∀ k, old.get inboxId = some k → k ≠ 0 →
        ∃ s t, replayState env updates inboxId (some (asI64 k)) = .ok s ∧
          stateAt env updates inboxId
            (reached updates inboxId (asI64 k) ((new.get inboxId).map asI64)) = .ok t ∧
          d.Equiv (s.diff t) := by
  apply (getAssociationStateDiff_spec updates order inboxId _ _).consequence (fun _ h => h)
  rintro r db ⟨hdb, hresult⟩
  refine ⟨hdb, fun d hd k hk hne => ?_⟩
  apply (hresult (asI64 k) ?_).ok d hd
  rw [hk]
  split <;> simp_all

theorem removedInboxDiff_spec (updates : IdentityUpdates) (order : IterOrder)
    (old : GroupMembership) (inboxId : String) :
    Session.Triple (Consistent env updates) (removedInboxDiff env order old inboxId) fun r db =>
      Consistent env updates db ∧ ∀ d, r = .ok d → ∃ s,
        replayState env updates inboxId ((old.get inboxId).map asI64) = .ok s ∧
          d.Equiv s.asDiff := by
  apply Session.Triple.bind (R := fun (s₀ : AssociationState) db => Consistent env updates db ∧
    ∃ s, replayState env updates inboxId ((old.get inboxId).map asI64) = .ok s ∧ s₀.Equiv s)
  · apply (getAssociationState_spec updates order inboxId _).consequence (fun _ h => h)
    rintro (e | s₀) db ⟨hdb, hr⟩
    · exact ⟨hdb, nofun⟩
    · exact ⟨hdb, hr.exists_of_ok⟩
  · intro s₀
    apply Session.Triple.assume
    rintro ⟨s, hs, heq⟩
    apply Session.Triple.pure
    intro db hdb
    refine ⟨hdb, ?_⟩
    rintro _ ⟨⟩
    exact ⟨s, hs, heq.asDiff⟩

theorem getInstallationDiff_covers {api : ApiClient} {order : IterOrder} {old new : GroupMembership}
    {db db' : Database} {expected : InstallationDiff}
    (hdb : Consistent env db.identityUpdates db)
    (h : (getInstallationDiff env api order old new (old.diff new)).outcome db =
      (.ok expected, db')) :
    Consistent env db'.identityUpdates db' ∧ Covers env db'.identityUpdates old new expected := by
  unfold getInstallationDiff at h
  obtain ⟨_, _, hget, h⟩ := Session.outcome_bind_eq_ok.mp h
  cases hget
  obtain ⟨_, m, hload, h⟩ := Session.outcome_bind_eq_ok.mp h
  obtain ⟨stateDiffs, m', hstates, h⟩ := Session.outcome_bind_eq_ok.mp h
  obtain ⟨removedDiffs, m'', hremoved, h⟩ := Session.outcome_bind_eq_ok.mp h
  obtain ⟨rfl, rfl⟩ := Session.outcome_pure_eq_ok.mp h
  have hm := (loadIdentityUpdates_spec api _).of_outcome hdb hload
  obtain ⟨hm', hdiffs⟩ := (Session.Triple.mapM fun inboxId _ =>
    inboxDiff_spec m.identityUpdates order old new inboxId).of_outcome hm hstates
  obtain ⟨hm'', hdiffs'⟩ := (Session.Triple.mapM fun inboxId _ =>
    removedInboxDiff_spec m.identityUpdates order old inboxId).of_outcome hm' hremoved
  have hupdates : m''.identityUpdates = m.identityUpdates := hm''.identityUpdates
  rw [hupdates]
  refine ⟨hm'', ?_, ?_⟩
  · intro inboxId hinbox
    obtain ⟨d, hd, s, hs, heq⟩ := exists_mem_of_forall₂ (hdiffs' _ rfl) hinbox
    refine ⟨s, hs, fun i hi => ?_⟩
    have hmem := (mem_newInstallations_asDiff heq).mpr hi
    exact List.mem_toFinset.mpr
      (List.mem_append_right _ (List.mem_flatMap.mpr ⟨d, hd, hmem⟩))
  · intro inboxId hinbox k hk hne
    obtain ⟨d, hd, hstate⟩ :=
      exists_mem_of_forall₂ (hdiffs _ rfl) (List.mem_append_right _ hinbox)
    obtain ⟨s, t, hs, ht, heq⟩ := hstate k hk hne
    refine ⟨s, t, hs, ht, fun i hi hgone => ?_⟩
    have hmem := (mem_removedInstallations_diff heq).mpr ⟨hi, hgone⟩
    exact List.mem_toFinset.mpr
      (List.mem_append_left _ (List.mem_flatMap.mpr ⟨d, hd, hmem⟩))

end

end LibXmtp.Mls
