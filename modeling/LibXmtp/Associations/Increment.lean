import LibXmtp.Associations.Replay

namespace LibXmtp.Associations

open LibXmtp.Data

section Congruence

variable {crates : Crates} {s t : AssociationState}

theorem AssociationState.Equiv.hasSeen_any (h : s.Equiv t) (signatures : List Bytes) :
    signatures.any s.hasSeen = signatures.any t.hasSeen := by
  rw [show s.hasSeen = t.hasSeen from funext h.hasSeen]

theorem AssociationState.Equiv.verifyMemberChainId (h : s.Equiv t)
    (signature : VerifiedSignature) :
    Associations.verifyMemberChainId s signature =
      Associations.verifyMemberChainId t signature := by
  simp only [Associations.verifyMemberChainId, h.get]

theorem AddAssociation.Accepted.congr {a : AddAssociation} {entity : MemberIdentifier}
    (h : s.Equiv t) (ha : a.Accepted crates s entity) : a.Accepted crates t entity :=
  { ha with
    fresh := by
      rw [← h.hasSeen_any]
      exact ha.fresh
    legacy := by
      have hlegacy := ha.legacy
      simp only [legacyCheck, h.inboxId] at hlegacy ⊢
      exact hlegacy
    chainId := by
      rw [← h.verifyMemberChainId]
      exact ha.chainId
    authority := by
      have hauthority := ha.authority
      simp only [existingEntityId, h.get, h.recoveryIdentifier] at hauthority ⊢
      exact hauthority }

theorem RecoveryAccepted.congr {signature : VerifiedSignature} (h : s.Equiv t)
    (ha : RecoveryAccepted signature s) : RecoveryAccepted signature t where
  fresh := by
    rw [← h.hasSeen]
    exact ha.fresh
  chainId := by
    rw [← h.verifyMemberChainId]
    exact ha.chainId
  notLegacy := ha.notLegacy
  signer := by
    rw [← h.recoveryIdentifier]
    exact ha.signer

theorem Transition.congr {ev : Event} {s' : AssociationState} (h : s.Equiv t)
    (hs : Transition crates (some s) ev s') :
    ∃ t', Transition crates (some t) ev t' ∧ s'.Equiv t' := by
  cases hs with
  | add ha =>
    refine ⟨_, .add (ha.congr h), ?_⟩
    apply h.add
  | revoke ha =>
    refine ⟨_, .revoke (ha.congr h), ?_⟩
    apply (h.remove _).removeAll
    exact (h.membersByParent _).filter _
  | changeRecovery ha =>
    refine ⟨_, .changeRecovery (ha.congr h), ?_⟩
    apply h.setRecoveryIdentifier
  | sealed hid =>
    refine ⟨_, .sealed (h.inboxId ▸ hid), ?_⟩
    apply h.addSeenSignatures

theorem Run.congr {es : List Event} {s' : AssociationState} (h : s.Equiv t)
    (hs : Run crates (some s) es (some s')) :
    ∃ t', Run crates (some t) es (some t') ∧ s'.Equiv t' := by
  obtain ⟨_, hrun, s₁, t', hs₁, rfl, heq⟩ := hs.related
    (R := fun st st' => ∃ a b, st = some a ∧ st' = some b ∧ a.Equiv b) ⟨s, t, rfl, rfl, h⟩ (by
      rintro _ _ ev m' ⟨a, b, rfl, rfl, hab⟩ hstep
      obtain ⟨a', rfl, ha'⟩ := stepEvent_eq_ok.mp hstep
      obtain ⟨b', hb', hab'⟩ := ha'.congr hab
      exact ⟨some b', stepEvent_eq_ok.mpr ⟨b', rfl, hb'⟩, a', b', rfl, rfl, hab'⟩)
  cases hs₁
  exact ⟨t', hrun, heq⟩

end Congruence

section Increment

variable {crates : Crates} {s t : AssociationState} {us vs : List IdentityUpdate}

theorem foldlM_applyUpdate_eq_ok :
    us.foldlM (applyUpdate crates) s = .ok t ↔ Run crates (some s) (events us) (some t) := by
  induction us generalizing s with
  | nil => simp [events]
  | cons u us ih =>
    simp only [List.foldlM_cons, bind_eq_ok, applyUpdate, ih, IdentityUpdate.updateState_eq_ok,
      events_cons, Run, Steps.append_iff]
    constructor
    · rintro ⟨m, hu, hrest⟩
      exact ⟨some m, hu, hrest⟩
    · rintro ⟨m, hu, hrest⟩
      have hu' : Run crates (some s) (events [u]) m := by simpa [events] using hu
      obtain ⟨m', rfl⟩ : ∃ m', m = some m' := by
        apply hu'.invariant (P := fun st => ∃ m', st = some m') ⟨s, rfl⟩
        intro _ _ _ _ _ hstep
        obtain ⟨m', hm', _⟩ := stepEvent_eq_ok.mp hstep
        exact ⟨m', hm'⟩
      exact ⟨m', hu, hrest⟩

theorem getState_append (h : getState crates us = .ok s) :
    getState crates (us ++ vs) = .ok t ↔ vs.foldlM (applyUpdate crates) s = .ok t := by
  rw [getState_eq_ok] at h
  rw [getState_eq_ok, foldlM_applyUpdate_eq_ok, events_append]
  constructor
  · intro hrun
    obtain ⟨m, hm, hrest⟩ := Steps.append_iff.mp hrun
    rwa [hm.unique h] at hrest
  · intro hrest
    exact h.append hrest

theorem getState_append_of_equiv {s₀ t₀ : AssociationState} (h : getState crates us = .ok s)
    (hs : s₀.Equiv s) (ht : vs.foldlM (applyUpdate crates) s₀ = .ok t₀) :
    ∃ t, getState crates (us ++ vs) = .ok t ∧ t₀.Equiv t := by
  rw [foldlM_applyUpdate_eq_ok] at ht
  obtain ⟨t, hrun, heq⟩ := ht.congr hs
  refine ⟨t, ?_, heq⟩
  rwa [getState_append h, foldlM_applyUpdate_eq_ok]

end Increment

section Errors

variable {crates : Crates}

theorem Identifier.inboxId_ne_missing (i : Identifier) (nonce : UInt64) :
    i.inboxId crates nonce ≠ .error .missingIdentityUpdate := by
  simp [inboxId, rejectIf_eq_error]

theorem AddAssociation.legacyCheck_ne_missing (a : AddAssociation) (s : AssociationState) :
    a.legacyCheck crates s ≠ .error .missingIdentityUpdate := by
  unfold legacyCheck
  split
  · split
    · simp [bind_eq_error, rejectIf_eq_error, Identifier.inboxId_ne_missing]
    · simp
  · simp

theorem verifyMemberChainId_ne_missing (s : AssociationState) (signature : VerifiedSignature) :
    verifyMemberChainId s signature ≠ .error .missingIdentityUpdate := by
  unfold verifyMemberChainId verifyChainIdMatches
  split <;> simp [rejectIf_eq_error]

theorem AddAssociation.existingEntityId_ne_missing (a : AddAssociation) (s : AssociationState) :
    a.existingEntityId s ≠ .error .missingIdentityUpdate := by
  unfold existingEntityId
  split
  · simp
  · simp [bind_eq_error, rejectIf_eq_error]

theorem Action.updateState_ne_missing (a : Action) (st : Option AssociationState) (ts : UInt64) :
    a.updateState crates st ts ≠ .error .missingIdentityUpdate := by
  cases a with
  | createInbox a =>
    simp [updateState, CreateInbox.updateState, bind_eq_error, rejectIf_eq_error,
      allowedSignatureForKind, AssociationState.new, Identifier.inboxId]
  | addAssociation a =>
    simp [updateState, AddAssociation.updateState, bind_eq_error, okOr_eq_error, rejectIf_eq_error,
      replayCheck, AddAssociation.legacyCheck_ne_missing, allowedSignatureForKind,
      verifyMemberChainId_ne_missing, AddAssociation.existingEntityId_ne_missing,
      allowedAssociation]
  | revokeAssociation a =>
    simp [updateState, RevokeAssociation.updateState, bind_eq_error, okOr_eq_error,
      rejectIf_eq_error, replayCheck, verifyMemberChainId_ne_missing, legacyNotAllowed]
  | changeRecoveryIdentity a =>
    simp [updateState, ChangeRecoveryIdentity.updateState, bind_eq_error, okOr_eq_error,
      rejectIf_eq_error, replayCheck, verifyMemberChainId_ne_missing, legacyNotAllowed]

theorem getState_ne_missing (us : List IdentityUpdate) :
    getState crates us ≠ .error .missingIdentityUpdate := by
  have hactions (u : IdentityUpdate) (st : Option AssociationState) :
      u.actions.foldlM (fun state action =>
        some <$> action.updateState crates state u.clientTimestampNs) st ≠
          .error .missingIdentityUpdate := by
    apply foldlM_ne_error
    intro st a
    simpa using a.updateState_ne_missing st u.clientTimestampNs
  have hupdate (u : IdentityUpdate) (st : Option AssociationState) :
      u.updateState crates st ≠ .error .missingIdentityUpdate := by
    simp [IdentityUpdate.updateState, bind_eq_error, okOr_eq_error, rejectIf_eq_error, hactions]
  have hlog (st : Option AssociationState) :
      us.foldlM (fun state update => some <$> update.updateState crates state) st ≠
        .error .missingIdentityUpdate := by
    apply foldlM_ne_error
    intro st u
    simpa using hupdate u st
  simp [getState, bind_eq_error, okOr_eq_error, hlog]

end Errors

end LibXmtp.Associations
