import LibXmtp.Associations.Replay

namespace LibXmtp.Associations

open LibXmtp.Data

section Recovery

variable {crates : Crates}

/-- The signature by which an action claims the authority of the recovery identifier. -/
def Event.recoverySignature : Event → Option VerifiedSignature
  | .action _ (.revokeAssociation a) => some a.recoveryIdentifierSignature
  | .action _ (.changeRecoveryIdentity a) => some a.recoveryIdentifierSignature
  | _ => none

def Event.newRecovery : Event → Option Identifier
  | .action _ (.changeRecoveryIdentity a) => some a.newRecoveryIdentifier
  | _ => none

theorem Event.newRecovery_eq_some {ev : Event} {i : Identifier} :
    ev.newRecovery = some i ↔
      ∃ ts a, ev = .action ts (.changeRecoveryIdentity a) ∧ a.newRecoveryIdentifier = i := by
  constructor
  · intro h
    unfold newRecovery at h
    split at h
    · exact ⟨_, _, rfl, Option.some.inj h⟩
    · cases h
  · rintro ⟨ts, a, rfl, rfl⟩
    rfl

def SignedByRecovery (signature : VerifiedSignature) (s : AssociationState) : Prop :=
  signature.kind ≠ .legacyDelegated ∧ (signature.signer == s.recoveryIdentifier.toMember) = true

theorem RecoveryAccepted.signed {signature : VerifiedSignature} {s : AssociationState}
    (h : RecoveryAccepted signature s) : SignedByRecovery signature s := ⟨h.notLegacy, h.signer⟩

namespace Transition

variable {s s' : AssociationState} {ev : Event}

theorem signedByRecovery (h : Transition crates (some s) ev s') {signature : VerifiedSignature}
    (hsig : ev.recoverySignature = some signature) : SignedByRecovery signature s := by
  cases h with
  | add _ => cases hsig
  | revoke ha =>
    cases hsig
    exact ha.signed
  | changeRecovery ha =>
    cases hsig
    exact ha.signed
  | sealed _ => cases hsig

theorem member_removed (h : Transition crates (some s) ev s') {x : MemberIdentifier}
    (hx : s.isMember x = true) (hx' : s'.isMember x = false) :
    ∃ ts a, ev = .action ts (.revokeAssociation a) ∧
      SignedByRecovery a.recoveryIdentifierSignature s := by
  cases h with
  | add ha => simp_all [AssociationState.isMember]
  | revoke ha => exact ⟨_, _, rfl, ha.signed⟩
  | changeRecovery _ => simp_all [AssociationState.isMember]
  | sealed _ => simp_all [AssociationState.isMember]

theorem recovery_changed (h : Transition crates (some s) ev s')
    (hne : s'.recoveryIdentifier ≠ s.recoveryIdentifier) :
    ∃ ts a, ev = .action ts (.changeRecoveryIdentity a) ∧
      SignedByRecovery a.recoveryIdentifierSignature s := by
  cases h with
  | add ha => exact absurd rfl hne
  | revoke ha =>
    rw [AssociationState.removeAll_eq] at hne
    exact absurd rfl hne
  | changeRecovery ha => exact ⟨_, _, rfl, ha.signed⟩
  | sealed _ => exact absurd rfl hne

theorem recoveryIdentifier_eq (h : Transition crates (some s) ev s') :
    s'.recoveryIdentifier = ev.newRecovery.getD s.recoveryIdentifier := by
  cases h with
  | add ha => rfl
  | revoke ha =>
    rw [AssociationState.removeAll_eq]
    rfl
  | changeRecovery ha => rfl
  | sealed _ => rfl

end Transition

theorem Run.recovery_ne {r : MemberIdentifier} {t m : AssociationState} {es : List Event}
    (h : Run crates (some t) es (some m)) (ht : (t.recoveryIdentifier.toMember == r) = false)
    (hes : ∀ ev ∈ es, ∀ i, ev.newRecovery = some i → (i.toMember == r) = false) :
    (m.recoveryIdentifier.toMember == r) = false := by
  have hinv := Steps.invariant (P := fun st => ∃ s : AssociationState, st = some s ∧
    (s.recoveryIdentifier.toMember == r) = false) h ⟨t, rfl, ht⟩ (by
      rintro _ ev _ hev ⟨s, rfl, hs⟩ hstep
      obtain ⟨s', rfl, htr⟩ := stepEvent_eq_ok.mp hstep
      refine ⟨s', rfl, ?_⟩
      rw [htr.recoveryIdentifier_eq]
      cases hnew : ev.newRecovery with
      | none => exact hs
      | some i => exact hes ev hev i hnew)
  obtain ⟨_, ⟨⟩, hm⟩ := hinv
  exact hm

/-- In an accepted log, members are only removed by revocations and the recovery identifier only
moves by its own change, both signed by the recovery identifier right before. Once it has moved
from `r`, nothing signed by `r` as the recovery identifier is accepted before an action in
between has set it back to `r`. -/
theorem recovery_authority {us : List IdentityUpdate} {s : AssociationState}
    (h : getState crates us = .ok s) :
    (∀ before ev after t t', events us = before ++ ev :: after →
      Run crates none before (some t) → stepEvent crates (some t) ev = .ok (some t') →
      (∀ x, t.isMember x = true → t'.isMember x = false →
        ∃ ts a, ev = .action ts (.revokeAssociation a) ∧
          SignedByRecovery a.recoveryIdentifierSignature t) ∧
      (t'.recoveryIdentifier ≠ t.recoveryIdentifier →
        ∃ ts a, ev = .action ts (.changeRecoveryIdentity a) ∧
          SignedByRecovery a.recoveryIdentifierSignature t)) ∧
    ∀ before ts a between ev after t signature,
      events us = before ++ .action ts (.changeRecoveryIdentity a) :: (between ++ ev :: after) →
      Run crates none before (some t) →
      (a.newRecoveryIdentifier.toMember == t.recoveryIdentifier.toMember) = false →
      ev.recoverySignature = some signature →
      (signature.signer == t.recoveryIdentifier.toMember) = true →
      ∃ ts' a', .action ts' (.changeRecoveryIdentity a') ∈ between ∧
        (a'.newRecoveryIdentifier.toMember == t.recoveryIdentifier.toMember) = true := by
  have hrun := getState_eq_ok.mp h
  constructor
  · intro before ev after t t' _ _ hstep
    obtain ⟨_, ⟨⟩, htr⟩ := stepEvent_eq_ok.mp hstep
    exact ⟨fun x hx hx' => htr.member_removed hx hx', htr.recovery_changed⟩
  · intro before ts a between ev after t signature hes hbefore hmoved hsig hsigner
    by_contra hback
    push Not at hback
    rw [hes] at hrun
    obtain ⟨t₀, st₁, ht₀, hchange, hrest⟩ := hrun.split
    obtain rfl : some t = t₀ := hbefore.unique ht₀
    obtain ⟨t₁, rfl, hchanged⟩ := stepEvent_eq_ok.mp hchange
    obtain ⟨st₂, _, hbetween, hev, _⟩ := hrest.split
    have ht₁ : (t₁.recoveryIdentifier.toMember == t.recoveryIdentifier.toMember) = false := by
      rw [hchanged.recoveryIdentifier_eq]
      exact hmoved
    cases st₂ with
    | none =>
      obtain ⟨_, _, htr⟩ := stepEvent_eq_ok.mp hev
      cases htr
      cases hsig
    | some t₂ =>
      obtain ⟨_, _, htr⟩ := stepEvent_eq_ok.mp hev
      have ht₂ : (t₂.recoveryIdentifier.toMember == t.recoveryIdentifier.toMember) = false := by
        refine Run.recovery_ne hbetween ht₁ fun ev' hev' i hi => ?_
        obtain ⟨ts', a', rfl, rfl⟩ := Event.newRecovery_eq_some.mp hi
        exact eq_false_of_ne_true (hback ts' a' hev')
      have hr := (htr.signedByRecovery hsig).2
      rw [BEq.congr_left (BEq.symm hr), hsigner] at ht₂
      cases ht₂

theorem recovery_authority_log :
    ∃ s, getState Sample.crates Sample.log = .ok s ∧
      ∀ before ev after t t', events Sample.log = before ++ ev :: after →
        Run Sample.crates none before (some t) →
        stepEvent Sample.crates (some t) ev = .ok (some t') →
        ∀ x, t.isMember x = true → t'.isMember x = false →
          ∃ ts a, ev = .action ts (.revokeAssociation a) ∧
            SignedByRecovery a.recoveryIdentifierSignature t := by
  obtain ⟨s, hs⟩ := Sample.getState_log
  exact ⟨s, hs, fun before ev after t t' hes hbefore hstep =>
    ((recovery_authority hs).1 before ev after t t' hes hbefore hstep).1⟩

end Recovery

end LibXmtp.Associations
