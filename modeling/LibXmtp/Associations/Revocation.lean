import LibXmtp.Associations.Membership

namespace LibXmtp.Associations

open LibXmtp.Data

/-- The member itself, and the installations that it added. -/
def AssociationState.Revokes (s : AssociationState) (revoked k : MemberIdentifier) : Bool :=
  k == revoked ||
    k.kind == .installation && ((s.get k).bind Member.addedByEntity).any (· == revoked)

def Event.Names (k : MemberIdentifier) (ev : Event) (a : AddAssociation) : Prop :=
  ∃ ts, ev = .action ts (.addAssociation a) ∧ (a.newMemberIdentifier == k) = true

variable {crates : Crates} {s s' t : AssociationState}

theorem any_installationsToRemove {a : RevokeAssociation}
    (keyed : ∀ e ∈ s.members.entries, (e.1 == e.2.identifier) = true) (k : MemberIdentifier) :
    ((a.installationsToRemove s).map Member.identifier).any (· == k) =
      (k.kind == .installation &&
        ((s.get k).bind Member.addedByEntity).any (· == a.revokedMember)) := by
  rw [Bool.eq_iff_iff, List.any_eq_true, Bool.and_eq_true, beq_iff_eq]
  constructor
  · rintro ⟨id, hid, hk⟩
    obtain ⟨child, hchild, rfl⟩ := List.mem_map.mp hid
    obtain ⟨hparent, hkind⟩ := List.mem_filter.mp hchild
    obtain ⟨hvalue, hadded⟩ := List.mem_filter.mp hparent
    obtain ⟨e, he, rfl⟩ := List.mem_map.mp hvalue
    have hget : s.members.getKeyValue k = some e :=
      HashMap.getKeyValue_eq_some_iff.mpr ⟨he, BEq.trans (keyed e he) hk⟩
    refine ⟨?_, ?_⟩
    · rw [← MemberIdentifier.kind_eq_of_beq hk]
      exact eq_of_beq hkind
    · rw [AssociationState.get, HashMap.get, hget]
      exact hadded
  · rintro ⟨hkind, hadded⟩
    cases hget : s.members.getKeyValue k with
    | none =>
      rw [AssociationState.get, HashMap.get, hget] at hadded
      cases hadded
    | some e =>
      rw [AssociationState.get, HashMap.get, hget] at hadded
      obtain ⟨he, hk⟩ := HashMap.getKeyValue_eq_some_iff.mp hget
      have hid : (e.2.identifier == k) = true := BEq.trans (BEq.symm (keyed e he)) hk
      refine ⟨e.2.identifier, List.mem_map_of_mem (List.mem_filter.mpr ⟨?_, ?_⟩), hid⟩
      · exact List.mem_filter.mpr ⟨List.mem_map_of_mem he, hadded⟩
      · rw [Member.kind, MemberIdentifier.kind_eq_of_beq hid]
        exact beq_iff_eq.mpr hkind

theorem getKeyValue_revoked {a : RevokeAssociation}
    (keyed : ∀ e ∈ s.members.entries, (e.1 == e.2.identifier) = true) (k : MemberIdentifier) :
    ((s.remove a.revokedMember).removeAll (a.installationsToRemove s)).members.getKeyValue k =
      if s.Revokes a.revokedMember k then none else s.members.getKeyValue k := by
  rw [AssociationState.removeAll_eq]
  dsimp only [AssociationState.remove]
  rw [HashMap.getKeyValue_removeAll, any_installationsToRemove keyed, HashMap.getKeyValue_remove,
    AssociationState.Revokes, BEq.comm (a := k)]
  cases a.revokedMember == k <;> simp

theorem Transition.names {ev : Event} {k : MemberIdentifier}
    (h : Transition crates (some s) ev s') (hnot : s.isMember k = false)
    (hmember : s'.isMember k = true) :
    ∃ a entity, ev.Names k a ∧ a.Accepted crates s entity := by
  cases h with
  | add ha =>
    refine ⟨_, _, ⟨_, rfl, ?_⟩, ha⟩
    simp only [AssociationState.isMember, AssociationState.members_add, HashMap.containsKey_insert,
      Bool.or_eq_true] at hnot hmember
    rcases hmember with hk | hold
    · exact BEq.trans (BEq.symm ha.signer) hk
    · rw [hold] at hnot
      cases hnot
  | revoke _ =>
    rw [AssociationState.isMember, AssociationState.removeAll_eq, HashMap.containsKey,
      HashMap.getKeyValue_removeAll] at hmember
    split at hmember
    · cases hmember
    · have hheld : s.isMember k = true := by
        simp only [AssociationState.remove] at hmember
        rw [HashMap.getKeyValue_remove] at hmember
        split at hmember
        · cases hmember
        · exact hmember
      rw [hheld] at hnot
      cases hnot
  | changeRecovery _ =>
    exact absurd hmember (by simpa [AssociationState.isMember] using hnot)
  | sealed _ =>
    exact absurd hmember (by simpa [AssociationState.isMember] using hnot)

theorem Run.names {es : List Event} {k : MemberIdentifier}
    (h : Run crates (some s) es (some t)) (hnot : s.isMember k = false)
    (hmember : t.isMember k = true) :
    ∃ before ev after u a entity, es = before ++ ev :: after ∧
      Run crates (some s) before (some u) ∧ ev.Names k a ∧ a.Accepted crates u entity := by
  have hhistory := h.history (P := fun pre st => ∃ u, st = some u ∧ (u.isMember k = true →
      ∃ before ev after v a entity, pre = before ++ ev :: after ∧
        Run crates (some s) before (some v) ∧ ev.Names k a ∧ a.Accepted crates v entity))
    ⟨s, rfl, fun hs => by rw [hnot] at hs; cases hs⟩ (by
      intro pre st ev st' hpre hinv hstep
      obtain ⟨u, hu, hnamed⟩ := hinv
      subst hu
      obtain ⟨u', hu', htransition⟩ := stepEvent_eq_ok.mp hstep
      refine ⟨u', hu', fun hmember' => ?_⟩
      cases hu : u.isMember k with
      | true =>
        obtain ⟨before, ev', after, v, a, entity, hsplit, hrest⟩ := hnamed hu
        exact ⟨before, ev', after ++ [ev], v, a, entity, by rw [hsplit]; simp, hrest⟩
      | false =>
        obtain ⟨a, entity, hnames, haccepted⟩ := htransition.names hu hmember'
        exact ⟨pre, ev, [], u, a, entity, rfl, hpre, hnames, haccepted⟩)
  obtain ⟨u, hu, hnamed⟩ := hhistory
  cases hu
  exact hnamed hmember

/-- A revocation takes out the member and the installations that it added, and leaves everything
else as it was. What it takes out is no member again until an association names it. -/
theorem revocation_exact {es : List Event} {a : RevokeAssociation}
    (hrun : Run crates none es (some s)) (hrevoke : a.updateState (some s) = .ok s') :
    (∀ k, s'.members.getKeyValue k =
      if s.Revokes a.revokedMember k then none else s.members.getKeyValue k) ∧
      s'.recoveryIdentifier = s.recoveryIdentifier ∧ s'.inboxId = s.inboxId ∧
      s'.seenSignatures = s.seenSignatures ∧
      ∀ k fs t, s.Revokes a.revokedMember k = true → Run crates (some s') fs (some t) →
        t.isMember k = true → ∃ before ev after u b entity, fs = before ++ ev :: after ∧
          Run crates (some s') before (some u) ∧ ev.Names k b ∧ b.Accepted crates u entity := by
  obtain ⟨_, _, _, _, _, _, hentries⟩ := hrun.sound
  obtain ⟨_, hs, _, hs'⟩ := RevokeAssociation.updateState_eq_ok.mp hrevoke
  cases hs
  have hmembers (k : MemberIdentifier) : s'.members.getKeyValue k =
      if s.Revokes a.revokedMember k then none else s.members.getKeyValue k := by
    rw [hs']
    exact getKeyValue_revoked (fun e he => (hentries e he).keyed) k
  refine ⟨hmembers, ?_, ?_, ?_, fun k fs t hk hcontinued hmember => ?_⟩
  · rw [hs', AssociationState.removeAll_eq]
    rfl
  · rw [hs', AssociationState.removeAll_eq]
    rfl
  · rw [hs', AssociationState.removeAll_eq]
    rfl
  · apply hcontinued.names ?_ hmember
    rw [AssociationState.isMember, HashMap.containsKey, hmembers, if_pos hk]
    rfl

namespace Sample

def walletRevoked : RevokeAssociation := ⟨signed otherWallet.toMember .erc191 6, wallet.toMember⟩

end Sample

theorem revocation_exact_wallet :
    ∃ s s', getState Sample.crates [Sample.created, Sample.recoveryMoved] = .ok s ∧
      Sample.walletRevoked.updateState (some s) = .ok s' ∧
      s.isMember Sample.installation = true ∧
      s'.members.getKeyValue Sample.installation = none ∧ s'.inboxId = s.inboxId := by
  obtain ⟨s, hs, hcheck⟩ := Sample.exists_of_check [Sample.created, Sample.recoveryMoved]
    (fun s => (Sample.walletRevoked.updateState (some s)).isOk &&
      s.isMember Sample.installation && s.Revokes Sample.wallet.toMember Sample.installation)
    (by decide +kernel)
  simp only [Bool.and_eq_true] at hcheck
  obtain ⟨⟨hok, hmember⟩, hrevokes⟩ := hcheck
  obtain ⟨s', hs'⟩ := exists_of_isOk hok
  obtain ⟨hmembers, _, hinbox, _⟩ := revocation_exact (getState_eq_ok.mp hs) hs'
  exact ⟨s, s', hs, hs', hmember, (hmembers Sample.installation).trans (if_pos hrevokes), hinbox⟩

end LibXmtp.Associations
