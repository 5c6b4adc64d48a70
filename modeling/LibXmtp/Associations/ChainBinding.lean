import LibXmtp.Associations.Replay

namespace LibXmtp.Associations

open LibXmtp.Data

def Event.admittedOn : Event → Option UInt64
  | .action _ (.createInbox a) => a.initialIdentifierSignature.chainId
  | .action _ (.addAssociation a) => a.newMemberSignature.chainId
  | _ => none

def Event.authority : Event → Option VerifiedSignature
  | .action _ (.addAssociation a) => some a.existingMemberSignature
  | .action _ (.revokeAssociation a) => some a.recoveryIdentifierSignature
  | .action _ (.changeRecoveryIdentity a) => some a.recoveryIdentifierSignature
  | _ => none

variable (crates : Crates) (w : MemberIdentifier)

/-- A step beside the chain under which the identifier was first added since it last was no
member. -/
def stepBound (st : Option AssociationState × Option (Option UInt64)) (ev : Event) :
    Except AssociationError (Option AssociationState × Option (Option UInt64)) := do
  let state ← stepEvent crates st.1 ev
  return (state, if state.any (·.isMember w) then some (st.2.getD ev.admittedOn) else none)

abbrev BoundRun (es : List Event) (st : Option AssociationState × Option (Option UInt64)) : Prop :=
  Steps (stepBound crates w) (none, none) es st

/-- What a wallet signs as a member is signed on the chain that it was first added on. -/
def ChainBound (es : List Event) : Prop :=
  ∀ w before ev after u bound signature, w.kind = .ethereum → es = before ++ ev :: after →
    BoundRun crates w before (some u, bound) → ev.authority = some signature →
    (signature.signer == w) = true → u.isMember w = true → bound = some signature.chainId

/-- A wallet that is a member already is only added again on the chain of its record. -/
def ReaddedOnSameChain (es : List Event) : Prop :=
  ∀ before ts a after u m, es = before ++ .action ts (.addAssociation a) :: after →
    Run crates none before (some u) → a.newMemberIdentifier.kind = .ethereum →
    u.get a.newMemberIdentifier = some m → a.newMemberSignature.chainId = m.addedOnChainId

def Recorded (st : Option AssociationState × Option (Option UInt64)) : Prop :=
  (∀ u, st.1 = some u → ∀ m, u.get w = some m → st.2 = some m.addedOnChainId) ∧
    (st.1.any (·.isMember w) = false → st.2 = none)

variable {crates w} {es : List Event}

theorem BoundRun.run {st : Option AssociationState × Option (Option UInt64)}
    (h : BoundRun crates w es st) : Run crates none es st.1 := by
  apply h.history (P := fun es st => Run crates none es st.1) .nil
  intro pre st ev st' _ hrun hstep
  simp only [stepBound, bind_eq_ok, pure_eq_ok] at hstep
  obtain ⟨state, hstate, hst'⟩ := hstep
  subst hst'
  exact hrun.append (Steps.single hstate)

theorem AssociationState.get_congr {s : AssociationState} {k l : MemberIdentifier}
    (h : (k == l) = true) : s.get k = s.get l := by
  simp only [get, HashMap.get, HashMap.getKeyValue, HashMap.lookup, BEq.congr_right h]

theorem isMember_of_get {s : AssociationState} {k : MemberIdentifier} {m : Member}
    (h : s.get k = some m) : s.isMember k = true := by
  rw [AssociationState.isMember, HashMap.containsKey_eq_isSome_get, ← AssociationState.get, h]
  rfl

theorem exists_get_of_isMember {s : AssociationState} {k : MemberIdentifier}
    (h : s.isMember k = true) : ∃ m, s.get k = some m := by
  rw [AssociationState.isMember, HashMap.containsKey_eq_isSome_get] at h
  exact Option.isSome_iff_exists.mp h

theorem Recorded.next {st : Option AssociationState × Option (Option UInt64)} {ev : Event}
    {s' : AssociationState} (h : Recorded w st)
    (hstep : ∀ m', s'.get w = some m' →
      (∃ u m, st.1 = some u ∧ u.get w = some m ∧ m'.addedOnChainId = m.addedOnChainId) ∨
        st.1.any (·.isMember w) = false ∧ m'.addedOnChainId = ev.admittedOn) :
    Recorded w (some s', if s'.isMember w then some (st.2.getD ev.admittedOn) else none) := by
  constructor
  · intro u hu m' hm'
    cases hu
    rw [if_pos (isMember_of_get hm')]
    rcases hstep m' hm' with ⟨u, m, hu, hm, hsame⟩ | ⟨hnot, hsame⟩
    · rw [h.1 u hu m hm, hsame]
      rfl
    · rw [h.2 hnot, hsame]
      rfl
  · intro hnot
    rw [if_neg]
    simpa using hnot

theorem Recorded.step {st st' : Option AssociationState × Option (Option UInt64)} {ev : Event}
    (h : Recorded w st) (hstep : stepBound crates w st ev = .ok st')
    (hsame : ∀ ts a u m, ev = .action ts (.addAssociation a) → st.1 = some u →
      (a.newMemberIdentifier == w) = true → u.get w = some m →
        a.newMemberSignature.chainId = m.addedOnChainId) : Recorded w st' := by
  simp only [stepBound, bind_eq_ok, pure_eq_ok] at hstep
  obtain ⟨state, hstate, hst'⟩ := hstep
  subst hst'
  obtain ⟨s', hs', htransition⟩ := stepEvent_eq_ok.mp hstate
  subst hs'
  apply h.next
  intro m' hm'
  generalize hst : st.1 = state at htransition
  cases htransition with
  | create _ =>
    right
    refine ⟨rfl, ?_⟩
    obtain ⟨e, he, hm'⟩ := Option.map_eq_some_iff.mp hm'
    have hentry := List.mem_singleton.mp (HashMap.mem_of_getKeyValue he).1
    rw [← hm', hentry]
    rfl
  | @add s ts a entity ha =>
    rw [AssociationState.get, AssociationState.members_add, HashMap.get_insert] at hm'
    split at hm'
    · rename_i hsigner
      cases hm'
      have hnamed : (a.newMemberIdentifier == w) = true := BEq.trans (BEq.symm ha.signer) hsigner
      cases hmember : s.isMember w with
      | true =>
        obtain ⟨m, hm⟩ := exists_get_of_isMember hmember
        exact .inl ⟨s, m, rfl, hm, hsame ts a s m rfl hst hnamed hm⟩
      | false => exact .inr ⟨hmember, rfl⟩
    · exact .inl ⟨s, m', rfl, hm', rfl⟩
  | @revoke s ts a _ =>
    rw [AssociationState.removeAll_eq, AssociationState.get, HashMap.get,
      HashMap.getKeyValue_removeAll, AssociationState.remove] at hm'
    split at hm'
    · cases hm'
    · rw [HashMap.getKeyValue_remove] at hm'
      split at hm'
      · cases hm'
      · exact .inl ⟨s, m', rfl, hm', rfl⟩
  | changeRecovery _ => exact .inl ⟨_, m', rfl, hm', rfl⟩
  | sealed _ => exact .inl ⟨_, m', rfl, hm', rfl⟩

theorem recorded_of_careful (hcareful : ReaddedOnSameChain crates es) (hw : w.kind = .ethereum)
    {before after : List Event} (hsplit : es = before ++ after)
    {st : Option AssociationState × Option (Option UInt64)} (hrun : BoundRun crates w before st) :
    Recorded w st := by
  suffices h : ∀ after, es = before ++ after → Recorded w st from h after hsplit
  apply hrun.history (P := fun before st => ∀ after, es = before ++ after → Recorded w st)
  · refine fun _ _ => ⟨fun u hu => ?_, fun _ => rfl⟩
    cases hu
  · intro pre st ev st' hpre ih hstep after hsplit
    rw [List.append_assoc, List.singleton_append] at hsplit
    apply (ih _ hsplit).step hstep
    intro ts a u m hev hu hnamed hm
    subst hev
    have hrun' := BoundRun.run hpre
    rw [hu] at hrun'
    refine hcareful pre ts a after u m hsplit hrun' ?_ ?_
    · rw [MemberIdentifier.kind_eq_of_beq hnamed]
      exact hw
    · rw [AssociationState.get_congr hnamed]
      exact hm

theorem chainId_of_accepted {s s' : AssociationState} {ev : Event} {signature : VerifiedSignature}
    {m : Member} (h : stepEvent crates (some s) ev = .ok (some s'))
    (hauthority : ev.authority = some signature) (hm : s.get signature.signer = some m) :
    m.addedOnChainId = signature.chainId := by
  suffices hcheck : verifyMemberChainId s signature = .ok () by
    simpa [verifyMemberChainId, hm, verifyChainIdMatches] using hcheck
  obtain ⟨_, _, htransition⟩ := stepEvent_eq_ok.mp h
  cases htransition with
  | add ha =>
    cases hauthority
    exact ha.chainId
  | revoke ha =>
    cases hauthority
    exact ha.chainId
  | changeRecovery ha =>
    cases hauthority
    exact ha.chainId
  | sealed _ => cases hauthority

/-- As long as no wallet is added again under another chain, every signature that is accepted of a
wallet that is a member is on the chain that it was first added on since it last was none. -/
theorem chain_bound {us : List IdentityUpdate} {s : AssociationState}
    (h : getState crates us = .ok s) (hcareful : ReaddedOnSameChain crates (events us)) :
    ChainBound crates (events us) := by
  intro w before ev after u bound signature hw hsplit hrun hauthority hsigner hmember
  have haccepted := getState_eq_ok.mp h
  rw [hsplit] at haccepted
  obtain ⟨st, st', hbefore, hstep, _⟩ := haccepted.split
  have hst : st = some u := hbefore.unique hrun.run
  subst hst
  obtain ⟨u', hu', _⟩ := stepEvent_eq_ok.mp hstep
  subst hu'
  obtain ⟨m, hm⟩ := exists_get_of_isMember hmember
  have hbound : bound = some m.addedOnChainId :=
    (recorded_of_careful hcareful hw hsplit hrun).1 u rfl m hm
  rw [← AssociationState.get_congr hsigner] at hm
  rw [hbound, chainId_of_accepted hstep hauthority hm]

section Check

def readdedOnSame (u : AssociationState) : Event → Bool
  | .action _ (.addAssociation a) =>
    a.newMemberIdentifier.kind != .ethereum || (u.get a.newMemberIdentifier).all fun m =>
      a.newMemberSignature.chainId == m.addedOnChainId
  | _ => true

def readdedOnSameChain (crates : Crates) : Option AssociationState → List Event → Bool
  | _, [] => true
  | st, ev :: es =>
    st.all (readdedOnSame · ev) &&
      match stepEvent crates st ev with
      | .ok st' => readdedOnSameChain crates st' es
      | .error _ => true

theorem readdedOnSame_of_check {before after : List Event} {ev : Event} {u : AssociationState}
    {st : Option AssociationState}
    (h : readdedOnSameChain crates st (before ++ ev :: after) = true)
    (hrun : Run crates st before (some u)) : readdedOnSame u ev = true := by
  induction before generalizing st with
  | nil =>
    obtain rfl := Steps.nil_iff.mp hrun
    rw [List.nil_append, readdedOnSameChain, Bool.and_eq_true] at h
    exact h.1
  | cons first before ih =>
    obtain ⟨st', hstep, hrun⟩ := Steps.cons_iff.mp hrun
    rw [List.cons_append, readdedOnSameChain, hstep, Bool.and_eq_true] at h
    exact ih h.2 hrun

theorem readdedOnSameChain_of_check (h : readdedOnSameChain crates none es = true) :
    ReaddedOnSameChain crates es := by
  intro before ts a after u m hsplit hrun hkind hm
  rw [hsplit] at h
  have hsame := readdedOnSame_of_check h hrun
  simpa [readdedOnSame, hkind, hm] using hsame

end Check

namespace Sample

def signedOn (chainId : UInt64) (signer : MemberIdentifier) (byte : UInt8) : VerifiedSignature :=
  ⟨signer, .erc1271, [byte], some chainId⟩

def createdOnFirst : IdentityUpdate :=
  ⟨inboxId, 1, [.createInbox ⟨0, wallet, signedOn 1 wallet.toMember 1⟩,
    .addAssociation ⟨signed otherWallet.toMember .erc191 2, otherWallet.toMember,
      signedOn 1 wallet.toMember 3⟩]⟩

def readded (chainId : UInt64) (byte : UInt8) : Action :=
  .addAssociation ⟨signedOn chainId wallet.toMember byte, wallet.toMember,
    signed otherWallet.toMember .erc191 (byte + 1)⟩

def readdedOnSecond : IdentityUpdate := ⟨inboxId, 2, [readded 2 4]⟩

def addsOn (chainId : UInt64) (byte : UInt8) : AddAssociation :=
  ⟨signed installation .installationKey byte, installation,
    signedOn chainId wallet.toMember (byte + 1)⟩

def addsOnSecond : AddAssociation := addsOn 2 6

def reboundLog : List IdentityUpdate :=
  [createdOnFirst, readdedOnSecond, ⟨inboxId, 3, [.addAssociation addsOnSecond]⟩]

/-- The wallet is added again on its chain, revoked by its own signature as the recovery identifier,
added on its chain once more, and acts from there. -/
def returnedLog : List IdentityUpdate :=
  [createdOnFirst, ⟨inboxId, 2, [readded 1 4]⟩,
    ⟨inboxId, 3, [.revokeAssociation ⟨signedOn 1 wallet.toMember 6, wallet.toMember⟩]⟩,
    ⟨inboxId, 4, [readded 1 7, .addAssociation (addsOn 1 9)]⟩]

end Sample

theorem chain_bound_returned :
    (∃ s, getState Sample.crates (Sample.returnedLog.take 3) = .ok s ∧
      s.isMember Sample.wallet.toMember = false) ∧
    ∃ s, getState Sample.crates Sample.returnedLog = .ok s ∧
      s.isMember Sample.wallet.toMember = true ∧ s.isMember Sample.installation = true ∧
      ChainBound Sample.crates (events Sample.returnedLog) := by
  obtain ⟨t, ht, hrevoked⟩ := Sample.exists_of_check (Sample.returnedLog.take 3)
    (fun s => !s.isMember Sample.wallet.toMember) (by decide +kernel)
  obtain ⟨s, hs, hmember⟩ := Sample.exists_of_check Sample.returnedLog
    (fun s => s.isMember Sample.wallet.toMember && s.isMember Sample.installation)
    (by decide +kernel)
  rw [Bool.and_eq_true] at hmember
  have hcareful : ReaddedOnSameChain Sample.crates (events Sample.returnedLog) :=
    readdedOnSameChain_of_check (by decide +kernel)
  exact ⟨⟨t, ht, by simpa using hrevoked⟩, s, hs, hmember.1, hmember.2, chain_bound hs hcareful⟩

/-- A wallet that is added again on a second chain acts from there. -/
theorem chain_rebound : (∃ s, getState Sample.crates Sample.reboundLog = .ok s) ∧
    ¬ChainBound Sample.crates (events Sample.reboundLog) := by
  obtain ⟨s, hs, _⟩ := Sample.exists_of_check Sample.reboundLog (fun _ => true) (by decide +kernel)
  refine ⟨⟨s, hs⟩, fun hbound => ?_⟩
  let before := events [Sample.createdOnFirst, Sample.readdedOnSecond]
  have hbefore : ∃ st, before.foldlM (stepBound Sample.crates Sample.wallet.toMember) (none, none) =
      .ok st ∧ (st.1.any (·.isMember Sample.wallet.toMember) && st.2 == some (some 1)) = true :=
    exists_of_any (by decide +kernel)
  obtain ⟨st, hrun, hcheck⟩ := hbefore
  obtain ⟨state, bound⟩ := st
  simp only [Bool.and_eq_true, beq_iff_eq] at hcheck
  cases state with
  | none => cases hcheck.1
  | some u =>
    have hchain := hbound Sample.wallet.toMember before
      (.action 3 (.addAssociation Sample.addsOnSecond)) _ u bound _ rfl rfl
      (Steps.foldlM_eq_ok.mp hrun) rfl rfl hcheck.1
    rw [hcheck.2] at hchain
    cases hchain

end LibXmtp.Associations
