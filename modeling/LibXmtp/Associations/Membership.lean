import LibXmtp.Associations.Replay

namespace LibXmtp.Associations

open LibXmtp.Data

section Provenance

variable {crates : Crates}

/-- The run `es` added `x` by an action signed by `x` itself and by someone who was a member or
the recovery identifier right before. -/
def AddedBy (crates : Crates) (es : List Event) (x : MemberIdentifier) (m : Member) : Prop :=
  ∃ before ts a after s entity,
    es = before ++ .action ts (.addAssociation a) :: after ∧
    Run crates none before (some s) ∧
    (a.newMemberSignature.signer == x) = true ∧
    isAllowedSignature x.kind a.newMemberSignature.kind = true ∧
    (s.isMember a.existingMemberSignature.signer = true ∨
      (a.existingMemberSignature.signer == s.recoveryIdentifier.toMember) = true) ∧
    m = a.newMember entity ts

theorem AddedBy.append {es : List Event} {x : MemberIdentifier} {m : Member}
    (h : AddedBy crates es x m) (fs : List Event) : AddedBy crates (es ++ fs) x m := by
  obtain ⟨before, ts, a, after, s, entity, rfl, hrest⟩ := h
  exact ⟨before, ts, a, after ++ fs, s, entity, by simp, hrest⟩

/-- What holds of an entry of the members after the run `es` of a log that starts with the
inbox of `account`. -/
structure EntrySound (crates : Crates) (account : Identifier) (es : List Event)
    (e : MemberIdentifier × Member) : Prop where
  keyed : (e.1 == e.2.identifier) = true
  parent : e.2.kind = .installation →
    ∃ p, e.2.addedByEntity = some p ∧ p.kind ≠ .installation
  origin : (e.1 == account.toMember) = true ∨ AddedBy crates es e.1 e.2

theorem EntrySound.append {account : Identifier} {es : List Event}
    {e : MemberIdentifier × Member} (h : EntrySound crates account es e) (fs : List Event) :
    EntrySound crates account (es ++ fs) e :=
  ⟨h.keyed, h.parent, h.origin.imp_right fun ho => ho.append fs⟩

/-- The invariant of a replay: one inbox is created, first, and every entry is sound. -/
def Sound (crates : Crates) (es : List Event) (s : AssociationState) : Prop :=
  ∃ ts c rest,
    es = .action ts (.createInbox c) :: rest ∧
    (∀ ts' c', .action ts' (.createInbox c') ∉ rest) ∧
    c.accountIdentifier.inboxId crates c.nonce = .ok s.inboxId ∧
    ∀ e ∈ s.members.entries, EntrySound crates c.accountIdentifier es e

theorem AddAssociation.Accepted.entity_beq {a : AddAssociation} {s : AssociationState}
    {entity : MemberIdentifier} (h : a.Accepted crates s entity)
    (keyed : ∀ e ∈ s.members.entries, (e.1 == e.2.identifier) = true) :
    (a.existingMemberSignature.signer == entity) = true := by
  rcases AddAssociation.existingEntityId_eq_ok.mp h.authority with
    ⟨m, hget, rfl⟩ | ⟨_, hsigner, _, rfl⟩
  · obtain ⟨e, he, rfl⟩ := Option.map_eq_some_iff.mp hget
    obtain ⟨hmem, hkey⟩ := HashMap.mem_of_getKeyValue he
    exact BEq.trans (BEq.symm hkey) (keyed e hmem)
  · exact hsigner

theorem AddAssociation.Accepted.authorized {a : AddAssociation} {s : AssociationState}
    {entity : MemberIdentifier} (h : a.Accepted crates s entity) :
    s.isMember a.existingMemberSignature.signer = true ∨
      (a.existingMemberSignature.signer == s.recoveryIdentifier.toMember) = true := by
  rcases AddAssociation.existingEntityId_eq_ok.mp h.authority with
    ⟨m, hget, _⟩ | ⟨_, hsigner, _, _⟩
  · left
    rw [AssociationState.isMember, HashMap.containsKey_eq_isSome_get]
    exact Option.isSome_iff_exists.mpr ⟨m, hget⟩
  · exact .inr hsigner

theorem CreateInbox.mem_initialState {c : CreateInbox} {inboxId : String}
    {e : MemberIdentifier × Member} (h : e ∈ (c.initialState inboxId).members.entries) :
    e = (c.accountIdentifier.toMember, ⟨c.accountIdentifier.toMember, none, none,
      c.initialIdentifierSignature.chainId⟩) := List.mem_singleton.mp h

theorem Sound.start {ev : Event} {s : AssociationState} (h : Transition crates none ev s) :
    Sound crates [ev] s := by
  cases h with
  | create hc =>
    refine ⟨_, _, [], rfl, nofun, hc.inboxId, fun e he => ?_⟩
    rw [CreateInbox.mem_initialState he]
    exact {
      keyed := BEq.rfl
      parent := by
        intro hk
        exact absurd hk (by simpa [Member.kind] using Identifier.kind_ne_installation _)
      origin := .inl BEq.rfl }

theorem AddAssociation.Accepted.entrySound {a : AddAssociation} {s : AssociationState}
    {entity : MemberIdentifier} {es : List Event} {account : Identifier} {ts : UInt64}
    (h : a.Accepted crates s entity) (hrun : Run crates none es (some s))
    (keyed : ∀ e ∈ s.members.entries, (e.1 == e.2.identifier) = true)
    {e : MemberIdentifier × Member} (hkey : (e.1 == a.newMemberSignature.signer) = true)
    (hval : e.2 = a.newMember entity ts) :
    EntrySound crates account (es ++ [.action ts (.addAssociation a)]) e where
  keyed := by
    rw [hval]
    exact hkey
  parent := by
    rw [hval]
    intro hkind
    refine ⟨entity, rfl, fun hentity => h.association ⟨?_, ?_⟩⟩
    · rw [MemberIdentifier.kind_eq_of_beq (h.entity_beq keyed)]
      exact hentity
    · rw [← MemberIdentifier.kind_eq_of_beq h.signer]
      exact hkind
  origin := by
    right
    refine ⟨es, ts, a, [], s, entity, rfl, hrun, BEq.symm hkey, ?_, h.authorized, hval⟩
    rw [MemberIdentifier.kind_eq_of_beq hkey, MemberIdentifier.kind_eq_of_beq h.signer]
    exact h.newSignature

theorem Sound.step {es : List Event} {s s' : AssociationState} {ev : Event}
    (hrun : Run crates none es (some s)) (hs : Sound crates es s)
    (h : Transition crates (some s) ev s') : Sound crates (es ++ [ev]) s' := by
  obtain ⟨ts₀, c, rest, rfl, hunique, hid, hentries⟩ := hs
  have keyed : ∀ e ∈ s.members.entries, (e.1 == e.2.identifier) = true :=
    fun e he => (hentries e he).keyed
  have old : ∀ e ∈ s.members.entries, EntrySound crates c.accountIdentifier
      ((.action ts₀ (.createInbox c) :: rest) ++ [ev]) e :=
    fun e he => (hentries e he).append [ev]
  have notCreate : ∀ ts' c', ev ≠ .action ts' (.createInbox c') := by
    rintro ts' c' rfl
    cases h
  refine ⟨ts₀, c, rest ++ [ev], by simp, ?_, ?_, ?_⟩
  · intro ts' c' hmem
    rcases List.mem_append.mp hmem with hmem | hmem
    · exact hunique ts' c' hmem
    · exact notCreate ts' c' (List.mem_singleton.mp hmem).symm
  · rw [hid]
    cases h with
    | add _ => rfl
    | revoke _ => rw [AssociationState.removeAll_eq]; rfl
    | changeRecovery _ => rfl
    | sealed _ => rfl
  · cases h with
    | add ha =>
      intro e he
      rcases HashMap.mem_entries_insert he with ⟨hkey, hval⟩ | he
      · exact ha.entrySound hrun keyed hkey hval
      · exact old e he
    | revoke _ =>
      rw [AssociationState.removeAll_eq]
      intro e he
      exact old e (HashMap.mem_entries_of_remove (HashMap.mem_entries_of_removeAll he))
    | changeRecovery _ => exact old
    | sealed _ => exact old

theorem Run.sound {es : List Event} {s : AssociationState} (h : Run crates none es (some s)) :
    Sound crates es s :=
  Run.induction h (fun _ _ ht => .start ht) fun _ _ _ _ hrun hs ht => hs.step hrun ht

/-- The inbox id is the one the first and only creation gives its account; members are stored
under their identifiers, installations were added by something that is not one, and whoever
becomes a member, other than the account, was added with its own signature by a member or the
recovery identifier. -/
theorem members_provenance {us : List IdentityUpdate} {s : AssociationState}
    (h : getState crates us = .ok s) :
    ∃ c rest,
      actions us = .createInbox c :: rest ∧
      (∀ c', .createInbox c' ∉ rest) ∧
      c.accountIdentifier.inboxId crates c.nonce = .ok s.inboxId ∧
      (∀ e ∈ s.members.entries, (e.1 == e.2.identifier) = true) ∧
      (∀ e ∈ s.members.entries, e.2.kind = .installation →
        ∃ p, e.2.addedByEntity = some p ∧ p.kind ≠ .installation) ∧
      ∀ before x t, before <+: events us → Run crates none before (some t) →
        t.isMember x = true → (x == c.accountIdentifier.toMember) = false →
        ∃ m, t.get x = some m ∧ AddedBy crates before x m := by
  have hrun := getState_eq_ok.mp h
  obtain ⟨ts, c, rest, hes, hunique, hid, hentries⟩ := hrun.sound
  refine ⟨c, rest.filterMap Event.action?, ?_, ?_, hid, fun e he => (hentries e he).keyed,
    fun e he => (hentries e he).parent, ?_⟩
  · rw [← actions_events, hes]
    rfl
  · intro c' hmem
    obtain ⟨ev, hev, haction⟩ := List.mem_filterMap.mp hmem
    cases ev with
    | action ts' a =>
      cases haction
      exact hunique ts' c' hev
    | «seal» _ _ => cases haction
  · intro before x t hprefix hbefore hmember hother
    obtain ⟨_, c', _, rfl, _, _, hsound⟩ := hbefore.sound
    have hc : c' = c := by
      rw [hes, List.cons_prefix_cons] at hprefix
      cases hprefix.1
      rfl
    subst hc
    rw [AssociationState.isMember, HashMap.containsKey] at hmember
    obtain ⟨e, he⟩ := Option.isSome_iff_exists.mp hmember
    obtain ⟨hmem, hkey⟩ := HashMap.mem_of_getKeyValue he
    refine ⟨e.2, by simp [AssociationState.get, HashMap.get, he], ?_⟩
    rcases (hsound e hmem).origin with haccount | hadded
    · rw [BEq.congr_left hkey] at haccount
      simp [haccount] at hother
    · obtain ⟨before', ts', a, after, s', entity, hsplit, hrun', hsigner, hallowed, hrest⟩ := hadded
      refine ⟨before', ts', a, after, s', entity, hsplit, hrun', BEq.trans hsigner hkey, ?_, hrest⟩
      rw [← MemberIdentifier.kind_eq_of_beq hkey]
      exact hallowed

theorem members_provenance_log :
    ∃ s c rest, getState Sample.crates Sample.log = .ok s ∧
      actions Sample.log = .createInbox c :: rest ∧
      c.accountIdentifier.inboxId Sample.crates c.nonce = .ok s.inboxId := by
  obtain ⟨s, hs⟩ := Sample.getState_log
  obtain ⟨c, rest, hactions, _, hid, _⟩ := members_provenance hs
  exact ⟨s, c, rest, hs, hactions, hid⟩

end Provenance

end LibXmtp.Associations
