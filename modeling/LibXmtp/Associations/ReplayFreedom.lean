import LibXmtp.Associations.Replay

namespace LibXmtp.Associations

open LibXmtp.Data

section Freedom

variable {crates : Crates}

def IdentityUpdate.SignaturesDisjoint (u v : IdentityUpdate) : Prop :=
  ∀ b ∈ u.signatures, b ∉ v.signatures

namespace Transition

variable {s s' : AssociationState} {ev : Event} {b : Bytes}

theorem hasSeen_mono (h : Transition crates (some s) ev s') (hb : s.hasSeen b = true) :
    s'.hasSeen b = true := by
  cases h with
  | add _ => exact hb
  | revoke _ =>
    rw [AssociationState.removeAll_eq]
    exact hb
  | changeRecovery _ => exact hb
  | sealed _ => simp [hb]

theorem fresh {ts : UInt64} {a : Action} (h : Transition crates (some s) (.action ts a) s')
    (hb : b ∈ a.signatures) : s.hasSeen b = false := by
  cases h with
  | add ha => exact eq_false_of_ne_true (List.any_eq_false.mp ha.fresh b hb)
  | revoke ha =>
    rw [List.mem_singleton.mp hb]
    exact ha.fresh
  | changeRecovery ha =>
    rw [List.mem_singleton.mp hb]
    exact ha.fresh

end Transition

theorem Run.exists_some {s : AssociationState} {es : List Event} {st : Option AssociationState}
    (h : Run crates (some s) es st) : ∃ s', st = some s' :=
  Steps.invariant (P := fun st => ∃ s', st = some s') h ⟨s, rfl⟩ (by
    rintro _ ev _ _ _ hstep
    obtain ⟨s', rfl, _⟩ := stepEvent_eq_ok.mp hstep
    exact ⟨s', rfl⟩)

theorem Run.hasSeen_mono {s s' : AssociationState} {es : List Event} {b : Bytes}
    (h : Run crates (some s) es (some s')) (hb : s.hasSeen b = true) : s'.hasSeen b = true := by
  have hinv := Steps.invariant
    (P := fun st => ∃ m : AssociationState, st = some m ∧ m.hasSeen b = true) h ⟨s, rfl, hb⟩ (by
      rintro _ ev _ _ ⟨m, rfl, hm⟩ hstep
      obtain ⟨n, rfl, htr⟩ := stepEvent_eq_ok.mp hstep
      exact ⟨n, rfl, htr.hasSeen_mono hm⟩)
  obtain ⟨_, ⟨⟩, hm⟩ := hinv
  exact hm

theorem Run.fresh {s : AssociationState} {es : List Event} {st : Option AssociationState}
    {ts : UInt64} {a : Action} {b : Bytes} (h : Run crates (some s) es st)
    (ha : .action ts a ∈ es) (hb : b ∈ a.signatures) : s.hasSeen b = false := by
  obtain ⟨before, after, rfl⟩ := List.append_of_mem ha
  obtain ⟨_, _, hbefore, hstep, _⟩ := h.split
  obtain ⟨m, rfl⟩ := Run.exists_some hbefore
  obtain ⟨_, _, htr⟩ := stepEvent_eq_ok.mp hstep
  have hfresh := htr.fresh hb
  cases hs : s.hasSeen b with
  | false => rfl
  | true =>
    rw [Run.hasSeen_mono hbefore hs] at hfresh
    cases hfresh

theorem IdentityUpdate.mem_signatures {u : IdentityUpdate} {b : Bytes} :
    b ∈ u.signatures ↔
      ∃ a, .action u.clientTimestampNs a ∈ u.events ∧ b ∈ a.signatures := by
  simp [signatures, events]

theorem Run.seen_of_update {u : IdentityUpdate} {st : Option AssociationState}
    {st' : Option AssociationState} (h : Run crates st u.events st') :
    ∃ s, st' = some s ∧ ∀ b ∈ u.signatures, s.hasSeen b = true := by
  obtain ⟨_, _, hseal⟩ := Steps.append_iff.mp h
  obtain ⟨_, hstep, hend⟩ := Steps.cons_iff.mp hseal
  rw [Steps.nil_iff] at hend
  subst hend
  obtain ⟨s, rfl, htr⟩ := stepEvent_eq_ok.mp hstep
  refine ⟨s, rfl, fun b hb => ?_⟩
  cases htr with
  | sealed _ => simp [hb]

theorem Run.seen_of_mem {us : List IdentityUpdate} {v : IdentityUpdate}
    {st : Option AssociationState} (h : Run crates none (events us) st) (hv : v ∈ us) :
    ∃ s, st = some s ∧ ∀ b ∈ v.signatures, s.hasSeen b = true := by
  obtain ⟨before, after, rfl⟩ := List.append_of_mem hv
  rw [events_append, events_cons] at h
  obtain ⟨_, _, hrest⟩ := Steps.append_iff.mp h
  obtain ⟨_, hupdate, hafter⟩ := Steps.append_iff.mp hrest
  obtain ⟨m, rfl, hseen⟩ := Run.seen_of_update hupdate
  obtain ⟨s, rfl⟩ := Run.exists_some hafter
  exact ⟨s, rfl, fun b hb => Run.hasSeen_mono hafter (hseen b hb)⟩

theorem Run.disjoint_last {us : List IdentityUpdate} {u : IdentityUpdate}
    {st : Option AssociationState} (h : Run crates none (events (us ++ [u])) st) :
    ∀ v ∈ us, v.SignaturesDisjoint u := by
  intro v hv b hb hbu
  rw [events_append] at h
  obtain ⟨_, hus, hlast⟩ := Steps.append_iff.mp h
  obtain ⟨s, rfl, hseen⟩ := Run.seen_of_mem hus hv
  obtain ⟨a, ha, hba⟩ := IdentityUpdate.mem_signatures.mp hbu
  have hfresh : s.hasSeen b = false := Run.fresh hlast (by simpa [events] using ha) hba
  rw [hseen b hb] at hfresh
  cases hfresh

theorem Run.disjoint {us : List IdentityUpdate} {st : Option AssociationState}
    (h : Run crates none (events us) st) :
    us.Pairwise IdentityUpdate.SignaturesDisjoint := by
  induction us using List.reverseRecOn generalizing st with
  | nil => exact .nil
  | append_singleton us u ih =>
    refine List.pairwise_append.mpr ⟨?_, List.pairwise_singleton _ u, ?_⟩
    · rw [events_append] at h
      obtain ⟨m, hus, _⟩ := Steps.append_iff.mp h
      exact ih hus
    · intro v hv w hw
      rw [List.mem_singleton.mp hw]
      exact Run.disjoint_last h v hv

/-- In an accepted log no update repeats a signature of an earlier one, and a log extended by an
update that does is rejected. -/
theorem signatures_never_replayed {us : List IdentityUpdate} {s : AssociationState}
    (h : getState crates us = .ok s) :
    us.Pairwise IdentityUpdate.SignaturesDisjoint ∧
    ∀ u, (∃ v ∈ us, ∃ b ∈ v.signatures, b ∈ u.signatures) →
      ∃ e, getState crates (us ++ [u]) = .error e := by
  constructor
  · exact Run.disjoint (getState_eq_ok.mp h)
  · rintro u ⟨v, hv, b, hb, hbu⟩
    cases hext : getState crates (us ++ [u]) with
    | error e => exact ⟨e, rfl⟩
    | ok s' => exact absurd hbu (Run.disjoint_last (getState_eq_ok.mp hext) v hv b hb)

theorem signatures_never_replayed_log :
    Sample.log.Pairwise IdentityUpdate.SignaturesDisjoint ∧
      ∃ e, getState Sample.crates (Sample.log ++ [Sample.recoveryMoved]) = .error e := by
  obtain ⟨s, hs⟩ := Sample.getState_log
  obtain ⟨hpairwise, hextended⟩ := signatures_never_replayed hs
  exact ⟨hpairwise, hextended Sample.recoveryMoved
    ⟨Sample.recoveryMoved, by decide, [4], by decide, by decide⟩⟩

end Freedom

end LibXmtp.Associations
