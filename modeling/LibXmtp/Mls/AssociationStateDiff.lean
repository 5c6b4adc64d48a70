import LibXmtp.Mls.AssociationStateCache

namespace LibXmtp.Mls

open LibXmtp.Data LibXmtp.Associations LibXmtp.Db

section

variable {Key : Type} {env : Env Key} {updates : IdentityUpdates} {inboxId : String}

def HasUpdate (updates : IdentityUpdates) (inboxId : String) (k : Int) : Prop :=
  ∃ u ∈ updates.rows, u.key = (inboxId, k)

def HasUpdateBetween (updates : IdentityUpdates) (inboxId : String) (j k : Int) : Prop :=
  ∃ u ∈ updates.rows, u.inboxId = inboxId ∧ j < u.sequenceId ∧ u.sequenceId ≤ k

/-- The diff is the one between the states at the two updates, and a missing update is reported. -/
structure DiffContract (env : Env Key) (updates : IdentityUpdates) (inboxId : String)
    (start ending : Int) (r : Except ClientError AssociationStateDiff) : Prop where
  ok : ∀ d, r = .ok d → HasUpdate updates inboxId ending ∧
    ∃ s t, stateAt env updates inboxId start = .ok s ∧ stateAt env updates inboxId ending = .ok t ∧
      d.Equiv (s.diff t)
  missing : ¬HasUpdate updates inboxId start ∨ ¬HasUpdate updates inboxId ending →
    r = .error missingIdentityUpdate

theorem toUnverified_ne_missing (u : StoredIdentityUpdate) :
    toUnverified env u ≠ .error .missingIdentityUpdate := by
  simp [toUnverified, bind_eq_error, okOr_eq_error, mapError_eq_error]

theorem stateAt_ne_missing {k : Int} :
    stateAt env updates inboxId k ≠ .error missingIdentityUpdate := by
  intro h
  simp only [stateAt, loadUpdates, bind_eq_error, mapError_eq_error, missingIdentityUpdate,
    ClientError.association.injEq, exists_eq_right, reduceCtorEq, and_false, exists_false,
    or_false] at h
  rcases h with hdecode | ⟨us, _, hstate⟩
  · exact mapM_ne_error toUnverified_ne_missing _ hdecode
  · exact getState_ne_missing us hstate

theorem last_of_hasUpdate (fromId : Option Int) {k : Int} (h : HasUpdate updates inboxId k)
    (hfrom : ∀ j, fromId = some j → j < k) :
    ∃ u, (getIdentityUpdates updates inboxId fromId (some k)).getLast? = some u ∧
      u.sequenceId = k := by
  obtain ⟨u, hu, hkey⟩ := h
  obtain ⟨hid, hseq⟩ := Prod.ext_iff.mp hkey
  exact ⟨u, getLast?_getIdentityUpdates hu hid hseq hfrom, hseq⟩

theorem hasUpdate_of_mem {fromId toId : Option Int} {u : StoredIdentityUpdate}
    (h : u ∈ getIdentityUpdates updates inboxId fromId toId) :
    HasUpdate updates inboxId u.sequenceId :=
  ⟨u, (mem_getIdentityUpdates.mp h).1, Prod.ext (mem_getIdentityUpdates.mp h).2.1 rfl⟩

theorem replayState_of_hasUpdate {k : Int} (h : HasUpdate updates inboxId k) :
    replayState env updates inboxId (some k) = stateAt env updates inboxId k := by
  obtain ⟨u, hu, hseq⟩ := last_of_hasUpdate none h nofun
  simp [replayState, hu, hseq]

theorem replayState_of_not_hasUpdate {k : Int} (h : ¬HasUpdate updates inboxId k) :
    replayState env updates inboxId (some k) = .error missingIdentityUpdate := by
  unfold replayState
  cases hlast : (getIdentityUpdates updates inboxId none (some k)).getLast? with
  | none => rfl
  | some u =>
    have hne : (k != u.sequenceId) = true := by
      rw [bne_iff_ne]
      rintro rfl
      exact h (hasUpdate_of_mem (List.mem_of_getLast? hlast))
    simp [hne]

theorem increment_eq_nil {j k : Int} (h : ¬HasUpdateBetween updates inboxId j k) :
    getIdentityUpdates updates inboxId (some j) (some k) = [] := by
  apply List.eq_nil_iff_forall_not_mem.mpr
  intro u hu
  obtain ⟨hmem, hid, hj, hk⟩ := mem_getIdentityUpdates.mp hu
  exact h ⟨u, hmem, hid, hj j rfl, hk k rfl⟩

theorem reached_of_hasUpdate {j k : Int} (h : HasUpdate updates inboxId k) (hjk : j ≤ k) :
    reached updates inboxId j (some k) = k := by
  unfold reached
  by_cases heq : j = k
  · subst heq
    have hnil : getIdentityUpdates updates inboxId (some j) (some j) = [] := by
      apply increment_eq_nil
      rintro ⟨u, _, _, hlt, hle⟩
      omega
    simp [hnil]
  · obtain ⟨u, hu, hseq⟩ := last_of_hasUpdate (some j) h (by
      rintro _ ⟨⟩
      omega)
    simp [hu, hseq]

theorem gap_of_not_hasUpdate {j k : Int} (hbetween : HasUpdateBetween updates inboxId j k)
    (hk : ¬HasUpdate updates inboxId k) :
    ∃ last, (getIdentityUpdates updates inboxId (some j) (some k)).getLast? = some last ∧
      (some k).any (· != last.sequenceId) = true := by
  cases hlast : (getIdentityUpdates updates inboxId (some j) (some k)).getLast? with
  | none =>
    obtain ⟨u, hmem, hid, hlt, hle⟩ := hbetween
    have hu : u ∈ getIdentityUpdates updates inboxId (some j) (some k) := by
      refine mem_getIdentityUpdates.mpr ⟨hmem, hid, ?_, ?_⟩
      · rintro _ ⟨⟩
        exact hlt
      · rintro _ ⟨⟩
        exact hle
    rw [List.getLast?_eq_none_iff.mp hlast] at hu
    cases hu
  | some last =>
    refine ⟨last, rfl, ?_⟩
    rw [Option.any_some, bne_iff_ne]
    rintro rfl
    exact hk (hasUpdate_of_mem (List.mem_of_getLast? hlast))

/-- The contract holds unless the later update is missing where nothing is stored after the earlier
one: the check of the last sequence id is skipped there, and an empty diff is returned. -/
theorem diffContract_iff {db : Database} (h : Reachable env db) (order : IterOrder)
    (inboxId : String) {start ending : Int} (hle : start ≤ ending) :
    DiffContract env db.identityUpdates inboxId start ending
        ((getAssociationStateDiff env order inboxId (some start) (some ending)).outcome db).1 ↔
      (HasUpdate db.identityUpdates inboxId start →
        HasUpdate db.identityUpdates inboxId ending ∨
          HasUpdateBetween db.identityUpdates inboxId start ending ∧
            ∃ s, stateAt env db.identityUpdates inboxId start = .ok s) := by
  have hresult := ((getAssociationStateDiff_spec _ order inboxId (some start) (some ending)).run db
    h.consistent).2 start rfl
  generalize ((getAssociationStateDiff env order inboxId (some start) (some ending)).outcome db).1 =
    r at hresult
  constructor
  · intro hcontract hstart
    by_cases hending : HasUpdate db.identityUpdates inboxId ending
    · exact .inl hending
    · right
      have hr := hcontract.missing (.inr hending)
      rw [← replayState_of_hasUpdate hstart]
      cases hs : replayState env db.identityUpdates inboxId (some start) with
      | error e =>
        have he := hresult.failed e hs
        rw [hr] at he
        cases he
        rw [replayState_of_hasUpdate hstart] at hs
        exact (stateAt_ne_missing hs).elim
      | ok s =>
        refine ⟨?_, s, rfl⟩
        by_contra hbetween
        obtain ⟨d, hd⟩ := hresult.unchanged s hs (increment_eq_nil hbetween)
        rw [hr] at hd
        cases hd
  · intro hcondition
    by_cases hstart : HasUpdate db.identityUpdates inboxId start
    · rw [← replayState_of_hasUpdate hstart] at hcondition
      by_cases hending : HasUpdate db.identityUpdates inboxId ending
      · refine ⟨?_, fun hmissing => ?_⟩
        · intro d hd
          obtain ⟨s, t, hs, ht, heq⟩ := hresult.ok d hd
          rw [replayState_of_hasUpdate hstart] at hs
          rw [reached_of_hasUpdate hending hle] at ht
          exact ⟨hending, s, t, hs, ht, heq⟩
        · exact (hmissing.elim (· hstart) (· hending)).elim
      · obtain ⟨hbetween, s, hs⟩ := (hcondition hstart).resolve_left hending
        obtain ⟨last, hlast, hgap⟩ := gap_of_not_hasUpdate hbetween hending
        have hr := hresult.gap s last hs hlast hgap
        subst hr
        exact ⟨nofun, fun _ => rfl⟩
    · have hr := hresult.failed _ (replayState_of_not_hasUpdate hstart)
      subst hr
      exact ⟨nofun, fun _ => rfl⟩

end

open Sample Associations.Sample

theorem diffContract_iff_joining :
    DiffContract env creationAndJoining inboxId 1 2
      ((getAssociationStateDiff env order inboxId (some 1) (some 2)).outcome
        ⟨creationAndJoining, .empty⟩).1 := by
  apply (diffContract_iff (.start creationAndJoining) order inboxId (by decide)).mpr
  intro _
  exact .inl ⟨row 2, List.mem_cons_self, rfl⟩

/-- The second update is not stored, and the diff up to it is an empty one. -/
theorem diffContract_fails :
    ¬DiffContract env creation inboxId 1 2
      ((getAssociationStateDiff env order inboxId (some 1) (some 2)).outcome
        ⟨creation, .empty⟩).1 := by
  intro h
  have hmissing : ¬HasUpdate creation inboxId 2 := by
    rintro ⟨u, hu, hkey⟩
    cases List.mem_singleton.mp hu
    exact absurd hkey (by decide)
  have hok : ((getAssociationStateDiff env order inboxId (some 1) (some 2)).outcome
      ⟨creation, .empty⟩).1.isOk = true := by decide +kernel
  rw [h.missing (.inr hmissing)] at hok
  cases hok

end LibXmtp.Mls
