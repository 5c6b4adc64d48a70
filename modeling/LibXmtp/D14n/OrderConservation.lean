import LibXmtp.D14n.Ordered

/-! What becomes of every envelope that ordering gets hold of: it is handed out or recorded in the
icebox. It is handed out once if no round is answered with an envelope that is waiting already. -/

universe u

namespace LibXmtp.D14n

open LibXmtp.Data LibXmtp.Types LibXmtp.Db

variable {E : Type u} [Envelope E]

/-- No call is answered with an envelope it does not ask for. -/
def OnlyRequested (env : Environment E) : Prop :=
  ∀ k needed resolved, env.resolve k needed = .ok resolved → ∀ e ∈ resolved, Requested needed e

theorem onlyRequested_serving (network : List E) : OnlyRequested (.serving network) := by
  rintro k needed resolved ⟨⟩ e he
  simpa using (List.mem_filter.mp he).2

namespace Ordered

variable {env : Environment E} {o s t u : Ordered E} {resolved : List E}
  {r : Except ResolutionError (Ordered E)}

def Distinct (o : Ordered E) : Prop := (o.envelopes.map key).Nodup

def FreshAnswer (env : Environment E) (o : Ordered E) : Prop :=
  ∀ resolved, env.resolve o.calls o.needed = .ok resolved →
    (resolved.map key).Nodup ∧ ∀ e ∈ resolved, key e ∉ o.missing.map key

theorem not_mem_sorted_keys {e : E} (h : Requested o.needed e) : key e ∉ o.sorted.map key := by
  intro hmem
  obtain ⟨d, hd, heq⟩ := List.mem_map.mp hmem
  obtain ⟨htopic, hcursor⟩ := Prod.mk.inj heq
  have hreq : Requested o.needed d := by
    obtain ⟨n, hn, ht, hc⟩ := h
    exact ⟨n, hn, ht.trans htopic.symm, hc.trans hcursor.symm⟩
  exact not_mem_sorted_of_requested hreq hd

theorem keys_perm (o : Ordered E) : (o.sorted.map key ++ o.missing.map key).Perm
    (o.envelopes.map key) := by
  rw [← List.map_append]
  exact o.causallySorted.perm.map key

theorem distinct_merge_iff (hreq : OnlyRequested env)
    (hresolve : env.resolve o.calls o.needed = .ok resolved) :
    (o.merge resolved).Distinct ↔
      o.Distinct ∧ (resolved.map key).Nodup ∧ ∀ e ∈ resolved, key e ∉ o.missing.map key := by
  have hsorted : ∀ e ∈ resolved, key e ∉ o.sorted.map key := fun e he =>
    not_mem_sorted_keys (hreq _ _ _ hresolve e he)
  have hdistinct : o.Distinct ↔ (o.sorted.map key ++ o.missing.map key).Nodup :=
    o.keys_perm.nodup_iff.symm
  have hperm : ((o.merge resolved).envelopes.map key).Perm
      (resolved.map key ++ (o.sorted.map key ++ o.missing.map key)) := by
    simp only [merge, List.map_append, ← List.append_assoc]
    exact List.perm_append_comm.append_right _
  rw [hdistinct, Distinct, hperm.nodup_iff, List.nodup_append]
  constructor
  · rintro ⟨hresolved, hrest, hdisjoint⟩
    refine ⟨hrest, hresolved, fun e he hmem => ?_⟩
    exact hdisjoint _ (List.mem_map_of_mem he) _ (List.mem_append_right _ hmem) rfl
  · rintro ⟨hrest, hresolved, hmissing⟩
    refine ⟨hresolved, hrest, ?_⟩
    rintro k hk _ hk' rfl
    obtain ⟨e, he, rfl⟩ := List.mem_map.mp hk
    rcases List.mem_append.mp hk' with hk' | hk'
    · exact hsorted e he hk'
    · exact hmissing e he hk'

theorem Recovered.distinct_iff {children : List E} (h : Recovered o t children) :
    t.Distinct ↔ o.Distinct := by
  have heq := h.eq
  subst heq
  simp only [Distinct, List.map_append, List.nodup_append]
  constructor
  · exact And.left
  · intro ho
    refine ⟨ho, ?_, ?_⟩
    · have hnodup := h.nodup
      rw [show (cursor : E → Cursor) = Prod.snd ∘ key from rfl, ← List.map_map] at hnodup
      exact hnodup.of_map _
    · rintro k hk _ hk' rfl
      obtain ⟨e, he, rfl⟩ := List.mem_map.mp hk
      obtain ⟨c, hc, hkey⟩ := List.mem_map.mp hk'
      apply (h.child c hc).1
      rw [show cursor c = cursor e from congrArg Prod.snd hkey]
      exact List.mem_map_of_mem he

theorem distinct_again_iff (hreq : OnlyRequested env) (h : round env o = some (.again t)) :
    t.Distinct ↔ o.Distinct ∧ FreshAnswer env o := by
  obtain ⟨resolved, children, hresolve, -, -, hrec⟩ := round_again_cases h
  rw [hrec.distinct_iff, distinct_merge_iff hreq hresolve, FreshAnswer, hresolve]
  simp

theorem freshAnswer_of_done (hreq : OnlyRequested env) (h : round env o = some (.done r)) :
    FreshAnswer env o := by
  intro resolved hresolve
  suffices hnil : resolved = [] by simp [hnil]
  cases round_cases h with
  | complete hmissing =>
    apply List.eq_nil_iff_forall_not_mem.mpr
    intro e he
    obtain ⟨d, hd, -⟩ := hreq _ _ _ hresolve e he
    simp [needed_eq_empty hmissing] at hd
  | unresolved _ herr =>
    rw [hresolve] at herr
    cases herr
  | iced _ hnil _ =>
    rw [hresolve] at hnil
    cases hnil
    rfl
  | unreadable _ hnil _ =>
    rw [hresolve] at hnil
    cases hnil
    rfl

theorem distinct_last_iff (hreq : OnlyRequested env) (h : Loop.Reaches (round env) s u)
    (hlast : round env u = some (.done r)) :
    u.Distinct ↔ s.Distinct ∧ ∀ t, Loop.Reaches (round env) s t → FreshAnswer env t := by
  induction h using Relation.ReflTransGen.head_induction_on with
  | refl =>
    refine ⟨fun hu => ⟨hu, fun t ht => ?_⟩, And.left⟩
    rcases Relation.ReflTransGen.cases_head ht with rfl | ⟨v, hv, -⟩
    · exact freshAnswer_of_done hreq hlast
    · rw [hlast] at hv
      cases hv
  | @head s v hv hvu ih =>
    rw [ih, distinct_again_iff hreq hv, and_assoc, and_congr_right_iff]
    intro _
    constructor
    · rintro ⟨hs, hrest⟩ t ht
      rcases Relation.ReflTransGen.cases_head ht with rfl | ⟨w, hw, hwt⟩
      · exact hs
      · rw [hv] at hw
        cases hw
        exact hrest t hwt
    · intro hall
      exact ⟨hall s .refl, fun t ht => hall t (.head hv ht)⟩

theorem distinct_start (h : start env o = some s) (ho : (o.envelopes.map cursor).Nodup) :
    s.Distinct := by
  obtain ⟨t, children, hrec, rfl⟩ := start_cases h
  rw [Distinct, ((env.sortByTimestamp_perm t.envelopes).map key).nodup_iff]
  apply hrec.distinct_iff.mpr
  rw [show (cursor : E → Cursor) = Prod.snd ∘ key from rfl, ← List.map_map] at ho
  exact ho.of_map _

theorem mem_again {e : E} (h : round env o = some (.again t)) (he : e ∈ o.envelopes) :
    e ∈ t.envelopes := by
  obtain ⟨resolved, children, -, -, -, hrec⟩ := round_again_cases h
  rw [hrec.eq]
  exact List.mem_append_left _ (mem_merge.mpr (.inl he))

theorem mem_of_reaches {e : E} (h : Loop.Reaches (round env) s t) (he : e ∈ s.envelopes) :
    e ∈ t.envelopes :=
  Loop.Reaches.invariant (P := fun o => e ∈ o.envelopes) h
    (fun _ _ he hround => mem_again hround he) he

theorem mem_start {e : E} (h : start env o = some s) (he : e ∈ o.envelopes) : e ∈ s.envelopes := by
  obtain ⟨t, children, hrec, rfl⟩ := start_cases h
  refine (env.sortByTimestamp_perm t.envelopes).mem_iff.mpr ?_
  rw [hrec.eq]
  exact List.mem_append_left _ he

theorem mem_or_recorded {r : Ordered E} (h : round env u = some (.done (.ok r))) {e : E}
    (he : e ∈ u.envelopes) :
    e ∈ r.envelopes ∨ ∃ row ∈ r.store.icebox.rows, row.cursor = cursor e := by
  have hleaves := leaves_of_done h
  rw [hleaves.envelopes]
  exact (u.causallySorted.mem_sorted_or_missing.mp he).imp id (hleaves.recorded e)

/-- Every round is answered with envelopes that are not waiting yet, each once. -/
def Fresh (env : Environment E) (o : Ordered E) : Prop :=
  ∀ s, start env o = some s → ∀ t, Loop.Reaches (round env) s t → FreshAnswer env t

/-- Nothing an ordering gets hold of is lost, and nothing is handed out twice if every answer is
fresh. The converse holds if the last round is missing nothing. -/
theorem order_conserves {r : Ordered E} (hreq : OnlyRequested env)
    (hdistinct : (o.envelopes.map cursor).Nodup) (h : Orders env o (.ok r)) :
    (∀ e, (e ∈ o.envelopes ∨ ∃ s t, start env o = some s ∧ Loop.Reaches (round env) s t ∧
        e ∈ t.envelopes) →
      e ∈ r.envelopes ∨ ∃ row ∈ r.store.icebox.rows, row.cursor = cursor e) ∧
    (Fresh env o → (r.envelopes.map key).Nodup) ∧
    ∀ s u, start env o = some s → Loop.Reaches (round env) s u →
      round env u = some (.done (.ok r)) → u.missing = [] →
      ((r.envelopes.map key).Nodup ↔ Fresh env o) := by
  obtain ⟨s, hs, hr⟩ := h
  obtain ⟨u, hreach, hlast⟩ := hr.exists_last
  have hiff := distinct_last_iff hreq hreach hlast
  have hfresh : Fresh env o ↔ ∀ t, Loop.Reaches (round env) s t → FreshAnswer env t := by
    simp only [Fresh, hs, Option.some.injEq, forall_eq']
  have hresult := (leaves_of_done hlast).envelopes
  refine ⟨?_, fun hall => ?_, ?_⟩
  · rintro e (he | ⟨s', t, hs', ht, he⟩)
    · exact mem_or_recorded hlast (mem_of_reaches hreach (mem_start hs he))
    · rw [hs] at hs'
      cases hs'
      exact mem_or_recorded hlast (mem_of_reaches (ht.last hreach hlast) he)
  · have hu := hiff.mpr ⟨distinct_start hs hdistinct, hfresh.mp hall⟩
    rw [hresult]
    rw [Distinct, ← u.keys_perm.nodup_iff] at hu
    exact hu.of_append_left
  · intro s' u' hs' hreach' hlast' hmissing
    rw [hs] at hs'
    cases hs'
    have hiff' := distinct_last_iff hreq hreach' hlast'
    rw [Distinct, ← u'.keys_perm.nodup_iff, hmissing, List.map_nil, List.append_nil,
      ← (leaves_of_done hlast').envelopes] at hiff'
    rw [hiff', hfresh]
    exact and_iff_right (distinct_start hs hdistinct)

def chained (sequenceId : Nat) (previous : Option Extracted) : Extracted where
  topic := [0, 1]
  cursor := { sequenceId, originatorId := sequenceId }
  dependsOn := previous.map fun e => (default : GlobalCursor).apply e.cursor
  timestamp := some sequenceId
  groupMessage := some { groupId := [1], isCommit := false }

/-- The second round waits for the second message of the chain, which the first one was answered
with, and asks for it again. -/
theorem order_duplicates : ¬∀ (env : Environment Extracted) (o r : Ordered Extracted),
    OnlyRequested env → (o.envelopes.map cursor).Nodup →
      (∀ row ∈ o.store.icebox.rows, row.cursor ∉ o.envelopes.map cursor) →
        Orders env o (.ok r) → (r.envelopes.map key).Nodup ∧ ∀ e ∈ o.envelopes,
          e ∈ r.envelopes ∨ ∃ row ∈ r.store.icebox.rows, row.cursor = cursor e := by
  intro h
  let first := chained 1 none
  let second := chained 2 (some first)
  let env : Environment Extracted := .serving [first, second]
  let o : Ordered Extracted := {
    envelopes := [chained 3 (some second)]
    calls := 0
    topicCursor := default
    store := .empty }
  have hrun : ∃ r, Orders env o (.ok r) ∧
      r.envelopes = [first, second, second, chained 3 (some second)] :=
    exists_orders_of_run 3 rfl (by decide +kernel)
  obtain ⟨r, horders, henvelopes⟩ := hrun
  have hnodup := (h env o r (onlyRequested_serving _) (by decide) nofun horders).1
  rw [henvelopes] at hnodup
  exact absurd hnodup (by decide)

/-- The last message of the chain has arrived, and one that waits for a message nobody has. -/
def lastArrives : Ordered Extracted where
  envelopes := [chained 3 (some (chained 2 none)), chained 7 (some (chained 6 none))]
  calls := 0
  topicCursor := default
  store := .empty

/-- The first round is answered with what the last message of the chain waits for, and the second one
with nothing. -/
theorem order_conserves_last : ∃ r, Orders (.serving [chained 2 none]) lastArrives (.ok r) ∧
    r.envelopes = [chained 2 none, chained 3 (some (chained 2 none))] ∧
    (r.envelopes.map key).Nodup ∧ ∀ e ∈ lastArrives.envelopes,
      e ∈ r.envelopes ∨ ∃ row ∈ r.store.icebox.rows, row.cursor = cursor e := by
  let env : Environment Extracted := .serving [chained 2 none]
  obtain ⟨r, horders, henvelopes⟩ : ∃ r, Orders env lastArrives (.ok r) ∧
      r.envelopes = [chained 2 none, chained 3 (some (chained 2 none))] :=
    exists_orders_of_run 2 rfl (by decide +kernel)
  have hfresh : Fresh env lastArrives := by
    intro s hs t hreach resolved hresolve
    cases hresolve
    let check (t : Ordered Extracted) : Bool :=
      let resolved := [chained 2 none].filter fun e => Requested t.needed e
      decide ((resolved.map key).Nodup ∧ ∀ e ∈ resolved, key e ∉ t.missing.map key)
    have hall : (start env lastArrives).all (Loop.allReached (round env) check 2) = true := by
      decide +kernel
    rw [hs] at hall
    exact of_decide_eq_true (hreach.check hall)
  obtain ⟨hkept, hnodup, -⟩ := order_conserves (onlyRequested_serving _) (by decide) horders
  exact ⟨r, horders, henvelopes, hnodup hfresh, fun e he => hkept e (.inl he)⟩

end Ordered

end LibXmtp.D14n
