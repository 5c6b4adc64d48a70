import LibXmtp.D14n.Ordered

/-! When ordering comes to an end: it does unless the resolver answers a round only with envelopes
that are waiting already, and unless iced envelopes wait for themselves. -/

universe u

namespace LibXmtp.D14n

open LibXmtp.Data LibXmtp.Types LibXmtp.Db

variable {E : Type u} [Envelope E]

/-- Every call is answered with exactly the envelopes of `network` that it asks for. -/
def AnswersFrom (network : List E) (env : Environment E) : Prop :=
  ∀ k needed, ∃ resolved, env.resolve k needed = .ok resolved ∧
    ∀ e, e ∈ resolved ↔ e ∈ network ∧ Requested needed e

theorem answersFrom_serving (network : List E) :
    AnswersFrom network (Environment.serving network) :=
  fun _ _ => ⟨_, rfl, fun e => by simp⟩

namespace Ordered

variable {env : Environment E} {network : List E} {o s t : Ordered E}

/-- The query for what waits for the envelope at `c` comes to an iced one that waits for itself. -/
def Cyclic (o : Ordered E) (c : Cursor) : Prop :=
  Icebox.isInteger c ∧ ∃ r, o.store.WaitsFor c r ∧ o.store.WaitsFor r.cursor r

theorem not_cyclic_iff {c : Cursor} :
    ¬o.Cyclic c ↔ (o.store.futureDependents [c]).isSome = true := by
  rw [← not_iff_not, not_not, Option.not_isSome_iff_eq_none, Icebox.futureDependents_eq_none_iff]
  simp [Cyclic]

def Stuck (env : Environment E) (o : Ordered E) : Prop :=
  ∃ resolved, env.resolve o.calls o.needed = .ok resolved ∧ resolved ≠ [] ∧ resolved ⊆ o.missing

/-- No envelope the call gets hold of has iced ones waiting for it that wait for themselves, and no
round is answered with nothing but what is waiting already. -/
def Settles (env : Environment E) (o : Ordered E) : Prop :=
  (∀ e ∈ o.envelopes, ¬o.Cyclic (cursor e)) ∧
    ∀ s t resolved, start env o = some s → Loop.Reaches (round env) s t →
      env.resolve t.calls t.needed = .ok resolved → resolved ≠ [] →
        ¬resolved ⊆ t.missing ∧ ∀ e ∈ resolved, ¬t.Cyclic (cursor e)

theorem missing_ne_nil_of_stuck (h : Stuck env o) : o.missing ≠ [] := by
  obtain ⟨resolved, -, hne, hsub⟩ := h
  intro hnil
  rw [hnil] at hsub
  exact hne (List.subset_nil.mp hsub)

theorem eq_merge_of_stuck {resolved : List E} (hclosed : o.Closed) (hsub : resolved ⊆ o.missing)
    (h : recoverLostChildren env (o.merge resolved) = some t) : t = o.merge resolved := by
  obtain ⟨children, hrec⟩ := recovered_of_eq_some h
  have hmem : ∀ e, e ∈ (o.merge resolved).envelopes ↔ e ∈ o.envelopes := by
    intro e
    rw [mem_merge]
    refine ⟨fun he => he.elim id fun he => ?_, .inl⟩
    exact o.causallySorted.mem_sorted_or_missing.mpr (.inr (hsub he))
  have hnil : children = [] := by
    apply List.eq_nil_iff_forall_not_mem.mpr
    intro e he
    obtain ⟨hnot, r, rfl, d, hd, hinteger, hwaits⟩ := hrec.child e he
    obtain ⟨d', hd', hcursor⟩ := List.mem_map.mp (hclosed d ((hmem d).mp hd) hinteger r hwaits)
    rw [r.cursor_eq, ← hcursor] at hnot
    exact hnot (List.mem_map_of_mem ((hmem d').mpr hd'))
  rw [hrec.eq, hnil, List.append_nil]

theorem mem_missing_merge {resolved : List E} (hsub : resolved ⊆ o.missing) {e : E} :
    e ∈ (o.merge resolved).missing ↔ e ∈ o.missing := by
  have hsort := o.causallySorted
  have hsort' := (o.merge resolved).causallySorted
  have hmem : ∀ e ∈ (o.merge resolved).envelopes, e ∈ o.envelopes := fun e he =>
    (mem_merge.mp he).elim id fun he => hsort.mem_sorted_or_missing.mpr (.inr (hsub he))
  obtain ⟨hsorted, hseen⟩ := hsort.again hsort' (seen_merge resolved) hmem
  constructor
  · intro he
    refine (hsort.mem_sorted_or_missing.mp
      (hmem e (hsort'.mem_sorted_or_missing.mpr (.inr he)))).resolve_left fun hin => ?_
    have hready := hsort.ready hin
    rw [← TopicCursor.ready_eq_of_seen_eq hseen, hsort'.unready e he] at hready
    cases hready
  · intro he
    have hin : e ∈ (o.merge resolved).envelopes :=
      mem_merge.mpr (.inl (hsort.mem_sorted_or_missing.mpr (.inr he)))
    refine (hsort'.mem_sorted_or_missing.mp hin).resolve_left fun hin => ?_
    have hready := hsort.ready (hsorted e hin)
    rw [hsort.unready e he] at hready
    cases hready

theorem needed_merge {resolved : List E} (hsub : resolved ⊆ o.missing) :
    (o.merge resolved).needed = o.needed := by
  have hseen := (o.causallySorted.again (o.merge resolved).causallySorted (seen_merge resolved)
    fun e he => (mem_merge.mp he).elim id fun he =>
      o.causallySorted.mem_sorted_or_missing.mpr (.inr (hsub he))).2
  ext d
  simp only [mem_needed, mem_missing_merge hsub, hseen]

theorem stuck_again (hnet : AnswersFrom network env) (hstuck : Stuck env o) (hclosed : o.Closed)
    {next} (h : round env o = some next) : ∃ t, next = .again t ∧ Stuck env t ∧ t.Closed := by
  have hmissing := missing_ne_nil_of_stuck hstuck
  obtain ⟨resolved, hresolve, hne, hsub⟩ := hstuck
  cases round_cases h with
  | complete hnil => exact absurd hnil hmissing
  | unresolved _ herr =>
    rw [hresolve] at herr
    cases herr
  | iced _ hnone _ =>
    rw [hresolve] at hnone
    cases hnone
    exact absurd rfl hne
  | unreadable _ hnone _ =>
    rw [hresolve] at hnone
    cases hnone
    exact absurd rfl hne
  | again _ hagain _ hrec =>
    rw [hresolve] at hagain
    cases hagain
    obtain ⟨children, hrecovered⟩ := recovered_of_eq_some hrec
    refine ⟨_, rfl, ?_, hrecovered.closed⟩
    rw [eq_merge_of_stuck hclosed hsub hrec]
    obtain ⟨resolved', hresolve', hmem'⟩ := hnet (o.merge resolved).calls (o.merge resolved).needed
    obtain ⟨resolved'', hresolve'', hmem''⟩ := hnet o.calls o.needed
    rw [hresolve] at hresolve''
    cases hresolve''
    have hsame : ∀ e, e ∈ resolved' ↔ e ∈ resolved := fun e => by
      rw [hmem', hmem'', needed_merge hsub]
    refine ⟨resolved', hresolve', ?_, fun e he => ?_⟩
    · obtain ⟨e, he⟩ := List.exists_mem_of_ne_nil _ hne
      exact List.ne_nil_of_mem ((hsame e).mpr he)
    · exact (mem_missing_merge hsub).mpr (hsub ((hsame e).mp he))

theorem not_returns_of_stuck (hnet : AnswersFrom network env) (hstuck : Stuck env o)
    (hclosed : o.Closed) (r) : ¬Loop.Returns (round env) o r :=
  Loop.not_returns_of_stuck (P := fun o => Stuck env o ∧ o.Closed)
    (fun _ _ ⟨hstuck, hclosed⟩ h => stuck_again hnet hstuck hclosed h) ⟨hstuck, hclosed⟩

theorem Recovered.not_cyclic {children : List E} (h : Recovered o t children)
    (ho : ∀ e ∈ o.envelopes, ¬o.Cyclic (cursor e)) : ∀ e ∈ t.envelopes, ¬t.Cyclic (cursor e) := by
  have heq := h.eq
  subst heq
  intro e he
  rcases List.mem_append.mp he with he | he
  · exact ho e he
  · obtain ⟨-, r, rfl, d, hd, hinteger, hwaits⟩ := h.child e he
    rintro ⟨-, r', hr', hcycle⟩
    rw [r.cursor_eq] at hr'
    exact ho d hd ⟨hinteger, r', hwaits.trans hr', hcycle⟩

theorem recover_eq_none_of_cyclic {e : E} (he : e ∈ o.envelopes) (h : o.Cyclic (cursor e)) :
    recoverLostChildren env o = none :=
  recoverLostChildren_eq_none_iff.mpr ⟨e, he, h⟩

theorem exists_recover (env : Environment E) (h : ∀ e ∈ o.envelopes, ¬o.Cyclic (cursor e)) :
    ∃ t, recoverLostChildren env o = some t := by
  apply Option.ne_none_iff_exists'.mp
  intro hnone
  obtain ⟨e, he, hcyclic⟩ := recoverLostChildren_eq_none_iff.mp hnone
  exact h e he hcyclic

open Classical in
noncomputable def unfetched (network : List E) (o : Ordered E) : Nat :=
  (network.filter fun e => e ∉ o.envelopes).length

theorem unfetched_lt {e : E} (hsub : o.envelopes ⊆ t.envelopes) (hmem : e ∈ network)
    (ho : e ∉ o.envelopes) (ht : e ∈ t.envelopes) :
    t.unfetched network < o.unfetched network := by
  classical
  have hfilter : (network.filter fun e => e ∉ t.envelopes) =
      (network.filter fun e => e ∉ o.envelopes).filter fun e => e ∉ t.envelopes := by
    rw [List.filter_filter]
    apply List.filter_congr
    intro d _
    have himp : d ∈ o.envelopes → d ∈ t.envelopes := fun hd => hsub hd
    simp only [decide_eq_decide, ← Bool.decide_and]
    tauto
  rw [unfetched, unfetched, hfilter, List.length_filter_lt_length_iff_exists]
  exact ⟨e, by simp [hmem, ho], by simp [ht]⟩

theorem unfetched_again (hnet : AnswersFrom network env) (hstuck : ¬Stuck env o)
    (h : round env o = some (.again t)) : t.unfetched network < o.unfetched network := by
  obtain ⟨resolved, children, hresolve, hne, -, hrec⟩ := round_again_cases h
  have hnew : ∃ e ∈ resolved, e ∉ o.missing := by
    by_contra hall
    exact hstuck ⟨resolved, hresolve, hne, fun e he => by_contra fun hmem => hall ⟨e, he, hmem⟩⟩
  obtain ⟨e, he, hmem⟩ := hnew
  obtain ⟨resolved', hresolve', hmem'⟩ := hnet o.calls o.needed
  rw [hresolve] at hresolve'
  cases hresolve'
  obtain ⟨hnetwork, hreq⟩ := (hmem' e).mp he
  have hin : ∀ d ∈ (o.merge resolved).envelopes, d ∈ t.envelopes := fun d hd => by
    simp [hrec.eq, hd]
  refine unfetched_lt (fun d hd => hin d (mem_merge.mpr (.inl hd))) hnetwork (fun hold => ?_)
    (hin e (mem_merge.mpr (.inr he)))
  rcases o.causallySorted.mem_sorted_or_missing.mp hold with hold | hold
  · exact not_mem_sorted_of_requested hreq hold
  · exact hmem hold

theorem missing_ne_nil_of_resolved (hnet : AnswersFrom network env) {resolved : List E}
    (hresolve : env.resolve o.calls o.needed = .ok resolved) (hne : resolved ≠ []) :
    o.missing ≠ [] := by
  intro hnil
  obtain ⟨resolved', hresolve', hmem⟩ := hnet o.calls o.needed
  rw [hresolve] at hresolve'
  cases hresolve'
  obtain ⟨e, he⟩ := List.exists_mem_of_ne_nil _ hne
  obtain ⟨-, d, hd, -⟩ := (hmem e).mp he
  simp [needed_eq_empty hnil] at hd

theorem round_of_resolved {resolved : List E} (hmissing : o.missing ≠ [])
    (hresolve : env.resolve o.calls o.needed = .ok resolved) (hne : resolved ≠ []) :
    round env o = (recoverLostChildren env (o.merge resolved)).map .again := by
  rw [round_of_missing_ne_nil hmissing, hresolve]
  simp [hne]

theorem round_progress (hnet : AnswersFrom network env)
    (hcyclic : ∀ e ∈ o.envelopes, ¬o.Cyclic (cursor e))
    (hsettles : ∀ resolved, env.resolve o.calls o.needed = .ok resolved → resolved ≠ [] →
      ¬resolved ⊆ o.missing ∧ ∀ e ∈ resolved, ¬o.Cyclic (cursor e)) :
    (∃ r, round env o = some (.done r)) ∨ ∃ t, round env o = some (.again t) ∧
      (∀ e ∈ t.envelopes, ¬t.Cyclic (cursor e)) ∧ t.unfetched network < o.unfetched network := by
  by_cases hmissing : o.missing = []
  · exact .inl ⟨_, round_of_missing_nil hmissing⟩
  · obtain ⟨resolved, hresolve, -⟩ := hnet o.calls o.needed
    by_cases hne : resolved = []
    · left
      rw [round_of_missing_ne_nil hmissing, hresolve, hne]
      exact ⟨_, rfl⟩
    · right
      obtain ⟨hnew, hresolved⟩ := hsettles resolved hresolve hne
      have hmerge : ∀ e ∈ (o.merge resolved).envelopes, ¬(o.merge resolved).Cyclic (cursor e) :=
        fun e he => (mem_merge.mp he).elim (hcyclic e) (hresolved e)
      obtain ⟨t, ht⟩ := exists_recover env hmerge
      have hround : round env o = some (.again t) := by
        rw [round_of_resolved hmissing hresolve hne, ht]
        rfl
      obtain ⟨children, hrec⟩ := recovered_of_eq_some ht
      refine ⟨t, hround, hrec.not_cyclic hmerge, unfetched_again hnet (fun hstuck => ?_) hround⟩
      obtain ⟨resolved', hresolve', -, hsub⟩ := hstuck
      rw [hresolve] at hresolve'
      cases hresolve'
      exact hnew hsub

/-- Ordering comes to an end exactly when it settles. -/
theorem order_returns_iff (hnet : AnswersFrom network env) (o : Ordered E) :
    (∃ r, Orders env o r) ↔ Settles env o := by
  constructor
  · rintro ⟨r, s, hs, hr⟩
    constructor
    · intro e he hcyclic
      rw [start, recover_eq_none_of_cyclic he hcyclic] at hs
      cases hs
    · intro s' t resolved hs' hreach hresolve hne
      rw [hs] at hs'
      cases hs'
      have ht := hr.of_reached hreach
      constructor
      · intro hsub
        exact not_returns_of_stuck hnet ⟨resolved, hresolve, hne, hsub⟩
          (closed_of_reaches (closed_start hs) hreach) r ht
      · intro e he hcyclic
        obtain ⟨next, hnext⟩ := ht.exists_next
        rw [round_of_resolved (missing_ne_nil_of_resolved hnet hresolve hne) hresolve hne,
          recover_eq_none_of_cyclic (mem_merge.mpr (.inr he)) hcyclic] at hnext
        cases hnext
  · rintro ⟨hcyclic, hsettles⟩
    obtain ⟨t, ht⟩ := exists_recover env hcyclic
    obtain ⟨children, hrec⟩ := recovered_of_eq_some ht
    have hs : start env o = some { t with envelopes := env.sortByTimestamp t.envelopes } := by
      rw [start, ht]
      rfl
    have hstart : ∀ e ∈ env.sortByTimestamp t.envelopes, ¬t.Cyclic (cursor e) := fun e he =>
      hrec.not_cyclic hcyclic e ((env.sortByTimestamp_perm t.envelopes).mem_iff.mp he)
    obtain ⟨r, hr⟩ := Loop.exists_returns (unfetched network)
      (P := fun u => Loop.Reaches (round env) _ u ∧ ∀ e ∈ u.envelopes, ¬u.Cyclic (cursor e))
      (fun u ⟨hreach, hu⟩ => (round_progress hnet hu fun resolved hresolve hne =>
        hsettles _ u resolved hs hreach hresolve hne).imp id fun ⟨v, hv, hcyclic, hlt⟩ =>
          ⟨v, hv, ⟨hreach.tail hv, hcyclic⟩, hlt⟩)
      ⟨.refl, hstart⟩
    exact ⟨r, _, hs, hr⟩

def orphanedCommit : Extracted where
  topic := [0, 1]
  cursor := { sequenceId := 5, originatorId := 10 }
  dependsOn := some ((default : GlobalCursor).apply { sequenceId := 9, originatorId := 20 })
  timestamp := some 1
  groupMessage := some { groupId := [1], isCommit := true }

def laterMessage : Extracted where
  topic := [0, 1]
  cursor := { sequenceId := 7, originatorId := 30 }
  dependsOn := some ((default : GlobalCursor).apply orphanedCommit.cursor)
  timestamp := some 2
  groupMessage := some { groupId := [1], isCommit := false }

/-- Both have arrived, and every round asks for the commit again. -/
theorem order_not_returns : ¬∀ (network : List Extracted) (env : Environment Extracted)
    (o : Ordered Extracted), AnswersFrom network env → ∃ r, Orders env o r := by
  intro h
  let o : Ordered Extracted := {
    envelopes := [orphanedCommit, laterMessage]
    calls := 0
    topicCursor := default
    store := .empty }
  obtain ⟨r, s, hs, hr⟩ := h [orphanedCommit] _ o (answersFrom_serving _)
  have hclosed := closed_start hs
  obtain rfl : o = s := by
    have hstart : start (Environment.serving [orphanedCommit]) o = some o := rfl
    exact Option.some.inj (hstart.symm.trans hs)
  have hmissing : o.missing = [orphanedCommit, laterMessage] := by decide +kernel
  have hresolve : [orphanedCommit].filter (fun e => Requested o.needed e) = [orphanedCommit] := by
    decide +kernel
  refine not_returns_of_stuck (answersFrom_serving _)
    ⟨[orphanedCommit], congrArg Except.ok hresolve, by simp, ?_⟩ hclosed r hr
  simp [hmissing]

def reply : Extracted where
  topic := [0, 1]
  cursor := { sequenceId := 8, originatorId := 40 }
  dependsOn := some ((default : GlobalCursor).apply laterMessage.cursor)
  timestamp := some 3
  groupMessage := some { groupId := [1], isCommit := false }

def replyOrphan : OrphanedEnvelope Extracted where
  cursor := reply.cursor
  dependsOn := dependencies reply
  payload := reply
  groupId := [1]
  cursor_eq := rfl
  dependsOn_eq := rfl
  groupId_eq := rfl

def rootCommit : Extracted := { orphanedCommit with dependsOn := none }

def laterArrives : Ordered Extracted where
  envelopes := [laterMessage]
  calls := 0
  topicCursor := default
  store := Icebox.empty.ice [replyOrphan]

theorem order_returns_later : Settles (.serving [rootCommit]) laterArrives ∧
    ∃ r, Orders (.serving [rootCommit]) laterArrives r := by
  have hsettles : Settles (.serving [rootCommit]) laterArrives := by
    constructor
    · intro e he
      rw [List.mem_singleton.mp he, not_cyclic_iff]
      decide +kernel
    · intro s t resolved hs hreach hresolve hne
      cases hresolve
      let check (t : Ordered Extracted) : Bool :=
        let resolved := [rootCommit].filter fun e => Requested t.needed e
        resolved.isEmpty || decide (¬resolved ⊆ t.missing) &&
          resolved.all fun e => (t.store.futureDependents [cursor e]).isSome
      have hall : (start (.serving [rootCommit]) laterArrives).all
          (Loop.allReached (round (.serving [rootCommit])) check 2) = true := by decide +kernel
      rw [hs] at hall
      have hcheck := hreach.check hall
      simp only [check, Bool.or_eq_true, List.isEmpty_iff, Bool.and_eq_true, decide_eq_true_eq,
        List.all_eq_true] at hcheck
      obtain ⟨hnew, hacyclic⟩ := hcheck.resolve_left hne
      exact ⟨hnew, fun e he => not_cyclic_iff.mpr (hacyclic e he)⟩
  exact ⟨hsettles, (order_returns_iff (answersFrom_serving _) laterArrives).mpr hsettles⟩

end Ordered

end LibXmtp.D14n
