import LibXmtp.AppData.PolicyTranslation

namespace LibXmtp.AppData

open LibXmtp.Data LibXmtp.Groups

section Walk

mutual

/-- What a policy grants to an actor as far as it is read: an all-condition up to the first branch
that refuses, an any-condition up to the first that grants. -/
inductive PolicyGrants (actor : CommitParticipant) : Proto.Policy → Prop
  | base {n : Int32} {policy : MetadataBasePolicies} (hn : MetadataBasePolicies.ofInner n = some policy)
    (h : policy.evaluate actor = true) : PolicyGrants actor (.base n)
  | andCondition {policies : List Proto.Policy} (hne : policies ≠ [])
    (h : ∀ policy ∈ policies, PolicyGrants actor policy) : PolicyGrants actor (.andCondition policies)
  | anyCondition {before after : List Proto.Policy} {policy : Proto.Policy}
    (hbefore : ∀ policy ∈ before, PolicyRefuses actor policy) (h : PolicyGrants actor policy) :
    PolicyGrants actor (.anyCondition (before ++ policy :: after))

inductive PolicyRefuses (actor : CommitParticipant) : Proto.Policy → Prop
  | base {n : Int32} {policy : MetadataBasePolicies} (hn : MetadataBasePolicies.ofInner n = some policy)
    (h : policy.evaluate actor = false) : PolicyRefuses actor (.base n)
  | andCondition {before after : List Proto.Policy} {policy : Proto.Policy}
    (hbefore : ∀ policy ∈ before, PolicyGrants actor policy) (h : PolicyRefuses actor policy) :
    PolicyRefuses actor (.andCondition (before ++ policy :: after))
  | anyCondition {policies : List Proto.Policy} (hne : policies ≠ [])
    (h : ∀ policy ∈ policies, PolicyRefuses actor policy) : PolicyRefuses actor (.anyCondition policies)

end

def FirstOf (pass stop : Proto.Policy → Prop) (policies : List Proto.Policy) : Prop :=
  ∃ before policy after, policies = before ++ policy :: after ∧ (∀ p ∈ before, pass p) ∧
    stop policy

theorem firstOf_nil {pass stop : Proto.Policy → Prop} : ¬FirstOf pass stop [] := by
  rintro ⟨before, policy, after, hsplit, _⟩
  cases before <;> cases hsplit

theorem firstOf_cons {pass stop : Proto.Policy → Prop} {policy : Proto.Policy}
    {policies : List Proto.Policy} :
    FirstOf pass stop (policy :: policies) ↔ stop policy ∨ pass policy ∧ FirstOf pass stop policies := by
  constructor
  · rintro ⟨before, first, after, hsplit, hpass, hstop⟩
    cases before with
    | nil =>
      cases hsplit
      exact .inl hstop
    | cons p before =>
      cases hsplit
      exact .inr ⟨hpass _ List.mem_cons_self,
        before, first, after, rfl, fun q hq => hpass q (List.mem_cons_of_mem _ hq), hstop⟩
  · rintro (hstop | ⟨hpass, before, first, after, hsplit, hbefore, hstop⟩)
    · exact ⟨[], policy, policies, rfl, fun _ hp => (by cases hp), hstop⟩
    · refine ⟨policy :: before, first, after, by rw [hsplit, List.cons_append], fun p hp => ?_, hstop⟩
      rcases List.mem_cons.mp hp with heq | hp
      · exact heq ▸ hpass
      · exact hbefore p hp

variable (actor : CommitParticipant)

theorem grants_andCondition {policies : List Proto.Policy} :
    PolicyGrants actor (.andCondition policies) ↔ policies ≠ [] ∧ ∀ p ∈ policies, PolicyGrants actor p := by
  constructor
  · intro h
    cases h with
    | andCondition hne h => exact ⟨hne, h⟩
  · rintro ⟨hne, h⟩
    exact .andCondition hne h

theorem grants_anyCondition {policies : List Proto.Policy} :
    PolicyGrants actor (.anyCondition policies) ↔ FirstOf (PolicyRefuses actor) (PolicyGrants actor) policies := by
  constructor
  · intro h
    cases h with
    | anyCondition hbefore h => exact ⟨_, _, _, rfl, hbefore, h⟩
  · rintro ⟨before, policy, after, rfl, hbefore, h⟩
    exact .anyCondition hbefore h

theorem refuses_andCondition {policies : List Proto.Policy} :
    PolicyRefuses actor (.andCondition policies) ↔ FirstOf (PolicyGrants actor) (PolicyRefuses actor) policies := by
  constructor
  · intro h
    cases h with
    | andCondition hbefore h => exact ⟨_, _, _, rfl, hbefore, h⟩
  · rintro ⟨before, policy, after, rfl, hbefore, h⟩
    exact .andCondition hbefore h

theorem refuses_anyCondition {policies : List Proto.Policy} :
    PolicyRefuses actor (.anyCondition policies) ↔ policies ≠ [] ∧ ∀ p ∈ policies, PolicyRefuses actor p := by
  constructor
  · intro h
    cases h with
    | anyCondition hne h => exact ⟨hne, h⟩
  · rintro ⟨hne, h⟩
    exact .anyCondition hne h

theorem evaluateBasePolicy_of_none {n : Int32} (h : MetadataBasePolicies.ofInner n = none) :
    evaluateBasePolicy n (authorityOf actor) = .invalid := by
  unfold MetadataBasePolicies.ofInner at h
  unfold evaluateBasePolicy
  split_ifs at h ⊢
  rfl

theorem evaluateBasePolicy_decided (n : Int32) :
    (evaluateBasePolicy n (authorityOf actor) = .allow ↔ PolicyGrants actor (.base n)) ∧
      (evaluateBasePolicy n (authorityOf actor) = .deny ↔ PolicyRefuses actor (.base n)) := by
  cases hn : MetadataBasePolicies.ofInner n with
  | none =>
    rw [evaluateBasePolicy_of_none actor hn]
    refine ⟨⟨fun h => (by cases h), fun h => ?_⟩, ⟨fun h => (by cases h), fun h => ?_⟩⟩
    · cases h with
      | base hsome _ => cases hn.symm.trans hsome
    · cases h with
      | base hsome _ => cases hn.symm.trans hsome
  | some policy =>
    rw [evaluateBasePolicy_of_ofInner actor hn]
    have hgrants : PolicyGrants actor (.base n) ↔ policy.evaluate actor = true := by
      refine ⟨fun h => ?_, fun h => .base hn h⟩
      cases h with
      | base hsome h =>
        cases hn.symm.trans hsome
        exact h
    have hrefuses : PolicyRefuses actor (.base n) ↔ policy.evaluate actor = false := by
      refine ⟨fun h => ?_, fun h => .base hn h⟩
      cases h with
      | base hsome h =>
        cases hn.symm.trans hsome
        exact h
    rw [hgrants, hrefuses]
    cases policy.evaluate actor <;> simp [PolicyOutcome.fromBool]

mutual

theorem evaluatePolicyProto_decided (proto : Proto.Policy) :
    (evaluatePolicyProto (authorityOf actor) proto = .allow ↔ PolicyGrants actor proto) ∧
      (evaluatePolicyProto (authorityOf actor) proto = .deny ↔ PolicyRefuses actor proto) := by
  match proto with
  | .unset =>
    rw [evaluatePolicyProto]
    refine ⟨⟨fun h => (by cases h), fun h => ?_⟩, ⟨fun h => (by cases h), fun h => ?_⟩⟩ <;> cases h
  | .base n =>
    rw [evaluatePolicyProto]
    exact evaluateBasePolicy_decided actor n
  | .andCondition protos =>
    obtain ⟨hallow, hdeny⟩ := evaluateAndCondition_decided protos
    rw [evaluatePolicyProto, grants_andCondition, refuses_andCondition]
    split
    · rename_i hempty
      rw [List.isEmpty_iff.mp hempty]
      simp [firstOf_nil]
    · rename_i hne
      rw [hallow, hdeny]
      simp [List.isEmpty_iff.not.mp hne]
  | .anyCondition protos =>
    obtain ⟨hallow, hdeny⟩ := evaluateAnyCondition_decided protos
    rw [evaluatePolicyProto, grants_anyCondition, refuses_anyCondition]
    split
    · rename_i hempty
      rw [List.isEmpty_iff.mp hempty]
      simp [firstOf_nil]
    · rename_i hne
      rw [hallow, hdeny]
      simp [List.isEmpty_iff.not.mp hne]

theorem evaluateAndCondition_decided (protos : List Proto.Policy) :
    (evaluateAndCondition (authorityOf actor) protos = .allow ↔ ∀ p ∈ protos, PolicyGrants actor p) ∧
      (evaluateAndCondition (authorityOf actor) protos = .deny ↔
        FirstOf (PolicyGrants actor) (PolicyRefuses actor) protos) := by
  match protos with
  | [] => simp [evaluateAndCondition, firstOf_nil]
  | proto :: protos =>
    obtain ⟨hallow, hdeny⟩ := evaluatePolicyProto_decided proto
    obtain ⟨hrestAllow, hrestDeny⟩ := evaluateAndCondition_decided protos
    rw [evaluateAndCondition, List.forall_mem_cons, firstOf_cons, ← hallow, ← hdeny, ← hrestAllow,
      ← hrestDeny]
    cases evaluatePolicyProto (authorityOf actor) proto <;> simp

theorem evaluateAnyCondition_decided (protos : List Proto.Policy) :
    (evaluateAnyCondition (authorityOf actor) protos = .allow ↔
        FirstOf (PolicyRefuses actor) (PolicyGrants actor) protos) ∧
      (evaluateAnyCondition (authorityOf actor) protos = .deny ↔ ∀ p ∈ protos, PolicyRefuses actor p) := by
  match protos with
  | [] => simp [evaluateAnyCondition, firstOf_nil]
  | proto :: protos =>
    obtain ⟨hallow, hdeny⟩ := evaluatePolicyProto_decided proto
    obtain ⟨hrestAllow, hrestDeny⟩ := evaluateAnyCondition_decided protos
    rw [evaluateAnyCondition, List.forall_mem_cons, firstOf_cons, ← hallow, ← hdeny, ← hrestAllow,
      ← hrestDeny]
    cases evaluatePolicyProto (authorityOf actor) proto <;> simp

end

section Rejected

def Rejected (proto : Proto.Policy) : Prop := ∀ policy, MetadataPolicies.tryFrom proto ≠ .ok policy

/-- A condition of the policy has a malformed branch behind the one at which it stops. -/
inductive HidesMalformed (actor : CommitParticipant) : Proto.Policy → Prop
  | behindRefusal {before after : List Proto.Policy} {policy malformed : Proto.Policy}
    (hstop : PolicyRefuses actor policy) (hmem : malformed ∈ after) (hrejected : Rejected malformed) :
    HidesMalformed actor (.andCondition (before ++ policy :: after))
  | behindGrant {before after : List Proto.Policy} {policy malformed : Proto.Policy}
    (hstop : PolicyGrants actor policy) (hmem : malformed ∈ after) (hrejected : Rejected malformed) :
    HidesMalformed actor (.anyCondition (before ++ policy :: after))
  | inAnd {policies : List Proto.Policy} {policy : Proto.Policy} (hmem : policy ∈ policies)
    (h : HidesMalformed actor policy) : HidesMalformed actor (.andCondition policies)
  | inAny {policies : List Proto.Policy} {policy : Proto.Policy} (hmem : policy ∈ policies)
    (h : HidesMalformed actor policy) : HidesMalformed actor (.anyCondition policies)

theorem exists_tryFromAll {protos : List Proto.Policy}
    (h : ∀ proto ∈ protos, ∃ policy, MetadataPolicies.tryFrom proto = .ok policy) :
    ∃ policies, Policies.tryFromAll MetadataBasePolicies.ofInner .invalidMetadataPolicy protos =
      .ok policies := by
  induction protos with
  | nil => exact ⟨[], rfl⟩
  | cons proto protos ih =>
    obtain ⟨policy, hpolicy⟩ := h proto List.mem_cons_self
    obtain ⟨policies, hpolicies⟩ := ih fun p hp => h p (List.mem_cons_of_mem _ hp)
    rw [MetadataPolicies.tryFrom] at hpolicy
    refine ⟨policy :: policies, ?_⟩
    rw [Policies.tryFromAll, hpolicy, ok_bind, hpolicies]
    rfl

theorem exists_rejected {protos : List Proto.Policy} (hne : protos ≠ [])
    (h : Rejected (.andCondition protos) ∨ Rejected (.anyCondition protos)) :
    ∃ proto ∈ protos, Rejected proto := by
  by_contra hnone
  have hall : ∀ proto ∈ protos, ∃ policy, MetadataPolicies.tryFrom proto = .ok policy := by
    intro proto hproto
    by_contra hrejected
    exact hnone ⟨proto, hproto, fun policy hpolicy => hrejected ⟨policy, hpolicy⟩⟩
  obtain ⟨policies, hpolicies⟩ := exists_tryFromAll hall
  have hsome : ¬protos.isEmpty = true := by simpa using hne
  rcases h with hrejected | hrejected
  · apply hrejected (.andCondition policies)
    rw [MetadataPolicies.tryFrom, Policies.tryFrom, if_neg hsome, hpolicies]
    rfl
  · apply hrejected (.anyCondition policies)
    rw [MetadataPolicies.tryFrom, Policies.tryFrom, if_neg hsome, hpolicies]
    rfl

theorem hidesMalformed_of_decided (proto : Proto.Policy) (hrejected : Rejected proto)
    (h : PolicyGrants actor proto ∨ PolicyRefuses actor proto) : HidesMalformed actor proto := by
  match proto with
  | .unset => rcases h with h | h <;> cases h
  | .base n =>
    have hread : ∀ policy, MetadataBasePolicies.ofInner n ≠ some policy := by
      intro policy hn
      apply hrejected (.standard policy)
      rw [MetadataPolicies.tryFrom, Policies.tryFrom, hn]
    rcases h with h | h
    · cases h with
      | base hn _ => exact absurd hn (hread _)
    · cases h with
      | base hn _ => exact absurd hn (hread _)
  | .andCondition protos =>
    rw [grants_andCondition, refuses_andCondition] at h
    rcases h with ⟨hne, hall⟩ | ⟨before, policy, after, hsplit, hbefore, hstop⟩
    · obtain ⟨malformed, hmem, hmalformed⟩ := exists_rejected hne (.inl hrejected)
      exact .inAnd hmem (hidesMalformed_of_decided malformed hmalformed (.inl (hall _ hmem)))
    · obtain ⟨malformed, hmem, hmalformed⟩ :=
        exists_rejected (by rw [hsplit]; simp) (.inl hrejected)
      have hwhere := hmem
      rw [hsplit, List.mem_append, List.mem_cons] at hwhere
      rcases hwhere with hin | heq | hin
      · exact .inAnd hmem (hidesMalformed_of_decided malformed hmalformed (.inl (hbefore _ hin)))
      · exact .inAnd hmem (hidesMalformed_of_decided malformed hmalformed (.inr (heq ▸ hstop)))
      · rw [hsplit]
        exact .behindRefusal hstop hin hmalformed
  | .anyCondition protos =>
    rw [grants_anyCondition, refuses_anyCondition] at h
    rcases h with ⟨before, policy, after, hsplit, hbefore, hstop⟩ | ⟨hne, hall⟩
    · obtain ⟨malformed, hmem, hmalformed⟩ :=
        exists_rejected (by rw [hsplit]; simp) (.inr hrejected)
      have hwhere := hmem
      rw [hsplit, List.mem_append, List.mem_cons] at hwhere
      rcases hwhere with hin | heq | hin
      · exact .inAny hmem (hidesMalformed_of_decided malformed hmalformed (.inr (hbefore _ hin)))
      · exact .inAny hmem (hidesMalformed_of_decided malformed hmalformed (.inl (heq ▸ hstop)))
      · rw [hsplit]
        exact .behindGrant hstop hin hmalformed
    · obtain ⟨malformed, hmem, hmalformed⟩ := exists_rejected hne (.inr hrejected)
      exact .inAny hmem (hidesMalformed_of_decided malformed hmalformed (.inr (hall _ hmem)))
termination_by proto
decreasing_by all_goals (subst_vars; simp_wf; have := List.sizeOf_lt_of_mem hmem; omega)

end Rejected

end Walk

/-- On a policy that the legacy code takes both evaluators say the same of every actor, and a policy
that it rejects is granted to nobody. -/
def EvaluatorsAgree (proto : Proto.Policy) : Prop :=
  (∀ policy, MetadataPolicies.tryFrom proto = .ok policy → ∀ actor,
    evaluatePolicyProto (authorityOf actor) proto = .allow ↔ policy.evaluate actor = true) ∧
  (Rejected proto → ∀ actor, evaluatePolicyProto (authorityOf actor) proto ≠ .allow)

/-- What the legacy code takes is allowed just where it allows it. Any policy is allowed to those it
grants to as far as it is read, and one that the legacy code rejects to nobody unless a condition
stops before a malformed branch. -/
theorem evaluators_agree_as_read (proto : Proto.Policy) (actor : CommitParticipant) :
    (∀ policy, MetadataPolicies.tryFrom proto = .ok policy →
      (evaluatePolicyProto (authorityOf actor) proto = .allow ↔ policy.evaluate actor = true)) ∧
    (evaluatePolicyProto (authorityOf actor) proto = .allow ↔ PolicyGrants actor proto) ∧
    (Rejected proto → evaluatePolicyProto (authorityOf actor) proto = .allow →
      HidesMalformed actor proto) := by
  refine ⟨fun policy hpolicy => ?_, (evaluatePolicyProto_decided actor proto).1,
    fun hrejected hallow => ?_⟩
  · rw [evaluatePolicyProto_of_tryFrom actor proto hpolicy]
    cases policy.evaluate actor <;> simp [PolicyOutcome.fromBool]
  · exact hidesMalformed_of_decided actor proto hrejected
      (.inl ((evaluatePolicyProto_decided actor proto).1.mp hallow))

theorem evaluators_agree_as_read_hidden :
    HidesMalformed ⟨"alice", [1], false, false, false⟩
      (.anyCondition [.andCondition [.base 2, .unset], .base 1]) :=
  (evaluators_agree_as_read (.anyCondition [.andCondition [.base 2, .unset], .base 1])
    ⟨"alice", [1], false, false, false⟩).2.2 (fun policy hpolicy => by cases hpolicy) rfl

/-- A malformed branch is hidden behind one that allows. -/
theorem evaluators_disagree : ¬EvaluatorsAgree (.anyCondition [.base 1, .unset]) := by
  intro h
  refine h.2 (fun policy hpolicy => ?_) ⟨"alice", [1], false, false, false⟩ rfl
  cases hpolicy

end LibXmtp.AppData
