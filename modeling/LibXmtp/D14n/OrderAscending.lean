import Mathlib
import LibXmtp.D14n.OrderConservation

/-! In what order the envelopes of one originator are handed out. A consumer that keeps one cursor
for each originator skips those that come after a later one. -/

universe u

namespace LibXmtp.D14n

open LibXmtp.Data LibXmtp.Types LibXmtp.Db

variable {E : Type u} [Envelope E]

def SameStream (e d : E) : Prop :=
  topic e = topic d ∧ (cursor e).originatorId = (cursor d).originatorId

def Precedes (e d : E) : Prop := SameStream e d → (cursor e).sequenceId < (cursor d).sequenceId

instance (e d : E) : Decidable (SameStream e d) := inferInstanceAs (Decidable (_ ∧ _))

def Ascending (es : List E) : Prop := es.Pairwise Precedes

/-- The envelopes that are processed by a consumer which skips the ones that are not above the last
one of their topic and originator. -/
def consume (last : TopicCursor) : List E → List E
  | [] => []
  | e :: es =>
    if (cursor e).sequenceId ≤ last.seen (topic e) (cursor e).originatorId then consume last es
    else e :: consume (last.applyEnvelope e) es

/-- Some envelopes of the list can be handed out one after the other, this one last. -/
def Available (c : TopicCursor) (es : List E) (e : E) : Prop :=
  ∃ before, (before ++ [e]).Subperm es ∧ (CausalSort.system E).Sound c (before ++ [e])

def SameNeeds (c : TopicCursor) (e d : E) : Prop :=
  (c.clock (topic e)).missing (dependencies e) = (c.clock (topic d)).missing (dependencies d)

instance (c : TopicCursor) (e d : E) : Decidable (SameNeeds c e d) :=
  inferInstanceAs (Decidable (_ = _))

/-- No envelope is in the list twice. Of two that belong to one topic and originator, the earlier one
can be handed out with a front of the list that does not suffice for the later one, or it stands
before the later one and waits for the same. -/
structure Untangled (c : TopicCursor) (es : List E) : Prop where
  distinct : (es.map key).Nodup
  earlier : ∀ a ∈ es, ∀ b ∈ es, SameStream a b → (cursor a).sequenceId < (cursor b).sequenceId →
    Available c es b → (∃ front ∈ es.inits, Available c front a ∧ ¬Available c front b) ∨
      [a, b].Sublist es ∧ SameNeeds c a b

theorem not_sublist_swap {α : Type u} {l : List α} (h : l.Nodup) {a b : α} (hab : [a, b].Sublist l) :
    ¬[b, a].Sublist l := by
  induction l with
  | nil => cases hab
  | cons x l ih =>
    obtain ⟨hx, hl⟩ := List.nodup_cons.mp h
    intro hba
    cases hab with
    | cons _ hab =>
      cases hba with
      | cons _ hba => exact ih hl hab hba
      | cons_cons _ _ => exact hx (hab.subset (by simp))
    | cons_cons _ hb =>
      cases hba with
      | cons _ hba => exact hx (hba.subset (by simp))
      | cons_cons _ _ => exact hx (hb.subset (by simp))

theorem sublist_of_not_mem {α : Type u} {l m r : List α} {e : α} (h : m.Sublist (l ++ e :: r))
    (he : e ∉ m) : m.Sublist (l ++ r) := by
  obtain ⟨m, m', rfl, hm, hm'⟩ := List.sublist_append_iff.mp h
  refine hm.append ?_
  cases hm' with
  | cons _ hm' => exact hm'
  | cons_cons _ _ => exact absurd (by simp) he

theorem sublist_pair_of_mem {α : Type u} {l m : List α} {a b : α} (ha : a ∈ l) (hb : b ∈ m) :
    [a, b].Sublist (l ++ m) :=
  (List.singleton_sublist.mpr ha).append (List.singleton_sublist.mpr hb)

section Available

variable {c : TopicCursor} {es front : List E} {a b e : E}

theorem available_iff : Available c es e ↔ e ∈ (causalSort es c).1 := by
  have hsort := causallySorted_causalSort es c
  constructor
  · rintro ⟨before, hsub, hsound⟩
    have hsorted := hsound.subperm hsort.saturated (hsub.trans hsort.perm.symm.subperm)
    exact hsorted.subset (by simp)
  · intro he
    obtain ⟨before, after, hsplit⟩ := List.append_of_mem he
    have hfront : before ++ [e] <+: (causalSort es c).1 := ⟨after, by simp [hsplit]⟩
    refine ⟨before, ?_, ?_⟩
    · exact (hfront.sublist.trans (List.sublist_append_left _ _)).subperm.trans hsort.perm.subperm
    · intro before' a after' heq
      obtain ⟨rest, hrest⟩ := hfront
      exact hsort.sound before' a (after' ++ rest) (by simp [← hrest, heq])

instance [DecidableEq E] : Decidable (Available c es e) := decidable_of_iff _ available_iff.symm

instance [DecidableEq E] : Decidable (Untangled c es) :=
  decidable_of_iff ((es.map key).Nodup ∧ ∀ a ∈ es, ∀ b ∈ es, SameStream a b →
      (cursor a).sequenceId < (cursor b).sequenceId → Available c es b →
        (∃ front ∈ es.inits, Available c front a ∧ ¬Available c front b) ∨
          [a, b].Sublist es ∧ SameNeeds c a b)
    ⟨fun h => ⟨h.1, h.2⟩, fun h => ⟨h.1, h.2⟩⟩

theorem SameNeeds.ready_of_ready {d : TopicCursor} (h : SameNeeds c a b) (htopic : topic a = topic b)
    (hle : ∀ t o, c.seen t o ≤ d.seen t o) (hready : d.ready a = true) : d.ready b = true := by
  rw [TopicCursor.ready_iff] at hready ⊢
  intro o
  by_cases hseen : (dependencies b).get o ≤ c.seen (topic b) o
  · exact hseen.trans (hle _ _)
  · have hmissing : { sequenceId := (dependencies b).get o, originatorId := o } ∈
        (c.clock (topic b)).missing (dependencies b) :=
      TopicCursor.mem_missing_clock.mpr ⟨rfl, Nat.lt_of_not_le hseen⟩
    rw [← h] at hmissing
    obtain ⟨heq, -⟩ := TopicCursor.mem_missing_clock.mp hmissing
    have hgot := hready o
    rwa [heq, htopic] at hgot

theorem SameNeeds.ready_eq {d : TopicCursor} (h : SameNeeds c a b) (htopic : topic a = topic b)
    (hle : ∀ t o, c.seen t o ≤ d.seen t o) : d.ready a = d.ready b :=
  Bool.eq_iff_iff.mpr ⟨h.ready_of_ready htopic hle, SameNeeds.ready_of_ready h.symm htopic.symm hle⟩

end Available

namespace CausalSort

variable {s s' : CausalSort E} {input back : List E} {init : TopicCursor} {a b e : E}

theorem step_append (h : s.step = some s') :
    { s with rest := s.rest ++ back }.step = some { s' with rest := s'.rest ++ back } := by
  obtain ⟨e, rest, hrest, hcase⟩ := step_cases h
  have hcons : ({ s with rest := s.rest ++ back } : CausalSort E).rest = e :: (rest ++ back) := by
    simp [hrest]
  rw [step_cons hcons]
  rcases hcase with ⟨hready, rfl⟩ | ⟨hready, rfl⟩
  · rw [if_pos hready]
    simp [handOut]
  · simp only [hready]
    rfl

theorem reaches_append (h : Reaches s s') :
    Reaches { s with rest := s.rest ++ back } { s' with rest := s'.rest ++ back } := by
  induction h with
  | refl => exact .refl
  | tail _ hstep ih => exact ih.tail (step_append hstep)

theorem reaches_loop_of_reaches (h : Reaches s s') : Reaches s' s.loop := by
  have hunique : Relator.RightUnique fun s s' : CausalSort E => s.step = some s' := by
    intro a b b' hab hab'
    rw [hab] at hab'
    cases hab'
    rfl
  rcases Relation.ReflTransGen.total_of_right_unique hunique h (reaches_loop s) with hdl | hld
  · exact hdl
  · rcases Relation.ReflTransGen.cases_head hld with heq | ⟨v, hv, -⟩
    · rw [heq]
    · rw [step_eq_none.mpr (loop_rest s)] at hv
      cases hv

theorem Reaches.prefix_done (h : Reaches s s') : s.done <+: s'.done := by
  induction h with
  | refl => exact List.prefix_rfl
  | tail _ hstep ih =>
    obtain ⟨e, rest, -, ⟨-, rfl⟩ | ⟨-, rfl⟩⟩ := step_cases hstep
    · exact ih.trans (List.prefix_append _ _)
    · exact ih

theorem Progress.ready (h : Progress input init s) (he : e ∈ s.done) :
    s.topicCursor.ready e = true := by
  obtain ⟨before, after, hsplit⟩ := List.append_of_mem he
  rw [TopicCursor.ready_eq_of_clock_eq h.clock, hsplit, Saturation.applyAll_append]
  exact (CausalSort.system E).ready_applyAll (h.sound before e after hsplit)

theorem Progress.seen_le (h : Progress input init s) (t : Topic) (o : Nat) :
    init.seen t o ≤ s.topicCursor.seen t o := by
  rw [TopicCursor.seen, TopicCursor.seen, h.clock]
  exact seen_le_applyAll init s.done t o

/-- Where the two are: they keep their order in the list, both were taken out of it in their order,
or the first one was and the second one is still to come. -/
inductive Kept (a b : E) (s : CausalSort E) : Prop
  | listed : [a, b].Sublist (s.done ++ s.rest) → Kept a b s
  | missed : [a, b].Sublist s.missed → Kept a b s
  | between : a ∈ s.missed → b ∈ s.rest → Kept a b s

theorem Kept.handOut {rest : List E} (h : Kept a b s) (hrest : s.rest = e :: rest)
    (hready : s.topicCursor.ready e = true) (hunready : ∀ m ∈ s.missed, s.topicCursor.ready m = false)
    (hsame : s.topicCursor.ready a = s.topicCursor.ready b)
    (hsame' : (s.handOut e rest).topicCursor.ready a = (s.handOut e rest).topicCursor.ready b) :
    Kept a b (s.handOut e rest) := by
  have hclock : ((s.topicCursor.insertDefault (topic e)).applyEnvelope e).ready =
      (s.handOut e rest).topicCursor.ready :=
    TopicCursor.ready_eq_of_clock_eq (E := E) (by simp [CausalSort.handOut])
  have hreleased : (s.handOut e rest).rest =
      s.missed.filter (s.handOut e rest).topicCursor.ready ++ rest := by
    rw [← hclock]
    rfl
  have hstill : (s.handOut e rest).missed =
      s.missed.filter fun m => !(s.handOut e rest).topicCursor.ready m := by
    rw [← hclock]
    rfl
  cases h with
  | listed hlisted =>
    refine .listed (hlisted.trans ?_)
    rw [hrest, hreleased, handOut_done, List.append_assoc, List.singleton_append]
    exact ((List.sublist_append_right _ _).cons_cons e).append_left s.done
  | missed hmissed =>
    cases ha : (s.handOut e rest).topicCursor.ready a with
    | true =>
      have hboth := hmissed.filter (s.handOut e rest).topicCursor.ready
      simp only [List.filter_cons, ha, ← hsame', if_true, List.filter_nil] at hboth
      refine .listed (hboth.trans ?_)
      rw [hreleased]
      exact (List.sublist_append_left _ _).trans (List.sublist_append_right _ _)
    | false =>
      have hboth := hmissed.filter fun m => !(s.handOut e rest).topicCursor.ready m
      simp only [List.filter_cons, ha, ← hsame', Bool.not_false, if_true, List.filter_nil] at hboth
      exact .missed (hstill ▸ hboth)
  | between ha hb =>
    rw [hrest] at hb
    rcases List.mem_cons.mp hb with rfl | hb
    · rw [hready, hunready a ha] at hsame
      cases hsame
    · cases hnow : (s.handOut e rest).topicCursor.ready a with
      | true =>
        have hin : a ∈ s.missed.filter (s.handOut e rest).topicCursor.ready :=
          List.mem_filter.mpr ⟨ha, hnow⟩
        refine .listed (List.Sublist.trans ?_ (List.sublist_append_right _ _))
        rw [hreleased]
        exact sublist_pair_of_mem hin hb
      | false =>
        refine .between ?_ ?_
        · rw [hstill]
          exact List.mem_filter.mpr ⟨ha, by simp [hnow]⟩
        · rw [hreleased]
          exact List.mem_append_right _ hb

theorem Kept.takeOut {rest : List E} (h : Kept a b s) (hrest : s.rest = e :: rest)
    (hunready : s.topicCursor.ready e = false) (hdone : ∀ d ∈ s.done, s.topicCursor.ready d = true)
    (hsame : s.topicCursor.ready a = s.topicCursor.ready b) : Kept a b (s.takeOut e rest) := by
  have hnot : ∀ d, s.topicCursor.ready d = false → d ∉ s.done := by
    intro d hd hin
    rw [hdone d hin] at hd
    cases hd
  cases h with
  | listed hlisted =>
    rw [hrest] at hlisted
    by_cases ha : s.topicCursor.ready a = false
    · obtain ⟨l, l', hsplit, hl, hl'⟩ := List.sublist_append_iff.mp hlisted
      -- the first of the two is not handed out yet
      have hnil : l = [] := by
        cases l with
        | nil => rfl
        | cons x l =>
          rw [List.cons_append, List.cons.injEq] at hsplit
          exact absurd (hl.subset List.mem_cons_self) (hnot x (hsplit.1 ▸ ha))
      rw [hnil, List.nil_append] at hsplit
      subst hsplit
      cases hl' with
      | cons _ hpair => exact .listed (hpair.trans (List.sublist_append_right _ _))
      | cons_cons _ hb => exact .between (by simp) (List.singleton_sublist.mp hb)
    · refine .listed (sublist_of_not_mem hlisted fun he => ?_)
      simp only [List.mem_cons, List.not_mem_nil, or_false] at he
      rcases he with rfl | rfl
      · exact ha hunready
      · exact ha (hsame.trans hunready)
  | missed hmissed => exact .missed (hmissed.trans (List.sublist_append_left _ _))
  | between ha hb =>
    rw [hrest] at hb
    rcases List.mem_cons.mp hb with rfl | hb
    · exact .missed (sublist_pair_of_mem ha (List.mem_singleton_self _))
    · exact .between (List.mem_append_left _ ha) hb

theorem Progress.kept {s t : CausalSort E} (hs : Progress input init s) (h : Reaches s t)
    (hsame : ∀ d : TopicCursor, (∀ t o, init.seen t o ≤ d.seen t o) → d.ready a = d.ready b)
    (hkept : Kept a b s) : Progress input init t ∧ Kept a b t := by
  refine h.invariant (P := fun s => Progress input init s ∧ Kept a b s) ?_ ⟨hs, hkept⟩
  rintro s s' ⟨hs, hkept⟩ hstep
  have hs' := hs.step hstep
  obtain ⟨e, rest, hrest, ⟨hready, rfl⟩ | ⟨hready, rfl⟩⟩ := step_cases hstep
  · exact ⟨hs', hkept.handOut hrest hready hs.unready (hsame _ hs.seen_le) (hsame _ hs'.seen_le)⟩
  · exact ⟨hs', hkept.takeOut hrest hready (fun _ hd => hs.ready hd) (hsame _ hs.seen_le)⟩

end CausalSort

section Sorted

variable {c : TopicCursor} {es front back : List E} {a b : E}

theorem prefix_sorted (c : TopicCursor) (front back : List E) :
    (causalSort front c).1 <+: (causalSort (front ++ back) c).1 := by
  have hfront :=
    CausalSort.reaches_loop { done := [], rest := front, missed := [], topicCursor := c }
  have hreach : CausalSort.Reaches
      { done := [], rest := front ++ back, missed := [], topicCursor := c } _ :=
    CausalSort.reaches_append hfront
  exact (CausalSort.reaches_loop_of_reaches hreach).prefix_done

theorem sublist_sorted (hdistinct : es.Nodup) (hlisted : [a, b].Sublist es) (htopic : topic a = topic b)
    (hneeds : SameNeeds c a b) (hb : b ∈ (causalSort es c).1) :
    [a, b].Sublist (causalSort es c).1 := by
  have hstart := CausalSort.Progress.start es c
  obtain ⟨hprogress, hkept⟩ := hstart.kept (CausalSort.reaches_loop _)
    (fun _ hle => hneeds.ready_eq htopic hle) (.listed hlisted)
  have hrest := CausalSort.loop_rest
    { done := [], rest := es, missed := [], topicCursor := c : CausalSort E }
  cases hkept with
  | listed hdone =>
    rw [hrest, List.append_nil] at hdone
    exact hdone
  | missed hmissed =>
    have hnodup := hprogress.perm.nodup_iff.mpr hdistinct
    have hmem := List.mem_append_right
      (CausalSort.loop { done := [], rest := es, missed := [], topicCursor := c }).rest
      (hmissed.subset (List.mem_cons_of_mem a List.mem_cons_self))
    exact absurd rfl ((List.nodup_append.mp hnodup).2.2 b hb b hmem)
  | between _ hrest' =>
    rw [hrest] at hrest'
    cases hrest'

theorem Untangled.ascending (h : Untangled c es) : Ascending (causalSort es c).1 := by
  have hsort := causallySorted_causalSort es c
  have hkeys : ((causalSort es c).1.map key).Nodup :=
    ((hsort.perm.map key).nodup_iff.mpr h.distinct).sublist
      ((List.sublist_append_left _ _).map key)
  rw [Ascending, List.pairwise_iff_forall_sublist]
  intro b a hba hstream
  have ha : a ∈ (causalSort es c).1 := hba.subset (by simp)
  have hb : b ∈ (causalSort es c).1 := hba.subset (by simp)
  have hin {e : E} (he : e ∈ (causalSort es c).1) : e ∈ es :=
    hsort.mem_sorted_or_missing.mpr (.inl he)
  have hne : (cursor b).sequenceId ≠ (cursor a).sequenceId := by
    intro heq
    have hkey : key b = key a :=
      Prod.ext hstream.1 (by rw [key, key, Cursor.mk.injEq]; exact ⟨heq, hstream.2⟩)
    have hpair := hkeys.sublist (hba.map key)
    simp [hkey] at hpair
  by_contra hnot
  have hlt : (cursor a).sequenceId < (cursor b).sequenceId := by omega
  have hab : [a, b].Sublist (causalSort es c).1 := by
    rcases h.earlier a (hin ha) b (hin hb) ⟨hstream.1.symm, hstream.2.symm⟩ hlt
      (available_iff.mpr hb) with ⟨front, hfront, havailable, hnot⟩ | ⟨hlisted, hneeds⟩
    · obtain ⟨back, rfl⟩ := (List.mem_inits _ _).mp hfront
      obtain ⟨later, hlater⟩ := prefix_sorted c front back
      rw [available_iff] at havailable hnot
      rw [← hlater] at hb ⊢
      exact sublist_pair_of_mem havailable ((List.mem_append.mp hb).resolve_left hnot)
    · exact sublist_sorted (h.distinct.of_map key) hlisted hstream.1.symm hneeds hb
  exact not_sublist_swap (hkeys.of_map key) hab hba

end Sorted

namespace Ordered

variable {env : Environment E} {o s t u : Ordered E}

def Untangled (o : Ordered E) : Prop := D14n.Untangled o.topicCursor o.envelopes

instance [DecidableEq E] : Decidable o.Untangled :=
  inferInstanceAs (Decidable (D14n.Untangled o.topicCursor o.envelopes))

def afterCommit (sequenceId : Nat) (commit : Extracted) : Extracted :=
  .message sequenceId (some ((default : GlobalCursor).apply commit.cursor)) sequenceId

end Ordered

end LibXmtp.D14n
