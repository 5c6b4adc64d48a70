import Mathlib.Logic.Relation
import Mathlib.Tactic.Linarith
import LibXmtp.Data.Saturation
import LibXmtp.D14n.Envelope

/-! The causal sort: a single pass over a list of envelopes that hands out the ones whose
dependencies have been seen and takes the other ones out. -/

universe u

namespace LibXmtp.D14n

open LibXmtp.Data LibXmtp.Types

variable {E : Type u} [Envelope E]

/-- The list being sorted, cut at the position the sort has reached, with the envelopes that were
taken out of it. The topic and the dependencies kept beside each of these are its own. -/
structure CausalSort (E : Type u) where
  done : List E
  rest : List E
  missed : List E
  topicCursor : TopicCursor

namespace CausalSort

/-- The envelopes of `missed` that have become valid, the ones that have not, and the clocks after
looking at all of them. -/
def recoverNewlyValid (topicCursor : TopicCursor) : List E → List E × List E × TopicCursor
  | [] => ([], [], topicCursor)
  | m :: ms =>
    let (clock, topicCursor) := topicCursor.getOrDefault (topic m)
    let (valid, missed, topicCursor) := recoverNewlyValid topicCursor ms
    if clock.dominates (dependencies m) then (m :: valid, missed, topicCursor)
    else (valid, m :: missed, topicCursor)

def step (s : CausalSort E) : Option (CausalSort E) :=
  match s.rest with
  | [] => none
  | e :: rest =>
    let (clock, topicCursor) := s.topicCursor.getOrDefault (topic e)
    if clock.dominates (dependencies e) then
      let (newlyValid, missed, topicCursor) :=
        recoverNewlyValid (topicCursor.applyEnvelope e) s.missed
      some { done := s.done ++ [e], rest := newlyValid ++ rest, missed, topicCursor }
    else some { s with rest, missed := s.missed ++ [e], topicCursor }

/-- The clocks after looking at those of the topics of `ms`. -/
def lookAt (topicCursor : TopicCursor) (ms : List E) : TopicCursor :=
  ms.foldl (fun c m => c.insertDefault (topic m)) topicCursor

@[simp] theorem clock_lookAt (c : TopicCursor) (ms : List E) (t : Topic) :
    (lookAt c ms).clock t = c.clock t := by
  induction ms generalizing c with
  | nil => rfl
  | cons m ms ih =>
    rw [lookAt, List.foldl_cons, ← lookAt, ih, TopicCursor.clock_insertDefault]

@[simp] theorem mem_lookAt (c : TopicCursor) (ms : List E) (t : Topic) :
    t ∈ (lookAt c ms).inner ↔ t ∈ c.inner ∨ ∃ m ∈ ms, topic m = t := by
  induction ms generalizing c with
  | nil => simp [lookAt]
  | cons m ms ih =>
    rw [lookAt, List.foldl_cons, ← lookAt, ih]
    simp [or_left_comm, or_assoc]

theorem recoverNewlyValid_eq (c : TopicCursor) (ms : List E) :
    recoverNewlyValid c ms =
      (ms.filter c.ready, ms.filter fun m => !c.ready m, lookAt c ms) := by
  induction ms generalizing c with
  | nil => rfl
  | cons m ms ih =>
    have hready : (c.clock (topic m)).dominates (dependencies m) = c.ready m := rfl
    simp only [recoverNewlyValid, TopicCursor.getOrDefault, ih, TopicCursor.ready_insertDefault,
      hready]
    cases h : c.ready m <;> simp [h, lookAt]

def handOut (s : CausalSort E) (e : E) (rest : List E) : CausalSort E :=
  let c := (s.topicCursor.insertDefault (topic e)).applyEnvelope e
  { done := s.done ++ [e]
    rest := s.missed.filter c.ready ++ rest
    missed := s.missed.filter fun m => !c.ready m
    topicCursor := lookAt c s.missed }

def takeOut (s : CausalSort E) (e : E) (rest : List E) : CausalSort E :=
  { s with
    rest
    missed := s.missed ++ [e]
    topicCursor := s.topicCursor.insertDefault (topic e) }

theorem step_cons {s : CausalSort E} {e : E} {rest : List E} (h : s.rest = e :: rest) :
    s.step = some (if s.topicCursor.ready e then s.handOut e rest else s.takeOut e rest) := by
  have hready : (s.topicCursor.clock (topic e)).dominates (dependencies e) =
      s.topicCursor.ready e := rfl
  simp only [step, h, TopicCursor.getOrDefault, recoverNewlyValid_eq, hready]
  cases s.topicCursor.ready e <;> rfl

theorem step_cases {s s' : CausalSort E} (h : s.step = some s') : ∃ e rest, s.rest = e :: rest ∧
    (s.topicCursor.ready e = true ∧ s' = s.handOut e rest ∨
      s.topicCursor.ready e = false ∧ s' = s.takeOut e rest) := by
  cases hrest : s.rest with
  | nil => simp [step, hrest] at h
  | cons e rest =>
    rw [step_cons hrest, Option.some.injEq] at h
    refine ⟨e, rest, rfl, ?_⟩
    cases hready : s.topicCursor.ready e <;> simp_all

theorem step_eq_none {s : CausalSort E} : s.step = none ↔ s.rest = [] := by
  cases h : s.rest with
  | nil => simp [step, h]
  | cons e rest => simp [step_cons h]

section Fields

variable (s : CausalSort E) (e : E) (rest : List E)

@[simp] theorem handOut_done : (s.handOut e rest).done = s.done ++ [e] := rfl

@[simp] theorem takeOut_done : (s.takeOut e rest).done = s.done := rfl

@[simp] theorem takeOut_rest : (s.takeOut e rest).rest = rest := rfl

@[simp] theorem takeOut_missed : (s.takeOut e rest).missed = s.missed ++ [e] := rfl

@[simp] theorem clock_handOut (t : Topic) : (s.handOut e rest).topicCursor.clock t =
    (s.topicCursor.applyEnvelope e).clock t := by simp [handOut, TopicCursor.applyEnvelope]

@[simp] theorem clock_takeOut (t : Topic) :
    (s.takeOut e rest).topicCursor.clock t = s.topicCursor.clock t := by simp [takeOut]

theorem mem_handOut (t : Topic) : t ∈ (s.handOut e rest).topicCursor.inner ↔
    t ∈ s.topicCursor.inner ∨ topic e = t ∨ ∃ m ∈ s.missed, topic m = t := by
  simp only [handOut, mem_lookAt, TopicCursor.applyEnvelope, TopicCursor.mem_apply,
    TopicCursor.mem_insertDefault]
  tauto

theorem mem_takeOut (t : Topic) : t ∈ (s.takeOut e rest).topicCursor.inner ↔
    t ∈ s.topicCursor.inner ∨ topic e = t := by
  simp [takeOut, or_comm]

theorem handOut_perm :
    ((s.handOut e rest).rest ++ (s.handOut e rest).missed).Perm (rest ++ s.missed) := by
  simp only [handOut]
  apply (List.perm_append_comm.append_right _).trans
  rw [List.append_assoc]
  exact (List.filter_append_perm _ _).append_left rest

end Fields

/-- How much is left to do: handing out an envelope leaves fewer of them, and taking one out makes
the list shorter. -/
def size (s : CausalSort E) : Nat :=
  (s.rest.length + s.missed.length) * (s.rest.length + s.missed.length) + s.rest.length

theorem size_step {s s' : CausalSort E} (h : s.step = some s') : s'.size < s.size := by
  obtain ⟨e, rest, hrest, ⟨-, rfl⟩ | ⟨-, rfl⟩⟩ := step_cases h
  · have hlen := (s.handOut_perm e rest).length_eq
    simp only [List.length_append] at hlen
    simp only [size, hrest, hlen, List.length_cons]
    have hle : (s.handOut e rest).rest.length ≤ rest.length + s.missed.length := by omega
    nlinarith
  · have hlen : rest.length + (s.missed ++ [e]).length = s.rest.length + s.missed.length := by
      simp only [hrest, List.length_append, List.length_cons, List.length_nil]
      omega
    have hlt : rest.length < s.rest.length := by simp [hrest]
    simp only [size, takeOut_rest, takeOut_missed, hlen]
    omega

def loop (s : CausalSort E) : CausalSort E :=
  match _h : s.step with
  | none => s
  | some s' => loop s'
termination_by s.size
decreasing_by exact size_step _h

abbrev Reaches (s t : CausalSort E) : Prop :=
  Relation.ReflTransGen (fun s s' => s.step = some s') s t

theorem loop_of_step {s s' : CausalSort E} (h : s.step = some s') : s.loop = s'.loop := by
  rw [loop]
  split <;> simp_all

theorem reaches_loop (s : CausalSort E) : Reaches s s.loop := by
  induction s using loop.induct with
  | case1 s h =>
    rw [loop]
    split
    · exact .refl
    · simp_all
  | case2 s s' h ih =>
    rw [loop_of_step h]
    exact .head h ih

theorem loop_rest (s : CausalSort E) : s.loop.rest = [] := by
  induction s using loop.induct with
  | case1 s h =>
    rw [loop]
    split
    · exact step_eq_none.mp h
    · simp_all
  | case2 s s' h ih =>
    rw [loop_of_step h]
    exact ih

theorem Reaches.invariant {P : CausalSort E → Prop} {s t : CausalSort E} (h : Reaches s t)
    (hstep : ∀ s s', P s → s.step = some s' → P s') (hs : P s) : P t := by
  induction h with
  | refl => exact hs
  | tail _ hstep' ih => exact hstep _ _ ih hstep'

def system (E : Type u) [Envelope E] : Saturation TopicCursor E where
  ready c e := c.ready e = true
  apply := TopicCursor.applyEnvelope
  apply_comm _ _ _ := TopicCursor.apply_comm
  ready_apply _ _ _ h := TopicCursor.ready_of_le TopicCursor.get_clock_le_apply h

@[simp] theorem system_ready (c : TopicCursor) (e : E) :
    (system E).ready c e ↔ c.ready e = true := Iff.rfl

@[simp] theorem system_apply (c : TopicCursor) (e : E) :
    (system E).apply c e = c.applyEnvelope e := rfl

/-- What holds after any number of steps on `input`. The clocks are those of the envelopes that
were handed out, except that topics only looked at have an entry as well. -/
structure Progress (input : List E) (init : TopicCursor) (s : CausalSort E) : Prop where
  perm : (s.done ++ (s.rest ++ s.missed)).Perm input
  sound : (system E).Sound init s.done
  clock : ∀ t, s.topicCursor.clock t = ((system E).applyAll init s.done).clock t
  unready : ∀ m ∈ s.missed, s.topicCursor.ready m = false
  entries : ∀ t ∈ s.topicCursor.inner, t ∈ init.inner ∨ ∃ e ∈ input, topic e = t
  initial : ∀ t ∈ init.inner, t ∈ s.topicCursor.inner
  visited : ∀ e ∈ s.done ++ s.missed, topic e ∈ s.topicCursor.inner

namespace Progress

variable {input : List E} {init : TopicCursor} {s s' : CausalSort E} {e : E} {rest : List E}

theorem start (input : List E) (init : TopicCursor) : Progress input init
    { done := [], rest := input, missed := [], topicCursor := init } where
  perm := by simp
  sound := Saturation.sound_nil _
  clock _ := rfl
  unready := by simp
  entries _ ht := .inl ht
  initial _ ht := ht
  visited := by simp

theorem handOut (h : Progress input init s) (hrest : s.rest = e :: rest)
    (hready : s.topicCursor.ready e = true) : Progress input init (s.handOut e rest) where
  perm := by
    rw [handOut_done, List.append_assoc]
    refine List.Perm.trans ?_ h.perm
    rw [hrest]
    exact ((s.handOut_perm e rest).cons e).append_left s.done
  sound := by
    refine (Saturation.sound_concat _).mpr ⟨h.sound, ?_⟩
    exact (congrFun (TopicCursor.ready_eq_of_clock_eq h.clock) e).symm.trans hready
  clock t := by
    rw [clock_handOut, handOut_done, Saturation.applyAll_append]
    simp [h.clock]
  unready m hm := by
    simp only [CausalSort.handOut, List.mem_filter, Bool.not_eq_true'] at hm
    rw [← hm.2]
    exact congrFun (TopicCursor.ready_eq_of_clock_eq (by simp [CausalSort.handOut])) m
  entries t ht := by
    have hin : ∀ m ∈ s.missed, m ∈ input := fun m hm => h.perm.subset (by simp [hm])
    rcases (mem_handOut s e rest t).mp ht with ht | ht | ⟨m, hm, ht⟩
    · exact h.entries t ht
    · exact .inr ⟨e, h.perm.subset (by simp [hrest]), ht⟩
    · exact .inr ⟨m, hin m hm, ht⟩
  initial t ht := (mem_handOut s e rest t).mpr (.inl (h.initial t ht))
  visited m hm := by
    rw [mem_handOut]
    rw [handOut_done, List.append_assoc, List.mem_append, List.mem_append] at hm
    rcases hm with hm | hm | hm
    · exact .inl (h.visited m (by simp [hm]))
    · exact .inr (.inl (by rw [List.mem_singleton.mp hm]))
    · exact .inl (h.visited m (by simp [(List.mem_filter.mp hm).1]))

theorem takeOut (h : Progress input init s) (hrest : s.rest = e :: rest)
    (hready : s.topicCursor.ready e = false) : Progress input init (s.takeOut e rest) where
  perm := by
    refine List.Perm.trans ?_ h.perm
    rw [hrest, takeOut_done, takeOut_rest, takeOut_missed, ← List.append_assoc rest]
    exact (List.perm_append_singleton e _).append_left s.done
  sound := h.sound
  clock t := by rw [clock_takeOut, h.clock, takeOut_done]
  unready m hm := by
    have hsame : (s.takeOut e rest).topicCursor.ready m = s.topicCursor.ready m :=
      congrFun (TopicCursor.ready_eq_of_clock_eq (by simp)) m
    rw [hsame]
    rcases List.mem_append.mp hm with hm | hm
    · exact h.unready m hm
    · rwa [List.mem_singleton.mp hm]
  entries t ht := by
    rcases (mem_takeOut s e rest t).mp ht with ht | ht
    · exact h.entries t ht
    · exact .inr ⟨e, h.perm.subset (by simp [hrest]), ht⟩
  initial t ht := (mem_takeOut s e rest t).mpr (.inl (h.initial t ht))
  visited m hm := by
    rw [mem_takeOut]
    rw [takeOut_done, takeOut_missed, ← List.append_assoc, List.mem_append] at hm
    rcases hm with hm | hm
    · exact .inl (h.visited m hm)
    · exact .inr (by rw [List.mem_singleton.mp hm])

theorem step (h : Progress input init s) (hstep : s.step = some s') : Progress input init s' := by
  obtain ⟨e, rest, hrest, ⟨hready, rfl⟩ | ⟨hready, rfl⟩⟩ := step_cases hstep
  · exact h.handOut hrest hready
  · exact h.takeOut hrest hready

theorem loop (input : List E) (init : TopicCursor) : Progress input init (CausalSort.loop
    { done := [], rest := input, missed := [], topicCursor := init }) :=
  (reaches_loop _).invariant (fun _ _ h hstep => h.step hstep) (start input init)

end Progress

end CausalSort

/-- The envelopes that are sorted, the clocks after them, and the envelopes with missing
dependencies, if there are any. -/
def causalSort (envelopes : List E) (topicCursor : TopicCursor) :
    List E × TopicCursor × Option (List E) :=
  let s := CausalSort.loop { done := [], rest := envelopes, missed := [], topicCursor }
  (s.done, s.topicCursor, if s.missed.isEmpty then none else some s.missed)

structure CausallySorted (input : List E) (init : TopicCursor) (sorted : List E)
    (final : TopicCursor) (missing : List E) : Prop where
  perm : (sorted ++ missing).Perm input
  sound : (CausalSort.system E).Sound init sorted
  clock : ∀ t, final.clock t = ((CausalSort.system E).applyAll init sorted).clock t
  unready : ∀ m ∈ missing, final.ready m = false
  entries : ∀ t, t ∈ final.inner ↔ t ∈ init.inner ∨ ∃ e ∈ input, topic e = t

theorem causalSort_missing_getD (envelopes : List E) (init : TopicCursor) :
    (causalSort envelopes init).2.2.getD [] = (CausalSort.loop
      { done := [], rest := envelopes, missed := [], topicCursor := init }).missed := by
  simp only [causalSort]
  split
  · rename_i h
    simp [List.isEmpty_iff.mp h]
  · rfl

theorem causalSort_missing_ne_nil {envelopes missing : List E} {init : TopicCursor}
    (h : (causalSort envelopes init).2.2 = some missing) : missing ≠ [] := by
  simp only [causalSort] at h
  split at h
  · cases h
  · rename_i hne
    cases h
    simpa using hne

theorem causallySorted_causalSort (envelopes : List E) (init : TopicCursor) :
    CausallySorted envelopes init (causalSort envelopes init).1 (causalSort envelopes init).2.1
      ((causalSort envelopes init).2.2.getD []) := by
  have h := CausalSort.Progress.loop envelopes init
  have hperm := h.perm
  rw [CausalSort.loop_rest, List.nil_append] at hperm
  rw [causalSort_missing_getD]
  refine ⟨hperm, h.sound, h.clock, h.unready, fun t => ⟨h.entries t, ?_⟩⟩
  rintro (ht | ⟨e, he, rfl⟩)
  · exact h.initial t ht
  · exact h.visited e (hperm.symm.subset he)

namespace CausalSort

variable {c : TopicCursor} {e : E} {es : List E}

/-- The clock of the envelope's topic has reached the envelope itself. -/
def Covered (c : TopicCursor) (e : E) : Prop :=
  (cursor e).sequenceId ≤ c.seen (topic e) (cursor e).originatorId

theorem seen_le_applyAll (c : TopicCursor) (es : List E) (t : Topic) (o : Nat) :
    c.seen t o ≤ ((system E).applyAll c es).seen t o := by
  induction es generalizing c with
  | nil => exact Nat.le_refl _
  | cons e es ih => exact (c.seen_le_applyEnvelope e t o).trans (ih _)

theorem covered_applyAll (h : e ∈ es) : Covered ((system E).applyAll c es) e := by
  induction es generalizing c with
  | nil => cases h
  | cons d es ih =>
    cases h with
    | head =>
      refine Nat.le_trans ?_ (seen_le_applyAll (c.applyEnvelope e) es _ _)
      simp [TopicCursor.seen_applyEnvelope]
    | tail _ h => exact ih h

theorem seen_applyAll_cases (c : TopicCursor) (es : List E) (t : Topic) (o : Nat) :
    ((system E).applyAll c es).seen t o = c.seen t o ∨ ∃ e ∈ es, topic e = t ∧
      (cursor e).originatorId = o ∧
      ((system E).applyAll c es).seen t o = (cursor e).sequenceId := by
  induction es using List.reverseRecOn with
  | nil => exact .inl rfl
  | append_singleton es e ih =>
    rw [Saturation.applyAll_append, Saturation.applyAll_cons, Saturation.applyAll_nil,
      system_apply, TopicCursor.seen_applyEnvelope]
    have hold : ((system E).applyAll c es).seen t o = c.seen t o ∨ ∃ d ∈ es ++ [e], topic d = t ∧
        (cursor d).originatorId = o ∧
        ((system E).applyAll c es).seen t o = (cursor d).sequenceId :=
      ih.imp id fun ⟨d, hd, h⟩ => ⟨d, List.mem_append_left _ hd, h⟩
    split
    · rename_i heq
      rcases Nat.le_total ((system E).applyAll c es |>.seen t o) (cursor e).sequenceId with hle | hle
      · rw [Nat.max_eq_right hle]
        exact .inr ⟨e, by simp, heq.1, heq.2, rfl⟩
      · rwa [Nat.max_eq_left hle]
    · exact hold

theorem seen_applyAll_of_covered (h : ∀ e ∈ es, Covered c e) (t : Topic) (o : Nat) :
    ((system E).applyAll c es).seen t o = c.seen t o := by
  induction es using List.reverseRecOn with
  | nil => rfl
  | append_singleton es e ih =>
    have hes := ih fun d hd => h d (List.mem_append_left _ hd)
    rw [Saturation.applyAll_append, Saturation.applyAll_cons, Saturation.applyAll_nil,
      system_apply, TopicCursor.seen_applyEnvelope, hes]
    split
    · rename_i heq
      obtain ⟨rfl, rfl⟩ := heq
      exact Nat.max_eq_left (h e (by simp))
    · rfl

end CausalSort

namespace CausallySorted

variable {input input' sorted sorted' missing missing' : List E} {init final final' : TopicCursor}

theorem ready_final (h : CausallySorted input init sorted final missing) :
    (final.ready : E → Bool) = ((CausalSort.system E).applyAll init sorted).ready :=
  TopicCursor.ready_eq_of_clock_eq h.clock

theorem seen_final (h : CausallySorted input init sorted final missing) (t : Topic) (o : Nat) :
    final.seen t o = ((CausalSort.system E).applyAll init sorted).seen t o := by
  rw [TopicCursor.seen, TopicCursor.seen, h.clock]

theorem covered (h : CausallySorted input init sorted final missing) {e : E} (he : e ∈ sorted) :
    CausalSort.Covered final e := by
  rw [CausalSort.Covered, h.seen_final]
  exact CausalSort.covered_applyAll he

theorem ready (h : CausallySorted input init sorted final missing) {e : E} (he : e ∈ sorted) :
    final.ready e = true := by
  obtain ⟨before, after, rfl⟩ := List.append_of_mem he
  rw [h.ready_final, Saturation.applyAll_append]
  exact (CausalSort.system E).ready_applyAll (h.sound before e after rfl)

theorem mem_sorted_or_missing (h : CausallySorted input init sorted final missing) {e : E} :
    e ∈ input ↔ e ∈ sorted ∨ e ∈ missing := by
  rw [← h.perm.mem_iff, List.mem_append]

theorem saturated (h : CausallySorted input init sorted final missing) :
    (CausalSort.system E).Saturated ((CausalSort.system E).applyAll init sorted) missing := by
  intro m hm
  simp [← h.ready_final, h.unready m hm]

theorem confluent (h : CausallySorted input init sorted final missing)
    (h' : CausallySorted input' init sorted' final' missing') (hperm : input'.Perm input) :
    sorted'.Perm sorted ∧ missing'.Perm missing ∧ final' = final := by
  obtain ⟨hsorted, hmissing⟩ := h'.sound.unique h.sound h'.saturated h.saturated
    ((h'.perm.trans hperm).trans h.perm.symm)
  refine ⟨hsorted, hmissing, TopicCursor.ext_clock (fun t => ?_) fun t => ?_⟩
  · simp [h.entries, h'.entries, hperm.mem_iff]
  · rw [h.clock, h'.clock, Saturation.applyAll_perm _ hsorted]

theorem again (h : CausallySorted input init sorted final missing) {init' : TopicCursor}
    (h' : CausallySorted input' init' sorted' final' missing')
    (hinit : ∀ t o, init'.seen t o = final.seen t o) (hinput : ∀ e ∈ input', e ∈ input) :
    (∀ e ∈ sorted', e ∈ sorted) ∧ ∀ t o, final'.seen t o = final.seen t o := by
  have hsorted : ∀ es, (CausalSort.system E).Sound init' es → (∀ e ∈ es, e ∈ input) →
      ∀ e ∈ es, e ∈ sorted := by
    intro es hes
    induction es using List.reverseRecOn with
    | nil => simp
    | append_singleton es e ih =>
      intro hmem d hd
      obtain ⟨hsound, hready⟩ := (Saturation.sound_concat _).mp hes
      have hprev := ih hsound fun d hd => hmem d (List.mem_append_left _ hd)
      have hcovered : ∀ d ∈ es, CausalSort.Covered init' d := by
        intro d hd
        rw [CausalSort.Covered, hinit]
        exact h.covered (hprev d hd)
      rcases List.mem_append.mp hd with hd | hd
      · exact hprev d hd
      · rw [List.mem_singleton.mp hd]
        refine (h.mem_sorted_or_missing.mp (hmem e (by simp))).resolve_right fun he => ?_
        have hsame : ∀ t o, ((CausalSort.system E).applyAll init' es).seen t o = final.seen t o :=
          fun t o => (CausalSort.seen_applyAll_of_covered hcovered t o).trans (hinit t o)
        rw [CausalSort.system_ready, TopicCursor.ready_eq_of_seen_eq hsame, h.unready e he]
          at hready
        cases hready
  have hsub := hsorted sorted' h'.sound fun e he =>
    hinput e (h'.mem_sorted_or_missing.mpr (.inl he))
  refine ⟨hsub, fun t o => ?_⟩
  rw [h'.seen_final, CausalSort.seen_applyAll_of_covered, hinit]
  intro e he
  rw [CausalSort.Covered, hinit]
  exact h.covered (hsub e he)

end CausallySorted

theorem clock_applyAll (init : TopicCursor) (es : List E) (t : Topic) :
    ((CausalSort.system E).applyAll init es).clock t =
      ((es.filter fun d => topic d == t).map cursor).foldl GlobalCursor.apply (init.clock t) := by
  induction es generalizing init with
  | nil => rfl
  | cons e es ih =>
    rw [Saturation.applyAll_cons, ih, CausalSort.system_apply, TopicCursor.clock_applyEnvelope]
    by_cases h : topic e = t <;> simp [h]

theorem causalSort_sound_complete_confluent (envelopes : List E) (init : TopicCursor) :
    let (sorted, final, missing) := causalSort envelopes init
    (sorted ++ missing.getD []).Perm envelopes ∧
    (∀ before e after, sorted = before ++ e :: after →
      (((before.filter fun d => topic d == topic e).map cursor).foldl GlobalCursor.apply
        (init.clock (topic e))).dominates (dependencies e) = true) ∧
    (∀ m ∈ missing.getD [], (final.clock (topic m)).dominates (dependencies m) = false) ∧
    (∀ t, final.clock t =
      ((sorted.filter fun d => topic d == t).map cursor).foldl GlobalCursor.apply (init.clock t)) ∧
    ∀ envelopes' : List E, envelopes'.Perm envelopes →
      let (sorted', final', missing') := causalSort envelopes' init
      sorted'.Perm sorted ∧ (missing'.getD []).Perm (missing.getD []) ∧ final' = final := by
  have h := causallySorted_causalSort envelopes init
  refine ⟨h.perm, fun before e after hsplit => ?_, h.unready, fun t => ?_,
    fun envelopes' hperm => ?_⟩
  · rw [← clock_applyAll]
    exact h.sound before e after hsplit
  · rw [← clock_applyAll]
    exact h.clock t
  · exact h.confluent (causallySorted_causalSort envelopes' init) hperm

end LibXmtp.D14n
