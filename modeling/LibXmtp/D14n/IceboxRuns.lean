import LibXmtp.D14n.OrderConservation

/-! Runs of orderings over a shared icebox, with the processing of what they hand out and the
pruning of the icebox in between. -/

universe u

namespace LibXmtp.D14n

open LibXmtp.Data LibXmtp.Types LibXmtp.Db

variable {E : Type u} [Envelope E]

/-- The ordering started at `o` returns `r` from its last round, which starts at `u`. -/
def Passes (env : Environment E) (o u r : Ordered E) : Prop :=
  ∃ s, Ordered.start env o = some s ∧ Loop.Reaches (Ordered.round env) s u ∧
    Ordered.round env u = some (.done (.ok r))

theorem Passes.store_eq {env : Environment E} {o u r : Ordered E} (h : Passes env o u r) :
    u.store = o.store := by
  obtain ⟨s, hs, hreach, -⟩ := h
  rw [Ordered.store_of_reaches hreach, Ordered.store_start hs]

theorem Passes.leaves {env : Environment E} {o u r : Ordered E} (h : Passes env o u r) :
    Ordered.Leaves u r := by
  obtain ⟨s, -, -, hlast⟩ := h
  exact Ordered.leaves_of_done hlast

/-- The store, the envelopes that were handed out, the ones of them that are still to be processed,
and the ones that were put aside and have not been handed out since. -/
structure World (E : Type u) [Envelope E] where
  store : Icebox E
  states : RefreshStates
  topicCursor : TopicCursor
  handed : E → Prop
  pending : List E
  iced : E → Prop

inductive Event (E : Type u) [Envelope E]
  | pass (env : Environment E) (o u r : Ordered E)
  | process (e : E)
  | skip (e : E)
  | prune

def groupId (e : E) : Option Bytes := (groupMessage e).map GroupMessage.groupId

def entityKind (message : GroupMessage) : EntityKind :=
  if message.isCommit then .commitMessage else .applicationMessage

namespace World

def initial (states : RefreshStates) : World E where
  store := .empty
  states
  topicCursor := default
  handed _ := False
  pending := []
  iced _ := False

/-- What the next envelope of a topic to be processed leaves pending. -/
inductive Takes : List E → E → List E → Prop
  | intro : (∀ d ∈ before, topic d ≠ topic e) →
      Takes (before ++ e :: after) e (before ++ after)

inductive Step : World E → Event E → World E → Prop
  | pass : o.store = w.store → Passes env o u r →
      Step w (.pass env o u r)
        { w with
          store := r.store
          topicCursor := r.topicCursor
          handed := fun e => w.handed e ∨ e ∈ r.envelopes
          pending := w.pending ++ r.envelopes
          iced := fun e => w.iced e ∧ e ∉ r.envelopes ∨ e ∈ u.missing }
  | process : Takes w.pending e rest → groupMessage e = some message →
      Step w (.process e)
        { w with
          states := updateCursor message.groupId (entityKind message) (cursor e) w.states
          pending := rest }
  | skip : Takes w.pending e rest → Step w (.skip e) { w with pending := rest }
  | prune : Step w .prune { w with store := w.store.pruneIcebox w.states }

def Unreached (states : RefreshStates) (e : E) : Prop :=
  ∀ s ∈ states.rows, groupId e = some s.entityId → s.originatorId = (cursor e).originatorId →
    s.entityKind ∈ [EntityKind.applicationMessage, .commitMessage] →
      asBigInt s.sequenceId < asBigInt (cursor e).sequenceId

/-- What is put aside is above the stored cursors, and no other envelope has its cursor. What is
processed is below everything of its group and originator that is put aside. -/
def Harmless (w : World E) : Event E → Prop
  | .pass _ _ u _ => ∀ e ∈ u.missing, Unreached w.states e ∧
      (∀ row ∈ w.store.icebox.rows, row.cursor = cursor e → row.envelopePayload = e) ∧
      ∀ d ∈ u.missing, cursor d = cursor e → d = e
  | .process e => ∀ i, w.iced i → groupId i = groupId e →
      (cursor i).originatorId = (cursor e).originatorId →
        asBigInt (cursor e).sequenceId < asBigInt (cursor i).sequenceId
  | .skip _ => True
  | .prune => True

/-- Everything that was put aside and has not been handed out since is in the icebox. -/
def Keeps (w : World E) : Prop :=
  ∀ e, w.iced e → ∃ row ∈ w.store.icebox.rows, row.envelopePayload = e

/-- What is put aside is kept, and the next pruning keeps it as well. -/
structure Safe (w : World E) : Prop where
  keeps : w.Keeps
  unreached : ∀ e, w.iced e → Unreached w.states e

variable {w w' : World E} {event : Event E}

theorem not_processed_of_unreached {states : RefreshStates} {row : IceboxRow E}
    (h : Unreached states row.envelopePayload) : Icebox.processed states row = false := by
  rw [Icebox.processed, List.any_eq_false]
  intro s hs hreached
  simp only [Bool.and_eq_true, beq_iff_eq, decide_eq_true_eq, List.contains_iff_mem] at hreached
  obtain ⟨⟨⟨hgroup, horiginator, -⟩, hle⟩, hkind⟩ := hreached
  have hlt := h s hs (row.groupId_eq.trans (congrArg some hgroup.symm))
    (by rw [row.cursor_eq, horiginator]) hkind
  rw [row.cursor_eq] at hlt
  omega

theorem unreached_updateCursor {states : RefreshStates} {e i : E} {message : GroupMessage}
    (hmessage : groupMessage e = some message) (hi : Unreached states i)
    (hbelow : groupId i = groupId e → (cursor i).originatorId = (cursor e).originatorId →
      asBigInt (cursor e).sequenceId < asBigInt (cursor i).sequenceId) :
    Unreached (updateCursor message.groupId (entityKind message) (cursor e) states) i := by
  unfold updateCursor
  split
  · intro s hs hgroup horiginator hkind
    rcases Table.mem_of_mem_upsertWhere hs with hs | rfl
    · exact hi s hs hgroup horiginator hkind
    · exact hbelow (by simpa [groupId, hmessage] using hgroup) horiginator.symm
  · exact hi

theorem Safe.step (h : Safe w) (hstep : Step w event w') (hharmless : w.Harmless event) :
    Safe w' := by
  cases hstep with
  | pass hstore hpasses =>
    have hleaves := hpasses.leaves
    constructor
    · rintro e (⟨he, -⟩ | he)
      · obtain ⟨row, hrow, rfl⟩ := h.keeps e he
        rw [← hstore, ← hpasses.store_eq] at hrow
        exact ⟨row, hleaves.kept row hrow, rfl⟩
      · obtain ⟨-, hold, hnew⟩ := hharmless e he
        obtain ⟨row, hrow, hcursor⟩ := hleaves.recorded e he
        refine ⟨row, hrow, ?_⟩
        rcases hleaves.only row hrow with hrow | hrow
        · rw [hpasses.store_eq, hstore] at hrow
          exact hold row hrow hcursor
        · exact hnew _ hrow (row.cursor_eq.trans hcursor)
    · rintro e (⟨he, -⟩ | he)
      · exact h.unreached e he
      · exact (hharmless e he).1
  | process htakes hmessage =>
    exact ⟨h.keeps, fun i hi => unreached_updateCursor hmessage (h.unreached i hi) (hharmless i hi)⟩
  | skip _ => exact ⟨h.keeps, h.unreached⟩
  | prune =>
    refine ⟨fun e he => ?_, h.unreached⟩
    obtain ⟨row, hrow, rfl⟩ := h.keeps e he
    exact ⟨row, Table.mem_deleteWhere.mpr ⟨hrow, not_processed_of_unreached (h.unreached _ he)⟩, rfl⟩

/-- A run whose events are all harmless loses nothing that was put aside. -/
theorem keeps_of_run {states : RefreshStates} {events : List (Event E)}
    (h : Runs (fun w event w' => Step w event w' ∧ w.Harmless event) (initial states) events w) :
    w.Keeps := by
  have hsafe : Safe w := h.invariant ⟨nofun, nofun⟩ fun _ _ _ _ hs hstep => hs.step hstep.1 hstep.2
  exact hsafe.keeps

def early : Extracted :=
  .message 5 (some ((default : GlobalCursor).apply { sequenceId := 9, originatorId := 0 })) 1

def late : Extracted := .message 6 none 2

def earlyOrphan : OrphanedEnvelope Extracted where
  cursor := early.cursor
  dependsOn := dependencies early
  payload := early
  groupId := [1]
  cursor_eq := rfl
  dependsOn_eq := rfl
  groupId_eq := rfl

def earlyIced : Icebox Extracted := Icebox.empty.ice [earlyOrphan]

def earlyPass : Ordered Extracted where
  envelopes := [early]
  calls := 0
  topicCursor := default
  store := .empty

def latePass : Ordered Extracted where
  envelopes := [late]
  calls := 0
  topicCursor := default
  store := earlyIced

def earlyResult : Ordered Extracted where
  envelopes := earlyPass.sorted
  calls := 0
  topicCursor := CausalSort.lookAt earlyPass.clock earlyPass.missing
  store := earlyIced

theorem passes_early : Passes (.serving []) earlyPass earlyPass earlyResult := by
  refine ⟨earlyPass, rfl, .refl, ?_⟩
  have hmissing : earlyPass.missing = [early] := by decide +kernel
  have hne : earlyPass.missing ≠ [] := by simp [hmissing]
  rw [Ordered.round_of_missing_ne_nil hne]
  have horphans : earlyPass.missing.mapM orphan = .ok [earlyOrphan] := by
    rw [hmissing]
    rfl
  simp only [Environment.serving, List.filter_nil, List.isEmpty_nil, if_true, horphans]
  rfl

def lateResult : Ordered Extracted where
  envelopes := latePass.sorted
  calls := 0
  topicCursor := latePass.clock
  store := earlyIced

theorem passes_late : Passes (.serving []) latePass latePass lateResult :=
  ⟨latePass, rfl, .refl, Ordered.round_of_missing_nil (by decide +kernel)⟩

def afterLate : World Extracted where
  store := earlyIced
  states := .empty
  topicCursor := lateResult.topicCursor
  handed e := (False ∨ e ∈ earlyResult.envelopes) ∨ e ∈ lateResult.envelopes
  pending := [] ++ earlyResult.envelopes ++ lateResult.envelopes
  iced e := (False ∧ e ∉ earlyResult.envelopes ∨ e ∈ earlyPass.missing) ∧
    e ∉ lateResult.envelopes ∨ e ∈ latePass.missing

theorem run_afterLate : Runs Step (initial .empty)
    [.pass (.serving []) earlyPass earlyPass earlyResult,
      .pass (.serving []) latePass latePass lateResult] afterLate :=
  .cons (.pass rfl passes_early) (.cons (.pass rfl passes_late) .nil)

def afterPrune : World Extracted :=
  let states := updateCursor [1] .applicationMessage late.cursor .empty
  { afterLate with states, pending := [], store := earlyIced.pruneIcebox states }

theorem run_afterPrune : Runs Step afterLate [.process late, .prune] afterPrune := by
  have hpending : afterLate.pending = [late] := by decide +kernel
  have htakes : Takes afterLate.pending late [] := by
    rw [hpending, ← List.nil_append [late], ← List.nil_append []]
    exact .intro nofun
  exact .cons (.process htakes rfl) (.cons .prune .nil)

/-- The cursor of the late message makes the pruning delete the early one, which still waits. -/
theorem not_keeps : ¬∀ (states : RefreshStates) (events : List (Event Extracted))
    (w : World Extracted), Runs Step (initial states) events w → w.Keeps := by
  intro h
  have hiced : afterPrune.iced early := .inl ⟨.inr (by decide +kernel), by decide +kernel⟩
  obtain ⟨row, hrow, hpayload⟩ := h _ _ _ (run_afterLate.append run_afterPrune) early hiced
  have hgroup : row.groupId = [1] := by
    have hgroup := row.groupId_eq
    rw [hpayload] at hgroup
    exact (Option.some.inj hgroup).symm
  have hcursor : row.cursor = early.cursor := by
    rw [← row.cursor_eq, hpayload]
    rfl
  obtain ⟨-, hnot⟩ := Table.mem_deleteWhere.mp hrow
  have hprocessed : Icebox.processed (updateCursor [1] .applicationMessage late.cursor .empty) row =
      true := by
    rw [Icebox.processed, hgroup, hcursor]
    decide
  rw [hprocessed] at hnot
  cases hnot

def waiting : Extracted :=
  .message 8 (some ((default : GlobalCursor).apply { sequenceId := 20, originatorId := 0 })) 4

def waitingOrphan : OrphanedEnvelope Extracted where
  cursor := waiting.cursor
  dependsOn := dependencies waiting
  payload := waiting
  groupId := [1]
  cursor_eq := rfl
  dependsOn_eq := rfl
  groupId_eq := rfl

def awaitedCommit : Extracted where
  topic := [0, 1]
  cursor := { sequenceId := 9, originatorId := 0 }
  dependsOn := none
  timestamp := some 0
  groupMessage := some { groupId := [1], isCommit := true }

def bothPass : Ordered Extracted where
  envelopes := [early, waiting]
  calls := 0
  topicCursor := default
  store := .empty

def bothIced : Icebox Extracted := Icebox.empty.ice [earlyOrphan, waitingOrphan]

def bothResult : Ordered Extracted where
  envelopes := bothPass.sorted
  calls := 0
  topicCursor := CausalSort.lookAt bothPass.clock bothPass.missing
  store := bothIced

theorem missing_bothPass : bothPass.missing = [early, waiting] := by decide +kernel

theorem passes_both : Passes (.serving []) bothPass bothPass bothResult := by
  refine ⟨bothPass, rfl, .refl, ?_⟩
  rw [Ordered.round_of_missing_ne_nil (by simp [missing_bothPass])]
  have horphans : bothPass.missing.mapM orphan = .ok [earlyOrphan, waitingOrphan] := by
    rw [missing_bothPass]
    rfl
  simp only [Environment.serving, List.filter_nil, List.isEmpty_nil, if_true, horphans]
  rfl

def awaitedPass : Ordered Extracted where
  envelopes := [awaitedCommit]
  calls := 0
  topicCursor := default
  store := bothIced

def awaitedRound : Ordered Extracted := { awaitedPass with envelopes := [awaitedCommit, early] }

def awaitedResult : Ordered Extracted where
  envelopes := awaitedRound.sorted
  calls := 0
  topicCursor := awaitedRound.clock
  store := bothIced

theorem missing_awaitedRound : awaitedRound.missing = [] := by decide +kernel

theorem passes_awaited : Passes (.serving []) awaitedPass awaitedRound awaitedResult :=
  ⟨awaitedRound, rfl, .refl, Ordered.round_of_missing_nil missing_awaitedRound⟩

def afterBoth : World Extracted where
  store := bothIced
  states := .empty
  topicCursor := bothResult.topicCursor
  handed e := False ∨ e ∈ bothResult.envelopes
  pending := [] ++ bothResult.envelopes
  iced e := False ∧ e ∉ bothResult.envelopes ∨ e ∈ bothPass.missing

def afterAwaited : World Extracted where
  store := bothIced
  states := .empty
  topicCursor := awaitedResult.topicCursor
  handed e := (False ∨ e ∈ bothResult.envelopes) ∨ e ∈ awaitedResult.envelopes
  pending := [] ++ bothResult.envelopes ++ awaitedResult.envelopes
  iced e := (False ∧ e ∉ bothResult.envelopes ∨ e ∈ bothPass.missing) ∧
    e ∉ awaitedResult.envelopes ∨ e ∈ awaitedRound.missing

theorem iced_afterAwaited {e : Extracted} : afterAwaited.iced e ↔ e = waiting := by
  have hhanded : awaitedResult.envelopes = [awaitedCommit, early] := by decide +kernel
  simp only [afterAwaited, missing_bothPass, missing_awaitedRound, hhanded, false_and, false_or,
    List.mem_cons, List.not_mem_nil, or_false, not_or]
  constructor
  · rintro ⟨rfl | rfl, -, hnot⟩
    · exact absurd rfl hnot
    · rfl
  · rintro rfl
    exact ⟨.inr rfl, by decide, by decide⟩

def statesAfter : RefreshStates :=
  updateCursor [1] .applicationMessage early.cursor
    (updateCursor [1] .commitMessage awaitedCommit.cursor .empty)

def afterProcessed : World Extracted :=
  { afterAwaited with
    states := statesAfter
    pending := []
    store := bothIced.pruneIcebox statesAfter }

def awaitedEvents : List (Event Extracted) :=
  [.pass (.serving []) bothPass bothPass bothResult,
    .pass (.serving []) awaitedPass awaitedRound awaitedResult,
    .process awaitedCommit, .process early, .prune]

def afterCommit : World Extracted :=
  { afterAwaited with
    states := updateCursor [1] .commitMessage awaitedCommit.cursor .empty
    pending := [early] }

theorem runs_awaited {P : World Extracted → Event Extracted → Prop}
    (hboth : P (initial .empty) (.pass (.serving []) bothPass bothPass bothResult))
    (hawaited : P afterBoth (.pass (.serving []) awaitedPass awaitedRound awaitedResult))
    (hcommit : P afterAwaited (.process awaitedCommit)) (hearly : P afterCommit (.process early))
    (hprune : ∀ w, P w .prune) :
    Runs (fun w event w' => Step w event w' ∧ P w event) (initial .empty) awaitedEvents
      afterProcessed := by
  have hpending : afterAwaited.pending = [] ++ awaitedCommit :: [early] := by decide +kernel
  have hfirst : Takes afterAwaited.pending awaitedCommit [early] := by
    rw [hpending]
    exact .intro nofun
  have hsecond : Takes ([] ++ early :: []) early ([] ++ []) := .intro nofun
  have hprocess : Step afterAwaited (.process awaitedCommit) afterCommit := .process hfirst rfl
  exact .cons ⟨.pass rfl passes_both, hboth⟩ (.cons ⟨.pass rfl passes_awaited, hawaited⟩
    (.cons ⟨hprocess, hcommit⟩ (.cons ⟨.process hsecond rfl, hearly⟩
      (.cons ⟨.prune, hprune _⟩ .nil))))

theorem keeps_waiting : Runs Step (initial .empty) awaitedEvents afterProcessed ∧
    afterProcessed.store.icebox.rows.map IceboxRow.cursor = [waiting.cursor] ∧
    afterProcessed.iced waiting ∧ afterProcessed.Keeps := by
  have hboth : (initial .empty).Harmless (.pass (.serving []) bothPass bothPass bothResult) := by
    have hdistinct : ∀ e ∈ [early, waiting], ∀ d ∈ [early, waiting],
        Envelope.cursor d = Envelope.cursor e → d = e := by decide
    intro e he
    rw [missing_bothPass] at he ⊢
    exact ⟨nofun, nofun, hdistinct e he⟩
  have hawaited : afterBoth.Harmless
      (.pass (.serving []) awaitedPass awaitedRound awaitedResult) := by
    intro e he
    rw [missing_awaitedRound] at he
    cases he
  have hcommit : afterAwaited.Harmless (.process awaitedCommit) := by
    intro i hi _ horiginator
    rw [iced_afterAwaited.mp hi] at horiginator
    cases horiginator
  have hearly : afterCommit.Harmless (.process early) := by
    intro i hi _ _
    rw [iced_afterAwaited.mp hi]
    decide
  have hruns := runs_awaited (P := fun _ _ => True) trivial trivial trivial trivial fun _ => trivial
  have hsteps := hruns.refines (S := Step) trivial fun _ _ _ _ h => ⟨h.1, trivial⟩
  refine ⟨hsteps.1, by decide +kernel, iced_afterAwaited.mpr rfl, ?_⟩
  exact keeps_of_run (runs_awaited hboth hawaited hcommit hearly fun _ => trivial)

end World

end LibXmtp.D14n
