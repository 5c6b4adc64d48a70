import LibXmtp.D14n.IceboxRuns

/-! When an envelope that was put aside is recovered: children are looked up by the exact cursor of
what they wait for, while the clocks are satisfied by every later one. -/

universe u

namespace LibXmtp.D14n

open LibXmtp.Data LibXmtp.Types LibXmtp.Db

variable {E : Type u} [Envelope E]

namespace Ordered

variable {env : Environment E} {o s t u : Ordered E}

/-- The clocks of the round are those of `init`, except where an envelope of its list has advanced
them. -/
def AdvancedBy (init : TopicCursor) (o : Ordered E) (clock : TopicCursor) : Prop :=
  ∀ t n, clock.seen t n = init.seen t n ∨ ∃ d ∈ o.envelopes, topic d = t ∧
    (cursor d).originatorId = n ∧ clock.seen t n = (cursor d).sequenceId

theorem AdvancedBy.sort {init : TopicCursor} (h : o.AdvancedBy init o.topicCursor) :
    o.AdvancedBy init o.clock := by
  intro t n
  rw [o.causallySorted.seen_final]
  rcases CausalSort.seen_applyAll_cases o.topicCursor o.sorted t n with heq | ⟨d, hd, heq⟩
  · rw [heq]
    exact h t n
  · exact .inr ⟨d, o.causallySorted.mem_sorted_or_missing.mpr (.inl hd), heq⟩

theorem AdvancedBy.again {init : TopicCursor} (h : o.AdvancedBy init o.topicCursor)
    (hround : round env o = some (.again t)) : t.AdvancedBy init t.topicCursor := by
  obtain ⟨resolved, children, -, -, -, hrec⟩ := round_again_cases hround
  intro topic n
  have hseen : t.topicCursor.seen topic n = o.clock.seen topic n := by
    rw [hrec.eq]
    exact seen_merge resolved topic n
  rw [hseen]
  exact (h.sort topic n).imp id fun ⟨d, hd, heq⟩ => ⟨d, mem_again hround hd, heq⟩

theorem advancedBy_of_reaches (hs : start env o = some s) (h : Loop.Reaches (round env) s u) :
    u.AdvancedBy o.topicCursor u.topicCursor := by
  refine Loop.Reaches.invariant (P := fun u => u.AdvancedBy o.topicCursor u.topicCursor) h
    (fun _ _ ht hround => ht.again hround) ?_
  obtain ⟨t, children, hrec, rfl⟩ := start_cases hs
  intro topic n
  left
  rw [hrec.eq]

end Ordered

namespace World

variable {w w' : World E} {event : Event E}

/-- No envelope that is in the icebox and was not handed out has its dependencies met by the clocks
the last pass ended with. -/
def Complete (w : World E) : Prop :=
  ∀ row ∈ w.store.icebox.rows, ¬w.handed row.envelopePayload →
    w.topicCursor.ready row.envelopePayload = false

/-- The pass `o` with its last round `u` starts from clocks that meet the dependencies of no envelope
that is waiting in the icebox. Where an envelope of its last list would advance the clocks past a
dependency of one that was not recovered, the dependency itself is in the list, with a cursor that
can be looked up. Cursors tell the envelopes apart. -/
structure Exact (w : World E) (o u : Ordered E) : Prop where
  unready : ∀ row ∈ w.store.icebox.rows, ¬w.handed row.envelopePayload →
    o.topicCursor.ready row.envelopePayload = false
  present : ∀ row ∈ w.store.icebox.rows, ¬w.handed row.envelopePayload →
    row.cursor ∉ u.envelopes.map cursor → ∀ c ∈ (dependencies row.envelopePayload).cursors,
      o.topicCursor.seen (topic row.envelopePayload) c.originatorId < c.sequenceId →
        ∀ d ∈ u.envelopes, topic d = topic row.envelopePayload →
          (cursor d).originatorId = c.originatorId → c.sequenceId ≤ (cursor d).sequenceId →
            Icebox.isInteger c ∧ c ∈ u.envelopes.map cursor
  identified : ∀ row ∈ w.store.icebox.rows, ∀ d ∈ u.envelopes, cursor d = row.cursor →
    d = row.envelopePayload

def Recovers (w : World E) : Event E → Prop
  | .pass _ o u _ => w.Exact o u
  | .process _ => True
  | .skip _ => True
  | .prune => True

theorem unready_of_mem {u r : Ordered E} (h : Ordered.Leaves u r) {e : E} (he : e ∈ u.envelopes)
    (hnot : e ∉ r.envelopes) : r.topicCursor.ready e = false := by
  rw [h.envelopes] at hnot
  rw [TopicCursor.ready_eq_of_seen_eq h.seen]
  exact u.causallySorted.unready e ((u.causallySorted.mem_sorted_or_missing.mp he).resolve_left hnot)

theorem Exact.unready_of_not_mem {env : Environment E} {o u r : Ordered E} (h : w.Exact o u)
    (hstore : o.store = w.store) (hpasses : Passes env o u r) {row : IceboxRow E}
    (hrow : row ∈ w.store.icebox.rows) (hhanded : ¬w.handed row.envelopePayload)
    (hnot : row.cursor ∉ u.envelopes.map cursor) :
    r.topicCursor.ready row.envelopePayload = false := by
  obtain ⟨s, hs, hreach, hlast⟩ := hpasses
  rw [TopicCursor.ready_eq_of_seen_eq (Ordered.leaves_of_done hlast).seen]
  by_contra hready
  rw [Bool.not_eq_false, TopicCursor.ready_iff] at hready
  -- a dependency that the pass did not start with
  have hdep : ∃ n, o.topicCursor.seen (topic row.envelopePayload) n <
      (dependencies row.envelopePayload).get n := by
    by_contra hall
    have hunready := h.unready row hrow hhanded
    rw [(TopicCursor.ready_iff _ _).mpr fun n => by
      by_contra hn
      exact hall ⟨n, by omega⟩] at hunready
    cases hunready
  obtain ⟨n, hn⟩ := hdep
  let c : Cursor :=
    { sequenceId := (dependencies row.envelopePayload).get n, originatorId := n }
  have hc : c ∈ (dependencies row.envelopePayload).cursors :=
    GlobalCursor.mem_cursors.mpr (GlobalCursor.getElem?_of_get_pos (Nat.zero_lt_of_lt hn))
  have hle := hready n
  -- an envelope of the list has advanced the clocks over it
  obtain heq | ⟨d, hd, htopic, horiginator, heq⟩ :=
    (Ordered.advancedBy_of_reaches hs hreach).sort (topic row.envelopePayload) n
  · omega
  · obtain ⟨hinteger, hmem⟩ :=
      h.present row hrow hhanded hnot c hc hn d hd htopic horiginator (heq ▸ hle)
    obtain ⟨d', hd', hcursor⟩ := List.mem_map.mp hmem
    have hstore' : u.store = w.store := by
      rw [Ordered.store_of_reaches hreach, Ordered.store_start hs, hstore]
    have hwaits : u.store.WaitsFor (cursor d') row := by
      rw [hstore', hcursor]
      exact .child (Icebox.mem_children.mpr ⟨hrow, w.store.recorded row hrow c hc⟩)
    rw [← hcursor] at hinteger
    exact hnot (Ordered.closed_of_reaches (Ordered.closed_start hs) hreach d' hd' hinteger row
      hwaits)

theorem Complete.step (h : w.Complete) (hstep : Step w event w') (hrecovers : w.Recovers event) :
    w'.Complete := by
  cases hstep with
  | @pass _ _ u _ _ hstore hpasses =>
    intro row hrow hhanded
    obtain ⟨hold, hnew⟩ := not_or.mp hhanded
    have hleaves := hpasses.leaves
    rcases hleaves.only row hrow with hrow | hrow
    · rw [hpasses.store_eq, hstore] at hrow
      by_cases hin : row.cursor ∈ u.envelopes.map cursor
      · obtain ⟨d, hd, hcursor⟩ := List.mem_map.mp hin
        rw [hrecovers.identified row hrow d hd hcursor] at hd
        exact unready_of_mem hleaves hd hnew
      · exact hrecovers.unready_of_not_mem hstore hpasses hrow hold hin
    · exact unready_of_mem hleaves (u.causallySorted.mem_sorted_or_missing.mpr (.inr hrow)) hnew
  | process _ _ => exact h
  | skip _ => exact h
  | prune => exact fun row hrow => h row (Table.mem_deleteWhere.mp hrow).1

/-- Every pass of a run hands out the envelopes whose dependencies its clocks meet if the clocks only
advance over the dependencies themselves. -/
theorem complete_of_run {states : RefreshStates} {events : List (Event E)}
    (h : Runs (fun w event w' => Step w event w' ∧ w.Recovers event) (initial states) events w) :
    w.Complete :=
  h.invariant nofun fun _ _ _ _ hw hstep => hw.step hstep.1 hstep.2

def laterCommit : Extracted where
  topic := [0, 1]
  cursor := { sequenceId := 10, originatorId := 0 }
  dependsOn := none
  timestamp := some 3
  groupMessage := some { groupId := [1], isCommit := true }

def commitPass : Ordered Extracted where
  envelopes := [laterCommit]
  calls := 0
  topicCursor := default
  store := earlyIced

def commitResult : Ordered Extracted where
  envelopes := commitPass.sorted
  calls := 0
  topicCursor := commitPass.clock
  store := earlyIced

theorem passes_commit : Passes (.serving []) commitPass commitPass commitResult :=
  ⟨commitPass, rfl, .refl, Ordered.round_of_missing_nil (by decide +kernel)⟩

/-- The clocks that the later commit advances meet the dependencies of the early message, which is
not looked up. -/
theorem not_complete : ¬∀ (states : RefreshStates) (events : List (Event Extracted))
    (w : World Extracted), Runs Step (initial states) events w → w.Complete := by
  intro h
  have hrun : Runs Step (initial .empty) [.pass (.serving []) earlyPass earlyPass earlyResult,
      .pass (.serving []) commitPass commitPass commitResult] _ :=
    .cons (.pass rfl passes_early) (.cons (.pass rfl passes_commit) .nil)
  have hcomplete := h .empty _ _ hrun
  have hready : commitPass.clock.ready early = true := by decide +kernel
  have hhanded : ¬((False ∨ early ∈ earlyResult.envelopes) ∨ early ∈ commitResult.envelopes) := by
    decide +kernel
  have hunready := hcomplete (Icebox.rowOf earlyOrphan) List.mem_cons_self hhanded
  exact absurd (hready.symm.trans hunready) (by decide)

theorem complete_awaited : Runs Step (initial .empty) awaitedEvents afterProcessed ∧
    afterProcessed.handed early ∧
    afterProcessed.store.icebox.rows.map IceboxRow.cursor = [waiting.cursor] ∧
    afterProcessed.Complete := by
  have hboth : (initial .empty).Recovers (.pass (.serving []) bothPass bothPass bothResult) :=
    ⟨nofun, nofun, nofun⟩
  have hrows : bothIced.icebox.rows = [Icebox.rowOf earlyOrphan, Icebox.rowOf waitingOrphan] := rfl
  have hawaited : afterBoth.Recovers
      (.pass (.serving []) awaitedPass awaitedRound awaitedResult) := by
    have hidentified : ∀ d ∈ [awaitedCommit, early], ∀ e ∈ [early, waiting],
        Envelope.cursor d = Envelope.cursor e → d = e := by decide
    have hwaiting : ∀ c ∈ (dependencies waiting).cursors, ∀ d ∈ [awaitedCommit, early],
        (Envelope.cursor d).originatorId = c.originatorId →
          ¬c.sequenceId ≤ (Envelope.cursor d).sequenceId := by decide +kernel
    constructor
    · intro row hrow _
      simp only [afterBoth, hrows, List.mem_cons, List.not_mem_nil, or_false] at hrow
      rcases hrow with rfl | rfl
      · decide +kernel
      · decide +kernel
    · intro row hrow _ hnot c hc _ d hd _ horiginator hle
      simp only [afterBoth, hrows, List.mem_cons, List.not_mem_nil, or_false] at hrow
      rcases hrow with rfl | rfl
      · exact absurd (by decide) hnot
      · exact absurd hle (hwaiting c hc d hd horiginator)
    · intro row hrow d hd hcursor
      simp only [afterBoth, hrows, List.mem_cons, List.not_mem_nil, or_false] at hrow
      rcases hrow with rfl | rfl
      · exact hidentified d hd early (by simp) hcursor
      · exact hidentified d hd waiting (by simp) hcursor
  have hruns := runs_awaited (P := fun _ _ => True) trivial trivial trivial trivial fun _ => trivial
  have hsteps := hruns.refines (S := Step) trivial fun _ _ _ _ h => ⟨h.1, trivial⟩
  have hearly : early ∈ awaitedResult.envelopes := by decide +kernel
  refine ⟨hsteps.1, .inr hearly, by decide +kernel, ?_⟩
  exact complete_of_run (runs_awaited hboth hawaited trivial trivial fun _ => trivial)

end World

end LibXmtp.D14n
