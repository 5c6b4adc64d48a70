import LibXmtp.D14n.Ordered
import LibXmtp.Types.VectorClock

universe u

namespace LibXmtp.D14n

open LibXmtp.Data LibXmtp.Types

def groupByTopic (missing : List RequiredDependency) : Std.ExtTreeMap Topic GlobalCursor compare :=
  missing.foldl (fun groups m =>
    groups.alter m.topic fun acc => some ((acc.getD default).applyLeast m.cursor)) ∅

/-- The topics of the missing envelopes, and the lowest cursors of all topics merged. A set is
iterated over in the order of the list, and the groups are in that of their topics. -/
def lcc (missing : List RequiredDependency) : List Topic × GlobalCursor :=
  let groups := (groupByTopic missing).toList
  (groups.map Prod.fst, (groups.map Prod.snd).foldl GlobalCursor.mergeLeast default)

/-- Whether a node returns an envelope: it is on one of the topics, and above what its originator
was last seen at. -/
def Queried (query : List Topic × GlobalCursor) (topic : Topic) (cursor : Cursor) : Prop :=
  topic ∈ query.1 ∧ query.2.get cursor.originatorId < cursor.sequenceId

def QueryCovers (query : List Topic × GlobalCursor) (missing : List RequiredDependency) : Prop :=
  ∀ m ∈ missing, Queried query m.topic m.cursor

section Lcc

variable {missing : List RequiredDependency} {m : RequiredDependency}

def missingOn (missing : List RequiredDependency) (topic : Topic) : List Cursor :=
  (missing.filter fun m => m.topic = topic).map RequiredDependency.cursor

theorem getElem?_groupByTopic (missing : List RequiredDependency) (topic : Topic) :
    ((groupByTopic missing)[topic]?.getD default).Least (missingOn missing topic) ∧
      (topic ∈ groupByTopic missing ↔ ∃ m ∈ missing, m.topic = topic) := by
  induction missing using List.reverseRecOn with
  | nil => exact ⟨by simpa [groupByTopic, missingOn] using GlobalCursor.least_default, by simp [groupByTopic]⟩
  | append_singleton missing m ih =>
    obtain ⟨hleast, hmem⟩ := ih
    rw [groupByTopic] at hleast hmem
    rw [groupByTopic, List.foldl_concat, missingOn, List.filter_append, List.map_append,
      Std.ExtTreeMap.getElem?_alter, Std.ExtTreeMap.mem_alter]
    simp only [Std.LawfulEqCmp.compare_eq_iff_eq]
    by_cases htopic : m.topic = topic
    · subst htopic
      simpa [missingOn] using hleast.applyLeast m.cursor
    · simpa [htopic] using ⟨hleast, hmem⟩

theorem mem_lcc_topics {topic : Topic} : topic ∈ (lcc missing).1 ↔ ∃ m ∈ missing, m.topic = topic := by
  rw [← (getElem?_groupByTopic missing topic).2, lcc, List.mem_map]
  simp only [Prod.exists, Std.ExtTreeMap.mem_toList_iff_getElem?_eq_some, exists_and_right,
    exists_eq_right, Std.ExtTreeMap.mem_iff_isSome_getElem?, Option.isSome_iff_exists]

theorem least_foldl_mergeLeast {groups : List (Topic × GlobalCursor)} {cursors : Topic → List Cursor}
    (h : ∀ group ∈ groups, group.2.Least (cursors group.1)) {c : GlobalCursor} {cs : List Cursor}
    (hc : c.Least cs) : ((groups.map Prod.snd).foldl GlobalCursor.mergeLeast c).Least
      (cs ++ groups.flatMap fun group => cursors group.1) := by
  induction groups generalizing c cs with
  | nil => simpa using hc
  | cons group groups ih =>
    rw [List.map_cons, List.foldl_cons, List.flatMap_cons, ← List.append_assoc]
    exact ih (fun group hgroup => h group (List.mem_cons_of_mem _ hgroup))
      (hc.mergeLeast (h group List.mem_cons_self))

theorem mem_flatMap_missingOn {cursor : Cursor} :
    (cursor ∈ (groupByTopic missing).toList.flatMap fun group => missingOn missing group.1) ↔
      ∃ m ∈ missing, m.cursor = cursor := by
  simp only [List.mem_flatMap, missingOn, List.mem_map, List.mem_filter, decide_eq_true_eq]
  constructor
  · rintro ⟨group, -, m, ⟨hm, -⟩, hcursor⟩
    exact ⟨m, hm, hcursor⟩
  · rintro ⟨m, hm, hcursor⟩
    have htopic : m.topic ∈ (lcc missing).1 := mem_lcc_topics.mpr ⟨m, hm, rfl⟩
    obtain ⟨group, hgroup, heq⟩ := List.mem_map.mp htopic
    exact ⟨group, hgroup, m, ⟨hm, heq.symm⟩, hcursor⟩

theorem least_lcc (missing : List RequiredDependency) :
    (lcc missing).2.Least (missing.map RequiredDependency.cursor) := by
  have hgroups : ∀ group ∈ (groupByTopic missing).toList, group.2.Least (missingOn missing group.1) := by
    rintro ⟨topic, clock⟩ hgroup
    have hclock := Std.ExtTreeMap.mem_toList_iff_getElem?_eq_some.mp hgroup
    have hleast := (getElem?_groupByTopic missing topic).1
    rw [hclock] at hleast
    exact hleast
  refine (least_foldl_mergeLeast hgroups GlobalCursor.least_default).of_mem_iff fun a => ?_
  rw [List.nil_append, mem_flatMap_missingOn, List.mem_map]

theorem get_lcc_lt_iff (hm : m ∈ missing) :
    (lcc missing).2.get m.cursor.originatorId < m.cursor.sequenceId ↔
      ∃ m' ∈ missing, m'.cursor.originatorId = m.cursor.originatorId ∧
        m'.cursor.sequenceId < m.cursor.sequenceId := by
  rw [(least_lcc missing).get_lt_iff (List.mem_map_of_mem hm)]
  simp only [List.mem_map, exists_exists_and_eq_and]

theorem queried_lcc_iff (hm : m ∈ missing) : Queried (lcc missing) m.topic m.cursor ↔
    ∃ m' ∈ missing, m'.cursor.originatorId = m.cursor.originatorId ∧
      m'.cursor.sequenceId < m.cursor.sequenceId := by
  have htopic : m.topic ∈ (lcc missing).1 := mem_lcc_topics.mpr ⟨m, hm, rfl⟩
  rw [Queried, and_iff_right htopic, get_lcc_lt_iff hm]

def Lowest (missing : List RequiredDependency) (m : RequiredDependency) : Prop :=
  m ∈ missing ∧ ∀ m' ∈ missing, m'.cursor.originatorId = m.cursor.originatorId →
    m.cursor.sequenceId ≤ m'.cursor.sequenceId

theorem exists_lowest (hm : m ∈ missing) : ∃ lowest, Lowest missing lowest := by
  induction hn : m.cursor.sequenceId using Nat.strongRecOn generalizing m with
  | ind n ih =>
    by_cases hlower : ∃ m' ∈ missing, m'.cursor.originatorId = m.cursor.originatorId ∧
        m'.cursor.sequenceId < m.cursor.sequenceId
    · obtain ⟨m', hm', _, hlt⟩ := hlower
      exact ih _ (hn ▸ hlt) hm' rfl
    · refine ⟨m, hm, fun m' hm' horiginator => ?_⟩
      exact Nat.le_of_not_lt fun hlt => hlower ⟨m', hm', horiginator, hlt⟩

theorem Lowest.not_queried (h : Lowest missing m) (topic : Topic) :
    ¬Queried (lcc missing) topic m.cursor := by
  rintro ⟨-, hlt⟩
  obtain ⟨m', hm', horiginator, hlower⟩ := (get_lcc_lt_iff h.1).mp hlt
  exact Nat.not_lt_of_le (h.2 m' hm' horiginator) hlower

end Lcc

/-- Whatever is missing, the query does not ask for all of it. -/
theorem not_queryCovers_lcc (missing : List RequiredDependency) (h : missing ≠ []) :
    ¬QueryCovers (lcc missing) missing := by
  intro hcovers
  obtain ⟨m, hm⟩ := List.exists_mem_of_ne_nil _ h
  obtain ⟨lowest, hlowest⟩ := exists_lowest hm
  exact hlowest.not_queried lowest.topic (hcovers lowest hlowest.1)

section Resolve

variable {E : Type u} [Envelope E]

/-- The rounds that the backoff leaves room for: each asks for what is still missing, and what is
missing in the end is left unresolved. -/
def resolve (query : Nat → List Topic × GlobalCursor → Except ResolutionError (List E)) :
    Nat → List RequiredDependency → List E →
      Except ResolutionError (List E × List RequiredDependency)
  | 0, missing, resolved => .ok (resolved, missing)
  | attempts + 1, missing, resolved =>
    if missing.isEmpty then .ok (resolved, [])
    else do
      let envelopes ← query attempts (lcc missing)
      let got := envelopes.map cursor
      resolve query attempts (missing.filter fun m => !got.contains m.cursor) (resolved ++ envelopes)

def Exclusive (query : Nat → List Topic × GlobalCursor → Except ResolutionError (List E)) : Prop :=
  ∀ attempt asked envelopes, query attempt asked = .ok envelopes →
    ∀ e ∈ envelopes, Queried asked (topic e) (cursor e)

theorem Lowest.filter {missing : List RequiredDependency} {m : RequiredDependency}
    (h : Lowest missing m) {envelopes : List E}
    (hanswer : ∀ e ∈ envelopes, Queried (lcc missing) (topic e) (cursor e)) :
    Lowest (missing.filter fun m => !(envelopes.map cursor).contains m.cursor) m := by
  refine ⟨List.mem_filter.mpr ⟨h.1, ?_⟩, fun m' hm' => h.2 m' (List.mem_of_mem_filter hm')⟩
  simp only [Bool.not_eq_true', List.contains_eq_mem, decide_eq_false_iff_not, List.mem_map, not_exists,
    not_and]
  intro e he hcursor
  exact h.not_queried (topic e) (hcursor ▸ hanswer e he)

theorem Lowest.unresolved {query : Nat → List Topic × GlobalCursor → Except ResolutionError (List E)}
    (hquery : Exclusive query) {attempts : Nat} {missing unresolved : List RequiredDependency}
    {m : RequiredDependency} {resolved out : List E} (h : Lowest missing m)
    (hresolve : resolve query attempts missing resolved = .ok (out, unresolved)) : m ∈ unresolved := by
  induction attempts generalizing missing resolved with
  | zero =>
    cases hresolve
    exact h.1
  | succ attempts ih =>
    rw [resolve] at hresolve
    split at hresolve
    · rename_i hempty
      rw [List.isEmpty_iff] at hempty
      exact absurd (hempty ▸ h.1) List.not_mem_nil
    · obtain ⟨envelopes, hanswer, hresolve⟩ := bind_eq_ok.mp hresolve
      exact ih (h.filter (hquery _ _ _ hanswer)) hresolve

end Resolve

namespace Sample

def missing : List RequiredDependency := [⟨⟨6, 10⟩, [0, 1], ⟨5, 10⟩⟩]

def severalMissing : List RequiredDependency :=
  [⟨⟨6, 10⟩, [0, 1], ⟨5, 10⟩⟩, ⟨⟨9, 11⟩, [0, 1], ⟨8, 10⟩⟩, ⟨⟨9, 11⟩, [0, 2], ⟨7, 11⟩⟩]

end Sample

theorem not_queryCovers_several : Sample.severalMissing ≠ [] ∧
    ¬QueryCovers (lcc Sample.severalMissing) Sample.severalMissing :=
  ⟨by decide, not_queryCovers_lcc Sample.severalMissing (by decide)⟩

theorem missing_not_queried : ¬∀ missing : List RequiredDependency, missing ≠ [] →
    QueryCovers (lcc missing) missing := by
  intro h
  have hqueried := h Sample.missing (by decide) _ (List.mem_singleton_self _)
  have hclock : (lcc Sample.missing).2.get 10 = 5 := by decide +kernel
  have hlt : (lcc Sample.missing).2.get 10 < 5 := hqueried.2
  omega

end LibXmtp.D14n
