import LibXmtp.Db.LatestCursor
import LibXmtp.Types.Topic
import Mathlib.Algebra.Group.Int.Defs

namespace LibXmtp.Mls.CursorStore

open LibXmtp.Data LibXmtp.Types LibXmtp.Db

structure BuiltTopic where
  kind : TopicKind
  identifier : Bytes
  deriving DecidableEq

structure CursorDb where
  refreshStates : RefreshStates
  identityUpdates : IdentityUpdates

inductive CursorStoreError
  | other

def inboxLog : Nat := 1

def welcomeEntities : List EntityKind := [.welcome]

def messageEntities : List EntityKind := [.applicationMessage, .commitMessage]

variable (db : CursorDb)

def inboxCursor (topic : BuiltTopic) : Except CursorStoreError GlobalCursor := do
  let sid ← okOr (getLatestSequenceIdForInbox db.identityUpdates (Hex.lower.encode topic.identifier))
    .other
  return (default : GlobalCursor).insert inboxLog (sid % 2 ^ 64).toNat

def latest (topic : BuiltTopic) (originators : Option (List Nat)) :
    Except CursorStoreError GlobalCursor :=
  match topic.kind with
  | .welcomeMessagesV1 =>
    .ok (latestCursorForId db.refreshStates topic.identifier welcomeEntities originators)
  | .groupMessagesV1 =>
    .ok (latestCursorForId db.refreshStates topic.identifier messageEntities originators)
  | .identityUpdatesV1 => inboxCursor db topic
  | .keyPackagesV1 => .ok default

def takeCursors (cursors : HashMap Bytes GlobalCursor) :
    List BuiltTopic → List (BuiltTopic × GlobalCursor)
  | [] => []
  | topic :: topics =>
    (topic, (cursors.get topic.identifier).getD default) ::
      takeCursors (cursors.remove topic.identifier) topics

def trackedCursors (topics : List BuiltTopic) (entities : List EntityKind) :
    HashMap BuiltTopic GlobalCursor :=
  .ofList (takeCursors (getLastCursorForIds db.refreshStates (topics.map BuiltTopic.identifier)
    entities) topics)

def latestOfKind (kind : TopicKind) (topics : List BuiltTopic) :
    Except CursorStoreError (HashMap BuiltTopic GlobalCursor) :=
  match kind with
  | .welcomeMessagesV1 => .ok (trackedCursors db topics welcomeEntities)
  | .groupMessagesV1 => .ok (trackedCursors db topics messageEntities)
  | .identityUpdatesV1 => .ofList <$> topics.mapM fun topic => do
    let cursor ← inboxCursor db topic
    return (topic, cursor)
  | .keyPackagesV1 => .ok (.ofList (topics.map fun topic => (topic, default)))

def topicsOfKind (topics : List BuiltTopic) (kind : TopicKind) : List BuiltTopic :=
  topics.filter fun topic => topic.kind = kind

def latestForTopics (topics : List BuiltTopic) :
    Except CursorStoreError (HashMap BuiltTopic GlobalCursor) := do
  let results ← (topics.map BuiltTopic.kind).dedup.mapM fun kind =>
    latestOfKind db kind (topicsOfKind topics kind)
  return .ofList (results.flatMap HashMap.entries)

def entitiesOf : TopicKind → List EntityKind
  | .welcomeMessagesV1 => welcomeEntities
  | .groupMessagesV1 => messageEntities
  | .identityUpdatesV1 | .keyPackagesV1 => []

/-- What the lookup of many topics answers for one of them: a topic that is tracked and occurs again
has lost its cursor. -/
def Answer (topics : List BuiltTopic) (t : BuiltTopic) (c : GlobalCursor) : Prop :=
  t ∈ topics ∧
    if entitiesOf t.kind ≠ [] ∧ 2 ≤ topics.count t then c = default else latest db t none = .ok c

section TakeCursors

variable {t : BuiltTopic} {topics : List BuiltTopic}

theorem map_fst_takeCursors (cursors : HashMap Bytes GlobalCursor) (topics : List BuiltTopic) :
    (takeCursors cursors topics).map Prod.fst = topics := by
  induction topics generalizing cursors with
  | nil => rfl
  | cons t topics ih => rw [takeCursors, List.map_cons, ih]

theorem getLast?_takeCursors {kind : TopicKind} (hkind : ∀ t ∈ topics, t.kind = kind)
    (ht : t.kind = kind) (cursors : HashMap Bytes GlobalCursor) :
    ((takeCursors cursors topics).filter fun e => e.1 == t).getLast?.map Prod.snd =
      if topics.count t = 0 then none
      else if topics.count t = 1 then some ((cursors.get t.identifier).getD default)
      else some default := by
  induction topics generalizing cursors with
  | nil => rfl
  | cons t' topics ih =>
    have ih := ih (fun t ht => hkind t (List.mem_cons_of_mem _ ht))
    rw [takeCursors, List.filter_cons, List.count_cons]
    by_cases heq : t' = t
    · subst heq
      have hrest := ih (cursors.remove t'.identifier)
      rw [HashMap.get_remove] at hrest
      simp only [BEq.rfl, if_true, List.getLast?_cons, Option.map_some]
      have hlast (o : Option (BuiltTopic × GlobalCursor)) (e : BuiltTopic × GlobalCursor) :
          (o.getD e).2 = (o.map Prod.snd).getD e.2 := by cases o <;> rfl
      rw [hlast, hrest, if_neg (Nat.succ_ne_zero _)]
      by_cases hcount : topics.count t' = 0
      · simp [hcount]
      · simp [hcount]
    · have hid : (t'.identifier == t.identifier) = false := by
        rw [beq_eq_false_iff_ne]
        intro hid
        cases t
        cases t'
        cases hid
        cases ht
        cases hkind _ List.mem_cons_self
        exact heq rfl
      have hne : (t' == t) = false := beq_eq_false_iff_ne.mpr heq
      rw [if_neg (by simp [heq]), ih, HashMap.get_remove, hid]
      simp [hne]

theorem latestCursorForId_eq_default_iff {states : RefreshStates} {id : Bytes}
    {entities : List EntityKind} :
    latestCursorForId states id entities none = default ↔ rowsOf states id entities = [] := by
  constructor
  · intro h
    rw [List.eq_nil_iff_forall_not_mem]
    intro s hs
    have hsome : (maxOfOriginator (rowsOf states id entities) s.originatorId).isSome :=
      isSome_maxOfOriginator.mpr (List.mem_map_of_mem hs)
    rw [← getElem?_latestCursorForId, h] at hsome
    cases hsome
  · intro h
    refine GlobalCursor.ext_getElem? fun o => ?_
    rw [getElem?_latestCursorForId, h]
    rfl

theorem get_trackedCursors {kind : TopicKind} {entities : List EntityKind}
    (hkind : ∀ t ∈ topics, t.kind = kind) (t : BuiltTopic) (c : GlobalCursor) :
    (trackedCursors db topics entities).get t = some c ↔ t ∈ topics ∧
      if 2 ≤ topics.count t then c = default
      else latestCursorForId db.refreshStates t.identifier entities none = c := by
  rw [trackedCursors, HashMap.get_ofList]
  by_cases hmem : t ∈ topics
  · have hids : t.identifier ∈ topics.map BuiltTopic.identifier := List.mem_map_of_mem hmem
    have hcount := List.count_pos_iff.mpr hmem
    rw [getLast?_takeCursors hkind (hkind t hmem), if_neg (by omega), get_getLastCursorForIds,
      and_iff_right hmem]
    by_cases hrepeated : 2 ≤ topics.count t
    · rw [if_neg (by omega), if_pos hrepeated, Option.some.injEq]
      exact eq_comm
    · rw [if_pos (by omega), if_neg hrepeated, Option.some.injEq]
      simp only [hids, true_and]
      split
      · rfl
      · rename_i hrows
        rw [latestCursorForId_eq_default_iff.mpr (not_not.mp hrows), Option.getD_none]
  · have hnone : (takeCursors (getLastCursorForIds db.refreshStates
        (topics.map BuiltTopic.identifier) entities) topics).filter (fun e => e.1 == t) = [] := by
      rw [List.filter_eq_nil_iff]
      intro e he hid
      have hfst : e.1 ∈ (takeCursors _ topics).map Prod.fst := List.mem_map_of_mem he
      rw [map_fst_takeCursors, eq_of_beq hid] at hfst
      exact hmem hfst
    simp [hnone, hmem]

end TakeCursors

section LatestForTopics

variable {db : CursorDb} {topics : List BuiltTopic} {kind : TopicKind}
  {map : HashMap BuiltTopic GlobalCursor}

theorem mem_pairs_iff {pairs : List (BuiltTopic × GlobalCursor)}
    (h : (topics.mapM fun topic => do
      let cursor ← inboxCursor db topic
      return (topic, cursor)) = .ok pairs) (e : BuiltTopic × GlobalCursor) :
    e ∈ pairs ↔ e.1 ∈ topics ∧ inboxCursor db e.1 = .ok e.2 := by
  constructor
  · intro he
    obtain ⟨t, ht, heq⟩ := exists_of_mem_mapM h he
    obtain ⟨c, hc, hpair⟩ := bind_eq_ok.mp heq
    cases hpair
    exact ⟨ht, hc⟩
  · rintro ⟨ht, hc⟩
    obtain ⟨e', he', heq⟩ := exists_of_mapM_mem h ht
    rw [hc] at heq
    cases heq
    exact he'

theorem latestOfKind_eq_ok (hkind : ∀ t ∈ topics, t.kind = kind)
    (h : latestOfKind db kind topics = .ok map) (t : BuiltTopic) (c : GlobalCursor) :
    map.get t = some c ↔ Answer db topics t c := by
  cases kind with
  | welcomeMessagesV1 =>
    cases h
    rw [get_trackedCursors db hkind, Answer]
    refine and_congr_right fun ht => ?_
    simp [hkind t ht, entitiesOf, welcomeEntities, latest]
  | groupMessagesV1 =>
    cases h
    rw [get_trackedCursors db hkind, Answer]
    refine and_congr_right fun ht => ?_
    simp [hkind t ht, entitiesOf, messageEntities, latest]
  | identityUpdatesV1 =>
    obtain ⟨pairs, hpairs, rfl⟩ := map_eq_ok.mp h
    have hmem := mem_pairs_iff hpairs
    rw [HashMap.get_ofList_eq_some_iff, hmem, Answer]
    · refine and_congr_right fun ht => ?_
      simp [hkind t ht, entitiesOf, latest]
    · intro e he e' he' heq
      have hc := ((hmem e).mp he).2
      rw [heq, ((hmem e').mp he').2] at hc
      exact Prod.ext heq (Except.ok.inj hc).symm
  | keyPackagesV1 =>
    cases h
    rw [HashMap.get_ofList_eq_some_iff, Answer]
    · rw [List.mem_map]
      constructor
      · rintro ⟨t, ht, heq⟩
        cases heq
        exact ⟨ht, by simp [hkind t ht, entitiesOf, latest]⟩
      · rintro ⟨ht, hc⟩
        refine ⟨t, ht, Prod.ext rfl ?_⟩
        simpa [hkind t ht, entitiesOf, latest] using hc
    · intro e he e' he' heq
      obtain ⟨t, _, rfl⟩ := List.mem_map.mp he
      obtain ⟨t', _, rfl⟩ := List.mem_map.mp he'
      exact Prod.ext heq rfl

theorem latestOfKind_eq_error {e : CursorStoreError} (hkind : ∀ t ∈ topics, t.kind = kind)
    (h : latestOfKind db kind topics = .error e) : ∃ t ∈ topics, latest db t none = .error e := by
  cases kind with
  | welcomeMessagesV1 => cases h
  | groupMessagesV1 => cases h
  | identityUpdatesV1 =>
    obtain ⟨t, ht, herror⟩ := exists_of_mapM_eq_error (map_eq_error.mp h)
    refine ⟨t, ht, ?_⟩
    rw [latest, hkind t ht]
    rcases bind_eq_error.mp herror with herror | ⟨c, _, hpure⟩
    · exact herror
    · cases hpure
  | keyPackagesV1 => cases h

theorem exists_latest_of_latestOfKind (hkind : ∀ t ∈ topics, t.kind = kind)
    (h : latestOfKind db kind topics = .ok map) {t : BuiltTopic} (ht : t ∈ topics) :
    ∃ c, latest db t none = .ok c := by
  cases kind with
  | welcomeMessagesV1 => exact ⟨_, by rw [latest, hkind t ht]⟩
  | groupMessagesV1 => exact ⟨_, by rw [latest, hkind t ht]⟩
  | identityUpdatesV1 =>
    obtain ⟨pairs, hpairs, -⟩ := map_eq_ok.mp h
    obtain ⟨e, -, heq⟩ := exists_of_mapM_mem hpairs ht
    obtain ⟨c, hc, -⟩ := bind_eq_ok.mp heq
    exact ⟨c, by rw [latest, hkind t ht, hc]⟩
  | keyPackagesV1 => exact ⟨_, by rw [latest, hkind t ht]⟩

theorem kind_of_mem_topicsOfKind : ∀ t ∈ topicsOfKind topics kind, t.kind = kind :=
  fun _ ht => of_decide_eq_true (List.mem_filter.mp ht).2

theorem answer_topicsOfKind {t : BuiltTopic} {c : GlobalCursor} :
    Answer db (topicsOfKind topics kind) t c ↔ t.kind = kind ∧ Answer db topics t c := by
  by_cases hk : t.kind = kind
  · have hmem : t ∈ topicsOfKind topics kind ↔ t ∈ topics := by
      rw [topicsOfKind, List.mem_filter, decide_eq_true hk, and_iff_left rfl]
    have hcount : (topicsOfKind topics kind).count t = topics.count t :=
      List.count_filter (decide_eq_true hk)
    rw [and_iff_right hk]
    simp only [Answer, hmem, hcount]
  · constructor
    · intro h
      exact ⟨kind_of_mem_topicsOfKind t h.1, absurd (kind_of_mem_topicsOfKind t h.1) hk⟩
    · rintro ⟨hk', -⟩
      exact absurd hk' hk

theorem Answer.functional {t : BuiltTopic} {c c' : GlobalCursor} (h : Answer db topics t c)
    (h' : Answer db topics t c') : c = c' := by
  obtain ⟨-, h⟩ := h
  obtain ⟨-, h'⟩ := h'
  split at h
  · rename_i hrepeated
    rw [if_pos hrepeated] at h'
    rw [h, h']
  · rename_i hrepeated
    rw [if_neg hrepeated, h] at h'
    exact Except.ok.inj h'

theorem latestForTopics_eq_ok (h : latestForTopics db topics = .ok map) (t : BuiltTopic)
    (c : GlobalCursor) : map.get t = some c ↔ Answer db topics t c := by
  obtain ⟨results, hresults, hmap⟩ := bind_eq_ok.mp h
  cases hmap
  have hentry : ∀ e, e ∈ results.flatMap HashMap.entries ↔ Answer db topics e.1 e.2 := by
    intro e
    rw [List.mem_flatMap]
    constructor
    · rintro ⟨map, hmap, he⟩
      obtain ⟨kind, -, hkind⟩ := exists_of_mem_mapM hresults hmap
      have hanswer := (latestOfKind_eq_ok kind_of_mem_topicsOfKind hkind e.1 e.2).mp
        (HashMap.get_eq_some_iff.mpr he)
      exact (answer_topicsOfKind.mp hanswer).2
    · intro hanswer
      have hkinds : e.1.kind ∈ (topics.map BuiltTopic.kind).dedup :=
        List.mem_dedup.mpr (List.mem_map_of_mem hanswer.1)
      obtain ⟨map, hmap, hkind⟩ := exists_of_mapM_mem hresults hkinds
      refine ⟨map, hmap, HashMap.get_eq_some_iff.mp ?_⟩
      rw [latestOfKind_eq_ok kind_of_mem_topicsOfKind hkind]
      exact answer_topicsOfKind.mpr ⟨rfl, hanswer⟩
  rw [HashMap.get_ofList_eq_some_iff, hentry]
  intro e he e' he' heq
  have hanswer := (hentry e).mp he
  rw [heq] at hanswer
  exact Prod.ext heq (hanswer.functional ((hentry e').mp he'))

theorem exists_latest_of_latestForTopics (h : latestForTopics db topics = .ok map) :
    ∀ t ∈ topics, ∃ c, latest db t none = .ok c := by
  intro t ht
  obtain ⟨results, hresults, -⟩ := bind_eq_ok.mp h
  have hkinds : t.kind ∈ (topics.map BuiltTopic.kind).dedup :=
    List.mem_dedup.mpr (List.mem_map_of_mem ht)
  obtain ⟨map, -, hkind⟩ := exists_of_mapM_mem hresults hkinds
  exact exists_latest_of_latestOfKind kind_of_mem_topicsOfKind hkind
    (List.mem_filter.mpr ⟨ht, decide_eq_true rfl⟩)

theorem latestForTopics_eq_error {e : CursorStoreError} (h : latestForTopics db topics = .error e) :
    ∃ t ∈ topics, latest db t none = .error e := by
  rcases bind_eq_error.mp h with herror | ⟨results, -, hpure⟩
  · obtain ⟨kind, -, hkind⟩ := exists_of_mapM_eq_error herror
    obtain ⟨t, ht, hlatest⟩ := latestOfKind_eq_error kind_of_mem_topicsOfKind hkind
    exact ⟨t, List.mem_of_mem_filter ht, hlatest⟩
  · cases hpure

/-- The lookup of many topics tells of each what is told of it alone, and of no other topic; it only
fails where one of them cannot be looked up alone. -/
structure Agrees (db : CursorDb) (topics : List BuiltTopic) : Prop where
  answers : ∀ map, latestForTopics db topics = .ok map → ∀ t c,
    map.get t = some c ↔ t ∈ topics ∧ latest db t none = .ok c
  failures : (∃ e, latestForTopics db topics = .error e) ↔
    ∃ t ∈ topics, ∃ e, latest db t none = .error e

def Unreadable (db : CursorDb) (topics : List BuiltTopic) : Prop :=
  ∃ t ∈ topics, t.kind = .identityUpdatesV1 ∧
    getLatestSequenceIdForInbox db.identityUpdates (Hex.lower.encode t.identifier) = none

def RepeatedUntracked (db : CursorDb) (topics : List BuiltTopic) : Prop :=
  ∀ t ∈ topics, 2 ≤ topics.count t → rowsOf db.refreshStates t.identifier (entitiesOf t.kind) = []

theorem latest_eq_error_iff {t : BuiltTopic} : (∃ e, latest db t none = .error e) ↔
    t.kind = .identityUpdatesV1 ∧
      getLatestSequenceIdForInbox db.identityUpdates (Hex.lower.encode t.identifier) = none := by
  cases hk : t.kind with
  | identityUpdatesV1 =>
    rw [latest, hk, inboxCursor]
    cases getLatestSequenceIdForInbox db.identityUpdates (Hex.lower.encode t.identifier) with
    | none => exact iff_of_true ⟨.other, rfl⟩ ⟨rfl, rfl⟩
    | some sid => simp [okOr, bind, Except.bind, pure, Except.pure]
  | groupMessagesV1 => simp [latest, hk]
  | welcomeMessagesV1 => simp [latest, hk]
  | keyPackagesV1 => simp [latest, hk]

theorem unreadable_iff : Unreadable db topics ↔ ∃ e, latestForTopics db topics = .error e := by
  constructor
  · rintro ⟨t, ht, hnone⟩
    obtain ⟨e, he⟩ := latest_eq_error_iff.mpr hnone
    cases h : latestForTopics db topics with
    | error e => exact ⟨e, rfl⟩
    | ok map =>
      obtain ⟨c, hc⟩ := exists_latest_of_latestForTopics h t ht
      rw [he] at hc
      cases hc
  · rintro ⟨e, he⟩
    obtain ⟨t, ht, hlatest⟩ := latestForTopics_eq_error he
    exact ⟨t, ht, latest_eq_error_iff.mp ⟨e, hlatest⟩⟩

theorem latest_of_tracked {t : BuiltTopic} (h : entitiesOf t.kind ≠ []) : latest db t none =
    .ok (latestCursorForId db.refreshStates t.identifier (entitiesOf t.kind) none) := by
  cases hk : t.kind with
  | groupMessagesV1 => rw [latest, hk, entitiesOf]
  | welcomeMessagesV1 => rw [latest, hk, entitiesOf]
  | identityUpdatesV1 => simp [hk, entitiesOf] at h
  | keyPackagesV1 => simp [hk, entitiesOf] at h

theorem answer_iff_of_repeatedUntracked (h : RepeatedUntracked db topics) {t : BuiltTopic}
    {c : GlobalCursor} : Answer db topics t c ↔ t ∈ topics ∧ latest db t none = .ok c := by
  refine and_congr_right fun ht => ?_
  split
  · rename_i hrepeated
    rw [latest_of_tracked hrepeated.1, latestCursorForId_eq_default_iff.mpr (h t ht hrepeated.2),
      Except.ok.injEq]
    exact eq_comm
  · rfl

theorem Agrees.unreadable_or_repeatedUntracked (h : Agrees db topics) :
    Unreadable db topics ∨ RepeatedUntracked db topics := by
  cases hlookup : latestForTopics db topics with
  | error e => exact .inl (unreadable_iff.mpr ⟨e, hlookup⟩)
  | ok map =>
    refine .inr fun t ht hcount => ?_
    by_cases hentities : entitiesOf t.kind = []
    · rw [hentities, rowsOf, List.filter_eq_nil_iff]
      simp
    · have hanswer : Answer db topics t default := by
        refine ⟨ht, ?_⟩
        rw [if_pos ⟨hentities, hcount⟩]
      have hlatest := ((h.answers map hlookup t default).mp
        ((latestForTopics_eq_ok hlookup t default).mpr hanswer)).2
      rw [latest_of_tracked hentities, Except.ok.injEq] at hlatest
      exact latestCursorForId_eq_default_iff.mp hlatest

/-- Looking the topics up together is looking up each of them, except for a topic that occurs again:
its cursor was given away to the first occurrence. -/
theorem agrees_iff : Agrees db topics ↔ Unreadable db topics ∨ RepeatedUntracked db topics := by
  constructor
  · exact Agrees.unreadable_or_repeatedUntracked
  · intro h
    have hfailures : (∃ e, latestForTopics db topics = .error e) ↔
        ∃ t ∈ topics, ∃ e, latest db t none = .error e := by
      simp only [latest_eq_error_iff]
      exact unreadable_iff.symm
    refine ⟨fun map hmap t c => ?_, hfailures⟩
    rcases h with hunreadable | huntracked
    · obtain ⟨e, he⟩ := unreadable_iff.mp hunreadable
      rw [hmap] at he
      cases he
    · rw [latestForTopics_eq_ok hmap]
      exact answer_iff_of_repeatedUntracked huntracked

/-- The second answer of a group that is asked for twice is that nothing is known of it. -/
theorem latestForTopics_repeated :
    let topic : BuiltTopic := ⟨.groupMessagesV1, [0x0a]⟩
    let db : CursorDb :=
      { refreshStates := ⟨[⟨[0x0a], .applicationMessage, 7, 10⟩], by decide⟩
        identityUpdates := Table.empty }
    ¬Agrees db [topic, topic] := by
  intro topic db h
  rcases h.unreadable_or_repeatedUntracked with ⟨t, ht, hk, -⟩ | huntracked
  · have heq : t = topic := by simpa using ht
    rw [heq] at hk
    exact TopicKind.noConfusion hk
  · exact absurd (huntracked topic List.mem_cons_self (by decide)) (by decide)

end LatestForTopics

end LibXmtp.Mls.CursorStore
