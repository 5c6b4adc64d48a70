import LibXmtp.Data.HashSet
import LibXmtp.Groups.Welcomes
import LibXmtp.Mls.CursorStore

namespace LibXmtp.Groups

open LibXmtp.Data LibXmtp.Types LibXmtp.Db
open LibXmtp.Mls.CursorStore (messageEntities)

def applicationMessages : Nat := 10

structure GroupMessageMetadata where
  cursor : Cursor
  groupId : Bytes

/-- The newest message is not the only one that may be missing: every group has a commit, and one
without has missed it. -/
def hasNewMessages (cursor : GlobalCursor) (latestMessageMetadata : GroupMessageMetadata) : Bool :=
  let hasUnseenLatest :=
    cursor.get latestMessageMetadata.cursor.originatorId < latestMessageMetadata.cursor.sequenceId
  let hasUnsyncedCommits := 0 < cursor.get applicationMessages && cursor.get mlsCommits == 0
  hasUnseenLatest || hasUnsyncedCommits

def addWithNewMessages (lastSyncedCursors : HashMap Bytes GlobalCursor)
    (groupsWithUnreadMessages : HashSet Bytes) (latest : Bytes × GroupMessageMetadata) :
    HashSet Bytes :=
  match lastSyncedCursors.get latest.1 with
  | some cursor =>
    if hasNewMessages cursor latest.2 then groupsWithUnreadMessages.insert latest.1
    else groupsWithUnreadMessages
  | none => groupsWithUnreadMessages.insert latest.1

def filterGroupsWithNewMessages (lastSyncedCursors : HashMap Bytes GlobalCursor)
    (latestMessages : HashMap Bytes GroupMessageMetadata) : HashSet Bytes :=
  latestMessages.entries.foldl (addWithNewMessages lastSyncedCursors) .empty

structure ServerMessage where
  cursor : Cursor
  isCommit : Bool
  deriving DecidableEq

def ServerMessage.entityKind (m : ServerMessage) : EntityKind :=
  if m.isCommit then .commitMessage else .applicationMessage

def ofOriginator (originator : Nat) (messages : List ServerMessage) : List ServerMessage :=
  messages.filter fun m => m.cursor.originatorId = originator

/-- All that was ever sent to a group. Each originator counts its messages up. -/
structure GroupLog where
  messages : List ServerMessage
  ascending : messages.Pairwise fun m m' => m.cursor.originatorId = m'.cursor.originatorId →
    m.cursor.sequenceId < m'.cursor.sequenceId

def groupCursor (states : RefreshStates) (groupId : Bytes) : GlobalCursor :=
  latestCursorForId states groupId messageEntities none

def processMessages (groupId : Bytes) (states : RefreshStates) (messages : List ServerMessage) :
    RefreshStates :=
  messages.foldl (fun states m => updateCursor groupId m.entityKind m.cursor states) states

/-- The messages of which the cursor of their originator can be moved on. The other ones are skipped
as if they had been processed before. -/
def accepted (messages : List ServerMessage) : List ServerMessage :=
  messages.filter fun m => m.cursor.sequenceId < 2 ^ 63

theorem accepted_cons (m : ServerMessage) (messages : List ServerMessage) :
    accepted (m :: messages) =
      if m.cursor.sequenceId < 2 ^ 63 then m :: accepted messages else accepted messages := by
  simp only [accepted, List.filter_cons, decide_eq_true_eq]

/-- What a query answers: of every originator the first messages, as far as they are visible, less
those that are not above the cursor. -/
def Response (log : GroupLog) (cursor : GlobalCursor) (response : List ServerMessage) : Prop :=
  ∀ originator, ∃ visible, ofOriginator originator response =
    ((ofOriginator originator log.messages).take visible).filter fun m =>
      cursor.get originator < m.cursor.sequenceId

/-- Passes over a group, with the messages that they have processed. A pass may end early, and the
rows of other entities are written at any time. -/
inductive Synced (log : GroupLog) (groupId : Bytes) (start : RefreshStates) :
    RefreshStates → List ServerMessage → Prop
  | start : Synced log groupId start start []
  | pass {states : RefreshStates} {seen response : List ServerMessage}
    (h : Synced log groupId start states seen)
    (hresponse : Response log (groupCursor states groupId) response) (processed : Nat) :
    Synced log groupId start (processMessages groupId states (response.take processed))
      (seen ++ accepted (response.take processed))
  | read {states : RefreshStates} {seen : List ServerMessage}
    (h : Synced log groupId start states seen) (entityId : Bytes) (kind : EntityKind)
    (originator : Nat) : Synced log groupId start
      (getLastCursorForOriginator entityId kind originator states).2 seen
  | elsewhere {states : RefreshStates} {seen : List ServerMessage}
    (h : Synced log groupId start states seen) {entityId : Bytes} (hother : entityId ≠ groupId)
    (kind : EntityKind) (cursor : Cursor) :
    Synced log groupId start (updateCursor entityId kind cursor states) seen

/-- The cursor was above the message at the start, or a pass has processed it. -/
def Had (start : RefreshStates) (groupId : Bytes) (seen : List ServerMessage) (m : ServerMessage) :
    Prop :=
  m.cursor.sequenceId ≤ (groupCursor start groupId).get m.cursor.originatorId ∨ m ∈ seen

section Cursor

variable {states : RefreshStates} {groupId : Bytes}

theorem cursorOf_le_iff {kind : EntityKind} {o bound : Nat} :
    cursorOf groupId states kind o ≤ bound ↔
      ∀ s ∈ states.rows, s.key = (groupId, kind, o) → s.sequenceId ≤ bound := by
  rw [cursorOf_eq]
  cases hfetch : states.fetch (groupId, kind, o) with
  | none =>
    rw [Table.fetch_eq_none_iff] at hfetch
    constructor
    · intro _ s hs hkey
      exact absurd (List.mem_map.mpr ⟨s, hs, hkey⟩) hfetch
    · exact fun _ => Nat.zero_le bound
  | some row =>
    obtain ⟨hrow, hkey⟩ := Table.fetch_eq_some_iff.mp hfetch
    constructor
    · intro hle s hs hkey'
      rw [states.eq_of_key_eq hs hrow (hkey'.trans hkey.symm)]
      exact hle
    · exact fun h => h row hrow hkey

theorem get_groupCursor_le_iff {o bound : Nat} : (groupCursor states groupId).get o ≤ bound ↔
    ∀ s ∈ rowsOf states groupId messageEntities, s.originatorId = o → s.sequenceId ≤ bound := by
  rw [GlobalCursor.get, Std.ExtTreeMap.getD_eq_getD_getElem?, groupCursor,
    getElem?_latestCursorForId, maxOfOriginator]
  generalize hseqs : ((rowsOf states groupId messageEntities).filter fun s =>
    s.originatorId = o).map RefreshState.sequenceId = seqs
  have hmem {seq : Nat} : seq ∈ seqs ↔
      ∃ s ∈ rowsOf states groupId messageEntities, s.originatorId = o ∧ s.sequenceId = seq := by
    rw [← hseqs]
    simp only [List.mem_map, List.mem_filter, decide_eq_true_eq, and_assoc]
  have hall : (∀ s ∈ rowsOf states groupId messageEntities, s.originatorId = o →
      s.sequenceId ≤ bound) ↔ ∀ seq ∈ seqs, seq ≤ bound := by
    constructor
    · intro h seq hseq
      obtain ⟨s, hs, ho, rfl⟩ := hmem.mp hseq
      exact h s hs ho
    · exact fun h s hs ho => h _ (hmem.mpr ⟨s, hs, ho, rfl⟩)
  rw [hall]
  cases hmax : seqs.max? with
  | none =>
    rw [List.max?_eq_none_iff] at hmax
    simp [hmax]
  | some highest =>
    obtain ⟨hhighest, hle⟩ := List.max?_eq_some_iff.mp hmax
    constructor
    · exact fun h seq hseq => Nat.le_trans (hle seq hseq) h
    · exact fun h => h highest hhighest

theorem get_groupCursor (states : RefreshStates) (groupId : Bytes) (o : Nat) :
    (groupCursor states groupId).get o =
      max (cursorOf groupId states .applicationMessage o)
        (cursorOf groupId states .commitMessage o) := by
  apply eq_of_forall_ge_iff
  intro bound
  rw [get_groupCursor_le_iff, Nat.max_le, cursorOf_le_iff, cursorOf_le_iff]
  simp only [rowsOf, messageEntities, List.mem_filter, Bool.and_eq_true, decide_eq_true_eq,
    List.contains_iff_mem, List.mem_cons, List.not_mem_nil, or_false, RefreshState.key,
    Prod.mk.injEq]
  constructor
  · intro h
    constructor
    · rintro s hs ⟨hid, hkind, ho⟩
      exact h s ⟨hs, hid, .inl hkind⟩ ho
    · rintro s hs ⟨hid, hkind, ho⟩
      exact h s ⟨hs, hid, .inr hkind⟩ ho
  · rintro ⟨happlication, hcommit⟩ s ⟨hs, hid, hkind | hkind⟩ ho
    · exact happlication s hs ⟨hid, hkind, ho⟩
    · exact hcommit s hs ⟨hid, hkind, ho⟩

theorem get_groupCursor_updateCursor (m : ServerMessage) (o : Nat) :
    (groupCursor (updateCursor groupId m.entityKind m.cursor states) groupId).get o =
      if m.cursor.originatorId = o ∧ m.cursor.sequenceId < 2 ^ 63 then
        max ((groupCursor states groupId).get o) m.cursor.sequenceId
      else (groupCursor states groupId).get o := by
  simp only [get_groupCursor, cursorOf_updateCursor, ServerMessage.entityKind]
  by_cases h : m.cursor.originatorId = o ∧ m.cursor.sequenceId < 2 ^ 63
  · obtain ⟨ho, hfits⟩ := h
    simp only [ho, hfits, true_and, and_true, if_true]
    cases m.isCommit with
    | true => simp [Nat.max_assoc]
    | false => simp [Nat.max_comm]
  · rw [if_neg h, if_neg fun h' => h ⟨h'.1.2.2, h'.2⟩, if_neg fun h' => h ⟨h'.1.2.2, h'.2⟩]

theorem get_groupCursor_elsewhere {entityId : Bytes} (h : entityId ≠ groupId) (kind : EntityKind)
    (cursor : Cursor) (o : Nat) :
    (groupCursor (updateCursor entityId kind cursor states) groupId).get o =
      (groupCursor states groupId).get o := by
  simp only [get_groupCursor, cursorOf_updateCursor, h, false_and, if_false]

theorem get_groupCursor_read (entityId : Bytes) (kind : EntityKind) (originator o : Nat) :
    (groupCursor (getLastCursorForOriginator entityId kind originator states).2 groupId).get o =
      (groupCursor states groupId).get o := by
  simp only [get_groupCursor, cursorOf_getLastCursorForOriginator]

theorem le_get_processMessages_iff {messages : List ServerMessage} {o bound : Nat} :
    (groupCursor (processMessages groupId states messages) groupId).get o ≤ bound ↔
      (groupCursor states groupId).get o ≤ bound ∧
        ∀ m ∈ accepted messages, m.cursor.originatorId = o → m.cursor.sequenceId ≤ bound := by
  induction messages generalizing states with
  | nil => simp [processMessages, accepted]
  | cons m messages ih =>
    rw [processMessages, List.foldl_cons, ← processMessages, ih, get_groupCursor_updateCursor,
      accepted_cons]
    by_cases hfits : m.cursor.sequenceId < 2 ^ 63
    · rw [if_pos hfits, List.forall_mem_cons]
      by_cases ho : m.cursor.originatorId = o
      · rw [if_pos ⟨ho, hfits⟩, Nat.max_le]
        simp only [ho, forall_const, and_assoc]
      · rw [if_neg fun h => ho h.1]
        simp only [ho, false_implies, true_and]
    · rw [if_neg hfits, if_neg fun h => hfits h.2]

end Cursor

section Passes

variable {log : GroupLog} {groupId : Bytes} {start states : RefreshStates}
  {seen response messages : List ServerMessage} {m m' : ServerMessage} {o : Nat}

theorem mem_ofOriginator : m ∈ ofOriginator o messages ↔ m ∈ messages ∧ m.cursor.originatorId = o := by
  rw [ofOriginator, List.mem_filter, decide_eq_true_eq]

theorem GroupLog.pairwise_ofOriginator (log : GroupLog) (o : Nat) :
    (ofOriginator o log.messages).Pairwise fun m m' =>
      m.cursor.sequenceId < m'.cursor.sequenceId := by
  apply (log.ascending.filter _).imp_of_mem
  intro m m' hm hm' hlt
  exact hlt ((mem_ofOriginator.mp hm).2.trans (mem_ofOriginator.mp hm').2.symm)

theorem mem_of_front (hfront : messages <+: response)
    (hascending : response.Pairwise fun m m' => m.cursor.sequenceId < m'.cursor.sequenceId)
    (hm : m ∈ response) (hm' : m' ∈ messages)
    (hle : m.cursor.sequenceId ≤ m'.cursor.sequenceId) : m ∈ messages := by
  obtain ⟨rest, rfl⟩ := hfront
  rcases List.mem_append.mp hm with hm | hm
  · exact hm
  · have hlt := (List.pairwise_append.mp hascending).2.2 m' hm' m hm
    omega

theorem Response.subset {cursor : GlobalCursor} (h : Response log cursor response) :
    response ⊆ log.messages := by
  intro m hm
  obtain ⟨visible, heq⟩ := h m.cursor.originatorId
  have hof : m ∈ ofOriginator m.cursor.originatorId response := mem_ofOriginator.mpr ⟨hm, rfl⟩
  rw [heq] at hof
  exact (mem_ofOriginator.mp (List.mem_of_mem_take (List.mem_filter.mp hof).1)).1

theorem Response.mem_take {cursor : GlobalCursor} (h : Response log cursor response)
    {processed : Nat} (hm : m ∈ log.messages)
    (hmissing : cursor.get m.cursor.originatorId < m.cursor.sequenceId)
    (hm' : m' ∈ response.take processed)
    (horiginator : m'.cursor.originatorId = m.cursor.originatorId)
    (hle : m.cursor.sequenceId ≤ m'.cursor.sequenceId) : m ∈ response.take processed := by
  obtain ⟨visible, heq⟩ := h m.cursor.originatorId
  have hascending := log.pairwise_ofOriginator m.cursor.originatorId
  have htaken' : m' ∈ ofOriginator m.cursor.originatorId (response.take processed) :=
    mem_ofOriginator.mpr ⟨hm', horiginator⟩
  have hfront : ofOriginator m.cursor.originatorId (response.take processed) <+:
      ofOriginator m.cursor.originatorId response :=
    (List.take_prefix processed response).filter _
  have hvisible' : m' ∈ (ofOriginator m.cursor.originatorId log.messages).take visible := by
    have hresponse := hfront.subset htaken'
    rw [heq] at hresponse
    exact (List.mem_filter.mp hresponse).1
  have hvisible : m ∈ (ofOriginator m.cursor.originatorId log.messages).take visible :=
    mem_of_front (List.take_prefix _ _) hascending (mem_ofOriginator.mpr ⟨hm, rfl⟩) hvisible' hle
  have hresponse : m ∈ ofOriginator m.cursor.originatorId response := by
    rw [heq]
    exact List.mem_filter.mpr ⟨hvisible, decide_eq_true hmissing⟩
  have hsorted : (ofOriginator m.cursor.originatorId response).Pairwise fun m m' =>
      m.cursor.sequenceId < m'.cursor.sequenceId := by
    rw [heq]
    exact (hascending.sublist (List.take_sublist _ _)).filter _
  exact (mem_ofOriginator.mp (mem_of_front hfront hsorted hresponse htaken' hle)).1

structure LogTracked (log : GroupLog) (groupId : Bytes) (start states : RefreshStates)
    (seen : List ServerMessage) : Prop where
  subset : seen ⊆ log.messages
  had : ∀ m, Had start groupId seen m →
    m.cursor.sequenceId ≤ (groupCursor states groupId).get m.cursor.originatorId
  closed : ∀ m ∈ log.messages,
    m.cursor.sequenceId ≤ (groupCursor states groupId).get m.cursor.originatorId →
    Had start groupId seen m

theorem LogTracked.of_get {states' : RefreshStates} (h : LogTracked log groupId start states seen)
    (hget : ∀ o, (groupCursor states' groupId).get o = (groupCursor states groupId).get o) :
    LogTracked log groupId start states' seen where
  subset := h.subset
  had m hm := by
    rw [hget]
    exact h.had m hm
  closed m hm hle := by
    rw [hget] at hle
    exact h.closed m hm hle

theorem LogTracked.pass (h : LogTracked log groupId start states seen)
    (hresponse : Response log (groupCursor states groupId) response) (processed : Nat) :
    LogTracked log groupId start (processMessages groupId states (response.take processed))
      (seen ++ accepted (response.take processed)) := by
  have hbound {o bound : Nat} :
      (groupCursor (processMessages groupId states (response.take processed)) groupId).get o ≤
          bound ↔
        (groupCursor states groupId).get o ≤ bound ∧
          ∀ m ∈ accepted (response.take processed), m.cursor.originatorId = o →
            m.cursor.sequenceId ≤ bound :=
    le_get_processMessages_iff
  refine ⟨List.append_subset.mpr ⟨h.subset, ?_⟩, fun m hm => ?_, fun m hm hle => ?_⟩
  · exact List.Subset.trans (List.filter_subset_self _)
      (List.Subset.trans (List.take_subset _ _) hresponse.subset)
  · have hkept := hbound.mp (Nat.le_refl
      ((groupCursor (processMessages groupId states (response.take processed)) groupId).get
        m.cursor.originatorId))
    rcases hm with hstart | hseen
    · exact Nat.le_trans (h.had m (.inl hstart)) hkept.1
    · rcases List.mem_append.mp hseen with hseen | htaken
      · exact Nat.le_trans (h.had m (.inr hseen)) hkept.1
      · exact hkept.2 m htaken rfl
  · by_cases hold : m.cursor.sequenceId ≤ (groupCursor states groupId).get m.cursor.originatorId
    · exact (h.closed m hm hold).imp_right (List.mem_append_left _)
    · have hmissing := Nat.lt_of_not_le hold
      have hex : ∃ m' ∈ accepted (response.take processed),
          m'.cursor.originatorId = m.cursor.originatorId ∧
          m.cursor.sequenceId ≤ m'.cursor.sequenceId := by
        by_contra hnone
        have hbelow : (groupCursor (processMessages groupId states (response.take processed))
            groupId).get m.cursor.originatorId ≤ m.cursor.sequenceId - 1 := by
          refine hbound.mpr ⟨by omega, fun m' hm' ho => ?_⟩
          by_contra hgt
          exact hnone ⟨m', hm', ho, by omega⟩
        omega
      obtain ⟨m', hm', ho, hle'⟩ := hex
      obtain ⟨hm', hfits⟩ := List.mem_filter.mp hm'
      have hlt : m'.cursor.sequenceId < 2 ^ 63 := of_decide_eq_true hfits
      refine .inr (List.mem_append_right _ (List.mem_filter.mpr ⟨?_, decide_eq_true (by omega)⟩))
      exact hresponse.mem_take hm hmissing hm' ho hle'

theorem Synced.tracked (h : Synced log groupId start states seen) :
    LogTracked log groupId start states seen := by
  induction h with
  | start =>
    refine ⟨List.nil_subset _, fun m hm => ?_, fun m _ hle => .inl hle⟩
    exact hm.resolve_right List.not_mem_nil
  | pass _ hresponse processed ih => exact ih.pass hresponse processed
  | read _ entityId kind originator ih =>
    exact ih.of_get (get_groupCursor_read entityId kind originator)
  | elsewhere _ hother kind cursor ih => exact ih.of_get (get_groupCursor_elsewhere hother kind cursor)

end Passes

section Filter

variable {log : GroupLog} {groupId : Bytes} {start states : RefreshStates}
  {seen : List ServerMessage} {ids : List Bytes} {latest : HashMap Bytes GroupMessageMetadata}
  {cursors : HashMap Bytes GlobalCursor}

theorem mem_addWithNewMessages {groups : HashSet Bytes} {e : Bytes × GroupMessageMetadata} :
    groupId ∈ (addWithNewMessages cursors groups e).entries ↔ groupId ∈ groups.entries ∨
      groupId = e.1 ∧
        ∀ cursor, cursors.get groupId = some cursor → hasNewMessages cursor e.2 = true := by
  have hinsert : groupId ∈ (groups.insert e.1).entries ↔ groupId ∈ groups.entries ∨ groupId = e.1 :=
    HashSet.mem_insert fun _ _ heq => eq_of_beq heq
  rw [addWithNewMessages]
  by_cases hid : groupId = e.1
  · subst hid
    cases hcursor : cursors.get e.1 with
    | none => simp [hinsert]
    | some cursor =>
      cases hnew : hasNewMessages cursor e.2 with
      | true => simp [hinsert, hnew]
      | false => simp [hnew]
  · cases cursors.get e.1 with
    | none => simp [hinsert, hid]
    | some cursor =>
      cases hnew : hasNewMessages cursor e.2 with
      | true => simp [hinsert, hid, hnew]
      | false => simp [hid, hnew]

theorem mem_filterGroupsWithNewMessages : groupId ∈
    (filterGroupsWithNewMessages cursors latest).entries ↔ ∃ metadata,
      latest.get groupId = some metadata ∧
        ∀ cursor, cursors.get groupId = some cursor → hasNewMessages cursor metadata = true := by
  have hfold (groups : HashSet Bytes) (es : List (Bytes × GroupMessageMetadata)) :
      groupId ∈ (es.foldl (addWithNewMessages cursors) groups).entries ↔
        groupId ∈ groups.entries ∨ ∃ metadata, (groupId, metadata) ∈ es ∧
          ∀ cursor, cursors.get groupId = some cursor → hasNewMessages cursor metadata = true := by
    induction es generalizing groups with
    | nil => simp
    | cons e es ih =>
      rw [List.foldl_cons, ih, mem_addWithNewMessages, or_assoc]
      apply or_congr_right
      constructor
      · rintro (⟨rfl, hnew⟩ | ⟨metadata, hmem, hnew⟩)
        · exact ⟨e.2, List.mem_cons_self, hnew⟩
        · exact ⟨metadata, List.mem_cons_of_mem _ hmem, hnew⟩
      · rintro ⟨metadata, hmem, hnew⟩
        rcases List.mem_cons.mp hmem with rfl | hmem
        · exact .inl ⟨rfl, hnew⟩
        · exact .inr ⟨metadata, hmem, hnew⟩
  rw [filterGroupsWithNewMessages, hfold]
  simp only [HashMap.get_eq_some_iff]
  exact or_iff_right List.not_mem_nil

theorem hasNewMessages_iff {cursor : GlobalCursor} {metadata : GroupMessageMetadata} :
    hasNewMessages cursor metadata = true ↔
      cursor.get metadata.cursor.originatorId < metadata.cursor.sequenceId ∨
        0 < cursor.get applicationMessages ∧ cursor.get mlsCommits = 0 := by
  simp [hasNewMessages]

/-- A group is skipped with messages unread only if a pass has come to its newest one and left
others out, and has not left out all commits. -/
theorem keeps_unread_iff (h : Synced log groupId start states seen) (hid : groupId ∈ ids)
    (hlatest : (latest.get groupId).map GroupMessageMetadata.cursor =
      log.messages.getLast?.map ServerMessage.cursor) :
    ((∃ m ∈ log.messages,
        (groupCursor states groupId).get m.cursor.originatorId < m.cursor.sequenceId) →
      groupId ∈ (filterGroupsWithNewMessages (getLastCursorForIds states ids messageEntities)
        latest).entries) ↔
    ((∀ m ∈ log.messages, Had start groupId seen m) ∨
      (∃ newest, log.messages.getLast? = some newest ∧ ¬Had start groupId seen newest) ∨
      rowsOf states groupId messageEntities = [] ∨
      0 < (groupCursor states groupId).get applicationMessages ∧
        (groupCursor states groupId).get mlsCommits = 0) := by
  have htracked := h.tracked
  have hcursor : (getLastCursorForIds states ids messageEntities).get groupId =
      if rowsOf states groupId messageEntities ≠ [] then some (groupCursor states groupId)
      else none := by
    rw [get_getLastCursorForIds, groupCursor]
    simp only [hid, true_and]
  rw [mem_filterGroupsWithNewMessages, hcursor]
  constructor
  · intro hkeeps
    by_cases hall : ∀ m ∈ log.messages, Had start groupId seen m
    · exact .inl hall
    · have hunread : ∃ m ∈ log.messages,
          (groupCursor states groupId).get m.cursor.originatorId < m.cursor.sequenceId := by
        by_contra hread
        apply hall
        intro m hm
        apply htracked.closed m hm
        by_contra hgt
        exact hread ⟨m, hm, Nat.lt_of_not_le hgt⟩
      obtain ⟨metadata, hmetadata, hnew⟩ := hkeeps hunread
      by_cases hrows : rowsOf states groupId messageEntities = []
      · exact .inr (.inr (.inl hrows))
      · rw [if_pos hrows] at hnew
        rcases hasNewMessages_iff.mp (hnew _ rfl) with hunseen | hcommits
        · rw [hmetadata, Option.map_some] at hlatest
          obtain ⟨newest, hnewest, heq⟩ := Option.map_eq_some_iff.mp hlatest.symm
          rw [← heq] at hunseen
          refine .inr (.inl ⟨newest, hnewest, fun hhad => ?_⟩)
          exact absurd (htracked.had newest hhad) (Nat.not_le_of_lt hunseen)
        · exact .inr (.inr (.inr hcommits))
  · rintro hcondition ⟨m, hm, hunread⟩
    obtain ⟨newest, hnewest⟩ : ∃ newest, log.messages.getLast? = some newest :=
      Option.isSome_iff_exists.mp (List.getLast?_isSome.mpr (List.ne_nil_of_mem hm))
    rw [hnewest, Option.map_some] at hlatest
    obtain ⟨metadata, hmetadata, heq⟩ := Option.map_eq_some_iff.mp hlatest
    refine ⟨metadata, hmetadata, fun cursor hsome => ?_⟩
    have hrows : rowsOf states groupId messageEntities ≠ [] := by
      intro hnil
      rw [if_neg (not_not_intro hnil)] at hsome
      cases hsome
    rw [if_pos hrows] at hsome
    cases hsome
    rw [hasNewMessages_iff, heq]
    rcases hcondition with hall | ⟨newest', hnewest', hnot⟩ | hnil | hcommits
    · exact absurd (htracked.had m (hall m hm)) (Nat.not_le_of_lt hunread)
    · rw [hnewest] at hnewest'
      cases hnewest'
      left
      by_contra hgt
      exact hnot (htracked.closed newest (List.mem_of_getLast? hnewest) (Nat.le_of_not_lt hgt))
    · exact absurd hnil hrows
    · exact .inr hcommits

end Filter

section Lagging

def twoCommits : GroupLog where
  messages := [⟨⟨1, 0⟩, true⟩, ⟨⟨2, 0⟩, true⟩, ⟨⟨5, 10⟩, false⟩]
  ascending := by decide

def newestOfThree : HashMap Bytes GroupMessageMetadata := .ofList [([7], ⟨⟨5, 10⟩, [7]⟩)]

theorem response_of_visible {log : GroupLog} {groupId : Bytes} {response : List ServerMessage}
    (visible : Nat → Nat) (hpositive : ∀ m ∈ log.messages, 0 < m.cursor.sequenceId)
    (h : ∀ o, ofOriginator o response = (ofOriginator o log.messages).take (visible o)) :
    Response log (groupCursor .empty groupId) response := by
  intro o
  have hzero : (groupCursor .empty groupId).get o = 0 :=
    Nat.le_zero.mp (get_groupCursor_le_iff.mpr fun _ hs => absurd hs List.not_mem_nil)
  refine ⟨visible o, ?_⟩
  rw [h, hzero, List.filter_eq_self.mpr]
  intro m hm
  exact decide_eq_true (hpositive m (mem_ofOriginator.mp (List.mem_of_mem_take hm)).1)

theorem keeps_first :
    [7] ∈ (filterGroupsWithNewMessages (getLastCursorForIds
      (processMessages [7] .empty [⟨⟨1, 0⟩, true⟩]) [[7]] messageEntities) newestOfThree).entries := by
  have hresponse : Response twoCommits (groupCursor .empty [7]) [⟨⟨1, 0⟩, true⟩] := by
    apply response_of_visible fun o => if o = 0 then 1 else 0
    · decide
    · intro o
      by_cases hcommits : o = 0
      · subst hcommits
        rfl
      · simp [ofOriginator, hcommits, Ne.symm hcommits]
  have hsynced : Synced twoCommits [7] .empty (processMessages [7] .empty [⟨⟨1, 0⟩, true⟩])
      [⟨⟨1, 0⟩, true⟩] := .pass .start hresponse 1
  refine (keeps_unread_iff hsynced List.mem_cons_self (by decide +kernel)).mpr
    (.inr (.inl ⟨⟨⟨5, 10⟩, false⟩, rfl, ?_⟩))
    ⟨⟨⟨2, 0⟩, true⟩, by decide, by decide +kernel⟩
  rintro (hle | hseen)
  · revert hle
    decide +kernel
  · revert hseen
    decide

/-- A pass to which all but the second commit is visible: it stays unread, and the group is
skipped. -/
theorem skips_unread :
    Synced twoCommits [7] .empty
      (processMessages [7] .empty [⟨⟨1, 0⟩, true⟩, ⟨⟨5, 10⟩, false⟩])
      [⟨⟨1, 0⟩, true⟩, ⟨⟨5, 10⟩, false⟩] ∧
    (groupCursor (processMessages [7] .empty [⟨⟨1, 0⟩, true⟩, ⟨⟨5, 10⟩, false⟩]) [7]).get 0 < 2 ∧
    (⟨⟨2, 0⟩, true⟩ : ServerMessage) ∈ twoCommits.messages ∧
    [7] ∉ (filterGroupsWithNewMessages (getLastCursorForIds
      (processMessages [7] .empty [⟨⟨1, 0⟩, true⟩, ⟨⟨5, 10⟩, false⟩]) [[7]] messageEntities)
      newestOfThree).entries := by
  have hresponse : Response twoCommits (groupCursor .empty [7])
      [⟨⟨1, 0⟩, true⟩, ⟨⟨5, 10⟩, false⟩] := by
    apply response_of_visible fun _ => 1
    · decide
    · intro o
      by_cases hcommits : o = 0
      · subst hcommits
        rfl
      · by_cases hmessages : o = 10
        · subst hmessages
          rfl
        · simp [ofOriginator, twoCommits, Ne.symm hcommits, Ne.symm hmessages]
  exact ⟨.pass .start hresponse 2, by decide +kernel, by decide, by decide +kernel⟩

end Lagging

end LibXmtp.Groups
