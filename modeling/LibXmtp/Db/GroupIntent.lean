import LibXmtp.Data.Result
import LibXmtp.Data.Table
import LibXmtp.Types.GlobalCursor

/-! The table of the intents of a group: what the client wants to change in it, and how far each
change has come. -/

namespace LibXmtp.Db

open LibXmtp.Data LibXmtp.Types

inductive IntentKind
  | sendMessage
  | keyUpdate
  | metadataUpdate
  | updateGroupMembership
  | updateAdminList
  | updatePermission
  | readdInstallations
  | proposeMemberUpdate
  | proposeGroupContextExtensions
  | commitPendingProposals
  | bootstrapMigration
  | appDataUpdate
  deriving DecidableEq

inductive IntentState
  | toPublish
  | published
  | committed
  | error
  | processed
  | superseded
  deriving DecidableEq

structure StoredGroupIntent where
  id : Nat
  kind : IntentKind
  data : Bytes
  state : IntentState := .toPublish
  payloadHash : Option Bytes := none
  postCommitData : Option Bytes := none
  publishAttempts : Nat := 0
  stagedCommit : Option Bytes := none
  publishedInEpoch : Option Nat := none
  sequenceId : Option Nat := none
  originatorId : Option Nat := none

def StoredGroupIntent.setPublished (payloadHash : Bytes) (postCommitData stagedCommit : Option Bytes)
    (publishedInEpoch : Nat) (r : StoredGroupIntent) : StoredGroupIntent :=
  { r with
    state := .published, payloadHash := some payloadHash, postCommitData, stagedCommit
    publishedInEpoch := some publishedInEpoch }

abbrev IntentTable := Table StoredGroupIntent.id

namespace IntentTable

inductive NotFound
  | intentForToPublish (id : Nat)
  | intentForPublish (id : Nat)
  | intentForCommitted (id : Nat)
  | intentById (id : Nat)
  deriving DecidableEq

inductive StorageError
  | notFound (what : NotFound)
  | database (retryable : Bool)
  deriving DecidableEq

def StorageError.isRetryable : StorageError → Bool
  | .notFound _ => false
  | .database retryable => retryable

variable (intents : IntentTable)

def insertGroupIntent (kind : IntentKind) (data : Bytes) : IntentTable :=
  intents.insertOrIgnore { id := intents.rows.foldl (fun n r => max n (r.id + 1)) 0, kind, data }

def findGroupIntents (state : IntentState) : List StoredGroupIntent :=
  intents.select (fun r => (r.id : Int)) fun r => r.state = state

def findGroupIntentByPayloadHash (payloadHash : Bytes) : Option StoredGroupIntent :=
  intents.rows.find? fun r => r.payloadHash = some payloadHash

def updateIntent (id : Nat) (filter : StoredGroupIntent → Bool)
    (set : StoredGroupIntent → StoredGroupIntent) (hset : ∀ r, (set r).id = r.id)
    (notFound : NotFound) : Except StorageError IntentTable :=
  if intents.rows.any fun r => r.id = id && filter r then
    .ok (intents.updateWhere (fun r => r.id = id && filter r) hset)
  else .error (.notFound notFound)

/-- The hash of a payload is unique in the table. A row that is no longer to be published is left
as it is. -/
def setGroupIntentPublished (id : Nat) (payloadHash : Bytes)
    (postCommitData stagedCommit : Option Bytes) (publishedInEpoch : Nat) : Except StorageError IntentTable :=
  if intents.rows.any fun r => r.id = id && r.state = .toPublish then
    if intents.rows.any fun r => r.id ≠ id && r.payloadHash = some payloadHash then
      .error (.database false)
    else
      .ok (intents.updateWhere (fun r => r.id = id && r.state = .toPublish)
        (f := .setPublished payloadHash postCommitData stagedCommit publishedInEpoch) fun _ => rfl)
  else if (intents.fetch id).isSome then .ok intents
  else .error (.notFound (.intentForToPublish id))

def setGroupIntentCommitted (id : Nat) (cursor : Cursor) : Except StorageError IntentTable :=
  intents.updateIntent id (fun r => r.state = .published)
    (fun r => { r with
      state := .committed, sequenceId := some cursor.sequenceId
      originatorId := some cursor.originatorId })
    (fun _ => rfl) (.intentForCommitted id)

def setGroupIntentSuperseded (id : Nat) : Except StorageError IntentTable :=
  intents.updateIntent id (fun r => r.state = .toPublish) (fun r => { r with state := .superseded })
    (fun _ => rfl) (.intentForToPublish id)

def setGroupIntentProcessed (id : Nat) : Except StorageError IntentTable :=
  intents.updateIntent id (fun _ => true) (fun r => { r with state := .processed }) (fun _ => rfl)
    (.intentById id)

def setGroupIntentToPublish (id : Nat) : Except StorageError IntentTable :=
  intents.updateIntent id (fun r => r.state = .published)
    (fun r => { r with
      state := .toPublish, payloadHash := none, postCommitData := none, publishedInEpoch := none
      stagedCommit := none })
    (fun _ => rfl) (.intentForPublish id)

def setGroupIntentError (id : Nat) : Except StorageError IntentTable :=
  intents.updateIntent id (fun _ => true) (fun r => { r with state := .error }) (fun _ => rfl)
    (.intentById id)

def incrementIntentPublishAttemptCount (id : Nat) : IntentTable :=
  intents.updateWhere (fun r => r.id = id)
    (f := fun r => { r with publishAttempts := r.publishAttempts + 1 }) fun _ => rfl

variable {intents} {intents' : IntentTable} {id : Nat} {payloadHash : Bytes}

structure Sets (intents : IntentTable) (id : Nat) (r r' : StoredGroupIntent)
    (intents' : IntentTable) : Prop where
  before : intents.fetch id = some r
  after : intents'.fetch id = some r'
  others : ∀ k, k ≠ id → intents'.fetch k = intents.fetch k

theorem sets_updateWhere (filter : StoredGroupIntent → Bool)
    (set : StoredGroupIntent → StoredGroupIntent) (hset : ∀ r, (set r).id = r.id)
    {r : StoredGroupIntent} (hr : intents.fetch id = some r) (hfilter : filter r = true) :
    Sets intents id r (set r) (intents.updateWhere (fun r => r.id = id && filter r) hset) where
  before := hr
  after := by
    have hid := (Table.fetch_eq_some_iff.mp hr).2
    rw [Table.fetch_updateWhere, hr, Option.map_some]
    simp [hid, hfilter]
  others k hk := by
    rw [Table.fetch_updateWhere]
    cases hfetch : intents.fetch k with
    | none => rfl
    | some r' =>
      have hid := (Table.fetch_eq_some_iff.mp hfetch).2
      have hne : r'.id ≠ id := by rwa [hid]
      simp [hne]

theorem Sets.after_eq {mid : IntentTable} {r s s' : StoredGroupIntent} (h : Sets intents id r s mid)
    (h' : mid.fetch id = some s') : s' = s :=
  Option.some.inj (h'.symm.trans h.after)

theorem Sets.trans {mid : IntentTable} {r s s' t : StoredGroupIntent} (h : Sets intents id r s mid)
    (h' : Sets mid id s' t intents') : Sets intents id r t intents' where
  before := h.before
  after := h'.after
  others k hk := (h'.others k hk).trans (h.others k hk)

theorem exists_fetch_of_any {filter : StoredGroupIntent → Bool}
    (h : (intents.rows.any fun r => r.id = id && filter r) = true) :
    ∃ r, intents.fetch id = some r ∧ filter r = true := by
  obtain ⟨r, hmem, hr⟩ := List.any_eq_true.mp h
  simp only [Bool.and_eq_true, decide_eq_true_eq] at hr
  exact ⟨r, Table.fetch_eq_some_iff.mpr ⟨hmem, hr.1⟩, hr.2⟩

theorem sets_of_updateIntent {filter : StoredGroupIntent → Bool}
    {set : StoredGroupIntent → StoredGroupIntent} {hset : ∀ r, (set r).id = r.id}
    {notFound : NotFound}
    (h : intents.updateIntent id filter set hset notFound = .ok intents') :
    ∃ r, filter r = true ∧ Sets intents id r (set r) intents' := by
  unfold updateIntent at h
  split at h
  · rename_i hany
    cases h
    obtain ⟨r, hr, hfilter⟩ := exists_fetch_of_any hany
    exact ⟨r, hfilter, sets_updateWhere filter set hset hr hfilter⟩
  · cases h

theorem sets_of_setGroupIntentPublished {postCommitData stagedCommit : Option Bytes} {epoch : Nat}
    (h : intents.setGroupIntentPublished id payloadHash postCommitData stagedCommit epoch =
      .ok intents') :
    intents' = intents ∧ (∀ r, intents.fetch id = some r → r.state ≠ .toPublish) ∨
      ∃ r, r.state = .toPublish ∧ Sets intents id r
        (.setPublished payloadHash postCommitData stagedCommit epoch r) intents' := by
  unfold setGroupIntentPublished at h
  split at h
  · rename_i hany
    split at h
    · cases h
    · cases h
      obtain ⟨r, hr, hstate⟩ := exists_fetch_of_any hany
      exact .inr ⟨r, of_decide_eq_true hstate,
        sets_updateWhere (fun r => r.state = .toPublish)
          (.setPublished payloadHash postCommitData stagedCommit epoch) _ hr hstate⟩
  · rename_i hany
    split at h
    · cases h
      refine .inl ⟨rfl, fun r hr hstate => hany (List.any_eq_true.mpr ⟨r, ?_⟩)⟩
      obtain ⟨hmem, hid⟩ := Table.fetch_eq_some_iff.mp hr
      exact ⟨hmem, by simp [hid, hstate]⟩
    · cases h

theorem fetch_incrementIntentPublishAttemptCount (k : Nat) :
    (intents.incrementIntentPublishAttemptCount id).fetch k = (intents.fetch k).map fun r =>
      if r.id = id then { r with publishAttempts := r.publishAttempts + 1 } else r := by
  simp [incrementIntentPublishAttemptCount, Table.fetch_updateWhere]

theorem sets_incrementIntentPublishAttemptCount {r : StoredGroupIntent}
    (hr : intents.fetch id = some r) : Sets intents id r
      { r with publishAttempts := r.publishAttempts + 1 }
      (intents.incrementIntentPublishAttemptCount id) where
  before := hr
  after := by
    have hid := (Table.fetch_eq_some_iff.mp hr).2
    rw [fetch_incrementIntentPublishAttemptCount, hr, Option.map_some, if_pos hid]
  others k hk := by
    rw [fetch_incrementIntentPublishAttemptCount]
    cases hfetch : intents.fetch k with
    | none => rfl
    | some s =>
      have hid := (Table.fetch_eq_some_iff.mp hfetch).2
      have hne : s.id ≠ id := by rwa [hid]
      rw [Option.map_some, if_neg hne]

theorem fetch_of_findGroupIntentByPayloadHash {r : StoredGroupIntent}
    (h : intents.findGroupIntentByPayloadHash payloadHash = some r) :
    intents.fetch r.id = some r ∧ r.payloadHash = some payloadHash := by
  refine ⟨Table.fetch_eq_some_iff.mpr ⟨List.mem_of_find?_eq_some h, rfl⟩, ?_⟩
  simpa using List.find?_some h

theorem fetch_of_mem_findGroupIntents {state : IntentState} {r : StoredGroupIntent}
    (h : r ∈ intents.findGroupIntents state) : intents.fetch r.id = some r ∧ r.state = state := by
  have ⟨hmem, hstate⟩ := Table.mem_select.mp h
  exact ⟨Table.fetch_eq_some_iff.mpr ⟨hmem, rfl⟩, of_decide_eq_true hstate⟩

theorem nodup_findGroupIntents (intents : IntentTable) (state : IntentState) :
    ((intents.findGroupIntents state).map StoredGroupIntent.id).Nodup := by
  have hlt : (intents.findGroupIntents state).Pairwise fun r s => (r.id : Int) < s.id :=
    Table.pairwise_select fun r _ s _ _ _ h => by exact_mod_cast h
  refine List.pairwise_map.mpr (hlt.imp fun {r s} h heq => ?_)
  rw [heq] at h
  exact lt_irrefl _ h

theorem fetch_insertGroupIntent (intents : IntentTable) (kind : IntentKind) (data : Bytes) :
    ∃ id, intents.fetch id = none ∧
      (intents.insertGroupIntent kind data).fetch id = some { id, kind, data } ∧
      ∀ k, k ≠ id → (intents.insertGroupIntent kind data).fetch k = intents.fetch k := by
  have hle : ∀ (rows : List StoredGroupIntent) n, n ≤ rows.foldl (fun n r => max n (r.id + 1)) n ∧
      ∀ r ∈ rows, r.id < rows.foldl (fun n r => max n (r.id + 1)) n := by
    intro rows
    induction rows with
    | nil => simp
    | cons r rows ih =>
      intro n
      have ⟨hmax, hrows⟩ := ih (max n (r.id + 1))
      simp only [List.foldl_cons, List.forall_mem_cons]
      exact ⟨by omega, by omega, hrows⟩
  generalize hn : intents.rows.foldl (fun n r => max n (r.id + 1)) 0 = n
  have hfresh : ∀ r ∈ intents.rows, r.id < n := hn ▸ (hle intents.rows 0).2
  have hnot : n ∉ intents.rows.map StoredGroupIntent.id := by
    intro h
    obtain ⟨r, hr, hid⟩ := List.mem_map.mp h
    exact absurd (hfresh r hr) (by omega)
  have hmem : ∀ r, r ∈ (intents.insertGroupIntent kind data).rows ↔
      r ∈ intents.rows ∨ r = { id := n, kind, data } := by
    intro r
    rw [insertGroupIntent, Table.mem_insertOrIgnore, hn]
    simp [hnot]
  refine ⟨n, ?_, Table.fetch_eq_some_iff.mpr ⟨(hmem _).mpr (.inr rfl), rfl⟩, fun k hk => ?_⟩
  · refine Option.eq_none_iff_forall_ne_some.mpr fun r hr => ?_
    have ⟨hr, hid⟩ := Table.fetch_eq_some_iff.mp hr
    exact absurd (hfresh r hr) (by omega)
  · apply Option.ext
    intro r
    rw [Table.fetch_eq_some_iff, Table.fetch_eq_some_iff, hmem]
    constructor
    · rintro ⟨hr | rfl, hid⟩
      · exact ⟨hr, hid⟩
      · exact absurd hid.symm hk
    · rintro ⟨hr, hid⟩
      exact ⟨.inl hr, hid⟩

theorem fetch_insertGroupIntent_of_some (kind : IntentKind) (data : Bytes) {r : StoredGroupIntent}
    (h : intents.fetch id = some r) : (intents.insertGroupIntent kind data).fetch id = some r := by
  obtain ⟨new, hnone, -, hothers⟩ := fetch_insertGroupIntent intents kind data
  rw [hothers id, h]
  rintro rfl
  cases hnone.symm.trans h

end IntentTable

end LibXmtp.Db
