import LibXmtp.Data.Hex
import LibXmtp.Data.Result
import LibXmtp.Db.ConsentRecord
import LibXmtp.Db.RefreshState
import LibXmtp.Types.GlobalCursor
import Mathlib.Data.Int.Order.Basic
import Mathlib.Data.List.Lex
import Mathlib.Data.Prod.Lex

namespace LibXmtp.Db

open LibXmtp.Data

inductive GroupMembershipState
  | allowed
  | rejected
  | pending
  | restored
  | pendingRemove
  deriving DecidableEq

inductive ConversationType
  | group
  | dm
  | sync
  | oneshot
  deriving DecidableEq

namespace ConversationType

def virtualTypes : List ConversationType := [.sync, .oneshot]

def isVirtual : ConversationType → Bool
  | .group => false
  | .dm => false
  | .sync => true
  | .oneshot => true

end ConversationType

structure StoredGroup where
  id : Bytes
  createdAtNs : Int
  membershipState : GroupMembershipState
  sequenceId : Option Int := none
  originatorId : Option Int := none
  conversationType : ConversationType
  dmId : Option String := none
  lastMessageNs : Option Int := none
  shouldPublishCommitLog : Bool := false
  deriving DecidableEq

abbrev GroupTable := Table StoredGroup.id

namespace StoredGroup

def cursor (g : StoredGroup) : Option Types.Cursor :=
  match g.sequenceId, g.originatorId with
  | some sequenceId, some originatorId => some ⟨sequenceId.toNat, originatorId.toNat⟩
  | _, _ => none

/-- `SET` of a whole group: a column without a value is left as it is. -/
def setAll (new old : StoredGroup) : StoredGroup where
  id := old.id
  createdAtNs := new.createdAtNs
  membershipState := new.membershipState
  sequenceId := new.sequenceId.or old.sequenceId
  originatorId := new.originatorId.or old.originatorId
  conversationType := new.conversationType
  dmId := new.dmId.or old.dmId
  lastMessageNs := new.lastMessageNs.or old.lastMessageNs
  shouldPublishCommitLog := new.shouldPublishCommitLog

def setWelcome (new old : StoredGroup) : StoredGroup :=
  { old with sequenceId := new.sequenceId, originatorId := new.originatorId }

@[simp] theorem id_setAll (new old : StoredGroup) : (new.setAll old).id = old.id := rfl

@[simp] theorem id_setWelcome (new old : StoredGroup) : (new.setWelcome old).id = old.id := rfl

end StoredGroup

inductive DuplicateItem
  | welcomeId (cursor : Option Types.Cursor)
  deriving DecidableEq

namespace GroupTable

variable (groups : GroupTable)

def findGroupBySequenceId (cursor : Types.Cursor) : Option StoredGroup :=
  (groups.select StoredGroup.createdAtNs fun g =>
    g.sequenceId = some (asBigInt cursor.sequenceId) &&
      g.originatorId = some (cursor.originatorId : Int)).head?

def updateGroupMembership (groupId : Bytes) (state : GroupMembershipState) : GroupTable :=
  groups.updateWhere (fun g => g.id = groupId)
    (f := fun g => { g with membershipState := state }) fun _ => rfl

def overwriteRestored (group existing : StoredGroup) : GroupTable :=
  if existing.membershipState = .restored then
    groups.updateWhere (fun g => g.id = group.id) group.id_setAll
  else groups

/-- A restored group is overwritten; of every other one that is there only the welcome is replaced,
by a later one. What was written before the error stays written. -/
def insertOrReplaceGroup (group : StoredGroup) : Except DuplicateItem StoredGroup × GroupTable :=
  match groups.fetch group.id with
  | none => (.ok group, groups.insertOrIgnore group)
  | some existing =>
    let overwritten := overwriteRestored groups group existing
    if existing.sequenceId = group.sequenceId then (.error (.welcomeId existing.cursor), overwritten)
    else if group.sequenceId.any fun new => existing.sequenceId.all (· < new) then
      (.ok (group.setWelcome existing),
        overwritten.updateWhere (fun g => g.id = group.id) group.id_setWelcome)
    else (.ok existing, overwritten)

end GroupTable

inductive GroupQueryOrderBy
  | createdAt
  | lastActivity

structure GroupQueryArgs where
  allowedStates : Option (List GroupMembershipState) := none
  createdAfterNs : Option Int := none
  createdBeforeNs : Option Int := none
  lastActivityAfterNs : Option Int := none
  lastActivityBeforeNs : Option Int := none
  limit : Option Int := none
  conversationType : Option ConversationType := none
  consentStates : Option (List ConsentState) := none
  includeSyncGroups : Bool := false
  includeDuplicateDms : Bool := false
  shouldPublishCommitLog : Option Bool := none
  orderBy : Option GroupQueryOrderBy := none

inductive QueryError
  | invalidQuery (reason : String)
  deriving DecidableEq

def GroupQueryArgs.validate (args : GroupQueryArgs) : Except QueryError Unit := do
  rejectIf (args.lastActivityAfterNs.isSome && args.createdAfterNs.isSome) (.invalidQuery
    "last_activity_after_ns and created_after_ns cannot be used together")
  rejectIf (args.lastActivityBeforeNs.isSome && args.createdBeforeNs.isSome) (.invalidQuery
    "last_activity_before_ns and created_before_ns cannot be used together")

def StoredGroup.activity (g : StoredGroup) : Int := g.lastMessageNs.getD g.createdAtNs

def StoredGroup.dedupKey (g : StoredGroup) : String ⊕ Bytes :=
  match g.dmId with
  | some dmId => .inl dmId
  | none => .inr g.id

/-- `(COALESCE(last_message_ns, 0), id)`, compared column by column, the blobs byte by byte. -/
def StoredGroup.rank (g : StoredGroup) : Int ×ₗ List Nat :=
  toLex (g.lastMessageNs.getD 0, g.id.map UInt8.toNat)

section Query

variable (groups : GroupTable) (consents : ConsentTable) (args : GroupQueryArgs)

/-- `EXISTS` a later group for the same direct messages. -/
def hasLaterDuplicate (g : StoredGroup) : Bool :=
  groups.rows.any fun g2 => g2.dedupKey = g.dedupKey && g.rank < g2.rank

def passesFilters (g : StoredGroup) : Bool :=
  g.conversationType ∉ ConversationType.virtualTypes &&
    args.allowedStates.all (g.membershipState ∈ ·) &&
    args.lastActivityAfterNs.all (· < g.activity) &&
    args.createdAfterNs.all (· < g.createdAtNs) &&
    args.lastActivityBeforeNs.all (g.activity < ·) &&
    args.createdBeforeNs.all (g.createdAtNs < ·) &&
    args.conversationType.all (g.conversationType = ·) &&
    args.shouldPublishCommitLog.all (g.shouldPublishCommitLog = ·)

def GroupQueryArgs.effectiveConsentStates : List ConsentState :=
  match args.consentStates with
  | some states => if states.isEmpty then [.allowed, .unknown] else states
  | none => [.allowed, .unknown]

/-- The records whose entity is `lower(hex(groups.id))`. -/
def consentRows (g : StoredGroup) : List StoredConsentRecord :=
  consents.rows.filter fun r => Hex.lower.encode g.id = r.entity

def leftJoinedRows (g : StoredGroup) : List (Option StoredConsentRecord) :=
  match consentRows consents g with
  | [] => [none]
  | rows => rows.map some

def consentMatches (g : StoredGroup) : Nat :=
  let effectiveConsentStates := args.effectiveConsentStates
  let includesUnknown := effectiveConsentStates.contains .unknown
  let includesAll := effectiveConsentStates.length = 3
  let filteredStates := effectiveConsentStates.filter (· ≠ .unknown)
  if includesAll then 1
  else if includesUnknown then
    (leftJoinedRows consents g).countP fun row =>
      row.all fun r => r.state = .unknown || r.state ∈ filteredStates
  else (consentRows consents g).countP fun r => r.state ∈ filteredStates

def orderKey (g : StoredGroup) : Int :=
  match args.orderBy.getD .createdAt with
  | .createdAt => g.createdAtNs
  | .lastActivity => -g.activity

def applyLimit {α : Type} (limit : Option Int) (rows : List α) : List α :=
  match limit with
  | some (.ofNat n) => rows.take n
  | _ => rows

def findConversations : List StoredGroup :=
  let selected := groups.rows.filter fun g =>
    (args.includeDuplicateDms || !hasLaterDuplicate groups g) && passesFilters args g
  let joined := selected.flatMap fun g => List.replicate (consentMatches consents args g) g
  applyLimit args.limit (joined.insertionSort fun a b => orderKey args a ≤ orderKey args b)

def findGroups : Except QueryError (List StoredGroup) := do
  args.validate
  let syncGroups :=
    if args.conversationType = some .sync || args.includeSyncGroups then
      groups.rows.filter fun g => g.conversationType = .sync
    else []
  return findConversations groups consents args ++ syncGroups

def consentState (g : StoredGroup) : ConsentState :=
  ((consents.getConsentRecord (Hex.lower.encode g.id) .conversationId).map (·.state)).getD .unknown

def Satisfies (g : StoredGroup) : Prop :=
  g ∈ groups.rows ∧ passesFilters args g = true ∧
    consentState consents g ∈ args.effectiveConsentStates

/-- The groups that are asked for, each once, with one of them for each of the direct messages. -/
structure ListedOnce (listed : List StoredGroup) : Prop where
  satisfies : ∀ g ∈ listed, Satisfies groups consents args g
  latest : ∀ g ∈ listed, ∀ other, Satisfies groups consents args other → other.dmId.isSome →
    other.dmId = g.dmId → other.rank ≤ g.rank
  dms : ∀ g, Satisfies groups consents args g → ∀ dmId, g.dmId = some dmId →
    ∃ kept, listed.filter (fun other => other.dmId = some dmId) = [kept]
  others : ∀ g, Satisfies groups consents args g → g.dmId = none → listed.count g = 1

def Unmixed (states : List ConsentState) (conversation : Option StoredConsentRecord)
    (r : StoredConsentRecord) : Prop :=
  match conversation with
  | some _ => r.state ∉ states
  | none => r.state ∈ states ↔ .unknown ∈ states

/-- The records of inboxes do not change what the join makes of a group, and three states that are
asked for are taken for all of them only where the state of the group is one of them. -/
def PlainConsent (g : StoredGroup) : Prop :=
  if args.effectiveConsentStates.length = 3 then
    consentState consents g ∈ args.effectiveConsentStates
  else ∀ r ∈ consents.rows, r.entityType = .inboxId → r.entity = Hex.lower.encode g.id →
    Unmixed args.effectiveConsentStates
      (consents.getConsentRecord (Hex.lower.encode g.id) .conversationId) r

/-- The latest group for some direct messages, among all there are, is asked for if any is. -/
structure ListsExactly : Prop where
  consent : ∀ g ∈ groups.rows, passesFilters args g = true → hasLaterDuplicate groups g = false →
    PlainConsent consents args g
  latest : ∀ g, Satisfies groups consents args g → g.dmId.isSome →
    ∃ kept, Satisfies groups consents args kept ∧ kept.dmId = g.dmId ∧
      hasLaterDuplicate groups kept = false

end Query

section Join

variable {consents : ConsentTable} {args : GroupQueryArgs} {g : StoredGroup}

theorem countP_consentRows (consents : ConsentTable) (g : StoredGroup)
    (p : StoredConsentRecord → Bool) : (consentRows consents g).countP p =
      (consents.getConsentRecord (Hex.lower.encode g.id) .conversationId).toList.countP p +
        (consents.getConsentRecord (Hex.lower.encode g.id) .inboxId).toList.countP p := by
  have hrows (ty : ConsentType) :
      (consentRows consents g).filter (fun r => r.entityType = ty) =
        (consents.getConsentRecord (Hex.lower.encode g.id) ty).toList := by
    rw [ConsentTable.getConsentRecord, ← Table.filter_key, consentRows, List.filter_filter]
    refine List.filter_congr fun r _ => ?_
    simp [StoredConsentRecord.key, eq_comm]
  have hother : (consentRows consents g).filter (fun r => !decide (r.entityType = .conversationId)) =
      (consentRows consents g).filter (fun r => r.entityType = .inboxId) := by
    refine List.filter_congr fun r _ => ?_
    cases r.entityType <;> rfl
  rw [List.countP_eq_countP_filter_add _ p fun r => r.entityType = .conversationId, hother, hrows,
    hrows]

theorem mem_of_getConsentRecord {entity : String} {ty : ConsentType} {r : StoredConsentRecord}
    (h : consents.getConsentRecord entity ty = some r) :
    r ∈ consents.rows ∧ r.entityType = ty ∧ r.entity = entity := by
  obtain ⟨hmem, hkey⟩ := Table.fetch_eq_some_iff.mp h
  exact ⟨hmem, congrArg Prod.fst hkey, congrArg Prod.snd hkey⟩

theorem getConsentRecord_inboxId_iff {entity : String} {r : StoredConsentRecord} :
    consents.getConsentRecord entity .inboxId = some r ↔
      r ∈ consents.rows ∧ r.entityType = .inboxId ∧ r.entity = entity := by
  constructor
  · exact mem_of_getConsentRecord
  · rintro ⟨hmem, hty, rfl⟩
    exact Table.fetch_eq_some_iff.mpr ⟨hmem, by rw [StoredConsentRecord.key, hty]⟩

theorem consentMatches_eq (h : args.effectiveConsentStates.length ≠ 3) :
    consentMatches consents args g =
      if consentRows consents g = [] then
        if .unknown ∈ args.effectiveConsentStates then 1 else 0
      else (consentRows consents g).countP fun r => r.state ∈ args.effectiveConsentStates := by
  simp only [consentMatches, h, if_false, List.contains_iff_mem]
  by_cases hunknown : ConsentState.unknown ∈ args.effectiveConsentStates
  · rw [if_pos hunknown, if_pos hunknown, leftJoinedRows]
    cases hrows : consentRows consents g with
    | nil => rfl
    | cons r rows =>
      rw [if_neg (List.cons_ne_nil _ _), List.countP_map]
      refine List.countP_congr fun r _ => ?_
      by_cases hstate : r.state = .unknown
      · simp [hstate, hunknown]
      · simp [hstate]
  · rw [if_neg hunknown, if_neg hunknown]
    have hcount : ((consentRows consents g).countP fun r =>
        r.state ∈ args.effectiveConsentStates.filter (· ≠ .unknown)) =
          (consentRows consents g).countP fun r => r.state ∈ args.effectiveConsentStates := by
      refine List.countP_congr fun r _ => ?_
      by_cases hstate : r.state = .unknown
      · simp [hstate, hunknown]
      · simp [hstate]
    rw [hcount]
    split
    · rename_i hrows
      rw [hrows, List.countP_nil]
    · rfl

theorem consentRows_eq_nil_iff : consentRows consents g = [] ↔
    consents.getConsentRecord (Hex.lower.encode g.id) .conversationId = none ∧
      consents.getConsentRecord (Hex.lower.encode g.id) .inboxId = none := by
  have hlength := countP_consentRows consents g fun _ => true
  simp only [List.countP_true] at hlength
  rw [← List.length_eq_zero_iff, hlength]
  cases consents.getConsentRecord (Hex.lower.encode g.id) .conversationId <;>
    cases consents.getConsentRecord (Hex.lower.encode g.id) .inboxId <;> simp

theorem plainConsent_iff : PlainConsent consents args g ↔ consentMatches consents args g =
    if consentState consents g ∈ args.effectiveConsentStates then 1 else 0 := by
  by_cases hall : args.effectiveConsentStates.length = 3
  · rw [PlainConsent, if_pos hall, consentMatches, if_pos hall]
    split <;> simp_all
  · have hinbox : PlainConsent consents args g ↔
        ∀ r, consents.getConsentRecord (Hex.lower.encode g.id) .inboxId = some r →
          Unmixed args.effectiveConsentStates
            (consents.getConsentRecord (Hex.lower.encode g.id) .conversationId) r := by
      rw [PlainConsent, if_neg hall]
      simp only [getConsentRecord_inboxId_iff, and_imp]
    rw [hinbox, consentMatches_eq hall, consentState, countP_consentRows]
    simp only [consentRows_eq_nil_iff]
    cases consents.getConsentRecord (Hex.lower.encode g.id) .conversationId with
    | none =>
      cases consents.getConsentRecord (Hex.lower.encode g.id) .inboxId with
      | none => simp
      | some r =>
        by_cases hr : r.state ∈ args.effectiveConsentStates
        · by_cases hunknown : ConsentState.unknown ∈ args.effectiveConsentStates <;>
            simp [Unmixed, hr, hunknown]
        · by_cases hunknown : ConsentState.unknown ∈ args.effectiveConsentStates <;>
            simp [Unmixed, hr, hunknown]
    | some record =>
      cases consents.getConsentRecord (Hex.lower.encode g.id) .inboxId with
      | none =>
        by_cases hrecord : record.state ∈ args.effectiveConsentStates <;> simp [hrecord]
      | some r =>
        by_cases hrecord : record.state ∈ args.effectiveConsentStates
        · by_cases hr : r.state ∈ args.effectiveConsentStates <;> simp [Unmixed, hrecord, hr]
        · by_cases hr : r.state ∈ args.effectiveConsentStates <;> simp [Unmixed, hrecord, hr]

end Join

theorem count_flatMap_replicate {α : Type} [DecidableEq α] (f : α → Nat) {as : List α}
    (h : as.Nodup) (a : α) :
    (as.flatMap fun b => List.replicate (f b) b).count a = if a ∈ as then f a else 0 := by
  induction as with
  | nil => rfl
  | cons b as ih =>
    obtain ⟨hb, has⟩ := List.nodup_cons.mp h
    rw [List.flatMap_cons, List.count_append, ih has, List.count_replicate]
    by_cases hab : b = a
    · subst hab
      simp [hb]
    · simp [hab, Ne.symm hab]

theorem eq_singleton_of_count {α : Type} [DecidableEq α] {as : List α} {a : α}
    (hcount : as.count a = 1) (hall : ∀ b ∈ as, b = a) : as = [a] := by
  have hlength : as.length = 1 := by
    rw [← List.count_eq_length.mpr fun b hb => (hall b hb).symm, hcount]
  exact List.eq_replicate_iff.mpr ⟨hlength, hall⟩

section Listing

variable {groups : GroupTable} {consents : ConsentTable} {args : GroupQueryArgs}
  {g g' : StoredGroup}

theorem eq_of_rank_eq (hg : g ∈ groups.rows) (hg' : g' ∈ groups.rows) (h : g.rank = g'.rank) :
    g = g' := by
  have hid : g.id.map UInt8.toNat = g'.id.map UInt8.toNat := congrArg (fun r => (ofLex r).2) h
  have hinjective : Function.Injective UInt8.toNat := fun _ _ => UInt8.toNat_inj.mp
  exact groups.eq_of_key_eq hg hg' (List.map_injective_iff.mpr hinjective hid)

theorem hasLaterDuplicate_eq_false_iff : hasLaterDuplicate groups g = false ↔
    ∀ g2 ∈ groups.rows, g2.dedupKey = g.dedupKey → g2.rank ≤ g.rank := by
  simp [hasLaterDuplicate]

theorem dedupKey_eq {dmId : String} (h : g.dmId = some dmId) : g.dedupKey = .inl dmId := by
  rw [StoredGroup.dedupKey, h]

theorem eq_of_dmId_eq {dmId : String} (hg : g ∈ groups.rows) (hg' : g' ∈ groups.rows)
    (hlater : hasLaterDuplicate groups g = false) (hlater' : hasLaterDuplicate groups g' = false)
    (hdm : g.dmId = some dmId) (hdm' : g'.dmId = some dmId) : g = g' := by
  have hkey : g.dedupKey = g'.dedupKey := by rw [dedupKey_eq hdm, dedupKey_eq hdm']
  have hle := hasLaterDuplicate_eq_false_iff.mp hlater g' hg' hkey.symm
  have hle' := hasLaterDuplicate_eq_false_iff.mp hlater' g hg hkey
  exact eq_of_rank_eq hg hg' (le_antisymm hle' hle)

theorem hasLaterDuplicate_of_group (hg : g ∈ groups.rows) (hdm : g.dmId = none) :
    hasLaterDuplicate groups g = false := by
  rw [hasLaterDuplicate_eq_false_iff]
  intro g2 hg2 hkey
  rw [StoredGroup.dedupKey, StoredGroup.dedupKey, hdm] at hkey
  cases hdm2 : g2.dmId with
  | some dmId =>
    rw [hdm2] at hkey
    cases hkey
  | none =>
    rw [hdm2] at hkey
    rw [groups.eq_of_key_eq hg2 hg (Sum.inr.inj hkey)]

theorem nodup_rows (groups : GroupTable) : groups.rows.Nodup := List.Nodup.of_map _ groups.distinct

theorem count_findConversations (hdups : args.includeDuplicateDms = false)
    (hlimit : args.limit = none) (g : StoredGroup) :
    (findConversations groups consents args).count g =
      if g ∈ groups.rows ∧ hasLaterDuplicate groups g = false ∧ passesFilters args g = true then
        consentMatches consents args g
      else 0 := by
  simp only [findConversations, applyLimit, hlimit, hdups, Bool.false_or]
  rw [(List.perm_insertionSort _ _).count_eq,
    count_flatMap_replicate _ ((nodup_rows groups).filter _)]
  simp

theorem mem_findConversations (hdups : args.includeDuplicateDms = false)
    (hlimit : args.limit = none) : g ∈ findConversations groups consents args ↔
      g ∈ groups.rows ∧ hasLaterDuplicate groups g = false ∧ passesFilters args g = true ∧
        consentMatches consents args g ≠ 0 := by
  rw [← List.count_pos_iff, count_findConversations hdups hlimit, Nat.pos_iff_ne_zero]
  split
  · rename_i h
    simp [h]
  · rename_i h
    simp only [ne_eq, not_true_eq_false, false_iff]
    exact fun ⟨hg, hlater, hpasses, _⟩ => h ⟨hg, hlater, hpasses⟩

theorem count_of_satisfies (hdups : args.includeDuplicateDms = false) (hlimit : args.limit = none)
    (hg : Satisfies groups consents args g) (hlater : hasLaterDuplicate groups g = false) :
    (findConversations groups consents args).count g = consentMatches consents args g := by
  rw [count_findConversations hdups hlimit, if_pos ⟨hg.1, hlater, hg.2.1⟩]

theorem listsExactly_of_listedOnce (hdups : args.includeDuplicateDms = false)
    (hlimit : args.limit = none)
    (h : ListedOnce groups consents args (findConversations groups consents args)) :
    ListsExactly groups consents args := by
  constructor
  · intro g hg hpasses hlater
    rw [plainConsent_iff]
    split
    · rename_i hconsent
      have hsatisfies : Satisfies groups consents args g := ⟨hg, hpasses, hconsent⟩
      rw [← count_of_satisfies hdups hlimit hsatisfies hlater]
      cases hdm : g.dmId with
      | none => exact h.others g hsatisfies hdm
      | some dmId =>
        obtain ⟨kept, hkept⟩ := h.dms g hsatisfies dmId hdm
        have hmem : kept ∈ (findConversations groups consents args).filter
            (fun other => other.dmId = some dmId) := by
          rw [hkept]
          exact List.mem_singleton_self kept
        obtain ⟨hlisted, hkeptDm⟩ := List.mem_filter.mp hmem
        obtain ⟨hkeptRow, hkeptLater, _⟩ := (mem_findConversations hdups hlimit).mp hlisted
        cases eq_of_dmId_eq hkeptRow hg hkeptLater hlater (of_decide_eq_true hkeptDm) hdm
        have hcount := congrArg (List.count g) hkept
        rwa [List.count_filter (by simpa using hdm), List.count_singleton_self] at hcount
    · rename_i hconsent
      by_contra hmatches
      have hlisted := (mem_findConversations hdups hlimit).mpr ⟨hg, hlater, hpasses, hmatches⟩
      exact hconsent (h.satisfies g hlisted).2.2
  · intro g hg hdm
    obtain ⟨dmId, hdm⟩ := Option.isSome_iff_exists.mp hdm
    obtain ⟨kept, hkept⟩ := h.dms g hg dmId hdm
    have hmem : kept ∈ (findConversations groups consents args).filter
        (fun other => other.dmId = some dmId) := by
      rw [hkept]
      exact List.mem_singleton_self kept
    obtain ⟨hlisted, hkeptDm⟩ := List.mem_filter.mp hmem
    exact ⟨kept, h.satisfies kept hlisted, (of_decide_eq_true hkeptDm).trans hdm.symm,
      ((mem_findConversations hdups hlimit).mp hlisted).2.1⟩

theorem listedOnce_of_listsExactly (hdups : args.includeDuplicateDms = false)
    (hlimit : args.limit = none) (h : ListsExactly groups consents args) :
    ListedOnce groups consents args (findConversations groups consents args) := by
  have hcount : ∀ g, Satisfies groups consents args g → hasLaterDuplicate groups g = false →
      (findConversations groups consents args).count g = 1 := by
    intro g hg hlater
    rw [count_of_satisfies hdups hlimit hg hlater,
      plainConsent_iff.mp (h.consent g hg.1 hg.2.1 hlater), if_pos hg.2.2]
  constructor
  · intro g hlisted
    obtain ⟨hg, hlater, hpasses, hmatches⟩ := (mem_findConversations hdups hlimit).mp hlisted
    refine ⟨hg, hpasses, ?_⟩
    by_contra hconsent
    rw [plainConsent_iff.mp (h.consent g hg hpasses hlater), if_neg hconsent] at hmatches
    exact hmatches rfl
  · intro g hlisted other hother hdm heq
    obtain ⟨dmId, hdm⟩ := Option.isSome_iff_exists.mp hdm
    obtain ⟨_, hlater, _⟩ := (mem_findConversations hdups hlimit).mp hlisted
    have hkey : other.dedupKey = g.dedupKey := by
      rw [dedupKey_eq hdm, dedupKey_eq (heq.symm.trans hdm)]
    exact hasLaterDuplicate_eq_false_iff.mp hlater other hother.1 hkey
  · intro g hg dmId hdm
    obtain ⟨kept, hkept, hkeptDm, hkeptLater⟩ := h.latest g hg (by rw [hdm]; rfl)
    rw [hdm] at hkeptDm
    refine ⟨kept, eq_singleton_of_count ?_ fun other hother => ?_⟩
    · rw [List.count_filter (by simpa using hkeptDm)]
      exact hcount kept hkept hkeptLater
    · obtain ⟨hlisted, hotherDm⟩ := List.mem_filter.mp hother
      obtain ⟨hrow, hlater, _⟩ := (mem_findConversations hdups hlimit).mp hlisted
      exact eq_of_dmId_eq hrow hkept.1 hlater hkeptLater (of_decide_eq_true hotherDm) hkeptDm
  · intro g hg hdm
    exact hcount g hg (hasLaterDuplicate_of_group hg.1 hdm)

theorem filter_findGroups (hdups : args.includeDuplicateDms = false) (hlimit : args.limit = none)
    {listed : List StoredGroup} (h : findGroups groups consents args = .ok listed) :
    listed.filter (fun g => g.conversationType ≠ .sync) =
      findConversations groups consents args := by
  simp only [findGroups, bind_eq_ok, pure_eq_ok] at h
  obtain ⟨_, _, rfl⟩ := h
  rw [List.filter_append, List.filter_eq_self.mpr, List.filter_eq_nil_iff.mpr, List.append_nil]
  · intro g hg
    split at hg
    · have hsync := (List.mem_filter.mp hg).2
      simpa using hsync
    · cases hg
  · intro g hg
    obtain ⟨_, _, hpasses, _⟩ := (mem_findConversations hdups hlimit).mp hg
    simp only [passesFilters, Bool.and_eq_true, decide_eq_true_eq] at hpasses
    have hvirtual := hpasses.1.1.1.1.1.1.1
    simp only [ne_eq, decide_eq_true_eq]
    exact fun hsync => hvirtual (by rw [hsync]; decide)

end Listing

/-- A later duplicate takes the place of a group even if it is then filtered out, and the consent to
a group is looked up among the records of inboxes as well. -/
theorem findGroups_listedOnce_iff (groups : GroupTable) (consents : ConsentTable)
    (args : GroupQueryArgs) (hdups : args.includeDuplicateDms = false) (hlimit : args.limit = none)
    (listed : List StoredGroup) (h : findGroups groups consents args = .ok listed) :
    ListedOnce groups consents args (listed.filter fun g => g.conversationType ≠ .sync) ↔
      ListsExactly groups consents args := by
  rw [filter_findGroups hdups hlimit h]
  exact ⟨listsExactly_of_listedOnce hdups hlimit, listedOnce_of_listsExactly hdups hlimit⟩

namespace Sample

def dm (id : Bytes) (membershipState : GroupMembershipState) (lastMessageNs : Int) : StoredGroup where
  id
  createdAtNs := 1
  membershipState
  conversationType := .dm
  dmId := some "dm:a:b"
  lastMessageNs := some lastMessageNs

def twoDms : GroupTable := ⟨[dm [1] .allowed 5, dm [2] .restored 7], by decide⟩

def allowedOnly : GroupQueryArgs := { allowedStates := some [.allowed] }

theorem satisfies_twoDms (g : StoredGroup) (hg : g ∈ twoDms.rows) :
    Satisfies twoDms .empty {} g := by
  have hrows : ∀ g ∈ [dm [1] .allowed 5, dm [2] .restored 7], passesFilters {} g = true ∧
      consentState .empty g ∈ GroupQueryArgs.effectiveConsentStates {} := by
    decide +kernel
  exact ⟨hg, hrows g hg⟩

end Sample

theorem findGroups_listedOnce_twoDms : ListedOnce Sample.twoDms .empty {}
    ([Sample.dm [2] .restored 7].filter fun g => g.conversationType ≠ .sync) := by
  refine (findGroups_listedOnce_iff Sample.twoDms .empty {} rfl rfl _ (by decide +kernel)).mpr ?_
  constructor
  · intro g _ _ _
    rw [PlainConsent, if_neg (by decide)]
    intro r hr
    cases hr
  · intro g hg _
    refine ⟨Sample.dm [2] .restored 7, Sample.satisfies_twoDms _ (by decide), ?_, by decide +kernel⟩
    have hdms : ∀ g ∈ [Sample.dm [1] .allowed 5, Sample.dm [2] .restored 7],
        some "dm:a:b" = g.dmId := by
      decide
    exact hdms g hg.1

/-- The restored group hides the one that is asked for. -/
theorem findGroups_hides_dm : ∃ listed,
    findGroups Sample.twoDms .empty Sample.allowedOnly = .ok listed ∧
      ¬ListedOnce Sample.twoDms .empty Sample.allowedOnly
        (listed.filter fun g => g.conversationType ≠ .sync) := by
  refine ⟨[], by decide +kernel, fun h => ?_⟩
  have hsatisfies : Satisfies Sample.twoDms .empty Sample.allowedOnly (Sample.dm [1] .allowed 5) :=
    ⟨List.mem_cons_self, by decide +kernel, by decide +kernel⟩
  obtain ⟨kept, hkept⟩ := h.dms _ hsatisfies "dm:a:b" rfl
  cases hkept

end LibXmtp.Db
