import LibXmtp.Groups.WelcomeEffects

namespace LibXmtp.Groups

open LibXmtp.Data LibXmtp.Db Session

variable {s s' : WelcomeStore} {dmId : String} {r oldest : StoredConsentRecord}

def DmRecord (s : WelcomeStore) (dmId : String) (r : StoredConsentRecord) : Prop :=
  r ∈ s.consents.rows ∧ r.entityType = .conversationId ∧
    ∃ g ∈ s.groups.rows, g.dmId = some dmId ∧ Hex.lower.encode g.id = r.entity

def LatestDmRecord (s : WelcomeStore) (dmId : String) (r : StoredConsentRecord) : Prop :=
  DmRecord s dmId r ∧ ∀ other, DmRecord s dmId other → other.consentedAtNs ≤ r.consentedAtNs

def consentOf (s : WelcomeStore) (groupId : Bytes) : Option StoredConsentRecord :=
  s.consents.getConsentRecord (Hex.lower.encode groupId) .conversationId

/-- The group ends with the state of a latest record there was before, and with none if there was
none. -/
structure FollowsLatest (s s' : WelcomeStore) (dmId : String) (groupId : Bytes) : Prop where
  untouched : (¬∃ r, DmRecord s dmId r) → consentOf s' groupId = none
  latest : (∃ r, DmRecord s dmId r) → ∃ latest, LatestDmRecord s dmId latest ∧
    (consentOf s' groupId).map StoredConsentRecord.state = some latest.state

/-- None of the records has a smaller time, and of those with its time none has a greater entity. -/
def OldestDmRecord (s : WelcomeStore) (dmId : String) (r : StoredConsentRecord) : Prop :=
  DmRecord s dmId r ∧ ∀ other, DmRecord s dmId other → r.consentedAtNs ≤ other.consentedAtNs ∧
    (other.consentedAtNs = r.consentedAtNs → other.entity ≤ r.entity)

def KeepsOwn (now : Int64) (s : WelcomeStore) (groupId : Bytes) (own : StoredConsentRecord) : Prop :=
  consentOf s groupId = some own ∧ now ≤ own.consentedAtNs

/-- The oldest record, or the own one where it is kept, decides as a latest one would. -/
def OldestDecidesRight (now : Int64) (s : WelcomeStore) (dmId : String) (groupId : Bytes) : Prop :=
  ∀ oldest, OldestDmRecord s dmId oldest → ∃ latest, LatestDmRecord s dmId latest ∧
    ((∃ own, KeepsOwn now s groupId own ∧ own.state = latest.state) ∨
      (¬∃ own, KeepsOwn now s groupId own) ∧ oldest.state = latest.state)

section Query

def recordsByKey (s : WelcomeStore) (dmId : String) : List StoredConsentRecord :=
  (s.consents.rows.filter fun r =>
    r.entity ∈ (s.groups.rows.filter fun g => g.dmId = some dmId).map (fun g =>
      Hex.lower.encode g.id) && r.entityType = .conversationId).insertionSort fun r r' =>
        r.entity ≤ r'.entity

def recordsByTime (s : WelcomeStore) (dmId : String) : List StoredConsentRecord :=
  (recordsByKey s dmId).insertionSort fun r r' => r'.consentedAtNs ≤ r.consentedAtNs

theorem findConsentByDmId_eq (s : WelcomeStore) (dmId : String) :
    XmtpWelcome.findConsentByDmId s dmId = (recordsByTime s dmId).getLast? := rfl

theorem mem_recordsByTime : r ∈ recordsByTime s dmId ↔ DmRecord s dmId r := by
  rw [recordsByTime, recordsByKey, List.mem_insertionSort, List.mem_insertionSort, List.mem_filter,
    DmRecord]
  simp only [List.mem_map, List.mem_filter, decide_eq_true_eq, Bool.and_eq_true, and_assoc]
  exact and_congr_right fun _ => and_comm

theorem pairwise_recordsByTime (s : WelcomeStore) (dmId : String) :
    (recordsByTime s dmId).Pairwise fun r r' => r'.consentedAtNs ≤ r.consentedAtNs := by
  have : Std.Total fun r r' : StoredConsentRecord => r'.consentedAtNs ≤ r.consentedAtNs :=
    ⟨fun r r' => Int64.le_total r'.consentedAtNs r.consentedAtNs⟩
  have : IsTrans StoredConsentRecord fun r r' => r'.consentedAtNs ≤ r.consentedAtNs :=
    ⟨fun _ _ _ h h' => Int64.le_trans h' h⟩
  exact List.pairwise_insertionSort _ _

theorem pairwise_recordsByKey (s : WelcomeStore) (dmId : String) :
    (recordsByKey s dmId).Pairwise fun r r' => r.entity ≤ r'.entity := by
  have : Std.Total fun r r' : StoredConsentRecord => r.entity ≤ r'.entity :=
    ⟨fun r r' => le_total r.entity r'.entity⟩
  have : IsTrans StoredConsentRecord fun r r' => r.entity ≤ r'.entity :=
    ⟨fun _ _ _ h h' => le_trans h h'⟩
  exact List.pairwise_insertionSort _ _

theorem pairwise_key_recordsByTime (s : WelcomeStore) (dmId : String) :
    (recordsByTime s dmId).Pairwise fun r r' =>
      r.consentedAtNs = r'.consentedAtNs → r.entity ≤ r'.entity :=
  (pairwise_insertionSort_of_pairwise (pairwise_recordsByKey s dmId)).imp fun h htime =>
    h (Int64.le_of_eq htime)

theorem findConsentByDmId_eq_none_iff :
    XmtpWelcome.findConsentByDmId s dmId = none ↔ ¬∃ r, DmRecord s dmId r := by
  rw [findConsentByDmId_eq, List.getLast?_eq_none_iff, List.eq_nil_iff_forall_not_mem, not_exists]
  exact forall_congr' fun r => not_congr mem_recordsByTime

theorem findConsentByDmId_eq_some (h : XmtpWelcome.findConsentByDmId s dmId = some oldest) :
    OldestDmRecord s dmId oldest := by
  rw [findConsentByDmId_eq] at h
  obtain ⟨newer, hsplit⟩ := List.getLast?_eq_some_iff.mp h
  refine ⟨mem_recordsByTime.mp (List.mem_of_getLast? h), fun other hother => ?_⟩
  have hmem := mem_recordsByTime.mpr hother
  have hsorted := pairwise_recordsByTime s dmId
  have hkeys := pairwise_key_recordsByTime s dmId
  rw [hsplit] at hmem hsorted hkeys
  rcases List.mem_append.mp hmem with hmem | hmem
  · exact ⟨(List.pairwise_append.mp hsorted).2.2 other hmem oldest (List.mem_singleton_self _),
      (List.pairwise_append.mp hkeys).2.2 other hmem oldest (List.mem_singleton_self _)⟩
  · rw [List.mem_singleton.mp hmem]
    exact ⟨Int64.le_refl _, fun _ => le_refl _⟩

theorem OldestDmRecord.unique {r r' : StoredConsentRecord} (h : OldestDmRecord s dmId r)
    (h' : OldestDmRecord s dmId r') : r = r' := by
  have htime := Int64.le_antisymm (h.2 r' h'.1).1 (h'.2 r h.1).1
  have hentity := le_antisymm ((h'.2 r h.1).2 htime) ((h.2 r' h'.1).2 htime.symm)
  refine s.consents.eq_of_key_eq h.1.1 h'.1.1 ?_
  rw [StoredConsentRecord.key, StoredConsentRecord.key, hentity, h.1.2.1, h'.1.2.1]

end Query

theorem dmRecord_of_consentOf {group : StoredGroup} (hmem : group ∈ s.groups.rows)
    (hdm : group.dmId = some dmId) (h : consentOf s group.id = some r) : DmRecord s dmId r := by
  obtain ⟨hrow, hkey⟩ := Table.fetch_eq_some_iff.mp h
  obtain ⟨htype, hentity⟩ := Prod.mk.inj hkey
  exact ⟨hrow, htype, group, hmem, hdm, hentity.symm⟩

/-- The state that the oldest record leaves a group with, which may have a record of its own. -/
def stitchedState (now : Int64) (own : Option StoredConsentRecord) (oldest : StoredConsentRecord) :
    ConsentState :=
  match own with
  | none => oldest.state
  | some own => if own.consentedAtNs < now then oldest.state else own.state

theorem stitchedState_eq_iff {now : Int64} {groupId : Bytes} {state : ConsentState} :
    stitchedState now (consentOf s groupId) oldest = state ↔
      (∃ own, KeepsOwn now s groupId own ∧ own.state = state) ∨
        (¬∃ own, KeepsOwn now s groupId own) ∧ oldest.state = state := by
  unfold KeepsOwn stitchedState
  cases consentOf s groupId with
  | none => simp
  | some own =>
    by_cases hlater : own.consentedAtNs < now
    · have hnot : ¬now ≤ own.consentedAtNs := Int64.not_le.mpr hlater
      simp [hlater, hnot]
    · have hle : now ≤ own.consentedAtNs := Int64.not_lt.mp hlater
      simp [hlater, hle]

theorem consentOf_stitchDmConsent {ctx : WelcomeContext} {group : StoredGroup} {u : Unit}
    (hdm : group.dmId = some dmId)
    (h : (XmtpWelcome.stitchDmConsent ctx group).outcome s = (.ok u, s')) :
    (consentOf s' group.id).map StoredConsentRecord.state =
      (XmtpWelcome.findConsentByDmId s dmId).elim
        ((consentOf s group.id).map StoredConsentRecord.state)
        fun oldest => some (stitchedState ctx.now (consentOf s group.id) oldest) := by
  rw [XmtpWelcome.stitchDmConsent, XmtpWelcome.outcome_call_bind_eq_ok] at h
  cases h.2
  dsimp only
  rw [hdm, Option.bind_some]
  cases XmtpWelcome.findConsentByDmId s dmId with
  | none => rfl
  | some oldest =>
    dsimp only
    rw [consentOf, ConsentTable.getConsentRecord, ConsentTable.fetch_insertNewerConsentRecord,
      consentOf, ConsentTable.getConsentRecord, Option.elim_some]
    simp only [StoredConsentRecord.key, if_true, Option.map_some]
    cases s.consents.fetch (.conversationId, Hex.lower.encode group.id) with
    | none => rfl
    | some own =>
      rw [Option.elim_some, stitchedState]
      split <;> rfl

/-- The group takes the oldest decision of all and not the latest: it follows the latest one just if
they agree, or if its own record is not before the time of the clock and agrees. -/
theorem followsLatest_iff (ctx : WelcomeContext) (s s' : WelcomeStore) (group : StoredGroup)
    (dmId : String) (hmem : group ∈ s.groups.rows) (hdm : group.dmId = some dmId)
    (h : (XmtpWelcome.stitchDmConsent ctx group).outcome s = (.ok (), s')) :
    FollowsLatest s s' dmId group.id ↔ OldestDecidesRight ctx.now s dmId group.id := by
  have hstitched := consentOf_stitchDmConsent hdm h
  cases hfind : XmtpWelcome.findConsentByDmId s dmId with
  | none =>
    rw [hfind, Option.elim_none] at hstitched
    have hnone := findConsentByDmId_eq_none_iff.mp hfind
    have hown : consentOf s group.id = none := by
      cases hown : consentOf s group.id with
      | none => rfl
      | some r => exact absurd ⟨r, dmRecord_of_consentOf hmem hdm hown⟩ hnone
    rw [hown] at hstitched
    exact ⟨fun _ oldest holdest => absurd ⟨oldest, holdest.1⟩ hnone,
      fun _ => ⟨fun _ => Option.map_eq_none_iff.mp hstitched, fun hsome => absurd hsome hnone⟩⟩
  | some oldest =>
    rw [hfind, Option.elim_some] at hstitched
    have holdest := findConsentByDmId_eq_some hfind
    have hsome : ∃ r, DmRecord s dmId r := ⟨oldest, holdest.1⟩
    constructor
    · intro hfollows oldest' holdest'
      obtain ⟨latest, hlatest, hstate⟩ := hfollows.latest hsome
      refine ⟨latest, hlatest, stitchedState_eq_iff.mp ?_⟩
      rw [← holdest.unique holdest']
      exact Option.some.inj (hstitched.symm.trans hstate)
    · intro hright
      obtain ⟨latest, hlatest, hdecides⟩ := hright oldest holdest
      refine ⟨fun hnone => absurd hsome hnone, fun _ => ⟨latest, hlatest, ?_⟩⟩
      rw [hstitched, stitchedState_eq_iff.mpr hdecides]

namespace DmSample

def dmGroup (id : UInt8) : StoredGroup where
  id := [id]
  createdAtNs := 0
  membershipState := .allowed
  conversationType := .dm
  dmId := some "dm:alice:bob"

def groups : GroupTable := ⟨[dmGroup 1, dmGroup 2, dmGroup 3, dmGroup 4], by decide⟩

def context : WelcomeContext where
  installationId := []
  inboxId := "alice"
  now := 10
  calls _ := .ok ()

def store (consents : ConsentTable) : WelcomeStore where
  mls _ := none
  groups
  consents
  messages := .empty
  refreshStates := .empty

def allowedThenDenied : WelcomeStore :=
  store ⟨[⟨.conversationId, .allowed, "01", 1⟩, ⟨.conversationId, .denied, "02", 2⟩], by decide⟩

def deniedTwice : WelcomeStore :=
  store ⟨[⟨.conversationId, .denied, "02", 5⟩, ⟨.conversationId, .allowed, "01", 5⟩,
    ⟨.conversationId, .denied, "04", 7⟩], by decide⟩

end DmSample

open DmSample in
theorem followsLatest_deniedTwice : ∃ s', FollowsLatest deniedTwice s' "dm:alice:bob" [3] := by
  have hfind : XmtpWelcome.findConsentByDmId deniedTwice "dm:alice:bob" =
      some ⟨.conversationId, .denied, "02", 5⟩ := by decide +kernel
  have hown : consentOf deniedTwice [3] = none := by decide +kernel
  have hkept : ¬∃ own, KeepsOwn context.now deniedTwice [3] own := by
    rintro ⟨own, hkept, -⟩
    cases hown.symm.trans hkept
  have hlatest : LatestDmRecord deniedTwice "dm:alice:bob" ⟨.conversationId, .denied, "04", 7⟩ := by
    have hrows : ∀ r ∈ deniedTwice.consents.rows, r.consentedAtNs ≤ 7 := by decide
    exact ⟨⟨by decide, rfl, dmGroup 4, by decide, rfl, by decide +kernel⟩,
      fun other hother => hrows other hother.1⟩
  refine ⟨_, (followsLatest_iff context deniedTwice _ (dmGroup 3) "dm:alice:bob" (by decide) rfl
    rfl).mpr fun oldest holdest => ⟨_, hlatest, .inr ⟨hkept, ?_⟩⟩⟩
  rw [holdest.unique (findConsentByDmId_eq_some hfind)]

/-- The group that is joined is allowed again. -/
theorem stitchDmConsent_oldest : ¬∀ (ctx : WelcomeContext) (s s' : WelcomeStore) (group : StoredGroup)
    (dmId : String), group ∈ s.groups.rows → group.dmId = some dmId →
      (XmtpWelcome.stitchDmConsent ctx group).outcome s = (.ok (), s') →
        FollowsLatest s s' dmId group.id := by
  intro h
  have hfollows := h DmSample.context DmSample.allowedThenDenied _ (DmSample.dmGroup 3) "dm:alice:bob"
    (by decide) rfl rfl
  have hdenied : DmRecord DmSample.allowedThenDenied "dm:alice:bob"
      ⟨.conversationId, .denied, "02", 2⟩ :=
    ⟨by decide, rfl, DmSample.dmGroup 2, by decide, rfl, by decide +kernel⟩
  obtain ⟨latest, ⟨hrecord, hlatest⟩, hstate⟩ := hfollows.latest ⟨_, hdenied⟩
  have hfind : XmtpWelcome.findConsentByDmId DmSample.allowedThenDenied "dm:alice:bob" =
      some ⟨.conversationId, .allowed, "01", 1⟩ := by decide +kernel
  have hown : consentOf DmSample.allowedThenDenied [3] = none := by decide +kernel
  have hallowed : latest.state = .allowed := by
    have hstitched := hstate.symm.trans (@consentOf_stitchDmConsent DmSample.allowedThenDenied _
      "dm:alice:bob" DmSample.context (DmSample.dmGroup 3) () rfl rfl)
    rw [hfind, Option.elim_some] at hstitched
    exact (Option.some.inj hstitched).trans (congrArg (stitchedState 10 · _) hown)
  have hlate := hlatest _ hdenied
  have hrows : latest ∈ [⟨.conversationId, .allowed, "01", 1⟩, ⟨.conversationId, .denied, "02", 2⟩] :=
    hrecord.1
  rcases List.mem_cons.mp hrows with rfl | hrows
  · exact absurd hlate (by decide)
  · rw [List.mem_singleton.mp hrows] at hallowed
    cases hallowed

end LibXmtp.Groups
