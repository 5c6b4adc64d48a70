import LibXmtp.Groups.Welcomes

namespace LibXmtp.Groups

open LibXmtp.Data LibXmtp.Db LibXmtp.Types Session

variable {ctx : WelcomeContext} {this : XmtpWelcome} {s s' t : WelcomeStore}

def WelcomeStore.welcomeCursor (ctx : WelcomeContext) (s : WelcomeStore) (originator : Nat) : Nat :=
  cursorOf ctx.installationId s.refreshStates .welcome originator

structure CursorOnly (ctx : WelcomeContext) (s s' : WelcomeStore) : Prop where
  mls : s'.mls = s.mls
  groups : s'.groups = s.groups
  consents : s'.consents = s.consents
  messages : s'.messages = s.messages
  others : ∀ id kind originator, (id, kind) ≠ (ctx.installationId, EntityKind.welcome) →
    s'.refreshStates.fetch (id, kind, originator) = s.refreshStates.fetch (id, kind, originator)

namespace CursorOnly

theorem refl (s : WelcomeStore) : CursorOnly ctx s s :=
  ⟨rfl, rfl, rfl, rfl, fun _ _ _ _ => rfl⟩

theorem trans (h : CursorOnly ctx s t) (h' : CursorOnly ctx t s') : CursorOnly ctx s s' where
  mls := h'.mls.trans h.mls
  groups := h'.groups.trans h.groups
  consents := h'.consents.trans h.consents
  messages := h'.messages.trans h.messages
  others id kind originator hne :=
    (h'.others id kind originator hne).trans (h.others id kind originator hne)

theorem isActive (h : CursorOnly ctx s s') (groupId : Bytes) :
    s'.isActive groupId = s.isActive groupId := by
  rw [WelcomeStore.isActive, h.groups, h.mls, WelcomeStore.isActive]

end CursorOnly

def CursorMoved (ctx : WelcomeContext) (this : XmtpWelcome) (moves : Bool)
    (s s' : WelcomeStore) : Prop :=
  ∀ o, s'.welcomeCursor ctx o =
    if (this.welcome.cursor.originatorId = o ∧ moves = true) ∧
        this.welcome.cursor.sequenceId < 2 ^ 63 then
      max (s.welcomeCursor ctx o) this.welcome.cursor.sequenceId
    else s.welcomeCursor ctx o

theorem CursorMoved.refl (s : WelcomeStore) : CursorMoved ctx this false s s := by
  intro o
  simp

theorem CursorMoved.unmoved {moves : Bool} (h : CursorMoved ctx this moves s t)
    (h' : ∀ o, s'.welcomeCursor ctx o = t.welcomeCursor ctx o) : CursorMoved ctx this moves s s' :=
  fun o => (h' o).trans (h o)

/-- The group of a welcome is stored: its state is replaced, no row has been stored under this
welcome, and an earlier one gives way. -/
structure GroupStored (this : XmtpWelcome) (s s' : WelcomeStore) : Prop where
  mls : s'.mls = fun id =>
    if id = this.welcome.content.groupId then some ⟨this.welcome.content.epoch, true⟩ else s.mls id
  notDuplicate : ∀ g, s.groups.fetch this.welcome.content.groupId = some g →
    g.sequenceId ≠ some (asBigInt this.welcome.cursor.sequenceId)
  newer : (∀ g, s.groups.fetch this.welcome.content.groupId = some g →
      g.sequenceId.all (· < asBigInt this.welcome.cursor.sequenceId)) →
    ∃ g, s'.groups.fetch this.welcome.content.groupId = some g ∧
      g.sequenceId = some (asBigInt this.welcome.cursor.sequenceId)
  others : ∀ id, id ≠ this.welcome.content.groupId → s'.groups.fetch id = s.groups.fetch id

theorem exists_sequenceId {groups groups' : GroupTable} {id : Bytes}
    (h : (groups'.fetch id).map StoredGroup.sequenceId =
      (groups.fetch id).map StoredGroup.sequenceId) {g : StoredGroup}
    (hg : groups.fetch id = some g) :
    ∃ g', groups'.fetch id = some g' ∧ g'.sequenceId = g.sequenceId := by
  rw [hg, Option.map_some, Option.map_eq_some_iff] at h
  exact h

structure RelatedStored (ctx : WelcomeContext) (groupId : Bytes) (s s' : WelcomeStore) : Prop where
  mls : s'.mls = s.mls
  sequences : ∀ id, (s'.groups.fetch id).map StoredGroup.sequenceId =
    (s.groups.fetch id).map StoredGroup.sequenceId
  others : ∀ id, id ≠ groupId → s'.groups.fetch id = s.groups.fetch id
  cursor : ∀ o, s'.welcomeCursor ctx o = s.welcomeCursor ctx o

namespace RelatedStored

variable {groupId : Bytes}

theorem refl (s : WelcomeStore) : RelatedStored ctx groupId s s :=
  ⟨rfl, fun _ => rfl, fun _ _ => rfl, fun _ => rfl⟩

theorem trans (h : RelatedStored ctx groupId s t) (h' : RelatedStored ctx groupId t s') :
    RelatedStored ctx groupId s s' where
  mls := h'.mls.trans h.mls
  sequences id := (h'.sequences id).trans (h.sequences id)
  others id hne := (h'.others id hne).trans (h.others id hne)
  cursor o := (h'.cursor o).trans (h.cursor o)

end RelatedStored

theorem GroupStored.of_cursorOnly (h : CursorOnly ctx s t) (h' : GroupStored this t s') :
    GroupStored this s s' where
  mls := by rw [h'.mls, h.mls]
  notDuplicate g hg := h'.notDuplicate g (by rw [h.groups, hg])
  newer hall := h'.newer (by rw [h.groups]; exact hall)
  others id hne := by rw [h'.others id hne, h.groups]

theorem GroupStored.related (h : GroupStored this s t)
    (h' : RelatedStored ctx this.welcome.content.groupId t s') : GroupStored this s s' where
  mls := h'.mls.trans h.mls
  notDuplicate := h.notDuplicate
  newer hall := by
    obtain ⟨g, hg, hsequence⟩ := h.newer hall
    obtain ⟨g', hg', heq⟩ := exists_sequenceId (h'.sequences _) hg
    exact ⟨g', hg', heq.trans hsequence⟩
  others id hne := (h'.others id hne).trans (h.others id hne)

/-- The transaction of a welcome went through, with a group unless it is a oneshot one. -/
structure WelcomeStored (ctx : WelcomeContext) (this : XmtpWelcome) (r : Option StoredGroup)
    (s s' : WelcomeStore) : Prop where
  required : this.welcome.resuming = true ∨
    s.welcomeCursor ctx this.welcome.cursor.originatorId < this.welcome.cursor.sequenceId
  cursor : CursorMoved ctx this this.cursorIncrement s s'
  kind : r = none ↔ this.welcome.content.conversationType = .oneshot
  oneshot : r = none → CursorOnly ctx s s'
  group : r ≠ none → GroupStored this s s'

namespace XmtpWelcome

theorem outcome_call_bind_eq_ok {β : Type} {name : WelcomeCall} {f : Unit → WelcomeSession β}
    {b : β} : (call ctx name >>= f).outcome s = (.ok b, s') ↔
      ctx.calls name = .ok () ∧ (f ()).outcome s = (.ok b, s') := by
  rw [call, outcome_ofExcept_bind_eq_ok]
  exact ⟨fun ⟨_, h⟩ => h, fun h => ⟨(), h⟩⟩

theorem ne_of_welcome {id : Bytes} {kind : EntityKind} {originator originator' : Nat}
    (h : (id, kind) ≠ (ctx.installationId, EntityKind.welcome)) :
    (id, kind, originator) ≠ (ctx.installationId, EntityKind.welcome, originator') := by
  intro heq
  simp only [Prod.mk.injEq] at heq
  exact h (by rw [heq.1, heq.2.1])

theorem cursorOnly_lastSequenceId {r : Except WelcomeError Nat}
    (h : (lastSequenceId ctx this).outcome s = (r, s')) :
    CursorOnly ctx s s' ∧ (∀ o, s'.welcomeCursor ctx o = s.welcomeCursor ctx o) ∧
      ∀ last, r = .ok last → last = s.welcomeCursor ctx this.welcome.cursor.originatorId := by
  rw [lastSequenceId, call, outcome_bind, outcome_ofExcept] at h
  cases hcall : ctx.calls .lastSequenceId with
  | error e =>
    rw [hcall] at h
    cases h
    exact ⟨.refl s, fun _ => rfl, by rintro _ ⟨⟩⟩
  | ok _ =>
    rw [hcall] at h
    cases h
    refine ⟨⟨rfl, rfl, rfl, rfl, fun id kind originator hne => ?_⟩, fun o => ?_, ?_⟩
    · exact fetch_getLastCursorForOriginator _ _ _ _ (ne_of_welcome hne)
    · exact cursorOf_getLastCursorForOriginator _ _ _ _ _ _
    · rintro last ⟨⟩
      rfl

theorem cursorOnly_updateCursor {name : WelcomeCall} {r : Except WelcomeError Unit}
    (h : (updateCursor ctx this name).outcome s = (r, s')) :
    CursorOnly ctx s s' ∧ CursorMoved ctx this r.isOk s s' := by
  rw [updateCursor, call, outcome_bind, outcome_ofExcept] at h
  cases hcall : ctx.calls name with
  | error e =>
    rw [hcall] at h
    cases h
    exact ⟨.refl s, .refl s⟩
  | ok _ =>
    rw [hcall] at h
    cases h
    refine ⟨⟨rfl, rfl, rfl, rfl, fun id kind originator hne => ?_⟩, fun o => ?_⟩
    · exact fetch_updateCursor _ _ _ _ (ne_of_welcome hne)
    · refine (cursorOf_updateCursor _ _ _ _ _ _).trans ?_
      simp [Except.isOk, Except.toBool, WelcomeStore.welcomeCursor]

theorem cursorOnly_requireProcessing {u : Unit}
    (h : (requireProcessing ctx this).outcome s = (.ok u, s')) :
    (this.welcome.resuming = true ∨
      s.welcomeCursor ctx this.welcome.cursor.originatorId < this.welcome.cursor.sequenceId) ∧
      CursorOnly ctx s s' ∧ CursorMoved ctx this this.cursorIncrement s s' := by
  rw [requireProcessing, outcome_bind_eq_ok] at h
  obtain ⟨last, t, hlast, h⟩ := h
  obtain ⟨hread, hsame, hvalue⟩ := cursorOnly_lastSequenceId hlast
  rw [hvalue last rfl] at h
  split at h
  · rename_i hrequired
    rw [Bool.or_eq_true, decide_eq_true_eq] at hrequired
    refine ⟨hrequired, ?_⟩
    split at h
    · rename_i hincrement
      obtain ⟨hwrite, hmoved⟩ := cursorOnly_updateCursor h
      refine ⟨hread.trans hwrite, fun o => ?_⟩
      rw [hmoved o, hsame o, hincrement]
      rfl
    · rename_i hincrement
      obtain ⟨-, rfl⟩ := outcome_pure_eq_ok.mp h
      rw [Bool.eq_false_iff.mpr hincrement]
      exact ⟨hread, (CursorMoved.refl s).unmoved hsame⟩
  · exact absurd h outcome_throw_eq_ok

theorem toStore_eq_ok {membershipState : GroupMembershipState} {group : StoredGroup}
    (h : (toStore ctx this membershipState).outcome s = (.ok group, s')) :
    s' = s ∧ group.id = this.welcome.content.groupId ∧
      group.sequenceId = some (asBigInt this.welcome.cursor.sequenceId) := by
  unfold toStore at h
  dsimp only at h
  split at h
  · obtain ⟨rfl, rfl⟩ := outcome_pure_eq_ok.mp h
    exact ⟨rfl, rfl, rfl⟩
  · obtain ⟨-, h⟩ := outcome_call_bind_eq_ok.mp h
    obtain ⟨rfl, rfl⟩ := outcome_pure_eq_ok.mp h
    exact ⟨rfl, rfl, rfl⟩
  all_goals
    obtain ⟨rfl, rfl⟩ := outcome_pure_eq_ok.mp h
    exact ⟨rfl, rfl, rfl⟩

end XmtpWelcome

section InsertOrReplace

variable {groups : GroupTable} {group stored existing : StoredGroup}

theorem fetch_updateWhere_id {f : StoredGroup → StoredGroup} (hf : ∀ g, (f g).id = g.id)
    (hfetch : groups.fetch group.id = some existing) (id : Bytes) :
    (groups.updateWhere (fun g => g.id = group.id) hf).fetch id =
      if id = group.id then some (f existing) else groups.fetch id := by
  rw [Table.fetch_updateWhere]
  split
  · rename_i h
    have hid : existing.id = group.id := (Table.fetch_eq_some_iff.mp hfetch).2
    rw [h, hfetch]
    simp [hid]
  · rename_i h
    cases hother : groups.fetch id with
    | none => rfl
    | some other =>
      have hne : other.id ≠ group.id := fun heq =>
        h ((Table.fetch_eq_some_iff.mp hother).2.symm.trans heq)
      simp [hne]

theorem fetch_overwriteRestored (hfetch : groups.fetch group.id = some existing) (id : Bytes) :
    (groups.overwriteRestored group existing).fetch id =
      if id = group.id ∧ existing.membershipState = .restored then some (group.setAll existing)
      else groups.fetch id := by
  unfold GroupTable.overwriteRestored
  split
  · rename_i hrestored
    rw [fetch_updateWhere_id _ hfetch]
    simp [hrestored]
  · rename_i hrestored
    rw [if_neg fun hand => hrestored hand.2]

theorem insertOrReplaceGroup_ok {sequenceId : Int} (hgroup : group.sequenceId = some sequenceId)
    (h : (groups.insertOrReplaceGroup group).1 = .ok stored) :
    stored.id = group.id ∧ (∀ g, groups.fetch group.id = some g → g.sequenceId ≠ some sequenceId) ∧
      ((∀ g, groups.fetch group.id = some g → g.sequenceId.all (· < sequenceId)) →
        ∃ g, (groups.insertOrReplaceGroup group).2.fetch group.id = some g ∧
          g.sequenceId = some sequenceId) ∧
      ∀ id, id ≠ group.id → (groups.insertOrReplaceGroup group).2.fetch id = groups.fetch id := by
  unfold GroupTable.insertOrReplaceGroup at h ⊢
  cases hfetch : groups.fetch group.id with
  | none =>
    rw [hfetch] at h
    cases h
    refine ⟨rfl, by simp, fun _ => ⟨group, ?_, hgroup⟩, fun id hne => ?_⟩
    · exact (Table.fetch_insertOrIgnore_of_none hfetch _).trans (if_pos rfl)
    · exact (Table.fetch_insertOrIgnore_of_none hfetch _).trans (if_neg (Ne.symm hne))
  | some existing =>
    have hid : existing.id = group.id := (Table.fetch_eq_some_iff.mp hfetch).2
    have hover := fetch_overwriteRestored hfetch
    rw [hfetch] at h
    dsimp only at h ⊢
    by_cases hsame : existing.sequenceId = group.sequenceId
    · rw [if_pos hsame] at h
      cases h
    · rw [if_neg hsame] at h ⊢
      rw [hgroup] at hsame h ⊢
      simp only [Option.any_some] at h ⊢
      have hnot (g : StoredGroup) (hg : some existing = some g) : g.sequenceId ≠ some sequenceId := by
        cases hg
        exact hsame
      by_cases hlater : existing.sequenceId.all (· < sequenceId) = true
      · rw [if_pos hlater] at h ⊢
        cases h
        obtain ⟨row, hrow⟩ :
            ∃ row, (groups.overwriteRestored group existing).fetch group.id = some row := by
          rw [hover]
          split
          · exact ⟨_, rfl⟩
          · exact ⟨_, hfetch⟩
        refine ⟨hid, hnot, fun _ => ⟨group.setWelcome row, ?_, hgroup⟩, fun id hne => ?_⟩
        · exact (fetch_updateWhere_id group.id_setWelcome hrow _).trans (if_pos rfl)
        · rw [fetch_updateWhere_id _ hrow, if_neg hne, hover, if_neg fun hand => hne hand.1]
      · rw [if_neg hlater] at h ⊢
        cases h
        refine ⟨hid, hnot, fun hall => absurd (hall _ rfl) hlater, fun id hne => ?_⟩
        rw [hover, if_neg fun hand => hne hand.1]

end InsertOrReplace

theorem fetch_updateGroupMembership (groups : GroupTable) (groupId : Bytes)
    (state : GroupMembershipState) (id : Bytes) :
    (groups.updateGroupMembership groupId state).fetch id =
      (groups.fetch id).map fun g => if g.id = groupId then { g with membershipState := state }
        else g := by
  rw [GroupTable.updateGroupMembership, Table.fetch_updateWhere]
  simp only [decide_eq_true_eq]

namespace XmtpWelcome

theorem insertOrReplaceGroup_eq_ok {group stored : StoredGroup}
    (h : (insertOrReplaceGroup ctx group).outcome s = (.ok stored, s')) :
    (s.groups.insertOrReplaceGroup group).1 = .ok stored ∧
      s' = { s with groups := (s.groups.insertOrReplaceGroup group).2 } := by
  rw [insertOrReplaceGroup, outcome_call_bind_eq_ok, outcome_get_bind] at h
  obtain ⟨-, h⟩ := h
  generalize s.groups.insertOrReplaceGroup group = inserted at h ⊢
  obtain ⟨r, groups⟩ := inserted
  rw [outcome_set_bind, outcome_ofExcept] at h
  cases r with
  | error item => cases h
  | ok g =>
    cases h
    exact ⟨rfl, rfl⟩

theorem updateGroupMembership_eq_ok {readd : Bool} {u : Unit}
    (h : (updateGroupMembership ctx this readd).outcome s = (.ok u, s')) :
    s' = { s with groups := s'.groups } ∧
      (∀ id, (s'.groups.fetch id).map StoredGroup.sequenceId =
        (s.groups.fetch id).map StoredGroup.sequenceId) ∧
      ∀ id, id ≠ this.welcome.content.groupId → s'.groups.fetch id = s.groups.fetch id := by
  unfold updateGroupMembership at h
  split at h
  · rw [outcome_call_bind_eq_ok] at h
    cases h.2
    have hfetch := fetch_updateGroupMembership s.groups this.welcome.content.groupId .allowed
    refine ⟨rfl, fun id => ?_, fun id hne => ?_⟩
    · rw [hfetch id, Option.map_map]
      cases s.groups.fetch id with
      | none => rfl
      | some g =>
        simp only [Option.map_some, Function.comp_apply]
        split <;> rfl
    · rw [hfetch id]
      cases hg : s.groups.fetch id with
      | none => rfl
      | some g =>
        have hid := (Table.fetch_eq_some_iff.mp hg).2
        rw [Option.map_some, if_neg (hid ▸ hne)]
  · obtain ⟨-, rfl⟩ := outcome_pure_eq_ok.mp h
    exact ⟨rfl, fun _ => rfl, fun _ _ => rfl⟩

theorem storeGroup_eq_ok {readd : Bool} {stored : StoredGroup}
    (h : (storeGroup ctx this).outcome s = (.ok (readd, stored), s')) :
    GroupStored this s s' ∧ stored.id = this.welcome.content.groupId ∧
      s'.refreshStates = s.refreshStates := by
  rw [storeGroup, outcome_call_bind_eq_ok, outcome_get_bind, outcome_call_bind_eq_ok,
    outcome_modify_bind, outcome_bind_eq_ok] at h
  obtain ⟨-, -, group, t, hgroup, h⟩ := h
  obtain ⟨rfl, hid, hsequence⟩ := toStore_eq_ok hgroup
  obtain ⟨u, t, hmembership, h⟩ := outcome_bind_eq_ok.mp h
  obtain ⟨hframe, hsequences, hothers⟩ := updateGroupMembership_eq_ok hmembership
  obtain ⟨inserted, t', hinsert, h⟩ := outcome_bind_eq_ok.mp h
  obtain ⟨hpair, rfl⟩ := outcome_pure_eq_ok.mp h
  cases hpair
  obtain ⟨hstored, rfl⟩ := insertOrReplaceGroup_eq_ok hinsert
  obtain ⟨hstoredId, hdistinct, hnewer, hsame⟩ := insertOrReplaceGroup_ok hsequence hstored
  rw [hid] at hstoredId hdistinct hnewer hsame
  rw [hframe]
  refine ⟨⟨rfl, fun g hg => ?_, fun hall => ?_, fun id hne => ?_⟩, hstoredId, rfl⟩
  · obtain ⟨g', hg', heq⟩ := exists_sequenceId (hsequences _) hg
    rw [← heq]
    exact hdistinct g' hg'
  · refine hnewer fun g hg => ?_
    obtain ⟨g', hg', heq⟩ := exists_sequenceId (hsequences _).symm hg
    rw [← heq]
    exact hall g' hg'
  · exact (hsame id hne).trans (hothers id hne)

section Related

variable {groupId : Bytes} {u : Unit}

theorem relatedStored_stitchDmConsent {group : StoredGroup}
    (h : (stitchDmConsent ctx group).outcome s = (.ok u, s')) :
    RelatedStored ctx groupId s s' := by
  rw [stitchDmConsent, outcome_call_bind_eq_ok] at h
  cases h.2
  dsimp only
  split
  · exact .refl s
  · exact ⟨rfl, fun _ => rfl, fun _ _ => rfl, fun _ => rfl⟩

theorem relatedStored_storeOrIgnore {message : StoredGroupMessage}
    (hgroup : message.groupId = groupId)
    (h : (storeOrIgnore ctx message).outcome s = (.ok u, s')) : RelatedStored ctx groupId s s' := by
  rw [storeOrIgnore, outcome_call_bind_eq_ok] at h
  cases h.2
  dsimp only
  split
  · exact .refl s
  · refine ⟨rfl, fun id => ?_, fun id hne => ?_, fun _ => rfl⟩
    · rw [Table.fetch_updateWhere, Option.map_map]
      cases s.groups.fetch id with
      | none => rfl
      | some g =>
        simp only [Option.map_some, Function.comp_apply]
        split <;> rfl
    · rw [Table.fetch_updateWhere]
      cases hg : s.groups.fetch id with
      | none => rfl
      | some g =>
        have hid := (Table.fetch_eq_some_iff.mp hg).2
        have hne' : g.id ≠ message.groupId := by rw [hid, hgroup]; exact hne
        simp [hne']

theorem relatedStored_updateConsentState {state : ConsentState} {id : Bytes}
    (h : (updateConsentState ctx id state).outcome s = (.ok u, s')) :
    RelatedStored ctx groupId s s' := by
  rw [updateConsentState, outcome_call_bind_eq_ok] at h
  cases h.2
  exact ⟨rfl, fun _ => rfl, fun _ _ => rfl, fun _ => rfl⟩

theorem relatedStored_resetConsent {readd : Bool} {id : Bytes}
    (h : (resetConsent ctx this readd id).outcome s = (.ok u, s')) :
    RelatedStored ctx groupId s s' := by
  unfold resetConsent at h
  split at h
  · exact relatedStored_updateConsentState h
  · split at h
    · exact relatedStored_updateConsentState h
    · obtain ⟨-, rfl⟩ := outcome_pure_eq_ok.mp h
      exact .refl s

theorem relatedStored_updateGroupCursor {id : Bytes}
    (h : (updateGroupCursor ctx this id).outcome s = (.ok u, s')) :
    RelatedStored ctx groupId s s' := by
  rw [updateGroupCursor, outcome_call_bind_eq_ok] at h
  cases h.2
  refine ⟨rfl, fun _ => rfl, fun _ _ => rfl, fun o => ?_⟩
  refine (cursorOf_updateCursor _ _ _ _ _ _).trans (if_neg ?_)
  rintro ⟨⟨-, hkind, -⟩, -⟩
  cases hkind

theorem relatedStored_storeRelated {readd : Bool} {stored : StoredGroup}
    (hid : stored.id = groupId)
    (h : (storeRelated ctx this readd stored).outcome s = (.ok u, s')) :
    RelatedStored ctx groupId s s' := by
  obtain ⟨_, _, hstitch, h⟩ := outcome_bind_eq_ok.mp h
  obtain ⟨_, _, hmessage, h⟩ := outcome_bind_eq_ok.mp h
  obtain ⟨_, _, hconsent, h⟩ := outcome_bind_eq_ok.mp h
  obtain ⟨_, _, hcursor, h⟩ := outcome_bind_eq_ok.mp h
  obtain ⟨-, rfl⟩ := Prod.mk.inj h
  have hrelated := (relatedStored_stitchDmConsent hstitch).trans
    (relatedStored_storeOrIgnore hid hmessage)
  exact (hrelated.trans (relatedStored_resetConsent hconsent)).trans
    (relatedStored_updateGroupCursor hcursor)

end Related

theorem commit_eq_ok {r : Option StoredGroup} (h : (commit ctx this).outcome s = (.ok r, s')) :
    WelcomeStored ctx this r s s' := by
  rw [commit, outcome_bind_eq_ok] at h
  obtain ⟨_, t, hprocess, h⟩ := h
  obtain ⟨hrequired, hread, hmoved⟩ := cursorOnly_requireProcessing hprocess
  rw [outcome_call_bind_eq_ok] at h
  obtain ⟨-, h⟩ := h
  split at h
  · rename_i honeshot
    rw [outcome_call_bind_eq_ok] at h
    obtain ⟨rfl, rfl⟩ := outcome_pure_eq_ok.mp h.2
    exact ⟨hrequired, hmoved, iff_of_true rfl honeshot, fun _ => hread, fun h => absurd rfl h⟩
  · rename_i hne
    obtain ⟨⟨readd, stored⟩, m, hgroup, h⟩ := outcome_bind_eq_ok.mp h
    obtain ⟨_, _, hrelated, h⟩ := outcome_bind_eq_ok.mp h
    obtain ⟨rfl, rfl⟩ := outcome_pure_eq_ok.mp h
    obtain ⟨hstored, hid, hstates⟩ := storeGroup_eq_ok hgroup
    have hsame := relatedStored_storeRelated hid hrelated
    refine ⟨hrequired, hmoved.unmoved fun o => ?_, iff_of_false (Option.some_ne_none _) hne,
      fun h => absurd h (Option.some_ne_none _), fun _ => ?_⟩
    · rw [hsame.cursor o, WelcomeStore.welcomeCursor, hstates, WelcomeStore.welcomeCursor]
    · exact (GroupStored.of_cursorOnly hread hstored).related hsame

theorem commitOrFailForever_cases
    {r : Except WelcomeError (Except WelcomeError (Option StoredGroup))}
    (h : (commitOrFailForever ctx this).outcome s = (r, s')) :
    (∃ group, r = .ok (.ok group) ∧ WelcomeStored ctx this group s s') ∨
      (∃ e, r = .ok (.error e) ∧ e.isRetryable = false ∧ this.cursorIncrement = true ∧
        CursorOnly ctx s s' ∧ CursorMoved ctx this true s s') ∨
      ∃ e, r = .error e ∧ s' = s := by
  rw [commitOrFailForever, outcome_transaction] at h
  split at h
  · rename_i result t hok
    cases h
    obtain ⟨committed, m, hsavepoint, hok⟩ := outcome_bind_eq_ok.mp hok
    rcases outcome_savepoint_eq_ok.mp hsavepoint with ⟨group, rfl, hcommit⟩ | ⟨e, _, rfl, -, rfl⟩
    · obtain ⟨-, hok⟩ := outcome_call_bind_eq_ok.mp hok
      obtain ⟨rfl, rfl⟩ := outcome_pure_eq_ok.mp hok
      exact .inl ⟨group, rfl, commit_eq_ok hcommit⟩
    · dsimp only at hok
      split at hok
      · rename_i hforever
        rw [Bool.and_eq_true, Bool.not_eq_true'] at hforever
        obtain ⟨_, t, hupdate, hok⟩ := outcome_bind_eq_ok.mp hok
        obtain ⟨-, hok⟩ := outcome_call_bind_eq_ok.mp hok
        obtain ⟨rfl, rfl⟩ := outcome_pure_eq_ok.mp hok
        exact .inr (.inl ⟨e, rfl, hforever.1, hforever.2, cursorOnly_updateCursor hupdate⟩)
      · exact absurd hok outcome_throw_eq_ok
  · cases h
    exact .inr (.inr ⟨_, rfl, rfl⟩)

end XmtpWelcome

namespace WelcomeFlight

variable {f : WelcomeFlight}

def Sound (f : WelcomeFlight) : Prop :=
  ∀ e, f.phase = .failing e → e.isRetryable = false ∧ f.cursorIncrement = true

def Finds (f : WelcomeFlight) (s : WelcomeStore) (group : Option StoredGroup) : Prop :=
  f.phase = .behind ∧ ∃ found, group = some found ∧
    s.groups.findGroupBySequenceId f.welcome.cursor = some found

inductive Effect (ctx : WelcomeContext) (f : WelcomeFlight) (s : WelcomeStore) :
    WelcomePhase → WelcomeStore → Prop
  | read {phase : WelcomePhase} {s' : WelcomeStore} (hread : CursorOnly ctx s s')
    (hcursor : ∀ o, s'.welcomeCursor ctx o = s.welcomeCursor ctx o)
    (hresult : ∀ group, phase = .done (.ok group) →
      f.Finds s group ∨ f.phase = .done (.ok group)) : Effect ctx f s phase s'
  | failed {e : WelcomeError} {s' : WelcomeStore} (hforever : e.isRetryable = false)
    (hincrement : f.cursorIncrement = true) (hread : CursorOnly ctx s s')
    (hmoved : CursorMoved ctx f.toXmtpWelcome true s s') : Effect ctx f s (.done (.error e)) s'
  | committed {group : Option StoredGroup} {s' : WelcomeStore} (hphase : f.phase = .validated)
    (hcommitted : WelcomeStored ctx f.toXmtpWelcome group s s') : Effect ctx f s (.done (.ok group)) s'

theorem Effect.unread {phase : WelcomePhase} (hresult : ∀ group, phase = .done (.ok group) →
    f.Finds s group ∨ f.phase = .done (.ok group)) : Effect ctx f s phase s :=
  .read (.refl s) (fun _ => rfl) hresult

theorem Effect.error (e : WelcomeError) : Effect ctx f s (.done (.error e)) s :=
  .unread (by rintro _ ⟨⟩)

section Fail

variable {P : WelcomePhase → Prop}

theorem fail_of (e : WelcomeError) (hdone : P (.done (.error e)))
    (hfailing : e.isRetryable = false → f.cursorIncrement = true → P (.failing e)) :
    P (f.fail e) := by
  unfold fail
  split
  · rename_i h
    rw [Bool.and_eq_true, Bool.not_eq_true'] at h
    exact hfailing h.1 h.2
  · exact hdone

theorem after_of {name : WelcomeCall} {failed : WelcomeError → WelcomePhase} {next : WelcomePhase}
    (hfailed : ∀ e, ctx.calls name = .error e → P (failed e))
    (hnext : ctx.calls name = .ok () → P next) : P (after ctx name failed next) := by
  unfold after
  split
  · rename_i e he
    exact hfailed e he
  · rename_i hok
    exact hnext hok

end Fail

theorem check_of {P : WelcomePhase → Prop} (s : WelcomeStore)
    (herror : ∀ e, P (.done (.error e)))
    (hfailing : ∀ e, e.isRetryable = false → f.cursorIncrement = true → P (.failing e))
    (hbehind : ∀ group, f.Finds s (some group) → P (.done (.ok (some group))))
    (hother : ∀ phase ∈ [WelcomePhase.unprocessed, .decrypted, .found, .cached, .joined, .active,
      .validated], P phase) (hsame : P f.phase) : P (f.check ctx s) := by
  have hfail (e : WelcomeError) : P (f.fail e) := fail_of e (herror e) (hfailing e)
  have hafter {name : WelcomeCall} {next : WelcomePhase} (hnext : P next) :
      P (after ctx name f.fail next) := after_of (fun e _ => hfail e) fun _ => hnext
  have hvalidated : P .validated := hother _ (by simp)
  unfold check
  dsimp only
  split
  · rename_i hphase
    refine after_of (fun e _ => herror e) fun _ => ?_
    split
    · rename_i group hgroup
      exact hbehind group ⟨hphase, group, rfl, hgroup⟩
    · exact hother _ (by simp)
  · exact hafter (hafter (hother _ (by simp)))
  · refine hafter ?_
    split
    · exact hother _ (by simp)
    · exact hvalidated
  · refine after_of (fun _ _ => hvalidated) fun _ => ?_
    split
    · exact hother _ (by simp)
    · exact hvalidated
  · refine hafter ?_
    split
    · exact hfail _
    · split
      · exact hvalidated
      · exact hother _ (by simp)
  · refine hafter ?_
    split
    · exact hfail _
    · split
      · exact hother _ (by simp)
      · exact hvalidated
  · refine hafter ?_
    split
    · exact hfail _
    · split
      · exact hfail _
      · exact hvalidated
  · exact hsame

theorem effect_check (s : WelcomeStore) : Effect ctx f s (f.check ctx s) s := by
  apply check_of (P := fun phase => Effect ctx f s phase s)
  · exact fun e => .error e
  · exact fun e _ _ => .unread (by rintro _ ⟨⟩)
  · rintro group hfinds
    refine .unread ?_
    rintro _ ⟨⟩
    exact .inl hfinds
  · intro phase hmem
    refine .unread fun group hphase => ?_
    subst hphase
    simp at hmem
  · exact .unread fun group hphase => .inr hphase

variable (ctx) in
theorem effect_run (hsound : f.Sound) (s : WelcomeStore) :
    Effect ctx f s (f.run ctx s).1 (f.run ctx s).2 := by
  unfold run
  split
  · split
    · exact .unread (by rintro _ ⟨⟩)
    · split
      · rename_i e s' h
        obtain ⟨hread, hcursor, -⟩ := XmtpWelcome.cursorOnly_lastSequenceId h
        exact .read hread hcursor (by rintro _ ⟨⟩)
      · rename_i last s' h
        obtain ⟨hread, hcursor, -⟩ := XmtpWelcome.cursorOnly_lastSequenceId h
        refine .read hread hcursor fun group hphase => ?_
        split at hphase <;> cases hphase
  · rename_i e hphase
    obtain ⟨hforever, hincrement⟩ := hsound e hphase
    split
    · rename_i e' s' h
      obtain ⟨hread, hmoved⟩ := XmtpWelcome.cursorOnly_updateCursor h
      refine .read hread (fun o => (hmoved o).trans (if_neg ?_)) (by rintro _ ⟨⟩)
      rintro ⟨⟨-, hok⟩, -⟩
      cases hok
    · rename_i u s' h
      obtain ⟨hread, hmoved⟩ := XmtpWelcome.cursorOnly_updateCursor h
      exact .failed hforever hincrement hread hmoved
  · rename_i hphase
    split
    · rename_i e s' h
      rcases XmtpWelcome.commitOrFailForever_cases h with
        ⟨_, ⟨⟩, _⟩ | ⟨_, ⟨⟩, _⟩ | ⟨_, _, rfl⟩
      exact .error e
    · rename_i result s' h
      rcases XmtpWelcome.commitOrFailForever_cases h with
        ⟨group, heq, hcommitted⟩ | ⟨e, heq, hforever, hincrement, hread, hmoved⟩ | ⟨_, ⟨⟩, _⟩
      · cases heq
        exact .committed hphase hcommitted
      · cases heq
        exact .failed hforever hincrement hread hmoved
  · exact effect_check s

theorem Sound.step (hsound : f.Sound) (s : WelcomeStore) : (f.step ctx s).Sound := by
  intro e hphase
  show e.isRetryable = false ∧ f.cursorIncrement = true
  have hcheck : ∀ e, f.check ctx s = .failing e →
      e.isRetryable = false ∧ f.cursorIncrement = true := by
    apply check_of (P := fun phase => ∀ e, phase = .failing e →
      e.isRetryable = false ∧ f.cursorIncrement = true)
    · rintro _ _ ⟨⟩
    · rintro _ hforever hincrement _ ⟨⟩
      exact ⟨hforever, hincrement⟩
    · rintro _ _ _ ⟨⟩
    · rintro phase hmem _ rfl
      simp at hmem
    · exact hsound
  replace hphase : (f.run ctx s).1 = .failing e := hphase
  unfold run at hphase
  split at hphase
  · split at hphase
    · cases hphase
    · split at hphase
      · cases hphase
      · dsimp only at hphase
        split at hphase <;> cases hphase
  · split at hphase <;> cases hphase
  · split at hphase <;> cases hphase
  · exact hcheck e hphase

end WelcomeFlight

end LibXmtp.Groups
