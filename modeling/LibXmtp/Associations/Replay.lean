import LibXmtp.Associations.AssociationLog

namespace LibXmtp.Associations

open LibXmtp.Data

/-- A step of a replay: an action is applied, or an update is closed by the check of its inbox id
and the recording of its signatures. -/
inductive Event
  | action (clientTimestampNs : UInt64) (action : Action)
  | seal (inboxId : String) (signatures : List Bytes)

namespace Event

def action? : Event → Option Action
  | .action _ a => some a
  | .seal _ _ => none

end Event

def IdentityUpdate.events (u : IdentityUpdate) : List Event :=
  u.actions.map (.action u.clientTimestampNs) ++ [.seal u.inboxId u.signatures]

def events (updates : List IdentityUpdate) : List Event := updates.flatMap IdentityUpdate.events

def actions (updates : List IdentityUpdate) : List Action :=
  updates.flatMap IdentityUpdate.actions

section Run

variable (crates : Crates)

def sealUpdate (inboxId : String) (signatures : List Bytes) (state : Option AssociationState) :
    Except AssociationError AssociationState := do
  let newState ← okOr state .notCreated
  rejectIf (newState.inboxId != inboxId) .wrongInboxId
  return newState.addSeenSignatures signatures

def stepEvent (state : Option AssociationState) :
    Event → Except AssociationError (Option AssociationState)
  | .action ts a => some <$> a.updateState crates state ts
  | .seal inboxId signatures => some <$> sealUpdate inboxId signatures state

abbrev Run (st : Option AssociationState) (es : List Event) (st' : Option AssociationState) : Prop :=
  Steps (stepEvent crates) st es st'

variable {crates}

@[simp] theorem sealUpdate_eq_ok {inboxId : String} {sigs : List Bytes}
    {st : Option AssociationState} {s' : AssociationState} :
    sealUpdate inboxId sigs st = .ok s' ↔
      ∃ s, st = some s ∧ s.inboxId = inboxId ∧ s' = s.addSeenSignatures sigs := by
  simp only [sealUpdate, bind_eq_ok, okOr_eq_ok, rejectIf_eq_ok, pure_eq_ok, bne_eq_false_iff_eq]
  constructor
  · rintro ⟨s, rfl, _, hid, rfl⟩
    exact ⟨s, rfl, hid, rfl⟩
  · rintro ⟨s, rfl, hid, rfl⟩
    exact ⟨s, rfl, ⟨⟩, hid, rfl⟩

inductive Transition (crates : Crates) :
    Option AssociationState → Event → AssociationState → Prop
  | create : c.Accepted crates inboxId →
      Transition crates none (.action ts (.createInbox c)) (c.initialState inboxId)
  | add : a.Accepted crates s entity →
      Transition crates (some s) (.action ts (.addAssociation a)) (s.add (a.newMember entity ts))
  | revoke : RecoveryAccepted a.recoveryIdentifierSignature s →
      Transition crates (some s) (.action ts (.revokeAssociation a))
        ((s.remove a.revokedMember).removeAll (a.installationsToRemove s))
  | changeRecovery : RecoveryAccepted a.recoveryIdentifierSignature s →
      Transition crates (some s) (.action ts (.changeRecoveryIdentity a))
        (s.setRecoveryIdentifier a.newRecoveryIdentifier)
  | sealed : s.inboxId = inboxId →
      Transition crates (some s) (.seal inboxId signatures) (s.addSeenSignatures signatures)

theorem stepEvent_eq_ok {st : Option AssociationState} {ev : Event}
    {st' : Option AssociationState} :
    stepEvent crates st ev = .ok st' ↔ ∃ s', st' = some s' ∧ Transition crates st ev s' := by
  constructor
  · intro h
    cases ev with
    | action ts a =>
      simp only [stepEvent, map_eq_ok] at h
      obtain ⟨s', h, rfl⟩ := h
      refine ⟨s', rfl, ?_⟩
      cases a with
      | createInbox c =>
        obtain ⟨rfl, inboxId, hc, rfl⟩ := CreateInbox.updateState_eq_ok.mp h
        exact .create hc
      | addAssociation a =>
        obtain ⟨s, entity, rfl, ha, rfl⟩ := AddAssociation.updateState_eq_ok.mp h
        exact .add ha
      | revokeAssociation a =>
        obtain ⟨s, rfl, ha, rfl⟩ := RevokeAssociation.updateState_eq_ok.mp h
        exact .revoke ha
      | changeRecoveryIdentity a =>
        obtain ⟨s, rfl, ha, rfl⟩ := ChangeRecoveryIdentity.updateState_eq_ok.mp h
        exact .changeRecovery ha
    | «seal» inboxId signatures =>
      simp only [stepEvent, map_eq_ok, sealUpdate_eq_ok] at h
      obtain ⟨_, ⟨s, rfl, hid, rfl⟩, rfl⟩ := h
      exact ⟨_, rfl, .sealed hid⟩
  · rintro ⟨s', rfl, h⟩
    cases h with
    | create hc =>
      simp [stepEvent, Action.updateState, CreateInbox.updateState_eq_ok.mpr ⟨rfl, _, hc, rfl⟩]
    | add ha =>
      simp [stepEvent, Action.updateState,
        AddAssociation.updateState_eq_ok.mpr ⟨_, _, rfl, ha, rfl⟩]
    | revoke ha =>
      simp [stepEvent, Action.updateState, RevokeAssociation.updateState_eq_ok.mpr ⟨_, rfl, ha, rfl⟩]
    | changeRecovery ha =>
      simp [stepEvent, Action.updateState,
        ChangeRecoveryIdentity.updateState_eq_ok.mpr ⟨_, rfl, ha, rfl⟩]
    | sealed hid => simp [stepEvent, hid]

theorem Run.induction {P : List Event → AssociationState → Prop} {es : List Event}
    {s : AssociationState} (h : Run crates none es (some s))
    (start : ∀ ev s', Transition crates none ev s' → P [ev] s')
    (step : ∀ pre m ev s', Run crates none pre (some m) → P pre m →
      Transition crates (some m) ev s' → P (pre ++ [ev]) s') : P es s := by
  have hist := h.history (P := fun pre st => (st = none → pre = []) ∧ ∀ s, st = some s → P pre s)
    ⟨fun _ => rfl, nofun⟩ (by
      rintro pre st ev st' hpre ⟨hnone, hsome⟩ hstep
      obtain ⟨s', rfl, ht⟩ := stepEvent_eq_ok.mp hstep
      refine ⟨nofun, ?_⟩
      rintro _ ⟨⟩
      cases st with
      | none =>
        rw [hnone rfl]
        exact start ev s' ht
      | some m => exact step pre m ev s' hpre (hsome m rfl) ht)
  exact hist.2 s rfl

theorem events_append (us vs : List IdentityUpdate) : events (us ++ vs) = events us ++ events vs :=
  List.flatMap_append

theorem events_cons (u : IdentityUpdate) (us : List IdentityUpdate) :
    events (u :: us) = u.events ++ events us := rfl

theorem IdentityUpdate.actions_events (u : IdentityUpdate) :
    u.events.filterMap Event.action? = u.actions := by
  simp only [events, List.filterMap_append, List.filterMap_map]
  induction u.actions with
  | nil => rfl
  | cons a as ih => simpa [Event.action?] using ih

theorem actions_events (us : List IdentityUpdate) :
    (events us).filterMap Event.action? = actions us := by
  induction us with
  | nil => rfl
  | cons u us ih =>
    simp only [events_cons, List.filterMap_append, u.actions_events, ih]
    rfl

theorem IdentityUpdate.updateState_eq_ok {u : IdentityUpdate} {st : Option AssociationState}
    {s' : AssociationState} :
    u.updateState crates st = .ok s' ↔ Run crates st u.events (some s') := by
  have hactions : ∀ as st st',
      Steps (fun state action => some <$> Action.updateState crates state u.clientTimestampNs action)
        st as st' ↔ Run crates st (as.map (.action u.clientTimestampNs)) st' := by
    intro as
    induction as with
    | nil => simp
    | cons a as ih =>
      intro st st'
      simp only [Steps.cons_iff, List.map_cons, ih]
      rfl
  simp only [updateState, bind_eq_ok, Steps.foldlM_eq_ok, okOr_eq_ok, rejectIf_eq_ok, pure_eq_ok,
    hactions, events, Run, Steps.append_iff, bne_eq_false_iff_eq]
  constructor
  · rintro ⟨m, hrun, s, rfl, _, hid, rfl⟩
    refine ⟨some s, hrun, Steps.single ?_⟩
    simp [stepEvent, hid]
  · rintro ⟨m, hrun, hseal⟩
    obtain ⟨n, hstep, hn⟩ := Steps.cons_iff.mp hseal
    simp only [Steps.nil_iff] at hn
    subst hn
    simp only [stepEvent, map_eq_ok, sealUpdate_eq_ok] at hstep
    obtain ⟨_, ⟨s, rfl, hid, rfl⟩, ⟨⟩⟩ := hstep
    exact ⟨some s, hrun, s, rfl, ⟨⟩, hid, rfl⟩

theorem foldlM_updateState_eq_ok {us : List IdentityUpdate} {st st' : Option AssociationState} :
    us.foldlM (fun state update => some <$> IdentityUpdate.updateState crates update state) st =
      .ok st' ↔ Run crates st (events us) st' := by
  induction us generalizing st with
  | nil => simp [events]
  | cons u us ih =>
    simp only [List.foldlM_cons, bind_eq_ok, map_eq_ok, ih, events_cons, Run, Steps.append_iff,
      IdentityUpdate.updateState_eq_ok]
    constructor
    · rintro ⟨_, ⟨s, hu, rfl⟩, hrest⟩
      exact ⟨some s, hu, hrest⟩
    · rintro ⟨m, hu, hrest⟩
      cases m with
      | some s => exact ⟨some s, ⟨s, hu, rfl⟩, hrest⟩
      | none =>
        -- an update ends with its seal, which leaves a state
        obtain ⟨n, _, hseal⟩ := Steps.append_iff.mp hu
        obtain ⟨_, hstep, hn⟩ := Steps.cons_iff.mp hseal
        simp only [Steps.nil_iff] at hn
        subst hn
        simp [stepEvent] at hstep

theorem getState_eq_ok {us : List IdentityUpdate} {s : AssociationState} :
    getState crates us = .ok s ↔ Run crates none (events us) (some s) := by
  simp only [getState, bind_eq_ok, okOr_eq_ok, foldlM_updateState_eq_ok]
  constructor
  · rintro ⟨_, hrun, rfl⟩
    exact hrun
  · intro hrun
    exact ⟨_, hrun, rfl⟩

end Run

/-! A short log: an inbox is created and gets an installation, its recovery moves to a second
wallet, and that wallet revokes the installation. -/

namespace Sample

def wallet : Identifier := .ethereum "0x5aaeb6053f3e94c9b9a09f33669435e7ef1beaed"

def otherWallet : Identifier := .ethereum "0xfb6916095ca1df60bb79ce92ce3ea74c37c5d359"

def installation : MemberIdentifier := .installation [7]

def sha256 (text : String) : Bytes :=
  if text == "0x5aaeb6053f3e94c9b9a09f33669435e7ef1beaed0" then
    [0x8a, 0x2d, 0x56, 0x4e, 0x87, 0x51, 0x24, 0x1f, 0xdb, 0xa3, 0xbe, 0xab, 0xa3, 0x34, 0xfe, 0x43,
      0x6a, 0xc2, 0x7c, 0x0f, 0xc3, 0x3f, 0xd6, 0xba, 0xb9, 0x52, 0xf4, 0xa9, 0x4d, 0x32, 0x57, 0xd2]
  else if text == "0x5aaeb6053f3e94c9b9a09f33669435e7ef1beaed1" then
    [0x0e, 0x29, 0x28, 0xb6, 0xd7, 0xcf, 0x29, 0xca, 0xcd, 0x3b, 0x83, 0x58, 0x86, 0x29, 0x63, 0x9f,
      0x43, 0xb4, 0x6e, 0xb7, 0xb1, 0xbb, 0x14, 0xe7, 0x38, 0x05, 0x7c, 0x68, 0xe8, 0xd3, 0x45, 0x0e]
  else if text == "0xfb6916095ca1df60bb79ce92ce3ea74c37c5d3590" then
    [0x79, 0xc9, 0x7a, 0xeb, 0x22, 0xa7, 0x6e, 0xab, 0x14, 0xf5, 0x88, 0x2a, 0x24, 0x7d, 0xcb, 0xac,
      0x63, 0x7c, 0xe7, 0xa0, 0x52, 0xa4, 0xd1, 0x3f, 0x35, 0x93, 0x82, 0xbb, 0x04, 0x16, 0xe7, 0x13]
  else []

def crates : Crates := ⟨Hex.lower, sha256⟩

def inboxId : String := "8a2d564e8751241fdba3beaba334fe436ac27c0fc33fd6bab952f4a94d3257d2"

def signed (signer : MemberIdentifier) (kind : SignatureKind) (byte : UInt8) : VerifiedSignature :=
  ⟨signer, kind, [byte], none⟩

def created : IdentityUpdate :=
  ⟨inboxId, 1, [.createInbox ⟨0, wallet, signed wallet.toMember .erc191 1⟩,
    .addAssociation ⟨signed installation .installationKey 2, installation,
      signed wallet.toMember .erc191 3⟩]⟩

def recoveryMoved : IdentityUpdate :=
  ⟨inboxId, 2, [.changeRecoveryIdentity ⟨signed wallet.toMember .erc191 4, otherWallet⟩]⟩

def revoked : IdentityUpdate :=
  ⟨inboxId, 3, [.revokeAssociation ⟨signed otherWallet.toMember .erc191 5, installation⟩]⟩

def log : List IdentityUpdate := [created, recoveryMoved, revoked]

theorem exists_of_check (us : List IdentityUpdate) (check : AssociationState → Bool)
    (h : ((getState crates us).toOption.any check) = true) :
    ∃ s, getState crates us = .ok s ∧ check s = true := exists_of_any h

theorem getState_log : ∃ s, getState crates log = .ok s := by
  obtain ⟨s, hs, _⟩ := exists_of_check log (fun _ => true) (by decide +kernel)
  exact ⟨s, hs⟩

end Sample

end LibXmtp.Associations
