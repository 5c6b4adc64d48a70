import LibXmtp.AppData.RunInvariants
import LibXmtp.AppData.StoredCollections

namespace LibXmtp.AppData

open LibXmtp.Data LibXmtp.Groups

def decodeInboxIdList (hex : Hex) (wire : Wire) (componentId : UInt16) (bytes : Bytes) :
    Except GroupMutableMetadataError (List String) := do
  let set ← ((TlsSet.codec wire.vlen (InboxId.codec wire.vlen)).deserializeExact bytes).mapError
    fun e => .malformedComponent (some componentId) s!"invalid TlsSet<InboxId>: {e.text}"
  return set.iter.map (InboxId.toHex hex)

def readInboxIdList (hex : Hex) (wire : Wire) (extensions : Extensions) (componentId : UInt16) :
    Except GroupMutableMetadataError (List String) :=
  match readFromAppDataDict componentId extensions with
  | some bytes => decodeInboxIdList hex wire componentId bytes
  | none => .ok []

def actorAuthority (hex : Hex) (wire : Wire) (extensions : Extensions) (inboxId : String) :
    Except GroupMutableMetadataError ActorAuthority := do
  let adminList ← readInboxIdList hex wire extensions ComponentId.adminList
  let superAdminList ← readInboxIdList hex wire extensions ComponentId.superAdminList
  return ⟨adminList.contains inboxId, superAdminList.contains inboxId⟩

/-- An accepted commit whose proposers have the authority the state before it gives them. -/
structure AuthorizedUpdates {Version : Type} (hex : Hex) (semver : Semver Version) (host : Host)
    (extensions : Extensions) (proposals : List AuthoredUpdate) (extensions' : Extensions) :
    Prop where
  accepted : AcceptedUpdates semver host extensions proposals extensions'
  authority : ∀ p ∈ proposals, actorAuthority hex host.toWire extensions p.proposer = .ok p.actor

section Set

variable {wire : Wire} {key : InboxId} {value : Option Bytes}

def decodeInboxIdDelta (wire : Wire) (payload : Bytes) :
    Except TlsCodecError (TlsSetDelta InboxId) :=
  (TlsSetDelta.codec wire.vlen (InboxId.codec wire.vlen)).deserializeExact payload

def inboxIdHashing (wire : Wire) : KeyHashing InboxId := ⟨wire.sha256, InboxId.codec wire.vlen⟩

def Holds (wire : Wire) (value : Option Bytes) (key : InboxId) : Prop :=
  ∃ set, readSet wire (InboxId.codec wire.vlen) value = .ok set ∧ key ∈ set.iter

def HoldsSome (wire : Wire) (value : Option Bytes) : Prop :=
  ∃ bytes set, value = some bytes ∧
    (TlsSet.codec wire.vlen (InboxId.codec wire.vlen)).deserializeExact bytes = .ok set ∧
    set.isEmpty = false

theorem holdsSome_iff : HoldsSome wire value ↔ ∃ key, Holds wire value key := by
  constructor
  · rintro ⟨bytes, set, hvalue, hset, hempty⟩
    obtain ⟨key, hkey⟩ := TlsSet.isEmpty_eq_false.mp hempty
    refine ⟨key, set, ?_, hkey⟩
    rw [hvalue, readSet, hset]
    rfl
  · rintro ⟨key, set, hset, hkey⟩
    cases value with
    | none =>
      cases hset
      cases hkey
    | some bytes =>
      rw [readSet, mapError_eq_ok] at hset
      exact ⟨bytes, set, rfl, hset, TlsSet.isEmpty_eq_false.mpr ⟨key, hkey⟩⟩

def Deletes (wire : Wire) (key : InboxId) : TlsSetMutation InboxId → Prop
  | .insert _ => False
  | .remove k => k = key
  | .removeByHash hash => (inboxIdHashing wire).of key = .ok hash

def Grants (wire : Wire) (key : InboxId) : AppDataUpdateOperation → Prop
  | .remove => False
  | .update payload => ∃ delta, decodeInboxIdDelta wire payload = .ok delta ∧
    ∃ l r, delta.mutations = l ++ .insert key :: r ∧ ∀ mutation ∈ r, ¬Deletes wire key mutation

def Spares (wire : Wire) (key : InboxId) : AppDataUpdateOperation → Prop
  | .remove => False
  | .update payload => ∀ delta, decodeInboxIdDelta wire payload = .ok delta →
    ∀ mutation ∈ delta.mutations, ¬Deletes wire key mutation

def HashesApart (wire : Wire) : Prop :=
  ∀ a b hash, (inboxIdHashing wire).of a = .ok hash → (inboxIdHashing wire).of b = .ok hash → a = b

theorem deletes_of_removes {set : TlsSet InboxId} {delta : TlsSetDelta InboxId}
    {index : HashMap TlsKeyHash InboxId}
    (hindex : TlsSet.deltaIndex (inboxIdHashing wire) set delta = .ok index)
    {mutation : TlsSetMutation InboxId} (h : TlsSet.Removes index key mutation) :
    Deletes wire key mutation := by
  cases mutation with
  | insert k => exact h
  | remove k => exact h
  | removeByHash hash => exact (TlsSet.get_deltaIndex hindex h).2

theorem removes_of_deletes (hapart : HashesApart wire) {set : TlsSet InboxId}
    {delta : TlsSetDelta InboxId} {index : HashMap TlsKeyHash InboxId}
    (hindex : TlsSet.deltaIndex (inboxIdHashing wire) set delta = .ok index)
    {m n : TlsMap InboxId Unit} {mutation : TlsSetMutation InboxId}
    (hmutate : TlsSet.mutate index m mutation = .ok n) (h : Deletes wire key mutation) :
    TlsSet.Removes index key mutation := by
  cases mutation with
  | insert k => exact h
  | remove k => exact h
  | removeByHash hash =>
    simp only [TlsSet.mutate, TlsSet.resolve, bind_eq_ok, okOr_eq_ok] at hmutate
    obtain ⟨_, ⟨k, hget, _⟩, _⟩ := hmutate
    have hhash := (TlsSet.get_deltaIndex hindex hget).2
    rw [TlsSet.Removes, hapart key k hash h hhash]
    exact hget

theorem readInboxIdSet_serialize {set : TlsSet InboxId} {bytes : Bytes}
    (h : (TlsSet.codec wire.vlen (InboxId.codec wire.vlen)).serialize set = .ok bytes) :
    readSet wire (InboxId.codec wire.vlen) (some bytes) = .ok set :=
  readSet_serialize (InboxId.codec_lawful _) (InboxId.codec_positive _) h

theorem holds_of_update {payload bytes : Bytes}
    (h : applyInboxIdSetDelta wire payload value = .ok bytes)
    (hkey : Grants wire key (.update payload) ∨
      Holds wire value key ∧ Spares wire key (.update payload)) :
    Holds wire (some bytes) key := by
  have ⟨delta, hdelta, set, hset, set', happly, hbytes⟩ := applySetDelta_eq_ok.mp h
  have ⟨index, hindex, hsteps⟩ := TlsSet.steps_of_applyDelta happly
  refine ⟨set', readInboxIdSet_serialize hbytes, TlsSet.mem_iter.mpr ?_⟩
  have hstep : ∀ m mutation n, mutation ∈ delta.mutations →
      TlsSet.mutate index m mutation = .ok n →
      mutation = .insert key ∨ (m.get key).isSome ∧ ¬Deletes wire key mutation →
        (n.get key).isSome := by
    intro m mutation n _ hmutate hword
    rw [TlsSet.mem_of_mutate hmutate]
    exact hword.imp_right (And.imp_right fun hleaves hremoves =>
      hleaves (deletes_of_removes hindex hremoves))
  apply LastWord.steps (P := fun m => (m.get key).isSome) hsteps hstep
  cases hkey with
  | inl hgrants =>
    have ⟨delta', hdelta', l, r, hsplit, hr⟩ := hgrants
    rw [decodeInboxIdDelta, hdelta, Except.ok.injEq] at hdelta'
    subst hdelta'
    exact .inr ⟨l, _, r, hsplit, rfl, hr⟩
  | inr hspares =>
    have ⟨⟨held, hheld, hmem⟩, hleaves⟩ := hspares
    rw [hset, Except.ok.injEq] at hheld
    subst hheld
    exact .inl ⟨TlsSet.mem_iter.mp hmem, hleaves delta hdelta⟩

theorem update_of_holds (hapart : HashesApart wire) {payload bytes : Bytes}
    (h : applyInboxIdSetDelta wire payload value = .ok bytes) (hkey : Holds wire (some bytes) key) :
    Grants wire key (.update payload) ∨
      Holds wire value key ∧ Spares wire key (.update payload) := by
  have ⟨delta, hdelta, set, hset, set', happly, hbytes⟩ := applySetDelta_eq_ok.mp h
  have ⟨index, hindex, hsteps⟩ := TlsSet.steps_of_applyDelta happly
  have ⟨held, hheld, hmem⟩ := hkey
  rw [readInboxIdSet_serialize hbytes, Except.ok.injEq] at hheld
  subst hheld
  have hstep : ∀ m mutation n, mutation ∈ delta.mutations →
      TlsSet.mutate index m mutation = .ok n → (n.get key).isSome →
        mutation = .insert key ∨ (m.get key).isSome ∧ ¬Deletes wire key mutation := by
    intro m mutation n _ hmutate hn
    exact ((TlsSet.mem_of_mutate hmutate key).mp hn).imp_right (And.imp_right
      fun hremoves hdeletes => hremoves (removes_of_deletes hapart hindex hmutate hdeletes))
  have hlast := LastWord.of_steps (P := fun m => (m.get key).isSome) hsteps hstep
    (TlsSet.mem_iter.mp hmem)
  rcases hlast with ⟨hset', hleaves⟩ | ⟨l, _, r, hsplit, heq, hr⟩
  · refine .inr ⟨⟨set, hset, TlsSet.mem_iter.mpr hset'⟩, ?_⟩
    intro delta' hdelta'
    rw [decodeInboxIdDelta, hdelta, Except.ok.injEq] at hdelta'
    exact hdelta' ▸ hleaves
  · subst heq
    exact .inl ⟨delta, hdelta, l, r, hsplit, hr⟩

end Set

section Commit

variable {Version : Type} {hex : Hex} {semver : Semver Version} {host : Host}
  {registry : ComponentRegistry} {extensions extensions' : Extensions}
  {proposals : List AuthoredUpdate} {key : InboxId} {value value' : Option Bytes}

theorem lookup_superAdminList (host : Host) :
    lookupComponent host ComponentId.superAdminList =
      some (superAdminListComponent host.toWire) := by
  have hmem : superAdminListComponent host.toWire ∈ wellKnown host.toWire := by simp [wellKnown]
  exact lookupComponent_of_mem hmem

theorem apply_superAdminList {payload bytes : Bytes} :
    applyAppDataUpdatePayload host ComponentId.superAdminList registry payload value = .ok bytes ↔
      applyInboxIdSetDelta host.toWire payload value = .ok bytes := by
  rw [applyAppDataUpdatePayload_eq_ok (lookup_superAdminList host)]
  exact and_iff_right rfl

theorem applyOperation_eq_ok {id : UInt16} {operation : AppDataUpdateOperation} :
    applyOperation host registry id value operation = .ok value' ↔
      (operation = .remove ∧ value' = none) ∨ ∃ payload bytes, operation = .update payload ∧
        value' = some bytes ∧
        applyAppDataUpdatePayload host id registry payload value = .ok bytes := by
  cases operation with
  | update payload => simp [applyOperation, eq_comm (a := value'), and_comm]
  | remove => simp [applyOperation, eq_comm (a := value')]

theorem holds_of_operation {operation : AppDataUpdateOperation}
    (h : applyOperation host registry ComponentId.superAdminList value operation = .ok value')
    (hkey : Grants host.toWire key operation ∨
      Holds host.toWire value key ∧ Spares host.toWire key operation) :
    Holds host.toWire value' key := by
  rcases applyOperation_eq_ok.mp h with ⟨hop, _⟩ | ⟨payload, bytes, hop, hvalue', happly⟩
  · subst hop
    cases hkey with
    | inl hgrants => cases hgrants
    | inr hspares => cases hspares.2
  · subst hop hvalue'
    exact holds_of_update (apply_superAdminList.mp happly) hkey

theorem operation_of_holds (hapart : HashesApart host.toWire) {operation : AppDataUpdateOperation}
    (h : applyOperation host registry ComponentId.superAdminList value operation = .ok value')
    (hkey : Holds host.toWire value' key) :
    Grants host.toWire key operation ∨
      Holds host.toWire value key ∧ Spares host.toWire key operation := by
  rcases applyOperation_eq_ok.mp h with ⟨_, hvalue'⟩ | ⟨payload, bytes, hop, hvalue', happly⟩
  · subst hvalue'
    have ⟨set, hset, hmem⟩ := hkey
    cases hset
    cases hmem
  · subst hop hvalue'
    exact update_of_holds hapart (apply_superAdminList.mp happly) hkey

/-- Some inbox is put on the list and not deleted afterwards, or is on it and not deleted, and the
list is not removed later either. -/
def LeavesSuperAdmin (wire : Wire) (extensions : Extensions) (proposals : List AuthoredUpdate) :
    Prop :=
  ∃ key, LastWord (Grants wire key) (Spares wire key)
    (Holds wire (readFromAppDataDict ComponentId.superAdminList extensions) key)
    (KeyedFold.operationsOn ComponentId.superAdminList (updatesOf proposals))

theorem AcceptedUpdates.steps (h : AcceptedUpdates semver host extensions proposals extensions')
    (id : UInt16) : ∃ registry, loadComponentRegistry host.toWire extensions = .ok registry ∧
      Steps (applyOperation host registry id) (readFromAppDataDict id extensions)
        (KeyedFold.operationsOn id (updatesOf proposals)) (readFromAppDataDict id extensions') := by
  cases h with
  | @commit registry updates loaded _ applied post =>
    refine ⟨registry, loaded, ?_⟩
    rw [post, ← Steps.foldlM_eq_ok]
    exact foldOperations_of_accumulateAppDataUpdates loaded applied id

theorem AcceptedUpdates.holdsSome
    (h : AcceptedUpdates semver host extensions proposals extensions')
    (hleaves : LeavesSuperAdmin host.toWire extensions proposals) :
    HoldsSome host.toWire (readFromAppDataDict ComponentId.superAdminList extensions') := by
  have ⟨registry, _, hsteps⟩ := h.steps ComponentId.superAdminList
  have ⟨key, hlast⟩ := hleaves
  rw [holdsSome_iff]
  refine ⟨key, LastWord.steps (P := fun value => Holds host.toWire value key) hsteps ?_ hlast⟩
  intro value operation value' _ happly
  exact holds_of_operation happly

theorem AcceptedUpdates.leavesSuperAdmin (hapart : HashesApart host.toWire)
    (h : AcceptedUpdates semver host extensions proposals extensions')
    (hsome : HoldsSome host.toWire (readFromAppDataDict ComponentId.superAdminList extensions')) :
    LeavesSuperAdmin host.toWire extensions proposals := by
  have ⟨registry, _, hsteps⟩ := h.steps ComponentId.superAdminList
  have ⟨key, hkey⟩ := holdsSome_iff.mp hsome
  refine ⟨key, LastWord.of_steps (P := fun value => Holds host.toWire value key) hsteps ?_ hkey⟩
  intro value operation value' _ happly
  exact operation_of_holds hapart happly

theorem superAdmin_of_validate {operation : AppDataUpdateOperation} {actor : ActorAuthority}
    (h : validateOneAppDataUpdate semver host ComponentId.superAdminList operation actor registry
      extensions = .ok ()) :
    actor.isSuperAdmin = true ∨ ∃ payload, operation = .update payload ∧
      decodeInboxIdDelta host.toWire payload = .ok ⟨[]⟩ := by
  obtain ⟨changes, hchanges, hwrites⟩ := changes_of_validate h
  have hactor : ∀ change ∈ changes, actor.isSuperAdmin = true := fun change hchange =>
    isSuperAdmin_of_isHardcoded (by rfl) (hwrites change hchange)
  rw [expandAppDataUpdateToChanges_eq (lookup_superAdminList host), mapError_eq_ok] at hchanges
  cases operation with
  | remove =>
    cases hchanges
    exact .inl (hactor _ List.mem_cons_self)
  | update payload =>
    simp only [superAdminListComponent, inboxIdSetComponent, expandInboxIdSetChanges,
      expandSetChanges, bind_eq_ok, mapError_eq_ok, pure_eq_ok] at hchanges
    obtain ⟨delta, hdelta, index, _, hmap⟩ := hchanges
    subst hmap
    obtain ⟨mutations⟩ := delta
    cases mutations with
    | nil => exact .inr ⟨payload, rfl, hdelta⟩
    | cons mutation mutations => exact .inl (hactor _ List.mem_cons_self)

theorem update_of_empty {payload bytes : Bytes}
    (hdelta : decodeInboxIdDelta host.toWire payload = .ok ⟨[]⟩)
    (h : applyInboxIdSetDelta host.toWire payload value = .ok bytes) :
    ∃ set, readSet host.toWire (InboxId.codec host.vlen) value = .ok set ∧
      (TlsSet.codec host.vlen (InboxId.codec host.vlen)).serialize set = .ok bytes := by
  have ⟨delta, hdelta', set, hset, set', happly, hbytes⟩ := applySetDelta_eq_ok.mp h
  change decodeInboxIdDelta host.toWire payload = .ok delta at hdelta'
  rw [hdelta, Except.ok.injEq] at hdelta'
  subst hdelta'
  have ⟨index, _, hsteps⟩ := TlsSet.steps_of_applyDelta happly
  have heq : set = set' := congrArg TlsSet.mk (Steps.nil_iff.mp hsteps)
  exact ⟨set, hset, heq ▸ hbytes⟩

/-- A list that is kept: the inbox ids on it, and its bytes where they state their number. -/
structure Keeps (wire : Wire) (value value' : Option Bytes) : Prop where
  set : readSet wire (InboxId.codec wire.vlen) value' = readSet wire (InboxId.codec wire.vlen) value
  bytes : (∀ bytes, value = some bytes → wire.vlen.StatesLength bytes) → value' = value

theorem AcceptedUpdates.keeps_superAdminList
    (h : AcceptedUpdates semver host extensions proposals extensions')
    (hsome : HoldsSome host.toWire (readFromAppDataDict ComponentId.superAdminList extensions))
    (hothers : ∀ p ∈ proposals, p.componentId = ComponentId.superAdminList →
      p.actor.isSuperAdmin = false) :
    Keeps host.toWire (readFromAppDataDict ComponentId.superAdminList extensions)
      (readFromAppDataDict ComponentId.superAdminList extensions') := by
  apply h.invariant (P := fun value => Keeps host.toWire
    (readFromAppDataDict ComponentId.superAdminList extensions) value) ⟨rfl, fun _ => rfl⟩
  intro registry p value value' hp hid hvalid hkeeps happly
  rcases superAdmin_of_validate hvalid with hactor | ⟨payload, hop, hdelta⟩
  · rw [hothers p hp hid] at hactor
    cases hactor
  · rw [hop] at happly
    rcases applyOperation_eq_ok.mp happly with
      ⟨hremove, _⟩ | ⟨payload', bytes', hop', hvalue', happly⟩
    · cases hremove
    · cases hop'
      have ⟨set, hset, hserialize⟩ := update_of_empty hdelta (apply_superAdminList.mp happly)
      refine ⟨?_, fun hstates => ?_⟩
      · rw [hvalue', readInboxIdSet_serialize hserialize, ← hkeeps.set, hset]
      · have ⟨bytes, _, hbytes, _⟩ := hsome
        rw [hkeeps.bytes hstates, hbytes] at hset
        have hsame := (serialize_readSet (InboxId.codec_lawful _) hset).mpr (hstates _ hbytes)
        rw [hserialize, Except.ok.injEq] at hsame
        rw [hvalue', hbytes, hsame]

def SuperAdmin (hex : Hex) (wire : Wire) (extensions : Extensions) (inboxId : String) : Prop :=
  ∃ admins, readInboxIdList hex wire extensions ComponentId.superAdminList = .ok admins ∧
    inboxId ∈ admins

theorem AuthorizedUpdates.superAdmin_iff
    (h : AuthorizedUpdates hex semver host extensions proposals extensions') {p : AuthoredUpdate}
    (hp : p ∈ proposals) :
    p.actor.isSuperAdmin = true ↔ SuperAdmin hex host.toWire extensions p.proposer := by
  have hauthority := h.authority p hp
  simp only [actorAuthority, bind_eq_ok, pure_eq_ok] at hauthority
  obtain ⟨_, _, admins, hadmins, hactor⟩ := hauthority
  rw [← hactor]
  simp [SuperAdmin, hadmins]

/-- Who changes the list of super admins: a super admin of the state before the commit. -/
structure ChangedBySuperAdmins (hex : Hex) (wire : Wire) (extensions : Extensions)
    (proposals : List AuthoredUpdate) (extensions' : Extensions) : Prop where
  others : ∀ p ∈ proposals, p.componentId = ComponentId.superAdminList →
    SuperAdmin hex wire extensions p.proposer ∨ ∃ payload, p.operation = .update payload ∧
      decodeInboxIdDelta wire payload = .ok ⟨[]⟩
  unchanged : (∀ p ∈ proposals, p.componentId = ComponentId.superAdminList →
      ¬SuperAdmin hex wire extensions p.proposer) →
    Keeps wire (readFromAppDataDict ComponentId.superAdminList extensions)
      (readFromAppDataDict ComponentId.superAdminList extensions')

theorem AuthorizedUpdates.changedBySuperAdmins
    (h : AuthorizedUpdates hex semver host extensions proposals extensions')
    (hsome : HoldsSome host.toWire (readFromAppDataDict ComponentId.superAdminList extensions)) :
    ChangedBySuperAdmins hex host.toWire extensions proposals extensions' where
  others p hp hid := by
    cases h.accepted with
    | commit loaded valid applied post =>
      have hvalid := valid p hp
      rw [hid] at hvalid
      rw [← h.superAdmin_iff hp]
      exact superAdmin_of_validate hvalid
  unchanged hothers := by
    apply h.accepted.keeps_superAdminList hsome
    intro p hp hid
    rw [← Bool.not_eq_true, h.superAdmin_iff hp]
    exact hothers p hp hid

/-- Where every commit leaves a super admin, the list of them can always be read and is never
empty, and only super admins change it. A commit that leaves none empties it. -/
theorem superAdminList_kept {commits : List (List AuthoredUpdate)}
    (h : Runs (fun extensions proposals extensions' =>
      AuthorizedUpdates hex semver host extensions proposals extensions' ∧
        LeavesSuperAdmin host.toWire extensions proposals) extensions commits extensions')
    (hstart : HoldsSome host.toWire (readFromAppDataDict ComponentId.superAdminList extensions)) :
    HoldsSome host.toWire (readFromAppDataDict ComponentId.superAdminList extensions') ∧
      ∀ proposals extensions'',
        AuthorizedUpdates hex semver host extensions' proposals extensions'' →
          ChangedBySuperAdmins hex host.toWire extensions' proposals extensions'' ∧
          (LeavesSuperAdmin host.toWire extensions' proposals →
            HoldsSome host.toWire
              (readFromAppDataDict ComponentId.superAdminList extensions'')) ∧
          (HashesApart host.toWire → ¬LeavesSuperAdmin host.toWire extensions' proposals →
            ¬HoldsSome host.toWire
              (readFromAppDataDict ComponentId.superAdminList extensions'')) := by
  have hend : HoldsSome host.toWire
      (readFromAppDataDict ComponentId.superAdminList extensions') := by
    apply h.invariant (P := fun extensions => HoldsSome host.toWire
      (readFromAppDataDict ComponentId.superAdminList extensions)) hstart
    intro extensions proposals extensions' _ _ ⟨hstep, hleaves⟩
    exact hstep.accepted.holdsSome hleaves
  refine ⟨hend, ?_⟩
  intro proposals extensions'' hstep
  refine ⟨hstep.changedBySuperAdmins hend, hstep.accepted.holdsSome, ?_⟩
  intro hapart hnot hsome
  exact hnot (hstep.accepted.leavesSuperAdmin hapart hsome)

end Commit

namespace Sample

def inboxBytes (byte : UInt8) : Bytes := List.replicate 32 byte

def inbox (byte : UInt8) : InboxId := ⟨inboxBytes byte, by simp [inboxBytes]⟩

def superAdmin : String := (inbox 1).toHex .lower

def one : Bytes := [33, 0] ++ inboxBytes 1

def two : Bytes := [0x40, 66, 0] ++ inboxBytes 1 ++ [0] ++ inboxBytes 2

def adminsAt (list : Option Bytes) : Extensions :=
  [.appDataDictionary (.ofList ((ComponentId.componentRegistry, [0]) ::
    (list.map fun bytes => (ComponentId.superAdminList, bytes)).toList))]

def propose (operation : AppDataUpdateOperation) : AuthoredUpdate :=
  ⟨superAdmin, ⟨false, true⟩, ComponentId.superAdminList, operation⟩

theorem authorizedUpdates (operation : AppDataUpdateOperation) (list : Option Bytes)
    (hvalid : validateOneAppDataUpdate semver bareHost ComponentId.superAdminList operation
      ⟨false, true⟩ .new (adminsAt (some one)) = .ok ())
    (happlied : accumulateAppDataUpdates bareHost (adminsAt (some one))
      (updatesOf [propose operation]) = .ok (some ⟨[(ComponentId.superAdminList, list)]⟩)) :
    AuthorizedUpdates .lower semver bareHost (adminsAt (some one)) [propose operation]
      (adminsAt list) where
  accepted := by
    refine @AcceptedUpdates.commit _ _ _ _ _ _ .new _ ?_ ?_ happlied ?_
    · rfl
    · intro p hp
      cases List.mem_singleton.mp hp
      exact hvalid
    · intro id
      by_cases hid : ComponentId.superAdminList = id
      · subst hid
        cases list <;> rfl
      · cases list <;> simp [adminsAt, readFromAppDataDict, Extensions.appDataDictionary,
          AppDataUpdates.post, AppDataUpdates.value, HashMap.ofList, hid]
  authority p hp := by
    cases List.mem_singleton.mp hp
    rfl

theorem holdsSome_one :
    HoldsSome bareHost.toWire
      (readFromAppDataDict ComponentId.superAdminList (adminsAt (some one))) :=
  ⟨one, ⟨⟨[⟨inbox 1, ()⟩], by simp⟩⟩, rfl, rfl, rfl⟩

def addSecond : AppDataUpdateOperation := .update ([34, 0, 0] ++ inboxBytes 2)

theorem leavesSuperAdmin :
    LeavesSuperAdmin bareHost.toWire (adminsAt (some one)) [propose addSecond] := by
  refine ⟨inbox 1, .inl ⟨⟨⟨⟨[⟨inbox 1, ()⟩], by simp⟩⟩, rfl, List.mem_singleton_self _⟩, ?_⟩⟩
  intro operation hoperation
  cases List.mem_singleton.mp hoperation
  intro delta hdelta mutation hmutation
  have hinsert : decodeInboxIdDelta bareHost.toWire ([34, 0, 0] ++ inboxBytes 2) =
      .ok ⟨[.insert (inbox 2)]⟩ := rfl
  rw [hinsert, Except.ok.injEq] at hdelta
  subst hdelta
  cases List.mem_singleton.mp hmutation
  exact id

end Sample

open Sample in
theorem superAdminList_kept_add :
    HoldsSome bareHost.toWire
      (readFromAppDataDict ComponentId.superAdminList (adminsAt (some two))) :=
  (superAdminList_kept (.cons
    ⟨authorizedUpdates addSecond (some two) rfl rfl, leavesSuperAdmin⟩ .nil) holdsSome_one).1

open Sample in
/-- The only super admin removes the list. -/
theorem superAdminList_lost :
    HoldsSome bareHost.toWire
        (readFromAppDataDict ComponentId.superAdminList (adminsAt (some one))) ∧
      AuthorizedUpdates .lower semver bareHost (adminsAt (some one)) [propose .remove]
        (adminsAt none) ∧
      readFromAppDataDict ComponentId.superAdminList (adminsAt none) = none :=
  ⟨holdsSome_one, authorizedUpdates .remove none rfl rfl, rfl⟩

end LibXmtp.AppData
