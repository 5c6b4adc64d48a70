import LibXmtp.AppData.Accumulate
import LibXmtp.Groups.CommitValidation

/-! The validation of the updates of a commit against the state before it, and the commits that
pass it and are applied. -/

namespace LibXmtp.AppData

open LibXmtp.Data LibXmtp.Groups

def debugBytes (bytes : Bytes) : String :=
  "[" ++ ", ".intercalate (bytes.map fun byte => toString byte.toNat) ++ "]"

section

variable {Version : Type} (semver : Semver Version)

def enforceMinVersionMonotonicity (operation : AppDataUpdateOperation) (oldValue : Option Bytes) :
    Except CommitValidationError Unit :=
  match oldValue with
  | none => .ok ()
  | some oldBytes =>
    match utf8 oldBytes with
    | none => .ok ()
    | some oldStr =>
      match semver.parse oldStr with
      | none => .ok ()
      | some oldV =>
        match operation with
        | .update payload => do
          let newStr ← okOr (utf8 payload) (.invalidVersionFormat (debugBytes payload))
          let newV ← okOr (semver.parse newStr) (.invalidVersionFormat newStr)
          rejectIf (semver.lt newV oldV) (.minVersionDowngrade newStr oldStr)
        | .remove => .error (.minVersionRemoveOnExistingFloor oldStr)

variable (host : Host) (id : UInt16) (operation : AppDataUpdateOperation) (actor : ActorAuthority)
  (registry : ComponentRegistry)

/-- One change of an update, against the policies of the registry and the component's own rule. -/
def validateChange (component : Option ErasedComponent) (change : ExpandedComponentChange) :
    Except CommitValidationError Unit := do
  let write : ComponentChange := ⟨id, change.op, actor, none, change.value⟩
  (validateComponentWrite host.toWire write registry).mapError fun _ => .insufficientPermissions
  match component with
  | some component =>
    (component.validateInvariant write registry).mapError fun _ => .insufficientPermissions
  | none => return ()

def validateOneAppDataUpdateWithOldValue (oldValue : Option Bytes) :
    Except CommitValidationError Unit := do
  (if id = ComponentId.minSupportedProtocolVersion then
    enforceMinVersionMonotonicity semver operation oldValue
  else .ok ())
  let component := lookupComponent host id
  let expanded := match component with
    | some component =>
      (component.expandToChanges operation oldValue).mapError ComponentSourceError.ofTyped
    | none => expandAppDataUpdateToChanges host id registry operation oldValue
  let changes ← expanded.mapError fun _ => .insufficientPermissions
  changes.forM (validateChange host id actor registry component)

def validateOneAppDataUpdate (extensions : Extensions) : Except CommitValidationError Unit :=
  validateOneAppDataUpdateWithOldValue semver host id operation actor registry
    (readFromAppDataDict id extensions)

variable {semver host id operation actor registry} {oldValue : Option Bytes}

theorem changes_of_validate
    (h : validateOneAppDataUpdateWithOldValue semver host id operation actor registry oldValue =
      .ok ()) :
    ∃ changes, expandAppDataUpdateToChanges host id registry operation oldValue = .ok changes ∧
      ∀ change ∈ changes, validateComponentWrite host.toWire
        ⟨id, change.op, actor, none, change.value⟩ registry = .ok () := by
  simp only [validateOneAppDataUpdateWithOldValue, bind_eq_ok] at h
  obtain ⟨_, _, changes, hchanges, hvalid⟩ := h
  refine ⟨changes, ?_, ?_⟩
  · rw [expandAppDataUpdateToChanges]
    cases hcomponent : lookupComponent host id with
    | some component => simpa only [hcomponent, mapError_eq_ok] using hchanges
    | none => simpa only [hcomponent, mapError_eq_ok, expandAppDataUpdateToChanges] using hchanges
  · intro change hchange
    have hone := forM_eq_ok.mp hvalid change hchange
    simp only [validateChange, bind_eq_ok, mapError_eq_ok] at hone
    obtain ⟨_, hwrite, _⟩ := hone
    exact hwrite

theorem floor_of_validate
    (h : validateOneAppDataUpdateWithOldValue semver host ComponentId.minSupportedProtocolVersion
      operation actor registry oldValue = .ok ()) :
    enforceMinVersionMonotonicity semver operation oldValue = .ok () := by
  simp only [validateOneAppDataUpdateWithOldValue, if_true, bind_eq_ok] at h
  obtain ⟨_, hfloor, _⟩ := h
  exact hfloor

end

/-- An update, with the inbox that proposes it and what that inbox may do. -/
structure AuthoredUpdate where
  proposer : String
  actor : ActorAuthority
  componentId : UInt16
  operation : AppDataUpdateOperation

abbrev updatesOf (proposals : List AuthoredUpdate) : List (UInt16 × AppDataUpdateOperation) :=
  proposals.map fun p => (p.componentId, p.operation)

/-- A commit all of whose updates pass against the state before it, and are applied. -/
inductive AcceptedUpdates {Version : Type} (semver : Semver Version) (host : Host)
    (extensions : Extensions) (proposals : List AuthoredUpdate) (extensions' : Extensions) : Prop
  | commit {registry : ComponentRegistry} {updates : Option AppDataUpdates}
      (loaded : loadComponentRegistry host.toWire extensions = .ok registry)
      (valid : ∀ p ∈ proposals, validateOneAppDataUpdate semver host p.componentId p.operation
        p.actor registry extensions = .ok ())
      (applied : accumulateAppDataUpdates host extensions (updatesOf proposals) = .ok updates)
      (post : ∀ id,
        readFromAppDataDict id extensions' = AppDataUpdates.post updates extensions id)

section

variable {Version : Type} {semver : Semver Version} {host : Host}
  {extensions extensions' : Extensions} {proposals : List AuthoredUpdate}

theorem AcceptedUpdates.invariant
    (h : AcceptedUpdates semver host extensions proposals extensions') {id : UInt16}
    {P : Option Bytes → Prop} (hbase : P (readFromAppDataDict id extensions))
    (keep : ∀ registry p value value', p ∈ proposals → p.componentId = id →
      validateOneAppDataUpdate semver host id p.operation p.actor registry extensions = .ok () →
      P value → applyOperation host registry id value p.operation = .ok value' → P value') :
    P (readFromAppDataDict id extensions') := by
  cases h with
  | @commit registry updates loaded valid applied post =>
    have hfold := foldOperations_of_accumulateAppDataUpdates loaded applied id
    rw [post]
    apply KeyedFold.foldOn_invariant hfold hbase
    intro op value value' hop hvalue happly
    have ⟨p, hp, heq⟩ := List.mem_map.mp hop
    cases heq
    exact keep registry p value value' hp rfl (valid p hp) hvalue happly

end

namespace Sample

def number (digits : List Char) : Option Nat :=
  if digits ≠ [] ∧ digits.all Char.isDigit then
    some (digits.foldl (fun n c => 10 * n + (c.toNat - 48)) 0)
  else none

def semver : Semver (List Nat) where
  parse text := ((text.toList.splitOn '.').mapM number).filter (·.length = 3)
  lt v w := decide (v < w)

def openEntry : Bytes := [0x08, 2, 0x12, 12, 0x0A, 2, 0x08, 1, 0x12, 2, 0x08, 1, 0x1A, 2, 0x08, 1]

def floorRegistry : ComponentRegistry :=
  ⟨⟨[⟨ComponentId.minSupportedProtocolVersion, openEntry⟩], by decide⟩⟩

def floorRegistryBytes : Bytes := [21, 0x80, 0x00, 0x80, 0x0A, 16] ++ openEntry

def version (minor : UInt8) : Bytes := [0x31, 0x2E, 0x30 + minor, 0x2E, 0x30]

def raiseFloor (minor : UInt8) : AuthoredUpdate :=
  ⟨"", ⟨false, false⟩, ComponentId.minSupportedProtocolVersion, .update (version minor)⟩

def groupAt (minor : UInt8) : Extensions :=
  [.appDataDictionary ⟨[(ComponentId.componentRegistry, floorRegistryBytes),
    (ComponentId.minSupportedProtocolVersion, version minor),
    (ComponentId.conversationType, [1])], by simp; decide⟩]

theorem acceptedUpdates :
    AcceptedUpdates semver bareHost (groupAt 1) [raiseFloor 3, raiseFloor 2] (groupAt 2) := by
  refine @AcceptedUpdates.commit _ _ _ _ _ _ floorRegistry
    (some ⟨[(ComponentId.minSupportedProtocolVersion, some (version 2))]⟩) ?_ ?_ ?_ ?_
  · rfl
  · intro p hp
    simp only [List.mem_cons, List.not_mem_nil, or_false] at hp
    rcases hp with hp | hp <;> subst hp <;> rfl
  · rfl
  · intro id
    by_cases hid : ComponentId.minSupportedProtocolVersion = id
    · subst hid
      rfl
    · simp [readFromAppDataDict, groupAt, Extensions.appDataDictionary, HashMap.get,
        HashMap.getKeyValue, HashMap.lookup, AppDataUpdates.post, AppDataUpdates.value, hid,
        List.find?_cons]

end Sample

end LibXmtp.AppData
