import LibXmtp.AppData.Components
import LibXmtp.Data.KeyedFold

/-! Where the value of a component is read from, how one update changes it, and what a list of
updates leaves behind. -/

namespace LibXmtp.AppData

open LibXmtp.Data LibXmtp.Groups

inductive ComponentSourceError
  | unknownComponent (id : UInt16)
  | notImplemented (id : UInt16)
  | immutableUpdate (id : UInt16)
  | mismatchedMutation (id : UInt16)
  | invalidInboxId (error : InboxIdError)
  | malformedComponentValue (id : UInt16) (reason : String)
  | tlsCodec (error : TlsCodecError)
  | tlsSetApply (error : TlsSetError)
  | tlsMapApply (error : TlsMapError)
  deriving DecidableEq

def ComponentSourceError.ofTyped : ComponentTypedError → ComponentSourceError
  | .immutableUpdate id => .immutableUpdate id
  | .mismatchedMutation id => .mismatchedMutation id
  | .malformedValue id reason => .malformedComponentValue id reason
  | .tlsCodec e => .tlsCodec e
  | .tlsSetApply e => .tlsSetApply e
  | .tlsMapApply e => .tlsMapApply e
  | .unspecifiedType id =>
    .malformedComponentValue id "registered ComponentType is Unspecified"
  | .registryMutation e => .malformedComponentValue ComponentId.componentRegistry e.display

def componentType (id : UInt16) : Option ComponentType :=
  if id = ComponentId.componentRegistry then some .tlsMapBytesBytes
  else if id = ComponentId.superAdminList then some .tlsSetInboxId
  else if id = ComponentId.adminList then some .tlsSetInboxId
  else if id = ComponentId.groupMembership then some .tlsMapInboxIdBytes
  else if id = ComponentId.groupName ∨ id = ComponentId.groupDescription ∨
      id = ComponentId.groupImageUrl ∨ id = ComponentId.appData ∨
      id = ComponentId.minSupportedProtocolVersion then some .string
  else if id = ComponentId.messageDisappearFromNs ∨ id = ComponentId.messageDisappearInNs ∨
      id = ComponentId.commitLogSigner then some .bytes
  else if id = ComponentId.conversationType ∨ id = ComponentId.creatorInboxId ∨
      id = ComponentId.oneshotMessage then some .bytes
  else if id = ComponentId.dmMembers then some .tlsSetInboxId
  else none

section

variable (host : Host) (id : UInt16) (registry : ComponentRegistry)

def registeredComponentType : Except ComponentSourceError ComponentType := do
  let metadata ← okOr (registry.get host.toWire id) (.unknownComponent id)
  okOr (ComponentType.tryFrom metadata.componentType)
    (.malformedComponentValue id
      s!"registry entry has unknown component_type tag {metadata.componentType}")

def dispatchType : Except ComponentSourceError ComponentType :=
  match componentType id with
  | some ty => .ok ty
  | none => registeredComponentType host id registry

def expandAppDataUpdateToChanges (op : AppDataUpdateOperation) (oldValue : Option Bytes) :
    Except ComponentSourceError (List ExpandedComponentChange) :=
  match lookupComponent host id with
  | some component => (component.expandToChanges op oldValue).mapError .ofTyped
  | none => do
    let ty ← dispatchType host id registry
    (expandToChangesForType host.toWire id ty op oldValue).mapError .ofTyped

def applyAppDataUpdatePayload (payload : Bytes) (oldValue : Option Bytes) :
    Except ComponentSourceError Bytes := do
  -- an immutable component takes its first value, and no other
  rejectIf (ComponentId.isImmutable id && oldValue.isSome) (.immutableUpdate id)
  match lookupComponent host id with
  | some component => (component.applyUpdatePayload payload oldValue).mapError .ofTyped
  | none => do
    let ty ← dispatchType host id registry
    (applyUpdatePayloadForType host.toWire id ty payload oldValue).mapError .ofTyped

end

section Dispatch

variable {host : Host} {id : UInt16} {registry : ComponentRegistry} {component : ErasedComponent}

theorem expandAppDataUpdateToChanges_eq (h : lookupComponent host id = some component)
    (op : AppDataUpdateOperation) (oldValue : Option Bytes) :
    expandAppDataUpdateToChanges host id registry op oldValue =
      (component.expandToChanges op oldValue).mapError .ofTyped := by
  rw [expandAppDataUpdateToChanges, h]

theorem applyAppDataUpdatePayload_eq_ok (h : lookupComponent host id = some component)
    {payload bytes : Bytes} {oldValue : Option Bytes} :
    applyAppDataUpdatePayload host id registry payload oldValue = .ok bytes ↔
      (ComponentId.isImmutable id && oldValue.isSome) = false ∧
        component.applyUpdatePayload payload oldValue = .ok bytes := by
  simp [applyAppDataUpdatePayload, h]

end Dispatch

def readFromAppDataDict (id : UInt16) (extensions : Extensions) : Option Bytes := do
  let dictionary ← extensions.appDataDictionary
  dictionary.get id

def loadComponentRegistry (wire : Wire) (extensions : Extensions) :
    Except ComponentSourceError ComponentRegistry :=
  match readFromAppDataDict ComponentId.componentRegistry extensions with
  | some bytes => (ComponentRegistry.fromBytes wire bytes).mapError fun e =>
    .malformedComponentValue ComponentId.componentRegistry s!"registry decode: {e.display}"
  | none => .ok .new

/-- The updates among the proposals, in their order, with the components they are to. -/
def appDataUpdates (queued : List QueuedProposal) : List (UInt16 × AppDataUpdateOperation) :=
  queued.filterMap fun queued =>
    match queued.proposal with
    | .appDataUpdate id op => some (id, op)
    | _ => none

def appDataUpdateProposals (commit : StagedCommit) : List (UInt16 × AppDataUpdateOperation) :=
  appDataUpdates commit.queuedProposals

section

variable (host : Host) (extensions : Extensions) (registry : ComponentRegistry)

def applyOperation (id : UInt16) (current : Option Bytes) :
    AppDataUpdateOperation → Except ComponentSourceError (Option Bytes)
  | .update payload => do
    let bytes ← applyAppDataUpdatePayload host id registry payload current
    return some bytes
  | .remove => return none

def readPostCommitComponentBytes (id : UInt16) (commit : StagedCommit) :
    Except ComponentSourceError (Option Bytes) :=
  let ops := KeyedFold.operationsOn id (appDataUpdateProposals commit)
  if ops.isEmpty then .ok (readFromAppDataDict id extensions)
  else ops.foldlM (applyOperation host registry id) (readFromAppDataDict id extensions)

/-- What a batch has made of each component so far: a value, or none once it is removed. -/
abbrev InBatch := Std.TreeMap UInt16 (Option Bytes)

def accumulateOne (inBatch : InBatch) (proposal : UInt16 × AppDataUpdateOperation) :
    Except ComponentSourceError InBatch :=
  let (id, op) := proposal
  match op with
  | .update payload => do
    let oldValue := match inBatch[id]? with
      | some value => value
      | none => readFromAppDataDict id extensions
    let newValue ← applyAppDataUpdatePayload host id registry payload oldValue
    return inBatch.insert id (some newValue)
  | .remove => return inBatch.insert id none

end

/-- What is used of the updater of the dictionary: the components it sets, and the ones it removes
without a value, in the order of their ids. -/
structure AppDataUpdates where
  entries : List (UInt16 × Option Bytes)
  deriving DecidableEq

def AppDataUpdates.changes (entries : List (UInt16 × Option Bytes)) : Option AppDataUpdates :=
  if entries.isEmpty then none else some ⟨entries⟩

def AppDataUpdates.value (updates : Option AppDataUpdates) (id : UInt16) :
    Option (Option Bytes) := do
  let updates ← updates
  let entry ← updates.entries.find? (·.1 = id)
  return entry.2

def accumulateAppDataUpdates (host : Host) (extensions : Extensions)
    (proposals : List (UInt16 × AppDataUpdateOperation)) :
    Except ComponentSourceError (Option AppDataUpdates) := do
  -- the registry is that of before the commit, whatever the batch does to it
  let registry ← loadComponentRegistry host.toWire extensions
  let inBatch ← proposals.foldlM (accumulateOne host extensions registry) ∅
  if inBatch.isEmpty then return none
  else return AppDataUpdates.changes inBatch.toList

def pendingAppDataUpdates (host : Host) (extensions : Extensions)
    (pendingProposals : List QueuedProposal) :
    Except ComponentSourceError (Option AppDataUpdates) :=
  accumulateAppDataUpdates host extensions (appDataUpdates pendingProposals)

def resolvedAppDataUpdates (host : Host) (extensions : Extensions) (commit : StagedCommit) :
    Except ComponentSourceError (Option AppDataUpdates) :=
  accumulateAppDataUpdates host extensions (appDataUpdateProposals commit)

end LibXmtp.AppData
