import LibXmtp.AppData.Typed
import LibXmtp.Data.QuicVarint
import Mathlib.Order.Compare

namespace LibXmtp.AppData

open LibXmtp.Data LibXmtp.Groups

def noInvariant (_ : ComponentChange) (_ : ComponentRegistry) :
    Except ComponentInvariantError Unit := .ok ()

section Impls

variable (wire : Wire)

def applyInboxIdSetDelta : Bytes → Option Bytes → Except ComponentTypedError Bytes :=
  applySetDelta wire (InboxId.codec wire.vlen)

def expandInboxIdSetChanges : AppDataUpdateOperation → Option Bytes →
    Except ComponentTypedError (List ExpandedComponentChange) :=
  expandSetChanges wire (InboxId.codec wire.vlen) InboxId.bytes

def applyBytesSetDelta : Bytes → Option Bytes → Except ComponentTypedError Bytes :=
  applySetDelta wire wire.vlen.bytes

def expandBytesSetChanges : AppDataUpdateOperation → Option Bytes →
    Except ComponentTypedError (List ExpandedComponentChange) :=
  expandSetChanges wire wire.vlen.bytes id

def inboxIdSetComponent (id : UInt16) : ErasedComponent where
  id
  componentType := .tlsSetInboxId
  applyUpdatePayload := applyInboxIdSetDelta wire
  expandToChanges := expandInboxIdSetChanges wire
  validateInvariant := noInvariant

def passthroughStringComponent (id : UInt16) : ErasedComponent where
  id
  componentType := .string
  applyUpdatePayload payload _ := do
    let _ ← decodeUtf8 id payload
    applyPassthrough payload
  expandToChanges op _ := do
    match op with
    | .update payload =>
      let _ ← decodeUtf8 id payload
      expandPassthrough op
    | .remove => expandPassthrough op
  validateInvariant := noInvariant

def beI64Component (id : UInt16) : ErasedComponent where
  id
  componentType := .bytes
  applyUpdatePayload payload _ := do
    let _ ← decodeBeI64 id payload
    return payload
  expandToChanges op _ :=
    match op with
    | .update payload => do
      let _ ← decodeBeI64 id payload
      return [⟨.update, some payload⟩]
    | .remove => .ok [⟨.delete, none⟩]
  validateInvariant := noInvariant

def ed25519KeyLength : Nat := 32

def commitLogSignerComponent : ErasedComponent where
  id := ComponentId.commitLogSigner
  componentType := .bytes
  applyUpdatePayload payload _ := do
    requireExactLen ComponentId.commitLogSigner payload ed25519KeyLength
    return payload
  expandToChanges op _ :=
    match op with
    | .update payload => do
      requireExactLen ComponentId.commitLogSigner payload ed25519KeyLength
      return [⟨.update, some payload⟩]
    | .remove => .ok [⟨.delete, none⟩]
  validateInvariant := noInvariant

def groupMembershipComponent : ErasedComponent where
  id := ComponentId.groupMembership
  componentType := .tlsMapInboxIdBytes
  applyUpdatePayload := applyTlsMapDelta wire (InboxId.codec wire.vlen)
  expandToChanges op _ := expandTlsMapChanges wire (InboxId.codec wire.vlen) op
  validateInvariant := noInvariant

def validateRegistryMutation :
    TlsMapMutation UInt16 Bytes → Except ComponentRegistryError Unit
  | .insert key value => ComponentRegistry.validateEntry wire key value
  | .update key value => do
    ComponentRegistry.validateEntry wire key value
    rejectIf (ComponentId.isImmutable key) (.immutableComponent key)
  | .delete key => do
    ComponentRegistry.validateId key
    rejectIf (ComponentId.isImmutable key) (.immutableComponent key)

def validateRegistryDelta (delta : TlsMapDelta UInt16 Bytes) :
    Except ComponentTypedError Unit :=
  (delta.mutations.forM (validateRegistryMutation wire)).mapError .registryMutation

def componentRegistryComponent : ErasedComponent where
  id := ComponentId.componentRegistry
  componentType := .tlsMapBytesBytes
  applyUpdatePayload payload prior := do
    let delta ← decodeMapDelta wire (componentIdCodec wire.vlen) payload
    validateRegistryDelta wire delta
    applyDecodedMapDelta wire (componentIdCodec wire.vlen) delta prior
  expandToChanges op _ :=
    match op with
    | .remove => .error (.registryMutation (.hardcodedComponent ComponentId.componentRegistry))
    | .update payload => do
      let delta ← decodeMapDelta wire (componentIdCodec wire.vlen) payload
      validateRegistryDelta wire delta
      expandDecodedTlsMapDelta (componentIdCodec wire.vlen) delta
  validateInvariant := noInvariant

def superAdminListComponent : ErasedComponent := inboxIdSetComponent wire ComponentId.superAdminList

def adminListComponent : ErasedComponent := inboxIdSetComponent wire ComponentId.adminList

def dmMembersComponent : ErasedComponent := inboxIdSetComponent wire ComponentId.dmMembers

def groupNameComponent : ErasedComponent := passthroughStringComponent ComponentId.groupName

def groupDescriptionComponent : ErasedComponent :=
  passthroughStringComponent ComponentId.groupDescription

def groupImageUrlComponent : ErasedComponent :=
  passthroughStringComponent ComponentId.groupImageUrl

def appDataComponent : ErasedComponent := passthroughStringComponent ComponentId.appData

def minSupportedProtocolVersionComponent : ErasedComponent :=
  passthroughStringComponent ComponentId.minSupportedProtocolVersion

def messageDisappearFromNsComponent : ErasedComponent :=
  beI64Component ComponentId.messageDisappearFromNs

def messageDisappearInNsComponent : ErasedComponent :=
  beI64Component ComponentId.messageDisappearInNs

def wellKnown : List ErasedComponent :=
  [componentRegistryComponent wire, superAdminListComponent wire, adminListComponent wire,
    groupMembershipComponent wire, groupNameComponent, groupDescriptionComponent,
    groupImageUrlComponent, messageDisappearFromNsComponent, messageDisappearInNsComponent,
    appDataComponent, minSupportedProtocolVersionComponent, commitLogSignerComponent,
    dmMembersComponent wire]

end Impls

/-- What a client brings along: the other crates, and the components its host registered. -/
structure Host extends Wire where
  lookupRuntimeComponent : UInt16 → Option ErasedComponent

/-- The metadata of a component whose three policies are base ones, as protobuf writes them. -/
def encodeBaseMetadata : Proto.ComponentMetadata → Bytes
  | ⟨ty, some ⟨some (.base insert), some (.base update), some (.base delete)⟩⟩ =>
    [0x08, ty.toNatClampNeg.toUInt8, 0x12, 12, 0x0A, 2, 0x08, insert.toNatClampNeg.toUInt8, 0x12, 2,
      0x08, update.toNatClampNeg.toUInt8, 0x1A, 2, 0x08, delete.toNatClampNeg.toUInt8]
  | _ => []

def decodeBaseMetadata : Bytes → Except String Proto.ComponentMetadata
  | [0x08, ty, 0x12, 12, 0x0A, 2, 0x08, insert, 0x12, 2, 0x08, update, 0x1A, 2, 0x08, delete] =>
    let policy (byte : UInt8) := some (Proto.Policy.base (Int32.ofNat byte.toNat))
    .ok ⟨Int32.ofNat ty.toNat, some ⟨policy insert, policy update, policy delete⟩⟩
  | _ => .error "unexpected metadata"

/-- A client whose host brings no components, reading metadata of base policies only. -/
def bareHost : Host where
  vlen := .quic
  sha256 := id
  encodeMetadata := encodeBaseMetadata
  decodeMetadata := decodeBaseMetadata
  lookupRuntimeComponent _ := none

def lookupComponent (host : Host) (id : UInt16) : Option ErasedComponent :=
  if ComponentId.isXmtpRange id then
    match binarySearchBy (fun component => compare component.id id) (wellKnown host.toWire) with
    | .ok idx => (wellKnown host.toWire)[idx]?
    | .error _ => none
  else if ComponentId.isAppRange id then host.lookupRuntimeComponent id
  else none

section Lookup

variable {host : Host} {id : UInt16} {component : ErasedComponent}

theorem wellKnown_ids (wire : Wire) : (wellKnown wire).map ErasedComponent.id =
    [0x8000, 0x8001, 0x8002, 0x8003, 0x8004, 0x8005, 0x8006, 0x8007, 0x8008, 0x8009, 0x800A, 0x800B,
      0xBFFD] := rfl

theorem wellKnown_sorted (wire : Wire) : (wellKnown wire).Pairwise fun a b => a.id < b.id := by
  rw [← List.pairwise_map (f := ErasedComponent.id) (R := (· < ·)), wellKnown_ids]
  decide

theorem isXmtpRange_of_mem {wire : Wire} (h : component ∈ wellKnown wire) :
    ComponentId.isXmtpRange component.id = true := by
  have hall : ((wellKnown wire).map ErasedComponent.id).all ComponentId.isXmtpRange = true := by
    rw [wellKnown_ids]
    decide
  exact List.all_eq_true.mp hall _ (List.mem_map_of_mem h)

theorem wellKnown_searchable (wire : Wire) (id : UInt16) :
    Searchable (fun component => compare component.id id) (wellKnown wire) := by
  apply (wellKnown_sorted wire).imp
  intro a b hab hb
  rw [Ne, compare_gt_iff_gt, not_lt] at hb
  rw [compare_lt_iff_lt]
  exact hab.trans_le hb

theorem lookupComponent_eq_some_iff (hrange : ComponentId.isXmtpRange id = true) :
    lookupComponent host id = some component ↔
      component ∈ wellKnown host.toWire ∧ component.id = id := by
  have hres := searchResult (wellKnown_searchable host.toWire id)
  rw [lookupComponent, if_pos hrange]
  cases hs : binarySearchBy (fun component => compare component.id id) (wellKnown host.toWire) with
  | ok idx =>
    rw [hs] at hres
    cases hres with
    | @found l r a split eq below above =>
      have hid : a.id = id := compare_eq_iff_eq.mp eq
      simp only [split, List.getElem?_append_right, Nat.le_refl, Nat.sub_self,
        List.getElem?_cons_zero, Option.some.injEq]
      constructor
      · intro h
        subst h
        exact ⟨by simp, hid⟩
      · intro ⟨hmem, hcomponent⟩
        simp only [List.mem_append, List.mem_cons] at hmem
        rcases hmem with hl | ha | hr
        · have hlt := below component hl
          simp [hcomponent] at hlt
        · exact ha.symm
        · have hgt := above component hr
          simp [hcomponent] at hgt
  | error idx =>
    rw [hs] at hres
    cases hres with
    | @missing l r split below above =>
      simp only [split, reduceCtorEq, List.mem_append, false_iff, not_and]
      intro hmem hcomponent
      cases hmem with
      | inl hl =>
        have hlt := below component hl
        simp [hcomponent] at hlt
      | inr hr =>
        have hgt := above component hr
        simp [hcomponent] at hgt

theorem lookupComponent_of_mem (h : component ∈ wellKnown host.toWire) :
    lookupComponent host component.id = some component :=
  (lookupComponent_eq_some_iff (isXmtpRange_of_mem h)).mpr ⟨h, rfl⟩

end Lookup

inductive ApplyOrExpand
  | apply
  | expand

def ApplyOrExpand.display : ApplyOrExpand → String
  | .apply => "apply"
  | .expand => "expand"

def ComponentType.debug : ComponentType → String
  | .unspecified => "Unspecified"
  | .bytes => "Bytes"
  | .string => "String"
  | .tlsMapBytesBytes => "TlsMapBytesBytes"
  | .tlsMapInboxIdBytes => "TlsMapInboxIdBytes"
  | .tlsSetBytes => "TlsSetBytes"
  | .tlsSetInboxId => "TlsSetInboxId"

section Dispatch

variable (wire : Wire) (id : UInt16) (ty : ComponentType)

def attachComponentId (site : ApplyOrExpand) : ComponentTypedError → ComponentTypedError
  | .tlsCodec inner =>
    .malformedValue id s!"type-aware {site.display} ({ty.debug}) tls codec error: {inner.text}"
  | other => other

def applyUpdatePayloadForType (payload : Bytes) (prior : Option Bytes) :
    Except ComponentTypedError Bytes :=
  let result := match ty with
    | .bytes => applyPassthrough payload
    | .string => do
      let _ ← decodeUtf8 id payload
      applyPassthrough payload
    | .tlsSetInboxId => applyInboxIdSetDelta wire payload prior
    | .tlsSetBytes => applyBytesSetDelta wire payload prior
    | .tlsMapInboxIdBytes => applyTlsMapDelta wire (InboxId.codec wire.vlen) payload prior
    | .tlsMapBytesBytes => applyTlsMapDelta wire wire.vlen.bytes payload prior
    | .unspecified => .error (.unspecifiedType id)
  result.mapError (attachComponentId id ty .apply)

def expandToChangesForType (op : AppDataUpdateOperation) (prior : Option Bytes) :
    Except ComponentTypedError (List ExpandedComponentChange) :=
  let result := match ty with
    | .bytes => expandPassthrough op
    | .string => do
      match op with
      | .update payload =>
        let _ ← decodeUtf8 id payload
        expandPassthrough op
      | .remove => expandPassthrough op
    | .tlsSetInboxId => expandInboxIdSetChanges wire op prior
    | .tlsSetBytes => expandBytesSetChanges wire op prior
    | .tlsMapInboxIdBytes => expandTlsMapChanges wire (InboxId.codec wire.vlen) op
    | .tlsMapBytesBytes => expandTlsMapChanges wire wire.vlen.bytes op
    | .unspecified => .error (.unspecifiedType id)
  result.mapError (attachComponentId id ty .expand)

end Dispatch

end LibXmtp.AppData
