import LibXmtp.AppData.ComponentId
import LibXmtp.Data.TlsMapCodec
import LibXmtp.Groups.Permissions

namespace LibXmtp.AppData

open LibXmtp.Data LibXmtp.Groups

inductive ComponentOp
  | insert
  | update
  | delete
  deriving DecidableEq

structure Proto.ComponentPermissions where
  insertPolicy : Option Proto.Policy
  updatePolicy : Option Proto.Policy
  deletePolicy : Option Proto.Policy

structure Proto.ComponentMetadata where
  componentType : Int32
  permissions : Option Proto.ComponentPermissions

inductive ComponentType
  | unspecified
  | bytes
  | string
  | tlsMapBytesBytes
  | tlsMapInboxIdBytes
  | tlsSetBytes
  | tlsSetInboxId
  deriving DecidableEq

def ComponentType.tryFrom (tag : Int32) : Option ComponentType :=
  if tag = 0 then some .unspecified
  else if tag = 1 then some .bytes
  else if tag = 2 then some .string
  else if tag = 3 then some .tlsMapBytesBytes
  else if tag = 4 then some .tlsMapInboxIdBytes
  else if tag = 5 then some .tlsSetBytes
  else if tag = 6 then some .tlsSetInboxId
  else none

inductive ComponentRegistryError
  | invalidComponentId (id : UInt16)
  | reservedRange (id : UInt16)
  | immutableComponent (id : UInt16)
  | hardcodedComponent (id : UInt16)
  | notFound (id : UInt16)
  | missingPermissions (id : UInt16)
  | missingPolicyField (id : UInt16) (op : ComponentOp)
  | decodeError (id : UInt16) (source : String)
  | tlsCodecError (error : TlsCodecError)
  | constrainedPolicyViolation (id : UInt16)

def hexDigit (n : Nat) : Char := if n < 10 then Char.ofNat (48 + n) else Char.ofNat (55 + n)

def displayId (id : UInt16) : String :=
  let n := id.toNat
  "0x" ++ String.ofList
    [hexDigit (n / 4096), hexDigit (n / 256 % 16), hexDigit (n / 16 % 16), hexDigit (n % 16)]

def ComponentOp.display : ComponentOp → String
  | .insert => "insert"
  | .update => "update"
  | .delete => "delete"

def ComponentRegistryError.display : ComponentRegistryError → String
  | .invalidComponentId id => s!"component ID {displayId id} is not in the component ID space"
  | .reservedRange id => s!"component ID {displayId id} is in the reserved range"
  | .immutableComponent id =>
    s!"immutable component {displayId id} cannot be modified after initial insert"
  | .hardcodedComponent id => s!"hardcoded component {displayId id} cannot be removed"
  | .notFound id => s!"component {displayId id} not found"
  | .missingPermissions id =>
    s!"component {displayId id} metadata is missing the permissions field"
  | .missingPolicyField id op =>
    s!"component {displayId id} metadata is missing the {op.display} policy field"
  | .decodeError id source => s!"decode error for component {displayId id}: {source}"
  | .tlsCodecError error => s!"tls codec error: {error.text}"
  | .constrainedPolicyViolation id =>
    s!"constrained component {displayId id} requires AllowIfAdmin or AllowIfSuperAdmin policies"

/-- What is used of other crates to read and write the components. -/
structure Wire where
  vlen : Vlen
  sha256 : Bytes → Bytes
  encodeMetadata : Proto.ComponentMetadata → Bytes
  decodeMetadata : Bytes → Except String Proto.ComponentMetadata

/-- Every entry is kept as it was read, and is judged when it is looked up. -/
structure ComponentRegistry where
  inner : TlsMap UInt16 Bytes

namespace ComponentRegistry

def codec (wire : Wire) : TlsCodec (TlsMap UInt16 Bytes) :=
  TlsMap.codec wire.vlen (componentIdCodec wire.vlen) wire.vlen.bytes

theorem codec_roundTrips (wire : Wire) : (codec wire).RoundTrips :=
  TlsMap.codec_roundTrips (componentIdCodec_lawful _) (componentIdCodec_positive _)
    Vlen.bytes_lawful

def new : ComponentRegistry := ⟨TlsMap.new⟩

def isAdminOrSuperAdminPolicy : Proto.Policy → Bool
  | .base base => base = 3 || base = 4
  | .andCondition _ => false
  | .anyCondition _ => false
  | .unset => false

def validatePolicyField (id : UInt16) (op : ComponentOp) (policy : Option Proto.Policy) :
    Except ComponentRegistryError Unit := do
  let policy ← okOr policy (.missingPolicyField id op)
  rejectIf (ComponentId.isConstrained id && !isAdminOrSuperAdminPolicy policy)
    (.constrainedPolicyViolation id)

def validateMetadata (id : UInt16) (metadata : Proto.ComponentMetadata) :
    Except ComponentRegistryError Unit := do
  let permissions ← okOr metadata.permissions (.missingPermissions id)
  validatePolicyField id .insert permissions.insertPolicy
  validatePolicyField id .update permissions.updatePolicy
  validatePolicyField id .delete permissions.deletePolicy

def validateId (id : UInt16) : Except ComponentRegistryError Unit := do
  rejectIf (!ComponentId.isInComponentSpace id) (.invalidComponentId id)
  rejectIf (ComponentId.isReserved id) (.reservedRange id)
  rejectIf (ComponentId.isHardcoded id) (.hardcodedComponent id)

section

variable (wire : Wire)

def decodeRecognized (id : UInt16) (raw : Bytes) :
    Except ComponentRegistryError Proto.ComponentMetadata := do
  validateId id
  let metadata ← (wire.decodeMetadata raw).mapError (.decodeError id)
  validateMetadata id metadata
  return metadata

def validateEntry (id : UInt16) (raw : Bytes) : Except ComponentRegistryError Unit := do
  let _ ← decodeRecognized wire id raw

variable (registry : ComponentRegistry)

def get (id : UInt16) : Option Proto.ComponentMetadata := do
  let raw ← registry.inner.get id
  (decodeRecognized wire id raw).toOption

def contains (id : UInt16) : Bool :=
  (registry.inner.get id).any fun raw => (decodeRecognized wire id raw).isOk

def validateModifiable (id : UInt16) : Except ComponentRegistryError Unit := do
  validateId id
  rejectIf (ComponentId.isImmutable id && registry.contains wire id) (.immutableComponent id)

def set (id : UInt16) (metadata : Proto.ComponentMetadata) :
    Except ComponentRegistryError ComponentRegistry := do
  registry.validateModifiable wire id
  validateMetadata id metadata
  return ⟨registry.inner.set id (wire.encodeMetadata metadata)⟩

def iter : List (UInt16 × Proto.ComponentMetadata) :=
  registry.inner.iter.filterMap fun (id, raw) =>
    (decodeRecognized wire id raw).toOption.map fun metadata => (id, metadata)

def unrecognizedIds : List UInt16 :=
  registry.inner.iter.filterMap fun (id, raw) =>
    if (decodeRecognized wire id raw).isOk then none else some id

def toBytes : Except ComponentRegistryError Bytes :=
  ((codec wire).serialize registry.inner).mapError .tlsCodecError

def fromBytes (bytes : Bytes) : Except ComponentRegistryError ComponentRegistry := do
  let inner ← ((codec wire).deserializeExact bytes).mapError .tlsCodecError
  return ⟨inner⟩

end

end ComponentRegistry

end LibXmtp.AppData
