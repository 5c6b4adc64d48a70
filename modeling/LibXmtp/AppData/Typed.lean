import LibXmtp.AppData.Validation
import LibXmtp.Data.BigEndian
import LibXmtp.Data.TlsSet

/-! What a component is to the code that writes it: its type, how an update is applied to it, and
which changes the update makes. -/

namespace LibXmtp.AppData

open LibXmtp.Data LibXmtp.Groups

inductive ComponentTypedError
  | immutableUpdate (id : UInt16)
  | mismatchedMutation (id : UInt16)
  | malformedValue (id : UInt16) (reason : String)
  | tlsCodec (error : TlsCodecError)
  | tlsSetApply (error : TlsSetError)
  | tlsMapApply (error : TlsMapError)
  | unspecifiedType (id : UInt16)
  | registryMutation (error : ComponentRegistryError)

inductive ComponentInvariantError
  | violation (id : UInt16) (reason : String)

/-- One change an update makes, with the bytes it is about where they are known. -/
structure ExpandedComponentChange where
  op : ComponentOp
  value : Option Bytes

structure ErasedComponent where
  id : UInt16
  componentType : ComponentType
  applyUpdatePayload : Bytes → Option Bytes → Except ComponentTypedError Bytes
  expandToChanges : AppDataUpdateOperation → Option Bytes →
    Except ComponentTypedError (List ExpandedComponentChange)
  validateInvariant : ComponentChange → ComponentRegistry → Except ComponentInvariantError Unit

def applyPassthrough (payload : Bytes) : Except ComponentTypedError Bytes := .ok payload

def expandPassthrough :
    AppDataUpdateOperation → Except ComponentTypedError (List ExpandedComponentChange)
  | .update payload => .ok [⟨.update, some payload⟩]
  | .remove => .ok [⟨.delete, none⟩]

def decodeUtf8 (id : UInt16) (bytes : Bytes) : Except ComponentTypedError String :=
  okOr (String.fromUTF8? ⟨bytes.toArray⟩) (.malformedValue id "not valid UTF-8")

def decodeBeI64 (id : UInt16) (bytes : Bytes) : Except ComponentTypedError Int64 :=
  if bytes.length = 8 then .ok (UInt64.ofNat (ofBigEndian bytes)).toInt64
  else .error (.malformedValue id s!"expected 8 bytes (big-endian i64), got {bytes.length}")

def requireExactLen (id : UInt16) (bytes : Bytes) (expected : Nat) :
    Except ComponentTypedError Unit :=
  if bytes.length = expected then .ok ()
  else .error (.malformedValue id s!"expected {expected} bytes, got {bytes.length}")

section Set

variable {K : Type} [LinearOrder K] (wire : Wire) (k : TlsCodec K)

def readSet (prior : Option Bytes) : Except ComponentTypedError (TlsSet K) :=
  match prior with
  | some bytes => ((TlsSet.codec wire.vlen k).deserializeExact bytes).mapError .tlsCodec
  | none => .ok TlsSet.new

def applySetDelta (payload : Bytes) (prior : Option Bytes) : Except ComponentTypedError Bytes := do
  let delta ← ((TlsSetDelta.codec wire.vlen k).deserializeExact payload).mapError .tlsCodec
  let set ← readSet wire k prior
  let set ← (set.applyDelta ⟨wire.sha256, k⟩ delta).mapError .tlsSetApply
  ((TlsSet.codec wire.vlen k).serialize set).mapError .tlsCodec

def hashIndexError : TlsSetError → ComponentTypedError
  | .codec error => .tlsCodec error
  | error => .tlsSetApply error

/-- The index that hashes are looked up in, built when a mutation needs it and a prior exists. -/
def expandIndex (delta : TlsSetDelta K) (prior : Option Bytes) :
    Except ComponentTypedError (HashMap TlsKeyHash K) :=
  if delta.mutations.any TlsSetMutation.isRemoveByHash then
    match prior with
    | some bytes => do
      let set ← ((TlsSet.codec wire.vlen k).deserializeExact bytes).mapError .tlsCodec
      (TlsSet.hashIndex ⟨wire.sha256, k⟩ set.iter).mapError hashIndexError
    | none => .ok HashMap.empty
  else .ok HashMap.empty

def expandSetMutation (bytes : K → Bytes) (index : HashMap TlsKeyHash K) :
    TlsSetMutation K → ExpandedComponentChange
  | .insert key => ⟨.insert, some (bytes key)⟩
  | .remove key => ⟨.delete, some (bytes key)⟩
  | .removeByHash hash => ⟨.delete, (index.get hash).map bytes⟩

def expandSetChanges (bytes : K → Bytes) (op : AppDataUpdateOperation) (prior : Option Bytes) :
    Except ComponentTypedError (List ExpandedComponentChange) :=
  match op with
  | .remove => .ok [⟨.delete, none⟩]
  | .update payload => do
    let delta ← ((TlsSetDelta.codec wire.vlen k).deserializeExact payload).mapError .tlsCodec
    let index ← expandIndex wire k delta prior
    return delta.mutations.map (expandSetMutation bytes index)

end Set

section Map

variable {K : Type} [LinearOrder K] (wire : Wire) (k : TlsCodec K)

def decodeMapDelta (payload : Bytes) : Except ComponentTypedError (TlsMapDelta K Bytes) :=
  ((TlsMapDelta.codec wire.vlen k wire.vlen.bytes).deserializeExact payload).mapError .tlsCodec

def readMap (prior : Option Bytes) : Except ComponentTypedError (TlsMap K Bytes) :=
  match prior with
  | some bytes =>
    ((TlsMap.codec wire.vlen k wire.vlen.bytes).deserializeExact bytes).mapError .tlsCodec
  | none => .ok TlsMap.new

def applyDecodedMapDelta (delta : TlsMapDelta K Bytes) (prior : Option Bytes) :
    Except ComponentTypedError Bytes := do
  let map ← readMap wire k prior
  match map.applyDelta delta with
  | (.ok _, map) =>
    ((TlsMap.codec wire.vlen k wire.vlen.bytes).serialize map).mapError .tlsCodec
  | (.error e, _) => .error (.tlsMapApply e)

def applyTlsMapDelta (payload : Bytes) (prior : Option Bytes) :
    Except ComponentTypedError Bytes := do
  let delta ← decodeMapDelta wire k payload
  applyDecodedMapDelta wire k delta prior

def expandMapMutation :
    TlsMapMutation K Bytes → Except ComponentTypedError ExpandedComponentChange
  | .insert _ value => .ok ⟨.insert, some value⟩
  | .update _ value => .ok ⟨.update, some value⟩
  | .delete key => do
    let bytes ← (k.serialize key).mapError .tlsCodec
    return ⟨.delete, some bytes⟩

def expandDecodedTlsMapDelta (delta : TlsMapDelta K Bytes) :
    Except ComponentTypedError (List ExpandedComponentChange) :=
  delta.mutations.mapM (expandMapMutation k)

def expandTlsMapChanges (op : AppDataUpdateOperation) :
    Except ComponentTypedError (List ExpandedComponentChange) :=
  match op with
  | .remove => .ok [⟨.delete, none⟩]
  | .update payload => do
    let delta ← decodeMapDelta wire k payload
    expandDecodedTlsMapDelta k delta

end Map

end LibXmtp.AppData
