import LibXmtp.Data.HashMap
import LibXmtp.Data.TlsMapCodec

namespace LibXmtp.Data

structure TlsKeyHash where
  bytes : Bytes
  deriving DecidableEq

inductive TlsSetError
  | duplicateHash
  | map (error : TlsMapError)
  | codec (error : TlsCodecError)
  deriving DecidableEq

structure TlsSet (K : Type) [LinearOrder K] where
  inner : TlsMap K Unit

inductive TlsSetMutation (K : Type)
  | insert (key : K)
  | remove (key : K)
  | removeByHash (hash : TlsKeyHash)

structure TlsSetDelta (K : Type) where
  mutations : List (TlsSetMutation K)

structure KeyHashing (K : Type) where
  sha256 : Bytes → Bytes
  codec : TlsCodec K

def KeyHashing.of {K : Type} (hashing : KeyHashing K) (key : K) :
    Except TlsCodecError TlsKeyHash :=
  return ⟨hashing.sha256 (← hashing.codec.serialize key)⟩

namespace TlsSet

variable {K : Type} [LinearOrder K] (hashing : KeyHashing K)

def new : TlsSet K := ⟨TlsMap.new⟩

def iter (s : TlsSet K) : List K := s.inner.keys

def isEmpty (s : TlsSet K) : Bool := s.inner.isEmpty

def hashIndex (keys : List K) : Except TlsSetError (HashMap TlsKeyHash K) :=
  keys.foldlM (fun index key => do
    let hash ← (hashing.of key).mapError .codec
    rejectIf (index.containsKey hash) .duplicateHash
    return index.insert hash key) HashMap.empty

def resolve (index : HashMap TlsKeyHash K) :
    TlsSetMutation K → Except TlsSetError (TlsMapMutation K Unit)
  | .insert key => .ok (.insert key ())
  | .remove key => .ok (.delete key)
  | .removeByHash hash => do
    let key ← okOr (index.get hash) (.map .keyNotFound)
    return .delete key

end TlsSet

def TlsSetMutation.isRemoveByHash {K : Type} : TlsSetMutation K → Bool
  | .removeByHash _ => true
  | _ => false

namespace TlsSet

variable {K : Type} [LinearOrder K] (hashing : KeyHashing K)

def deltaIndex (s : TlsSet K) (delta : TlsSetDelta K) :
    Except TlsSetError (HashMap TlsKeyHash K) :=
  if delta.mutations.any TlsSetMutation.isRemoveByHash then hashIndex hashing s.iter
  else .ok HashMap.empty

def applyDelta (s : TlsSet K) (delta : TlsSetDelta K) : Except TlsSetError (TlsSet K) := do
  let index ← deltaIndex hashing s delta
  let resolved ← delta.mutations.mapM (resolve index)
  match s.inner.applyDelta ⟨resolved⟩ with
  | (.ok _, inner) => return ⟨inner⟩
  | (.error e, _) => .error (.map e)

end TlsSet

section Codec

variable {K : Type} (vlen : Vlen) (k : TlsCodec K)

def TlsCodec.unit : TlsCodec Unit where
  serialize _ := .ok []
  deserialize bytes := .ok ((), bytes)

theorem TlsCodec.unit_lawful : TlsCodec.unit.Lawful where
  deserialize_serialize {a bytes} h rest := by
    cases h
    rfl
  serialize_deserialize {bytes rest a} h := by
    cases h
    exact ⟨[], rfl, rfl⟩

def TlsSet.codec [LinearOrder K] : TlsCodec (TlsSet K) where
  serialize s := (TlsMap.codec vlen k .unit).serialize s.inner
  deserialize bytes := do
    let (inner, rest) ← (TlsMap.codec vlen k .unit).deserialize bytes
    return (⟨inner⟩, rest)

section

variable [LinearOrder K] {vlen : Vlen} {k : TlsCodec K} (hk : k.Lawful)

include hk

theorem TlsSet.codec_roundTrips (hpos : k.Positive) : (TlsSet.codec vlen k).RoundTrips where
  deserialize_serialize {s bytes} h rest := by
    have hmap : (TlsMap.codec vlen k .unit).RoundTrips :=
      TlsMap.codec_roundTrips hk hpos TlsCodec.unit_lawful
    simp only [codec, hmap.deserialize_serialize h, ok_bind]
    rfl

theorem TlsSet.serialize_iff {bytes : Bytes} {s : TlsSet K}
    (h : (TlsSet.codec vlen k).deserializeExact bytes = .ok s) :
    (TlsSet.codec vlen k).serialize s = .ok bytes ↔ vlen.StatesLength bytes := by
  rw [TlsCodec.deserializeExact_eq_ok] at h
  simp only [codec, bind_eq_ok, pure_eq_ok, Prod.exists, Prod.mk.injEq] at h
  obtain ⟨inner, rest, hinner, hs, hrest⟩ := h
  subst hs hrest
  exact TlsMap.serialize_iff hk TlsCodec.unit_lawful (TlsCodec.deserializeExact_eq_ok.mpr hinner)

end

def TlsSetMutation.codec : TlsCodec (TlsSetMutation K) where
  serialize
    | .insert key => return 0 :: (← k.serialize key)
    | .remove key => return 1 :: (← k.serialize key)
    | .removeByHash hash => .ok (2 :: hash.bytes)
  deserialize
    | [] => .error .endOfStream
    | tag :: bytes =>
      if tag = 0 then do
        let (key, rest) ← k.deserialize bytes
        return (.insert key, rest)
      else if tag = 1 then do
        let (key, rest) ← k.deserialize bytes
        return (.remove key, rest)
      else if tag = 2 then
        if bytes.length < 32 then .error .endOfStream
        else .ok (.removeByHash ⟨bytes.take 32⟩, bytes.drop 32)
      else .error (.decodingError s!"unknown TlsSetMutation tag: {tag}")

def TlsSetDelta.codec : TlsCodec (TlsSetDelta K) where
  serialize delta := (vlen.vec (TlsSetMutation.codec k)).serialize delta.mutations
  deserialize bytes := do
    let (mutations, rest) ← (vlen.vec (TlsSetMutation.codec k)).deserialize bytes
    return (⟨mutations⟩, rest)

end Codec

end LibXmtp.Data
