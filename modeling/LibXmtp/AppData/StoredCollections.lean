import LibXmtp.AppData.Typed
import LibXmtp.Data.TlsSetDelta

namespace LibXmtp.AppData

open LibXmtp.Data

section Set

variable {K : Type} [LinearOrder K] {wire : Wire} {k : TlsCodec K} {prior : Option Bytes}
  {payload bytes : Bytes}

theorem applySetDelta_eq_ok :
    applySetDelta wire k payload prior = .ok bytes ↔
      ∃ delta, (TlsSetDelta.codec wire.vlen k).deserializeExact payload = .ok delta ∧
        ∃ set, readSet wire k prior = .ok set ∧
          ∃ set', set.applyDelta ⟨wire.sha256, k⟩ delta = .ok set' ∧
            (TlsSet.codec wire.vlen k).serialize set' = .ok bytes := by
  simp only [applySetDelta, bind_eq_ok, mapError_eq_ok]

theorem readSet_serialize (hk : k.Lawful) (hpos : k.Positive) {set : TlsSet K}
    (h : (TlsSet.codec wire.vlen k).serialize set = .ok bytes) :
    readSet wire k (some bytes) = .ok set := by
  rw [readSet, (TlsSet.codec_roundTrips hk hpos).deserializeExact_serialize h]
  rfl

theorem serialize_readSet (hk : k.Lawful) {set : TlsSet K}
    (h : readSet wire k (some bytes) = .ok set) :
    (TlsSet.codec wire.vlen k).serialize set = .ok bytes ↔ wire.vlen.StatesLength bytes := by
  rw [readSet, mapError_eq_ok] at h
  exact TlsSet.serialize_iff hk h

end Set

section Map

variable {K : Type} [LinearOrder K] {wire : Wire} {k : TlsCodec K} {prior : Option Bytes}
  {payload bytes : Bytes}

theorem applyDecodedMapDelta_eq_ok {delta : TlsMapDelta K Bytes} :
    applyDecodedMapDelta wire k delta prior = .ok bytes ↔
      ∃ map, readMap wire k prior = .ok map ∧
        ∃ map', Steps TlsMap.mutate map delta.mutations map' ∧
          (TlsMap.codec wire.vlen k wire.vlen.bytes).serialize map' = .ok bytes := by
  simp only [applyDecodedMapDelta, bind_eq_ok]
  apply exists_congr
  intro map
  apply and_congr_right
  intro _
  rw [TlsMap.applyDelta_eq]
  simp only [← Steps.foldlM_eq_ok]
  cases delta.mutations.foldlM TlsMap.mutate map with
  | ok map' => simp [TlsMap.atomically]
  | error e => simp [TlsMap.atomically]

theorem readMap_serialize (hk : k.Lawful) (hpos : k.Positive) {map : TlsMap K Bytes}
    (h : (TlsMap.codec wire.vlen k wire.vlen.bytes).serialize map = .ok bytes) :
    readMap wire k (some bytes) = .ok map := by
  rw [readMap, (TlsMap.codec_roundTrips hk hpos Vlen.bytes_lawful).deserializeExact_serialize h]
  rfl

end Map

end LibXmtp.AppData
