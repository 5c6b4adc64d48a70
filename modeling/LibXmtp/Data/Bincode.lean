import LibXmtp.Data.LittleEndian
import LibXmtp.Data.Result

/-! `bincode`, which is a parameter: what it promises of a type that it serializes, and the documented
format of numbers, tuples, vectors and arrays. -/

namespace LibXmtp.Data

/-- The values of a type are read from the front of a byte string. -/
class Bincode (α : Type) where
  serialize : α → Option Bytes
  deserializeFrom : Bytes → Option (α × Bytes)
  deserializeFrom_append {a : α} {bytes : Bytes} (h : serialize a = some bytes) (rest : Bytes) :
    deserializeFrom (bytes ++ rest) = some (a, rest)

namespace Bincode

variable {α : Type} [Bincode α]

def deserialize (bytes : Bytes) : Option α := (deserializeFrom bytes).map Prod.fst

theorem deserialize_serialize {a : α} {bytes : Bytes} (h : serialize a = some bytes) :
    deserialize bytes = some a := by
  have hread := deserializeFrom_append h []
  rw [List.append_nil] at hread
  simp [deserialize, hread]

theorem append_inj {a b : α} {bytes bytes' rest rest' : Bytes} (ha : serialize a = some bytes)
    (hb : serialize b = some bytes') (h : bytes ++ rest = bytes' ++ rest') :
    a = b ∧ rest = rest' := by
  have hread := deserializeFrom_append ha rest
  rw [h, deserializeFrom_append hb rest'] at hread
  cases hread
  exact ⟨rfl, rfl⟩

theorem serialize_inj {a b : α} {bytes : Bytes} (ha : serialize a = some bytes)
    (hb : serialize b = some bytes) : a = b := by
  have happend : bytes ++ [] = bytes ++ [] := rfl
  exact (append_inj ha hb happend).1

end Bincode

class BincodeFormat where
  uint8 : Bincode UInt8
  uint32 : Bincode UInt32
  pair {α β : Type} : Bincode α → Bincode β → Bincode (α × β)
  vec {α : Type} : Bincode α → Bincode (List α)
  serializeArray {α : Type} : Bincode α → List α → Option Bytes
  uint8_serialize (byte : UInt8) : uint8.serialize byte = some [byte]
  pair_serialize {α β : Type} (left : Bincode α) (right : Bincode β) (ab : α × β) :
    (pair left right).serialize ab = do
      let bytes ← left.serialize ab.1
      let bytes' ← right.serialize ab.2
      return bytes ++ bytes'
  vec_serialize {α : Type} (element : Bincode α) (as : List α) :
    (vec element).serialize as = do
      let parts ← as.mapM element.serialize
      if as.length < 256 ^ 8 then return toLittleEndian 8 as.length ++ parts.flatten else none
  array_serialize {α : Type} (element : Bincode α) (as : List α) :
    serializeArray element as = do
      let parts ← as.mapM element.serialize
      return parts.flatten
  serialize_of_deserializeFrom {bytes rest : Bytes} {vectors : List Bytes}
    (h : (vec (vec uint8)).deserializeFrom bytes = some (vectors, rest)) :
    ∃ encoded, (vec (vec uint8)).serialize vectors = some encoded ∧ bytes = encoded ++ rest

section Format

variable [format : BincodeFormat] {α β : Type} [left : Bincode α] [right : Bincode β]

instance : Bincode UInt8 := BincodeFormat.uint8

instance : Bincode UInt32 := BincodeFormat.uint32

instance : Bincode (α × β) := BincodeFormat.pair left right

instance : Bincode (List α) := BincodeFormat.vec left

namespace Bincode

theorem pair_eq_some {ab : α × β} {encoded : Bytes} : serialize ab = some encoded ↔
    ∃ bytes bytes', serialize ab.1 = some bytes ∧ serialize ab.2 = some bytes' ∧
      encoded = bytes ++ bytes' := by
  rw [show serialize ab = _ from format.pair_serialize left right ab]
  simp only [bind, Option.bind_eq_some_iff, pure, Option.some.injEq, exists_and_left,
    @eq_comm _ _ encoded]

theorem vec_eq_some {as : List α} {encoded : Bytes} : serialize as = some encoded ↔
    ∃ parts, as.mapM serialize = some parts ∧ as.length < 256 ^ 8 ∧
      encoded = toLittleEndian 8 as.length ++ parts.flatten := by
  rw [show serialize as = _ from format.vec_serialize left as]
  simp only [bind, Option.bind_eq_some_iff, Option.ite_none_right_eq_some, pure, Option.some.injEq,
    @eq_comm _ _ encoded]

theorem bytes_eq_some {bytes encoded : Bytes} : serialize bytes = some encoded ↔
    bytes.length < 256 ^ 8 ∧ encoded = toLittleEndian 8 bytes.length ++ bytes := by
  have hparts : bytes.mapM serialize = some (bytes.map fun byte => [byte]) := by
    induction bytes with
    | nil => rfl
    | cons byte bytes ih =>
      rw [List.mapM_cons, ih, show serialize byte = _ from format.uint8_serialize byte]
      rfl
  have hflatten : (bytes.map fun byte => [byte]).flatten = bytes := by
    rw [← List.flatMap_def]
    exact List.flatMap_singleton' bytes
  rw [vec_eq_some, hparts]
  simp only [Option.some.injEq, exists_eq_left', hflatten]

theorem array_eq_some {a : α} {encoded : Bytes} :
    format.serializeArray left [a] = some encoded ↔ serialize a = some encoded := by
  rw [format.array_serialize]
  cases h : serialize a <;> simp [h]

theorem length_of_mapM_bytes {vectors : List Bytes} {parts : List Bytes}
    (h : vectors.mapM serialize = some parts) : 8 * vectors.length ≤ parts.flatten.length := by
  induction vectors generalizing parts with
  | nil => simp
  | cons bytes vectors ih =>
    simp only [List.mapM_cons, bind, Option.bind_eq_some_iff, pure, Option.some.injEq] at h
    obtain ⟨part, hpart, parts, hparts, rfl⟩ := h
    obtain ⟨_, rfl⟩ := bytes_eq_some.mp hpart
    have hothers := ih hparts
    simp only [List.length_cons, List.flatten_cons, List.length_append, length_toLittleEndian]
    omega

/-- Bytes that are written as the only element of an array, without a count, are not read as a
vector: their length would be its count, and they are too few for as many vectors. -/
theorem deserialize_array_eq_none {bytes encoded : Bytes} (hne : bytes ≠ [])
    (h : serialize bytes = some encoded) :
    (deserialize encoded : Option (List Bytes)) = none := by
  by_contra hsome
  obtain ⟨vectors, hvectors⟩ := Option.ne_none_iff_exists'.mp hsome
  rw [deserialize, Option.map_eq_some_iff] at hvectors
  obtain ⟨⟨_, rest⟩, hread, rfl⟩ := hvectors
  obtain ⟨encoded', hencoded', happend⟩ := format.serialize_of_deserializeFrom hread
  obtain ⟨parts, hparts, hcount, rfl⟩ := vec_eq_some.mp hencoded'
  obtain ⟨hlength, rfl⟩ := bytes_eq_some.mp h
  rw [List.append_assoc] at happend
  obtain ⟨hnumber, hrest⟩ := List.append_inj happend (by simp)
  have hsame := congrArg ofLittleEndian hnumber
  rw [ofLittleEndian_toLittleEndian, ofLittleEndian_toLittleEndian, Nat.mod_eq_of_lt hlength,
    Nat.mod_eq_of_lt hcount] at hsame
  have height := length_of_mapM_bytes hparts
  have htotal := congrArg List.length hrest
  rw [List.length_append] at htotal
  have hpos := List.length_pos_of_ne_nil hne
  omega

end Bincode

end Format

namespace BincodeFormat

def takeLittleEndian (length : Nat) (bytes : Bytes) : Option (Nat × Bytes) :=
  if length ≤ bytes.length then some (ofLittleEndian (bytes.take length), bytes.drop length) else none

theorem takeLittleEndian_append {length n : Nat} (hn : n < 256 ^ length) (rest : Bytes) :
    takeLittleEndian length (toLittleEndian length n ++ rest) = some (n, rest) := by
  have hlength := length_toLittleEndian length n
  have htake : (toLittleEndian length n ++ rest).take length = toLittleEndian length n := by
    rw [List.take_append_of_le_length (by omega), List.take_of_length_le (by omega)]
  have hdrop : (toLittleEndian length n ++ rest).drop length = rest := by
    rw [List.drop_append_of_le_length (by omega), List.drop_of_length_le (by omega)]
    rfl
  simp only [takeLittleEndian, htake, hdrop, ofLittleEndian_toLittleEndian, Nat.mod_eq_of_lt hn]
  simp

theorem eq_of_takeLittleEndian {length n : Nat} {bytes rest : Bytes}
    (h : takeLittleEndian length bytes = some (n, rest)) :
    n < 256 ^ length ∧ bytes = toLittleEndian length n ++ rest := by
  rw [takeLittleEndian, Option.ite_none_right_eq_some] at h
  obtain ⟨hle, heq⟩ := h
  cases heq
  have hlength : (bytes.take length).length = length := by
    rw [List.length_take, Nat.min_eq_left hle]
  have hbytes := toLittleEndian_ofLittleEndian (bytes.take length)
  rw [hlength] at hbytes
  refine ⟨?_, by rw [hbytes, List.take_append_drop]⟩
  rw [← hbytes, ofLittleEndian_toLittleEndian]
  exact Nat.mod_lt _ (Nat.pow_pos (by decide))

section Vec

variable {α β : Type} (element : Bincode α) (other : Bincode β)

def deserializeMany : Nat → Bytes → Option (List α × Bytes)
  | 0, bytes => some ([], bytes)
  | count + 1, bytes => do
    let (a, rest) ← element.deserializeFrom bytes
    let (as, rest) ← deserializeMany count rest
    return (a :: as, rest)

variable {element}

theorem deserializeMany_append {as : List α} {parts : List Bytes}
    (h : as.mapM element.serialize = some parts) (rest : Bytes) :
    deserializeMany element as.length (parts.flatten ++ rest) = some (as, rest) := by
  induction as generalizing parts with
  | nil =>
    cases h
    rfl
  | cons a as ih =>
    simp only [List.mapM_cons, bind, Option.bind_eq_some_iff, pure, Option.some.injEq] at h
    obtain ⟨bytes, ha, parts, hparts, rfl⟩ := h
    simp [deserializeMany, element.deserializeFrom_append ha, ih hparts]

/-- Values are read of nothing but what they are written as. -/
def Exact (element : Bincode α) : Prop :=
  ∀ bytes a rest, element.deserializeFrom bytes = some (a, rest) →
    ∃ encoded, element.serialize a = some encoded ∧ bytes = encoded ++ rest

theorem Exact.many (h : Exact element) {count : Nat} {bytes rest : Bytes} {as : List α}
    (hread : deserializeMany element count bytes = some (as, rest)) :
    as.length = count ∧ ∃ parts, as.mapM element.serialize = some parts ∧
      bytes = parts.flatten ++ rest := by
  induction count generalizing bytes as with
  | zero =>
    cases hread
    exact ⟨rfl, [], rfl, rfl⟩
  | succ count ih =>
    simp only [deserializeMany, bind, Option.bind_eq_some_iff, Prod.exists, pure,
      Option.some.injEq, Prod.mk.injEq] at hread
    obtain ⟨a, between, ha, as', rest', has, rfl, rfl⟩ := hread
    obtain ⟨encoded, hencoded, rfl⟩ := h _ _ _ ha
    obtain ⟨hlength, parts, hparts, rfl⟩ := ih has
    refine ⟨by simp [hlength], encoded :: parts, ?_, by simp⟩
    simp [hencoded, hparts]

variable (element)

abbrev fixintPair : Bincode (α × β) where
  serialize ab := do
    let bytes ← element.serialize ab.1
    let bytes' ← other.serialize ab.2
    return bytes ++ bytes'
  deserializeFrom bytes := do
    let (a, rest) ← element.deserializeFrom bytes
    let (b, rest) ← other.deserializeFrom rest
    return ((a, b), rest)
  deserializeFrom_append h rest := by
    simp only [bind, Option.bind_eq_some_iff, pure, Option.some.injEq] at h
    obtain ⟨bytes, ha, bytes', hb, rfl⟩ := h
    simp [List.append_assoc, element.deserializeFrom_append ha, other.deserializeFrom_append hb]

abbrev fixintVec : Bincode (List α) where
  serialize as := do
    let parts ← as.mapM element.serialize
    if as.length < 256 ^ 8 then return toLittleEndian 8 as.length ++ parts.flatten else none
  deserializeFrom bytes := do
    let (count, rest) ← takeLittleEndian 8 bytes
    deserializeMany element count rest
  deserializeFrom_append h rest := by
    simp only [bind, Option.bind_eq_some_iff, Option.ite_none_right_eq_some, pure,
      Option.some.injEq] at h
    obtain ⟨parts, hparts, hcount, rfl⟩ := h
    simp [List.append_assoc, takeLittleEndian_append hcount, deserializeMany_append hparts]

variable {element}

theorem Exact.vec (h : Exact element) : Exact (fixintVec element) := by
  intro bytes as rest hread
  change (takeLittleEndian 8 bytes).bind _ = _ at hread
  rw [Option.bind_eq_some_iff] at hread
  obtain ⟨⟨count, between⟩, hcount, hmany⟩ := hread
  obtain ⟨hlt, rfl⟩ := eq_of_takeLittleEndian hcount
  obtain ⟨rfl, parts, hparts, rfl⟩ := h.many hmany
  refine ⟨toLittleEndian 8 as.length ++ parts.flatten, ?_, (List.append_assoc _ _ _).symm⟩
  change (as.mapM element.serialize).bind _ = _
  rw [hparts, Option.bind_some, if_pos hlt]
  rfl

end Vec

abbrev fixintByte : Bincode UInt8 where
  serialize byte := some [byte]
  deserializeFrom
    | [] => none
    | byte :: rest => some (byte, rest)
  deserializeFrom_append h rest := by cases h; rfl

theorem exact_fixintByte : Exact fixintByte := by
  intro bytes byte rest hread
  cases bytes with
  | nil => cases hread
  | cons byte bytes =>
    cases hread
    exact ⟨[byte], rfl, rfl⟩

abbrev fixintNumber : Bincode UInt32 where
  serialize n := some (toLittleEndian 4 n.toNat)
  deserializeFrom bytes := (takeLittleEndian 4 bytes).map fun (n, rest) => (UInt32.ofNat n, rest)
  deserializeFrom_append {n _} h rest := by
    cases h
    have hread : n.toNat < 256 ^ 4 := n.toNat_lt
    simp [takeLittleEndian_append hread]

abbrev fixint : BincodeFormat where
  uint8 := fixintByte
  uint32 := fixintNumber
  pair := fixintPair
  vec := fixintVec
  serializeArray element as := do
    let parts ← as.mapM element.serialize
    return parts.flatten
  uint8_serialize _ := rfl
  pair_serialize _ _ _ := rfl
  vec_serialize _ _ := rfl
  array_serialize _ _ := rfl
  serialize_of_deserializeFrom := exact_fixintByte.vec.vec _ _ _

example : (fixintVec (fixintVec fixintByte)).serialize [[7, 8], []] =
    some [2, 0, 0, 0, 0, 0, 0, 0, 2, 0, 0, 0, 0, 0, 0, 0, 7, 8, 0, 0, 0, 0, 0, 0, 0, 0] := by decide

end BincodeFormat

end LibXmtp.Data
