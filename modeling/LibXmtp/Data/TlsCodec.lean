import LibXmtp.Data.Hex
import LibXmtp.Data.Result

namespace LibXmtp.Data

inductive TlsCodecError
  | encodingError (reason : String)
  | decodingError (reason : String)
  | endOfStream
  | invalidVectorLength
  | trailingData
  deriving DecidableEq

def TlsCodecError.text : TlsCodecError → String
  | .encodingError reason => reason
  | .decodingError reason => reason
  | .endOfStream => "end of stream"
  | .invalidVectorLength => "invalid vector length"
  | .trailingData => "trailing data"

/-- `tls_serialize_detached`, and `tls_deserialize` with the bytes it leaves in the reader. -/
structure TlsCodec (α : Type) where
  serialize : α → Except TlsCodecError Bytes
  deserialize : Bytes → Except TlsCodecError (α × Bytes)

namespace TlsCodec

variable {α β : Type}

def deserializeExact (c : TlsCodec α) (bytes : Bytes) : Except TlsCodecError α := do
  let (a, rest) ← c.deserialize bytes
  rejectIf (!rest.isEmpty) .trailingData
  return a

/-- What is written of a value is read back, whatever comes after it. -/
structure RoundTrips (c : TlsCodec α) : Prop where
  deserialize_serialize {a : α} {bytes : Bytes} (h : c.serialize a = .ok bytes) (rest : Bytes) :
    c.deserialize (bytes ++ rest) = .ok (a, rest)

/-- The encoding is injective, and the only one its value is read from. -/
structure Lawful (c : TlsCodec α) : Prop extends RoundTrips c where
  serialize_deserialize {bytes rest : Bytes} {a : α} (h : c.deserialize bytes = .ok (a, rest)) :
    ∃ read, c.serialize a = .ok read ∧ read ++ rest = bytes

/-- Every value takes at least one byte, so that a sequence of them can be told apart. -/
def Positive (c : TlsCodec α) : Prop := ∀ a bytes, c.serialize a = .ok bytes → bytes ≠ []

@[simp] theorem deserializeExact_eq_ok {c : TlsCodec α} {bytes : Bytes} {a : α} :
    c.deserializeExact bytes = .ok a ↔ c.deserialize bytes = .ok (a, []) := by
  simp only [deserializeExact, bind_eq_ok, pure_eq_ok, rejectIf_eq_ok, Prod.exists]
  constructor
  · rintro ⟨b, rest, h, _, hrest, hb⟩
    have hnil : rest = [] := by simpa using hrest
    subst hb hnil
    exact h
  · intro h
    exact ⟨a, [], h, ⟨⟩, rfl, rfl⟩

theorem RoundTrips.deserializeExact_serialize {c : TlsCodec α} (hc : c.RoundTrips) {a : α}
    {bytes : Bytes} (h : c.serialize a = .ok bytes) : c.deserializeExact bytes = .ok a := by
  simpa using hc.deserialize_serialize h []

def Restores (c : TlsCodec α) (a : α) : Prop :=
  ∀ bytes, c.serialize a = .ok bytes → bytes ≠ [] ∧ ∀ rest, c.deserialize (bytes ++ rest) = .ok (a, rest)

theorem RoundTrips.restores {c : TlsCodec α} (hc : c.RoundTrips) (hpos : c.Positive) (a : α) :
    c.Restores a :=
  fun bytes h => ⟨hpos a bytes h, hc.deserialize_serialize h⟩

/-- The values are read from the bytes one after the other, and leave the rest. -/
inductive Reads (c : TlsCodec α) : Bytes → List α → Bytes → Prop
  | nil {bytes : Bytes} : Reads c bytes [] bytes
  | cons {bytes rest rest' : Bytes} {a : α} {as : List α}
    (hread : c.deserialize bytes = .ok (a, rest)) (hreads : Reads c rest as rest') :
    Reads c bytes (a :: as) rest'

theorem Lawful.serialize_reads {c : TlsCodec α} (hc : c.Lawful) {bytes rest : Bytes} {as : List α}
    (h : c.Reads bytes as rest) :
    ∃ contents, as.mapM c.serialize = .ok contents ∧ contents.flatten ++ rest = bytes := by
  induction h with
  | nil => exact ⟨[], rfl, rfl⟩
  | cons hread _ ih =>
    obtain ⟨read, hserialize, happ⟩ := hc.serialize_deserialize hread
    obtain ⟨contents, hcontents, hflat⟩ := ih
    refine ⟨read :: contents, ?_, by rw [List.flatten_cons, List.append_assoc, hflat, happ]⟩
    simp only [List.mapM_cons, hserialize, ok_bind, hcontents]
    rfl

end TlsCodec

/-- What is used of `tls_codec`: numbers of a variable length, each written in one way only, and the
vectors that begin with their length in bytes. A number that is read comes with the number of bytes
it took. A reader of a vector may go past the length it has read, to the end of an element. -/
structure Vlen where
  writeLength : Nat → Except TlsCodecError Bytes
  readLength : Bytes → Except TlsCodecError ((Nat × Nat) × Bytes)
  writeBytes : Bytes → Except TlsCodecError Bytes
  readBytes : Bytes → Except TlsCodecError (Bytes × Bytes)
  writeVec : {α : Type} → TlsCodec α → List α → Except TlsCodecError Bytes
  readVec : {α : Type} → TlsCodec α → Bytes → Except TlsCodecError (List α × Bytes)
  read_write {n : Nat} {bytes : Bytes} (h : writeLength n = .ok bytes) (rest : Bytes) :
    readLength (bytes ++ rest) = .ok ((n, bytes.length), rest)
  write_read {bytes rest : Bytes} {n consumed : Nat}
    (h : readLength bytes = .ok ((n, consumed), rest)) :
    ∃ read, writeLength n = .ok read ∧ read.length = consumed ∧ read ++ rest = bytes
  write_zero : writeLength 0 = .ok [0]
  write_ne_nil : ∀ n, writeLength n ≠ .ok []
  writeBytes_eq_ok {content bytes : Bytes} : writeBytes content = .ok bytes ↔
    ∃ length, writeLength content.length = .ok length ∧ length ++ content = bytes
  readBytes_eq_ok {content bytes rest : Bytes} : readBytes bytes = .ok (content, rest) ↔
    ∃ length, writeLength content.length = .ok length ∧ length ++ content ++ rest = bytes
  writeVec_eq_ok {α : Type} {c : TlsCodec α} {as : List α} {bytes : Bytes} :
    writeVec c as = .ok bytes ↔ ∃ contents length, as.mapM c.serialize = .ok contents ∧
      writeLength contents.flatten.length = .ok length ∧ length ++ contents.flatten = bytes
  readVec_writeVec {α : Type} {c : TlsCodec α} {as : List α} {bytes : Bytes}
    (hc : ∀ a ∈ as, c.Restores a) (h : writeVec c as = .ok bytes) (rest : Bytes) :
    readVec c (bytes ++ rest) = .ok (as, rest)
  reads_readVec {α : Type} {c : TlsCodec α} {bytes rest : Bytes} {as : List α}
    (h : readVec c bytes = .ok (as, rest)) :
    ∃ n consumed tail, readLength bytes = .ok ((n, consumed), tail) ∧ c.Reads tail as rest

namespace Vlen

variable {α : Type} (vlen : Vlen)

def number : TlsCodec Nat where
  serialize := vlen.writeLength
  deserialize bytes := do
    let ((n, _), rest) ← vlen.readLength bytes
    return (n, rest)

def bytes : TlsCodec Bytes := ⟨vlen.writeBytes, vlen.readBytes⟩

def vec (c : TlsCodec α) : TlsCodec (List α) := ⟨vlen.writeVec c, vlen.readVec c⟩

def StatesLength (bytes : Bytes) : Prop :=
  ∃ n consumed rest, vlen.readLength bytes = .ok ((n, consumed), rest) ∧ n = rest.length

variable {vlen}

theorem number_lawful : vlen.number.Lawful where
  deserialize_serialize {n bytes} h rest := by
    simp only [number, vlen.read_write h, ok_bind]
    rfl
  serialize_deserialize {bytes rest n} h := by
    simp only [number, bind_eq_ok, pure_eq_ok, Prod.exists, Prod.mk.injEq] at h
    obtain ⟨m, consumed, rest', hread, hm, hrest⟩ := h
    subst hm hrest
    obtain ⟨read, hwrite, _, happ⟩ := vlen.write_read hread
    exact ⟨read, hwrite, happ⟩

theorem number_positive : vlen.number.Positive := by
  intro n bytes h hnil
  subst hnil
  exact vlen.write_ne_nil n h

theorem bytes_lawful : vlen.bytes.Lawful where
  deserialize_serialize {content encoded} h rest := by
    obtain ⟨length, hlength, heq⟩ := vlen.writeBytes_eq_ok.mp h
    exact vlen.readBytes_eq_ok.mpr ⟨length, hlength, by rw [heq]⟩
  serialize_deserialize {encoded rest content} h := by
    obtain ⟨length, hlength, heq⟩ := vlen.readBytes_eq_ok.mp h
    exact ⟨length ++ content, vlen.writeBytes_eq_ok.mpr ⟨length, hlength, rfl⟩, heq⟩

theorem bytes_positive : vlen.bytes.Positive := by
  intro content bytes h hnil
  obtain ⟨length, hlength, heq⟩ := vlen.writeBytes_eq_ok.mp h
  rw [hnil] at heq
  rw [(List.append_eq_nil_iff.mp heq).1] at hlength
  exact vlen.write_ne_nil _ hlength

section Vec

variable {c : TlsCodec α} {as : List α} {bytes : Bytes}

theorem vec_roundTrips (hc : c.RoundTrips) (hpos : c.Positive) : (vlen.vec c).RoundTrips where
  deserialize_serialize h := vlen.readVec_writeVec (fun a _ => hc.restores hpos a) h

theorem exists_of_deserialize_vec (hc : c.Lawful) {rest : Bytes}
    (h : (vlen.vec c).deserialize bytes = .ok (as, rest)) :
    ∃ n consumed contents, as.mapM c.serialize = .ok contents ∧
      vlen.readLength bytes = .ok ((n, consumed), contents.flatten ++ rest) := by
  obtain ⟨n, consumed, tail, hlength, hreads⟩ := vlen.reads_readVec h
  obtain ⟨contents, hcontents, hflat⟩ := hc.serialize_reads hreads
  exact ⟨n, consumed, contents, hcontents, hflat ▸ hlength⟩

theorem serialize_vec_iff (hc : c.Lawful) (h : (vlen.vec c).deserialize bytes = .ok (as, [])) :
    (vlen.vec c).serialize as = .ok bytes ↔ vlen.StatesLength bytes := by
  obtain ⟨n, consumed, contents, hcontents, hread⟩ := exists_of_deserialize_vec hc h
  rw [List.append_nil] at hread
  constructor
  · intro hwrite
    obtain ⟨contents', length, hcontents', hlength, heq⟩ := vlen.writeVec_eq_ok.mp hwrite
    cases hcontents.symm.trans hcontents'
    exact ⟨_, _, _, heq ▸ vlen.read_write hlength _, rfl⟩
  · rintro ⟨n', consumed', rest, hread', hstates⟩
    obtain ⟨⟨hn, -⟩, hrest⟩ : ((n = n' ∧ consumed = consumed') ∧ contents.flatten = rest) := by
      simpa using hread.symm.trans hread'
    obtain ⟨read, hwrite, -, happ⟩ := vlen.write_read hread
    rw [hn, hstates, ← hrest] at hwrite
    exact vlen.writeVec_eq_ok.mpr ⟨contents, read, hcontents, hwrite, happ⟩

end Vec

end Vlen

end LibXmtp.Data
