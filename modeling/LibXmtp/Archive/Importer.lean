import LibXmtp.Archive.Exporter

namespace LibXmtp.Archive

open LibXmtp.Data

variable {ε : Type}

inductive ArchiveError
  | missingMetadata
  | aesGcm
  | io
  | decode
  deriving DecidableEq

abbrev Item (ε : Type) := Except ArchiveError (Proto.BackupElement ε)

/-- The decoder is given by the bytes that it has yet to deliver. -/
structure ArchiveImporter where
  metadata : BackupMetadata := {}
  decoded : Bytes := []
  undelivered : Bytes
  key : Bytes
  nonce : Nonce

/-- How a round of `poll_next` ends. The length of the element outlives the round only if there is
another one. -/
inductive Round (ε : Type)
  | item (item : Item ε) (importer : ArchiveImporter)
  | ended (importer : ArchiveImporter)
  | again (elementLen : Nat) (importer : ArchiveImporter)

namespace ArchiveImporter

variable (f : ArchiveFormat ε) (this : ArchiveImporter)

def decrypt (ciphertext : Bytes) : Option Bytes × Nonce :=
  match f.cipher.decrypt this.key this.nonce ciphertext with
  | some plaintext => (some plaintext, this.nonce)
  | none =>
    match f.cipher.decrypt this.key this.nonce.decrement ciphertext with
    | some plaintext => (some plaintext, this.nonce.decrement)
    | none => (none, this.nonce.decrement.increment)

def takeLength (elementLen : Nat) (decoded : Bytes) : Nat × Bytes :=
  if elementLen = 0 ∧ 4 ≤ decoded.length then (ofLittleEndian (decoded.take 4), decoded.drop 4)
  else (elementLen, decoded)

def takeElement (elementLen : Nat) : Option (Item ε × ArchiveImporter) :=
  if elementLen ≠ 0 ∧ elementLen ≤ this.decoded.length then
    match decrypt f this (this.decoded.take elementLen) with
    | (none, nonce) => some (.error .aesGcm, { this with nonce })
    | (some plaintext, nonce) =>
      some ((f.prost.decode plaintext).elim (.error .decode) .ok,
        { this with decoded := this.decoded.drop elementLen, nonce := nonce.increment })
  else none

/-- A round of the loop in `poll_next`, with what is read in it. -/
def round (elementLen : Nat) (piece : Bytes) : Round ε :=
  let taken := takeLength elementLen (this.decoded ++ piece)
  match takeElement f { this with decoded := taken.2 } taken.1 with
  | some (item, importer) => .item item importer
  | none =>
    if piece = [] ∧ taken.2 = [] then .ended { this with decoded := taken.2 }
    else .again taken.1 { this with decoded := taken.2 }

end ArchiveImporter

/-- An importer whose stream is polled until it ends, with how often its reader was polled and the
items so far. The first item is what `load` waits for. -/
structure Import (ε : Type) where
  importer : ArchiveImporter
  version : Nat
  elementLen : Nat := 0
  polls : Nat := 0
  loaded : Bool := false
  items : List (Item ε) := []

abbrev ImportResult (ε : Type) := Except ArchiveError (BackupMetadata × List (Item ε))

namespace Import

variable (f : ArchiveFormat ε) (answers : Nat → Poll Nat)

def readSize : Nat := 1024

def load (key archive : Bytes) : Except ArchiveError (Import ε) :=
  if h : 2 + nonceSize ≤ archive.length then
    .ok {
      importer := {
        undelivered := f.zstd.decode (archive.drop (2 + nonceSize))
        key
        nonce := ⟨(archive.drop 2).take nonceSize, by simp; omega⟩ }
      version := ofLittleEndian (archive.take 2) }
  else .error .io

def received (s : Import ε) (item : Item ε) : Next (Import ε) (ImportResult ε) :=
  if s.loaded then .again { s with items := s.items ++ [item] }
  else
    match item with
    | .ok ⟨some (.metadata save)⟩ =>
      let metadata := BackupMetadata.fromMetadataSave save s.version
      .again { s with importer := { s.importer with metadata }, loaded := true }
    | _ => .done (.error .missingMetadata)

def ended (s : Import ε) : Next (Import ε) (ImportResult ε) :=
  if s.loaded then .done (.ok (s.importer.metadata, s.items)) else .done (.error .missingMetadata)

/-- A piece holds a byte at least unless nothing is left. When the reader is pending the stream is
polled anew. -/
def step (s : Import ε) : Option (Next (Import ε) (ImportResult ε)) :=
  match answers s.polls with
  | .pending => some (.again { s with elementLen := 0, polls := s.polls + 1 })
  | .ready n =>
    let size := min (n + 1) readSize
    let undelivered := s.importer.undelivered.drop size
    match ArchiveImporter.round f { s.importer with undelivered } s.elementLen
        (s.importer.undelivered.take size) with
    | .item item importer =>
      some (received { s with importer, elementLen := 0, polls := s.polls + 1 } item)
    | .ended importer => some (ended { s with importer, elementLen := 0, polls := s.polls + 1 })
    | .again elementLen importer =>
      some (.again { s with importer, elementLen, polls := s.polls + 1 })

end Import

/-- The archive is loaded and its stream polled to its end, with this result. -/
def Imports (f : ArchiveFormat ε) (key archive : Bytes) (answers : Nat → Poll Nat)
    (result : ImportResult ε) : Prop :=
  match Import.load f key archive with
  | .error e => result = .error e
  | .ok start => Loop.Returns (Import.step f answers) start result

/-- Whenever the reader is pending, no length was read whose element is yet to be completed. -/
def PendsBetweenElements (f : ArchiveFormat ε) (key archive : Bytes) (answers : Nat → Poll Nat) :
    Prop :=
  ∀ start, Import.load f key archive = .ok start →
    ∀ t, Loop.Reaches (Import.step f answers) start t → answers t.polls = .pending → t.elementLen = 0

/-- What is left of a stream from which a length may have been taken. -/
inductive Framed (f : ArchiveFormat ε) (key : Bytes) :
    Nonce → Nat → Bytes → List (Proto.BackupElement ε) → Prop
  | length : Framed f key nonce 0 (f.frames key nonce rest) rest
  | element : Framed f key nonce (f.encrypted key nonce element).length
      (f.encrypted key nonce element ++ f.frames key nonce.increment rest) (element :: rest)

section Round

variable {f : ArchiveFormat ε} {key : Bytes} {nonce : Nonce} {elementLen : Nat}
  {decoded undelivered : Bytes} {rest : List (Proto.BackupElement ε)}

theorem encrypted_ne_nil (element : Proto.BackupElement ε) : f.encrypted key nonce element ≠ [] := by
  apply List.ne_nil_of_length_pos
  rw [ArchiveFormat.length_encrypted]
  omega

theorem Framed.takeLength (h : Framed f key nonce elementLen (decoded ++ undelivered) rest)
    (hfits : ∀ element ∈ rest, f.Fits element) :
    Framed f key nonce (ArchiveImporter.takeLength elementLen decoded).1
      ((ArchiveImporter.takeLength elementLen decoded).2 ++ undelivered) rest ∧
    ((ArchiveImporter.takeLength elementLen decoded).1 = 0 →
      (ArchiveImporter.takeLength elementLen decoded).2.length < 4) := by
  rw [ArchiveImporter.takeLength]
  split
  · rename_i hlength
    obtain ⟨rfl, hdecoded⟩ := hlength
    generalize hbytes : decoded ++ undelivered = bytes at h
    generalize hzero : 0 = elementLen at h
    cases h with
    | element =>
      rw [ArchiveFormat.length_encrypted] at hzero
      omega
    | length =>
      cases rest with
      | nil =>
        have hempty := List.append_eq_nil_iff.mp hbytes
        simp [hempty.1] at hdecoded
      | cons element rest =>
        rw [ArchiveFormat.frames, ArchiveFormat.frame, List.append_assoc] at hbytes
        have hlt : (f.encrypted key nonce element).length < 2 ^ 32 := by
          rw [ArchiveFormat.length_encrypted]
          exact hfits element List.mem_cons_self
        rw [Nat.mod_eq_of_lt hlt] at hbytes
        have htake := congrArg (List.take 4) hbytes
        have hdrop := congrArg (List.drop 4) hbytes
        rw [List.take_append_of_le_length hdecoded, List.take_left' (by simp)] at htake
        rw [List.drop_append_of_le_length hdecoded, List.drop_left' (by simp)] at hdrop
        rw [htake, hdrop, ofLittleEndian_toLittleEndian,
          Nat.mod_eq_of_lt (hlt.trans_le (by decide))]
        refine ⟨.element, fun hempty => ?_⟩
        rw [ArchiveFormat.length_encrypted] at hempty
        omega
  · rename_i hlength
    exact ⟨h, fun hzero => Nat.lt_of_not_le fun hdecoded => hlength ⟨hzero, hdecoded⟩⟩

theorem length_takeLength_le (elementLen : Nat) (decoded : Bytes) :
    (ArchiveImporter.takeLength elementLen decoded).2.length ≤ decoded.length := by
  rw [ArchiveImporter.takeLength]
  split <;> simp

variable {this : ArchiveImporter}

theorem takeElement_encrypted {element : Proto.BackupElement ε} (hkey : this.key = key)
    (hdecoded : this.decoded = f.encrypted key this.nonce element ++ decoded) :
    ArchiveImporter.takeElement f this (f.encrypted key this.nonce element).length =
      some (.ok element, { this with decoded, nonce := this.nonce.increment }) := by
  have hcomplete : (f.encrypted key this.nonce element).length ≠ 0 ∧
      (f.encrypted key this.nonce element).length ≤ this.decoded.length := by
    refine ⟨by simp [encrypted_ne_nil], ?_⟩
    rw [hdecoded, List.length_append]
    exact Nat.le_add_right _ _
  have hdecrypt : ArchiveImporter.decrypt f this (f.encrypted key this.nonce element) =
      (some (f.prost.encodeToVec element), this.nonce) := by
    rw [ArchiveImporter.decrypt, hkey, ArchiveFormat.encrypted, f.cipher.decrypt_encrypt]
  rw [ArchiveImporter.takeElement, if_pos hcomplete, hdecoded, List.take_left' rfl,
    List.drop_left' rfl, hdecrypt]
  simp only [f.prost.decode_encodeToVec]
  rfl

theorem Framed.takeElement (this : ArchiveImporter) (hkey : this.key = key)
    (h : Framed f key this.nonce elementLen (this.decoded ++ undelivered) rest) :
    (∃ element rest' decoded, rest = element :: rest' ∧
      ArchiveImporter.takeElement f this elementLen =
        some (.ok element, { this with decoded, nonce := this.nonce.increment }) ∧
      decoded.length < this.decoded.length ∧
      Framed f key this.nonce.increment 0 (decoded ++ undelivered) rest') ∨
    ArchiveImporter.takeElement f this elementLen = none ∧
      (elementLen ≠ 0 → this.decoded.length < elementLen) := by
  by_cases hcomplete : elementLen ≠ 0 ∧ elementLen ≤ this.decoded.length
  · left
    generalize hbytes : this.decoded ++ undelivered = bytes at h
    cases h with
    | length => exact absurd rfl hcomplete.1
    | @element element rest =>
      obtain ⟨decoded, hdecoded⟩ : f.encrypted key this.nonce element <+: this.decoded :=
        List.prefix_of_prefix_length_le ⟨_, rfl⟩ ⟨undelivered, hbytes⟩ hcomplete.2
      refine ⟨element, rest, decoded, rfl, takeElement_encrypted hkey hdecoded.symm, ?_, ?_⟩
      · have hpos : 0 < (f.encrypted key this.nonce element).length :=
          List.length_pos_iff.mpr (encrypted_ne_nil element)
        rw [← hdecoded, List.length_append]
        omega
      · rw [← hdecoded, List.append_assoc, List.append_cancel_left_eq] at hbytes
        rw [hbytes]
        exact .length
  · right
    refine ⟨by rw [ArchiveImporter.takeElement, if_neg hcomplete], fun hne => ?_⟩
    exact Nat.lt_of_not_le fun hle => hcomplete ⟨hne, hle⟩

theorem Framed.round (this : ArchiveImporter) {piece : Bytes} (hkey : this.key = key)
    (h : Framed f key this.nonce elementLen (this.decoded ++ piece ++ this.undelivered) rest)
    (hfits : ∀ element ∈ rest, f.Fits element) (hend : piece = [] → this.undelivered = []) :
    (∃ element rest' decoded, rest = element :: rest' ∧
      ArchiveImporter.round f this elementLen piece =
        .item (.ok element) { this with decoded, nonce := this.nonce.increment } ∧
      decoded.length < (this.decoded ++ piece).length ∧
      Framed f key this.nonce.increment 0 (decoded ++ this.undelivered) rest') ∨
    (rest = [] ∧ ∃ decoded,
      ArchiveImporter.round f this elementLen piece = .ended { this with decoded }) ∨
    ∃ elementLen' decoded, piece ≠ [] ∧
      ArchiveImporter.round f this elementLen piece = .again elementLen' { this with decoded } ∧
      decoded.length ≤ (this.decoded ++ piece).length ∧
      Framed f key this.nonce elementLen' (decoded ++ this.undelivered) rest := by
  obtain ⟨htaken, hlength⟩ := h.takeLength hfits
  have hle := length_takeLength_le elementLen (this.decoded ++ piece)
  rw [ArchiveImporter.round]
  generalize ArchiveImporter.takeLength elementLen (this.decoded ++ piece) = taken at *
  obtain ⟨elementLen', decoded⟩ := taken
  dsimp only at htaken hlength hle ⊢
  rcases Framed.takeElement { this with decoded } hkey htaken with
    ⟨element, rest', decoded', hrest, htake, hlt, hframed⟩ | ⟨htake, hincomplete⟩
  · left
    rw [htake]
    exact ⟨element, rest', decoded', hrest, rfl, hlt.trans_le hle, hframed⟩
  · right
    rw [htake]
    dsimp only at hincomplete ⊢
    by_cases hpiece : piece = []
    · -- Everything is delivered, so a frame that is left could be completed.
      left
      rw [hend hpiece, List.append_nil] at htaken
      cases htaken with
      | element =>
        have hshort := hincomplete (by simp [encrypted_ne_nil])
        rw [List.length_append] at hshort
        omega
      | length =>
        have hshort := hlength rfl
        cases rest with
        | nil => exact ⟨rfl, _, if_pos ⟨hpiece, rfl⟩⟩
        | cons element rest =>
          rw [ArchiveFormat.frames, ArchiveFormat.frame, List.length_append, List.length_append,
            length_toLittleEndian] at hshort
          omega
    · exact .inr ⟨elementLen', decoded, hpiece, if_neg fun hempty => hpiece hempty.1, hle, htaken⟩

end Round

end LibXmtp.Archive
