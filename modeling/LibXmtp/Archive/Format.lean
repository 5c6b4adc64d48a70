import LibXmtp.Archive.ExportStream
import LibXmtp.Data.LittleEndian

namespace LibXmtp.Archive

open LibXmtp.Data

def nonceSize : Nat := 12

def backupVersion : Nat := 0

structure Nonce where
  bytes : Bytes
  length_bytes : bytes.length = nonceSize

namespace Nonce

def val (nonce : Nonce) : Nat := ofLittleEndian (nonce.bytes ++ List.replicate 4 0)

def ofVal (val : Nat) : Nonce where
  bytes := (toLittleEndian 16 val).take 12
  length_bytes := by simp [nonceSize]

def increment (nonce : Nonce) : Nonce := ofVal ((nonce.val + 1) % 2 ^ 128)

def decrement (nonce : Nonce) : Nonce := ofVal ((nonce.val + (2 ^ 128 - 1)) % 2 ^ 128)

end Nonce

def header (nonce : Nonce) : Bytes := toLittleEndian 2 backupVersion ++ nonce.bytes

structure Aead where
  encrypt : Bytes → Nonce → Bytes → Bytes
  decrypt : Bytes → Nonce → Bytes → Option Bytes
  decrypt_encrypt : ∀ key nonce plaintext,
    decrypt key nonce (encrypt key nonce plaintext) = some plaintext
  decrypt_of_ne : ∀ key nonce nonce' plaintext, nonce' ≠ nonce →
    decrypt key nonce' (encrypt key nonce plaintext) = none
  length_encrypt : ∀ key nonce plaintext, (encrypt key nonce plaintext).length = plaintext.length + 16

structure Prost (μ : Type) where
  encodeToVec : μ → Bytes
  decode : Bytes → Option μ
  decode_encodeToVec : ∀ message, decode (encodeToVec message) = some message

/-- An encoder, each operation with what it appends to the vector that it writes to. -/
structure ZstdEncoder where
  State : Type
  new : State
  write : State → Bytes → Bytes × State
  flush : State → Bytes × State
  close : State → Bytes × State

/-- What the encoder has appended in all and what was written to it. -/
inductive ZstdEncoder.Wrote (z : ZstdEncoder) : z.State → Bytes → Bytes → Prop
  | new : z.Wrote z.new [] []
  | write (bytes : Bytes) : z.Wrote encoder out written →
      z.Wrote (z.write encoder bytes).2 (out ++ (z.write encoder bytes).1) (written ++ bytes)
  | flush : z.Wrote encoder out written →
      z.Wrote (z.flush encoder).2 (out ++ (z.flush encoder).1) written

structure Zstd extends ZstdEncoder where
  decode : Bytes → Bytes
  decode_close : ∀ encoder out written, toZstdEncoder.Wrote encoder out written →
    decode (out ++ (close encoder).1) = written

namespace Proto

structure BackupMetadataSave where
  elements : List Int
  exportedAtNs : Int
  startNs : Option Int
  endNs : Option Int
  deriving DecidableEq

/-- The metadata, or what is saved of a group, a message, a consent or an event. -/
inductive Element (ε : Type)
  | metadata (save : BackupMetadataSave)
  | record (save : ε)
  deriving DecidableEq

structure BackupElement (ε : Type) where
  element : Option (Element ε)
  deriving DecidableEq

end Proto

def BackupElementSelection.toProto : BackupElementSelection → Int
  | .unspecified => 0
  | .messages => 1
  | .consent => 2
  | .event => 3

def BackupElementSelection.ofProto? (value : Int) : Option BackupElementSelection :=
  if value = 0 then some .unspecified
  else if value = 1 then some .messages
  else if value = 2 then some .consent
  else if value = 3 then some .event
  else none

def Proto.BackupMetadataSave.fromOptions (options : ArchiveOptions) (now : Int) :
    BackupMetadataSave where
  elements := options.elements.map BackupElementSelection.toProto
  exportedAtNs := now
  startNs := options.startNs
  endNs := options.endNs

structure BackupMetadata where
  backupVersion : Nat := 0
  elements : List BackupElementSelection := []
  exportedAtNs : Int := 0
  startNs : Option Int := none
  endNs : Option Int := none
  deriving DecidableEq

def BackupMetadata.fromMetadataSave (save : Proto.BackupMetadataSave) (backupVersion : Nat) :
    BackupMetadata where
  backupVersion
  elements := save.elements.filterMap BackupElementSelection.ofProto?
  exportedAtNs := save.exportedAtNs
  startNs := save.startNs
  endNs := save.endNs

theorem BackupMetadata.elements_fromMetadataSave_fromOptions (options : ArchiveOptions) (now : Int)
    (version : Nat) :
    (fromMetadataSave (.fromOptions options now) version).elements = options.elements := by
  have hproto : BackupElementSelection.ofProto? ∘ BackupElementSelection.toProto = some := by
    funext selection
    cases selection <;> rfl
  rw [fromMetadataSave, Proto.BackupMetadataSave.fromOptions, List.filterMap_map, hproto,
    List.filterMap_some]

/-- How the elements of an archive are encoded, encrypted and compressed. -/
structure ArchiveFormat (ε : Type) where
  prost : Prost (Proto.BackupElement ε)
  cipher : Aead
  zstd : Zstd

namespace ArchiveFormat

variable {ε : Type} (f : ArchiveFormat ε) (key : Bytes)

def encrypted (nonce : Nonce) (element : Proto.BackupElement ε) : Bytes :=
  f.cipher.encrypt key nonce (f.prost.encodeToVec element)

def frame (nonce : Nonce) (element : Proto.BackupElement ε) : Bytes :=
  toLittleEndian 4 ((f.encrypted key nonce element).length % 2 ^ 32) ++ f.encrypted key nonce element

def frames : Nonce → List (Proto.BackupElement ε) → Bytes
  | _, [] => []
  | nonce, element :: elements => f.frame key nonce element ++ frames nonce.increment elements

def nonceAfter (nonce : Nonce) (n : Nat) : Nonce := Nonce.increment^[n] nonce

/-- The length of the element, once it is encrypted, is a `u32`. -/
def Fits (element : Proto.BackupElement ε) : Prop :=
  (f.prost.encodeToVec element).length + 16 < 2 ^ 32

variable {f key}

theorem length_encrypted (nonce : Nonce) (element : Proto.BackupElement ε) :
    (f.encrypted key nonce element).length = (f.prost.encodeToVec element).length + 16 :=
  f.cipher.length_encrypt key nonce _

theorem frames_append (nonce : Nonce) (es es' : List (Proto.BackupElement ε)) :
    f.frames key nonce (es ++ es') = f.frames key nonce es ++
      f.frames key (nonceAfter nonce es.length) es' := by
  induction es generalizing nonce with
  | nil => rfl
  | cons e es ih =>
    simp only [List.cons_append, frames, ih, List.append_assoc, List.length_cons, nonceAfter,
      Function.iterate_succ_apply]

end ArchiveFormat

end LibXmtp.Archive
