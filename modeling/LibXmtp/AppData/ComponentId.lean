import LibXmtp.Data.TlsCodec
import LibXmtp.Groups.OpenMls
import Mathlib.Data.List.Lex
import Mathlib.Order.Std

namespace LibXmtp

instance linearOrderUInt8 : LinearOrder UInt8 where
  le_refl := UInt8.le_refl
  le_trans _ _ _ := UInt8.le_trans
  le_antisymm _ _ := UInt8.le_antisymm
  le_total := UInt8.le_total
  lt_iff_le_not_ge _ _ := Std.LawfulOrderLT.lt_iff _ _
  toDecidableLE := inferInstance

instance linearOrderUInt16 : LinearOrder UInt16 where
  le_refl := UInt16.le_refl
  le_trans _ _ _ := UInt16.le_trans
  le_antisymm _ _ := UInt16.le_antisymm
  le_total := UInt16.le_total
  lt_iff_le_not_ge _ _ := Std.LawfulOrderLT.lt_iff _ _
  toDecidableLE := inferInstance

end LibXmtp

namespace LibXmtp.Groups.ComponentId

def superAdminList : UInt16 := 0x8001

def adminList : UInt16 := 0x8002

def groupMembership : UInt16 := 0x8003

def groupName : UInt16 := 0x8004

def groupDescription : UInt16 := 0x8005

def groupImageUrl : UInt16 := 0x8006

def messageDisappearFromNs : UInt16 := 0x8007

def messageDisappearInNs : UInt16 := 0x8008

def appData : UInt16 := 0x8009

def commitLogSigner : UInt16 := 0x800B

def conversationType : UInt16 := 0xBFFF

def creatorInboxId : UInt16 := 0xBFFE

def dmMembers : UInt16 := 0xBFFD

def oneshotMessage : UInt16 := 0xBFFC

section

variable (id : UInt16)

def isInComponentSpace : Bool := 0x8000 ≤ id

def isXmtpRange : Bool := 0x8000 ≤ id && id ≤ 0xBFFF

def isAppRange : Bool := 0xC000 ≤ id && id ≤ 0xFEFF

def isReserved : Bool := 0xFF00 ≤ id

def isImmutable : Bool := (0xBE00 ≤ id && id ≤ 0xBFFF) || (0xFD00 ≤ id && id ≤ 0xFEFF)

def isHardcoded : Bool := id = componentRegistry || id = superAdminList

def isConstrained : Bool := id = adminList

end

end LibXmtp.Groups.ComponentId

namespace LibXmtp.AppData

open LibXmtp.Data

def componentIdCodec (vlen : Vlen) : TlsCodec UInt16 where
  serialize id := vlen.writeLength id.toNat
  deserialize bytes := do
    let ((value, _), rest) ← vlen.readLength bytes
    if value > UInt16.size - 1 then
      .error (.decodingError (s!"ComponentId value {value} exceeds u16::MAX; this version of " ++
        "the library cannot decode IDs larger than 0xFFFF"))
    else return (UInt16.ofNat value, rest)

theorem componentIdCodec_lawful (vlen : Vlen) : (componentIdCodec vlen).Lawful where
  deserialize_serialize {id bytes} h rest := by
    have hlt : ¬id.toNat > UInt16.size - 1 := by
      have hid := id.toNat_lt
      simp only [UInt16.size]
      omega
    simp only [componentIdCodec, vlen.read_write h, ok_bind, if_neg hlt]
    simp
  serialize_deserialize {bytes rest id} h := by
    simp only [componentIdCodec, bind_eq_ok, Prod.exists] at h
    obtain ⟨value, consumed, rest', hread, hid⟩ := h
    obtain ⟨read, hwrite, _, happ⟩ := vlen.write_read hread
    split at hid
    · cases hid
    · rename_i hle
      cases hid
      refine ⟨read, ?_, happ⟩
      have hvalue : (UInt16.ofNat value).toNat = value := by
        simp only [UInt16.size] at hle
        simp
        omega
      change vlen.writeLength (UInt16.ofNat value).toNat = .ok read
      rw [hvalue, hwrite]

theorem componentIdCodec_positive (vlen : Vlen) : (componentIdCodec vlen).Positive := by
  intro id bytes h hnil
  subst hnil
  exact vlen.write_ne_nil _ h

structure InboxId where
  bytes : Bytes
  length_eq : bytes.length = 32
  deriving DecidableEq

inductive InboxIdError
  | invalidHex
  | invalidLength (actual : Nat)
  deriving DecidableEq

namespace InboxId

theorem bytes_injective : Function.Injective bytes := by
  intro a b h
  cases a
  cases b
  congr

instance : LinearOrder InboxId := LinearOrder.lift' bytes bytes_injective

def toHex (hex : Hex) (id : InboxId) : String := hex.encode id.bytes

def fromHex (hex : Hex) (text : String) : Except InboxIdError InboxId :=
  match hex.decode text with
  | none => .error .invalidHex
  | some bytes =>
    if h : bytes.length = 32 then .ok ⟨bytes, h⟩ else .error (.invalidLength bytes.length)

/-- The version of the format, zero, in a single byte, and then the bytes of the id. -/
def codec (vlen : Vlen) : TlsCodec InboxId where
  serialize id := return (← vlen.writeLength 0) ++ id.bytes
  deserialize bytes := do
    let ((version, consumed), rest) ← vlen.readLength bytes
    if consumed ≠ 1 ∨ version ≠ 0 then
      .error (.decodingError
        s!"unsupported InboxId version: varint={version}, bytes_consumed={consumed}")
    else if h : rest.length < 32 then .error .endOfStream
    else return (⟨rest.take 32, by rw [List.length_take]; omega⟩, rest.drop 32)

theorem codec_lawful (vlen : Vlen) : (codec vlen).Lawful where
  deserialize_serialize {id bytes} h rest := by
    simp only [codec, vlen.write_zero, ok_bind, pure_eq_ok] at h
    subst h
    have hread := vlen.read_write vlen.write_zero (id.bytes ++ rest)
    have hlen := id.length_eq
    have hshort : ¬(id.bytes ++ rest).length < 32 := by
      rw [List.length_append]
      omega
    simp only [codec, List.append_assoc, hread, ok_bind, dif_neg hshort]
    simp [← hlen]
  serialize_deserialize {bytes rest id} h := by
    simp only [codec, bind_eq_ok, Prod.exists] at h
    obtain ⟨version, consumed, rest', hread, hid⟩ := h
    obtain ⟨read, hwrite, _, happ⟩ := vlen.write_read hread
    split at hid
    · cases hid
    · rename_i hversion
      split at hid
      · cases hid
      · cases hid
        have hzero : version = 0 := by simpa using (not_or.mp hversion).2
        subst hzero
        refine ⟨read ++ rest'.take 32, ?_, ?_⟩
        · simp only [codec, hwrite, ok_bind]
          rfl
        · rw [List.append_assoc, List.take_append_drop, happ]

theorem codec_positive (vlen : Vlen) : (codec vlen).Positive := by
  intro id bytes h hnil
  simp only [codec, vlen.write_zero, ok_bind, pure_eq_ok] at h
  subst hnil
  cases h

end InboxId

end LibXmtp.AppData
