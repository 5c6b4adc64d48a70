import LibXmtp.Associations.Proto
import LibXmtp.Data.HashMap
import LibXmtp.Data.Result

namespace LibXmtp.Associations

open LibXmtp.Data

/-- The third-party functions identities are named with: hexadecimal text, and the SHA-256
digest of a text's UTF-8 bytes. -/
structure Crates where
  hex : Hex
  sha256 : String → Bytes

structure Passkey where
  key : Bytes
  relyingParty : Option String
  deriving DecidableEq

/-- Two passkeys are the same when their keys are, whatever their relying parties. -/
instance : BEq Passkey := ⟨fun a b => a.key == b.key⟩

@[simp] theorem Passkey.beq_eq (a b : Passkey) : (a == b) = (a.key == b.key) := rfl

inductive MemberIdentifier
  | installation (key : Bytes)
  | ethereum (address : String)
  | passkey (passkey : Passkey)
  deriving DecidableEq

namespace MemberIdentifier

def eq : MemberIdentifier → MemberIdentifier → Bool
  | .installation k, .installation k' => k == k'
  | .ethereum a, .ethereum a' => a == a'
  | .passkey p, .passkey p' => p == p'
  | _, _ => false

instance : BEq MemberIdentifier := ⟨eq⟩

theorem beq_eq (a b : MemberIdentifier) : (a == b) = a.eq b := rfl

def canonical : MemberIdentifier → MemberIdentifier
  | .passkey p => .passkey { p with relyingParty := none }
  | m => m

theorem beq_iff_canonical {a b : MemberIdentifier} :
    (a == b) = true ↔ a.canonical = b.canonical := by
  cases a <;> cases b <;> simp [beq_eq, eq, canonical]

instance : EquivBEq MemberIdentifier where
  rfl := beq_iff_canonical.mpr rfl
  symm h := beq_iff_canonical.mpr (beq_iff_canonical.mp h).symm
  trans h h' := beq_iff_canonical.mpr ((beq_iff_canonical.mp h).trans (beq_iff_canonical.mp h'))

end MemberIdentifier

inductive Identifier
  | ethereum (address : String)
  | passkey (passkey : Passkey)
  deriving DecidableEq

inductive MemberKind
  | installation
  | ethereum
  | passkey
  deriving DecidableEq

def MemberKind.display : MemberKind → String
  | .installation => "installation"
  | .ethereum => "ethereum"
  | .passkey => "passkey"

inductive AssociationError
  | generic (message : String)
  | multipleCreate
  | notCreated
  | memberNotAllowed (existing new : MemberKind)
  | missingExistingMember
  | legacySignatureReuse
  | newMemberIdSignatureMismatch
  | wrongInboxId
  | signatureNotAllowed (role signatureKind : String)
  | replay
  | missingIdentityUpdate
  | chainIdMismatch (added signing : UInt64)
  | invalidAccountAddress
  | convert (error : Proto.ConversionError)
  deriving DecidableEq

def MemberIdentifier.kind : MemberIdentifier → MemberKind
  | .installation _ => .installation
  | .ethereum _ => .ethereum
  | .passkey _ => .passkey

theorem MemberIdentifier.kind_eq_of_beq {a b : MemberIdentifier} (h : (a == b) = true) :
    a.kind = b.kind := by
  cases a <;> cases b <;> first | rfl | cases h

def MemberIdentifier.display (crates : Crates) : MemberIdentifier → String
  | .installation key => crates.hex.encode key
  | .ethereum address => address
  | .passkey p => crates.hex.encode p.key

def MemberIdentifier.toIdentifier : MemberIdentifier → Option Identifier
  | .passkey p => some (.passkey p)
  | .ethereum a => some (.ethereum a)
  | .installation _ => none

namespace Identifier

def toMember : Identifier → MemberIdentifier
  | .ethereum a => .ethereum a
  | .passkey p => .passkey p

def kind : Identifier → MemberKind
  | .ethereum _ => .ethereum
  | .passkey _ => .passkey

def eqMember : Identifier → MemberIdentifier → Bool
  | .ethereum a, .ethereum a' => a == a'
  | .passkey p, .passkey p' => p == p'
  | _, _ => false

theorem eqMember_eq (i : Identifier) (m : MemberIdentifier) : i.eqMember m = (i.toMember == m) := by
  cases i <;> cases m <;> rfl

theorem toIdentifier_eq_some {m : MemberIdentifier} {i : Identifier} :
    m.toIdentifier = some i ↔ m = i.toMember := by
  cases m <;> cases i <;> simp [MemberIdentifier.toIdentifier, toMember, eq_comm]

@[simp] theorem toIdentifier_toMember (i : Identifier) : i.toMember.toIdentifier = some i :=
  toIdentifier_eq_some.mpr rfl

@[simp] theorem kind_toMember (i : Identifier) : i.toMember.kind = i.kind := by cases i <;> rfl

theorem kind_ne_installation (i : Identifier) : i.kind ≠ .installation := by
  cases i <;> exact nofun

def isValidAddress : Identifier → Bool
  | .ethereum addr =>
    addr.utf8ByteSize == 42 && addr.toList.take 2 == ['0', 'x'] &&
      (addr.toList.drop 2).all isAsciiHexDigit
  | .passkey _ => true

theorem x_mem_of_isValidAddress {address : String}
    (h : (ethereum address).isValidAddress = true) : 'x' ∈ address.toList := by
  simp only [isValidAddress, Bool.and_eq_true, beq_iff_eq] at h
  have htake : 'x' ∈ address.toList.take 2 := by simp [h.1.2]
  exact List.mem_of_mem_take htake

theorem single_line_of_isValidAddress {address : String}
    (h : (ethereum address).isValidAddress = true) : '\n' ∉ address.toList := by
  intro hbreak
  simp only [isValidAddress, Bool.and_eq_true, beq_iff_eq, List.all_eq_true] at h
  rw [← List.take_append_drop 2 address.toList, List.mem_append] at hbreak
  rcases hbreak with hstart | hdigits
  · rw [h.1.2] at hstart
    exact absurd hstart (by decide)
  · exact absurd (h.2 _ hdigits) (by decide)

def sha256String (crates : Crates) (input : String) : String :=
  crates.hex.encode (crates.sha256 input)

def inboxIdText (crates : Crates) (i : Identifier) (nonce : UInt64) : String :=
  i.toMember.display crates ++ toString nonce

def inboxId (crates : Crates) (i : Identifier) (nonce : UInt64) :
    Except AssociationError String := do
  rejectIf (!i.isValidAddress) .invalidAccountAddress
  return sha256String crates (inboxIdText crates i nonce)

theorem inboxId_eq_ok {crates : Crates} {i : Identifier} {nonce : UInt64} {id : String} :
    i.inboxId crates nonce = .ok id ↔
      i.isValidAddress = true ∧ sha256String crates (inboxIdText crates i nonce) = id := by
  simp [inboxId]

end Identifier

def stripHexPrefix : List Char → List Char
  | '0' :: 'x' :: rest => rest
  | cs => cs

def isValidEthereumAddress (address : String) : Bool :=
  let digits := stripHexPrefix address.toList
  (String.ofList digits).utf8ByteSize == 40 && digits.all isAsciiHexDigit

def sanitizeEvmAddresses (accountAddresses : List String) : Except (List String) (List String) := do
  let invalid := accountAddresses.filter fun a => !isValidEthereumAddress a
  rejectIf (!invalid.isEmpty) invalid
  return accountAddresses.map String.toLower

def Identifier.eth (addr : String) : Except (List String) Identifier := do
  let sanitized ← sanitizeEvmAddresses [addr]
  return .ethereum (sanitized.headD addr)

structure Member where
  identifier : MemberIdentifier
  addedByEntity : Option MemberIdentifier
  clientTimestampNs : Option UInt64
  addedOnChainId : Option UInt64

def Member.kind (m : Member) : MemberKind := m.identifier.kind

end LibXmtp.Associations
