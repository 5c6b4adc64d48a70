import LibXmtp.Associations.Replay
import LibXmtp.Associations.Unverified
import LibXmtp.Data.BigEndian

namespace LibXmtp.Associations

open LibXmtp.Data

/-- What is used of the ECDSA signatures of `k256`: 64 bytes are read as the two values `r` and
`s`, and of the two values `s` can have one counts as low. -/
structure K256 where
  Signature : Type
  tryFrom : Bytes → Option Signature
  toBytes : Signature → Bytes
  negateS : Signature → Signature
  normalizeS : Signature → Option Signature
  length_toBytes : ∀ sig, (toBytes sig).length = 64
  toBytes_of_tryFrom : ∀ {bytes sig}, tryFrom bytes = some sig → toBytes sig = bytes
  low_twin : ∀ sig, (normalizeS sig = none ∧ normalizeS (negateS sig) = some sig) ∨
    (normalizeS sig = some (negateS sig) ∧ normalizeS (negateS sig) = none)

/-- The parity the recovery byte stands for: 0 and 1, 27 and 28, and the values of EIP-155. -/
def normalizeV (v : UInt8) : Option Bool :=
  if v = 0 ∨ v = 27 then some false
  else if v = 1 ∨ v = 28 then some true
  else if 35 ≤ v then some ((v - 35) % 2 == 1)
  else none

/-- What is used of the signatures of `alloy`: 65 bytes, the last of which only counts by its
parity, and the address that signed a message. -/
structure Alloy where
  Signature : Type
  tryFrom : Bytes → Option Signature
  recoverAddressFromMsg : Signature → String → Option Bytes
  length_of_tryFrom : ∀ {bytes sig}, tryFrom bytes = some sig → bytes.length = 65
  parity_only : ∀ rs {v w}, normalizeV v = normalizeV w → tryFrom (rs ++ [v]) = tryFrom (rs ++ [w])

section Recoverable

variable (k256 : K256) (alloy : Alloy) (crates : Crates)

/-- Converts a signature to use the lower-s value to prevent signature malleability. -/
def toLowerS (sigBytes : Bytes) : Except SignatureError Bytes := do
  rejectIf (sigBytes.length != 64 && sigBytes.length != 65) .invalid
  let sigData := sigBytes.take 64
  let recoveryId := sigBytes.drop 64
  let sig ← okOr (k256.tryFrom sigData) .ed25519Error
  let normalized :=
    match k256.normalizeS sig with
    | none => sigData
    | some normalized => k256.toBytes normalized
  return normalized ++ recoveryId

def h160addrToString (bytes : Bytes) : String := ("0x" ++ crates.hex.encode bytes).toLower

def fromRecoverableEcdsa (signatureText : String) (signatureBytes : Bytes) :
    Except SignatureError VerifiedSignature := do
  let normalizedSignatureBytes ← toLowerS k256 signatureBytes
  let signature ← okOr (alloy.tryFrom normalizedSignatureBytes) .signature
  let address ← okOr (alloy.recoverAddressFromMsg signature signatureText) .signature
  let signer ← (Identifier.eth (h160addrToString crates address)).mapError
    fun _ => SignatureError.addressValidationError
  return ⟨signer.toMember, .erc191, normalizedSignatureBytes, none⟩

variable {k256 alloy crates}

namespace K256

def lowS (k256 : K256) (sig : k256.Signature) : k256.Signature := (k256.normalizeS sig).getD sig

theorem lowS_negateS (sig : k256.Signature) : k256.lowS (k256.negateS sig) = k256.lowS sig := by
  rcases k256.low_twin sig with ⟨hlow, htwin⟩ | ⟨hlow, htwin⟩
  · simp [lowS, hlow, htwin]
  · simp [lowS, hlow, htwin]

end K256

theorem toLowerS_eq_ok {sigBytes bytes : Bytes} :
    toLowerS k256 sigBytes = .ok bytes ↔
      (sigBytes.length = 64 ∨ sigBytes.length = 65) ∧
      ∃ sig, k256.tryFrom (sigBytes.take 64) = some sig ∧
        bytes = k256.toBytes (k256.lowS sig) ++ sigBytes.drop 64 := by
  have hbytes : ∀ {sig}, k256.tryFrom (sigBytes.take 64) = some sig →
      (match k256.normalizeS sig with
        | none => sigBytes.take 64
        | some normalized => k256.toBytes normalized) = k256.toBytes (k256.lowS sig) := by
    intro sig hsig
    cases hlow : k256.normalizeS sig with
    | none => simp [K256.lowS, hlow, k256.toBytes_of_tryFrom hsig]
    | some normalized => simp [K256.lowS, hlow]
  simp only [toLowerS, bind_eq_ok, rejectIf_eq_ok, okOr_eq_ok, pure_eq_ok]
  constructor
  · rintro ⟨_, hlength, sig, hsig, rfl⟩
    refine ⟨?_, sig, hsig, by rw [hbytes hsig]⟩
    simp only [Bool.and_eq_false_iff, bne_eq_false_iff_eq] at hlength
    exact hlength
  · rintro ⟨hlength, sig, hsig, rfl⟩
    refine ⟨⟨⟩, ?_, sig, hsig, by rw [hbytes hsig]⟩
    simp only [Bool.and_eq_false_iff, bne_eq_false_iff_eq]
    exact hlength

/-- The 64 bytes before the recovery byte are the same signature up to the sign of `s`. -/
def SameUpToS (k256 : K256) (a b : Bytes) : Prop :=
  ∃ sig, k256.tryFrom (a.take 64) = some sig ∧
    (k256.tryFrom (b.take 64) = some sig ∨ k256.tryFrom (b.take 64) = some (k256.negateS sig))

theorem rawBytes_eq {text : String} {a : Bytes} {v : VerifiedSignature}
    (h : fromRecoverableEcdsa k256 alloy crates text a = .ok v) :
    ∃ sig, k256.tryFrom (a.take 64) = some sig ∧ a.length = 65 ∧
      v.rawBytes = k256.toBytes (k256.lowS sig) ++ a.drop 64 := by
  simp only [fromRecoverableEcdsa, bind_eq_ok, okOr_eq_ok, pure_eq_ok] at h
  obtain ⟨bytes, hlower, signature, hsignature, _, _, _, _, rfl⟩ := h
  obtain ⟨hlength, sig, hsig, rfl⟩ := toLowerS_eq_ok.mp hlower
  have htotal := alloy.length_of_tryFrom hsignature
  rw [List.length_append, k256.length_toBytes, List.length_drop] at htotal
  exact ⟨sig, hsig, by omega, rfl⟩

theorem SameUpToS.lowS_eq {a b : Bytes} {sig sig' : k256.Signature} (h : SameUpToS k256 a b)
    (ha : k256.tryFrom (a.take 64) = some sig) (hb : k256.tryFrom (b.take 64) = some sig') :
    k256.lowS sig = k256.lowS sig' := by
  obtain ⟨sig₀, ha₀, hb₀⟩ := h
  rw [ha] at ha₀
  cases ha₀
  rw [hb] at hb₀
  rcases hb₀ with hb₀ | hb₀
  · cases hb₀
    rfl
  · cases hb₀
    exact (K256.lowS_negateS sig).symm

/-- Two accepted encodings of one signature are remembered by the same bytes, and one is recognised
as a replay of the other, exactly when their recovery bytes are equal. -/
theorem rawBytes_canonical_iff {text : String} {a b : Bytes} {va vb : VerifiedSignature}
    (ha : fromRecoverableEcdsa k256 alloy crates text a = .ok va)
    (hb : fromRecoverableEcdsa k256 alloy crates text b = .ok vb) (hsame : SameUpToS k256 a b) :
    (va.rawBytes = vb.rawBytes ↔ a[64]? = b[64]?) ∧
    ((∀ s : AssociationState, (s.addSeenSignatures [va.rawBytes]).hasSeen vb.rawBytes = true) ↔
      a[64]? = b[64]?) := by
  obtain ⟨sig, hsig, hlength, hraw⟩ := rawBytes_eq ha
  obtain ⟨sig', hsig', hlength', hraw'⟩ := rawBytes_eq hb
  have hlow := hsame.lowS_eq hsig hsig'
  have hiff : va.rawBytes = vb.rawBytes ↔ a[64]? = b[64]? := by
    rw [hraw, hraw', hlow, List.append_right_inj, ← List.head?_drop, ← List.head?_drop]
    constructor
    · intro hdrop
      rw [hdrop]
    · intro hhead
      obtain ⟨x, hx⟩ := List.length_eq_one_iff.mp
        (show (a.drop 64).length = 1 by rw [List.length_drop, hlength])
      obtain ⟨y, hy⟩ := List.length_eq_one_iff.mp
        (show (b.drop 64).length = 1 by rw [List.length_drop, hlength'])
      rw [hx, hy] at hhead ⊢
      simpa using hhead
  refine ⟨hiff, ?_⟩
  rw [← hiff]
  constructor
  · intro hseen
    have hempty := hseen ⟨"", HashMap.empty, .ethereum "", ∅⟩
    simpa [AssociationState.hasSeen, AssociationState.addSeenSignatures, eq_comm] using hempty
  · intro hraw s
    simp [hraw]

theorem accepted_with_other_recovery {text : String} {rs : Bytes} {rid rid' : UInt8}
    {v : VerifiedSignature} (h : fromRecoverableEcdsa k256 alloy crates text (rs ++ [rid]) = .ok v)
    (hparity : normalizeV rid = normalizeV rid') :
    ∃ v', fromRecoverableEcdsa k256 alloy crates text (rs ++ [rid']) = .ok v' ∧
      v'.signer = v.signer := by
  have hlength : rs.length = 64 := by
    obtain ⟨_, _, hlength, _⟩ := rawBytes_eq h
    simpa using hlength
  simp only [fromRecoverableEcdsa, bind_eq_ok, okOr_eq_ok, pure_eq_ok] at h ⊢
  obtain ⟨bytes, hlower, signature, hsignature, address, haddress, signer, hsigner, rfl⟩ := h
  obtain ⟨_, sig, hsig, rfl⟩ := toLowerS_eq_ok.mp hlower
  rw [List.take_left' hlength] at hsig
  rw [List.drop_left' hlength, alloy.parity_only _ hparity] at hsignature
  refine ⟨_, ⟨k256.toBytes (k256.lowS sig) ++ [rid'], ?_, signature, hsignature, address, haddress,
    signer, hsigner, rfl⟩, rfl⟩
  refine toLowerS_eq_ok.mpr ⟨.inr (by simp [hlength]), sig, ?_, ?_⟩
  · rw [List.take_left' hlength, hsig]
  · rw [List.drop_left' hlength]

end Recoverable

namespace Secp256k1

def order : Nat := 0xfffffffffffffffffffffffffffffffebaaedce6af48a03bbfd25e8cd0364141

structure Scalars where
  r : Nat
  s : Nat
  r_range : 0 < r ∧ r < order
  s_range : 0 < s ∧ s < order
  deriving DecidableEq

def tryFrom (bytes : Bytes) : Option Scalars :=
  if h : bytes.length = 64 ∧ (0 < ofBigEndian (bytes.take 32) ∧ ofBigEndian (bytes.take 32) < order) ∧
      (0 < ofBigEndian (bytes.drop 32) ∧ ofBigEndian (bytes.drop 32) < order) then
    some ⟨_, _, h.2.1, h.2.2⟩
  else none

def toBytes (sig : Scalars) : Bytes := toBigEndian 32 sig.r ++ toBigEndian 32 sig.s

def negateS (sig : Scalars) : Scalars :=
  ⟨sig.r, order - sig.s, sig.r_range, by have h := sig.s_range; omega⟩

def normalizeS (sig : Scalars) : Option Scalars :=
  if order / 2 < sig.s then some (negateS sig) else none

theorem negateS_negateS (sig : Scalars) : negateS (negateS sig) = sig := by
  obtain ⟨r, s, hr, hs⟩ := sig
  have htwice : order - (order - s) = s := by omega
  simp only [negateS, htwice]

theorem toBytes_of_tryFrom {bytes : Bytes} {sig : Scalars} (h : tryFrom bytes = some sig) :
    toBytes sig = bytes := by
  unfold tryFrom at h
  split at h
  · rename_i hbytes
    cases h
    have htake : (bytes.take 32).length = 32 := by rw [List.length_take, hbytes.1]; rfl
    have hdrop : (bytes.drop 32).length = 32 := by rw [List.length_drop, hbytes.1]
    have hr := toBigEndian_ofBigEndian (bytes.take 32)
    have hs := toBigEndian_ofBigEndian (bytes.drop 32)
    rw [htake] at hr
    rw [hdrop] at hs
    rw [toBytes, hr, hs, List.take_append_drop]
  · cases h

theorem low_twin (sig : Scalars) :
    (normalizeS sig = none ∧ normalizeS (negateS sig) = some sig) ∨
      (normalizeS sig = some (negateS sig) ∧ normalizeS (negateS sig) = none) := by
  have hodd : order % 2 = 1 := by decide
  have hs := sig.s_range
  by_cases hhigh : order / 2 < sig.s
  · right
    have htwin : ¬order / 2 < (negateS sig).s := by
      simp only [negateS]
      omega
    simp [normalizeS, hhigh, htwin]
  · left
    have htwin : order / 2 < (negateS sig).s := by
      simp only [negateS]
      omega
    simp [normalizeS, hhigh, htwin, negateS_negateS]

def k256 : K256 where
  Signature := Scalars
  tryFrom := tryFrom
  toBytes := toBytes
  negateS := negateS
  normalizeS := normalizeS
  length_toBytes sig := by simp [toBytes]
  toBytes_of_tryFrom := toBytes_of_tryFrom
  low_twin := low_twin

end Secp256k1

namespace Sample

def scalars : Bytes :=
  [0x5c, 0xbd, 0xf0, 0x64, 0x6e, 0x5d, 0xb4, 0xea, 0xa3, 0x98, 0xf3, 0x65, 0xf2, 0xea, 0x7a, 0x0e,
    0x3d, 0x41, 0x9b, 0x7e, 0x03, 0x30, 0xe3, 0x9c, 0xe9, 0x2b, 0xdd, 0xed, 0xca, 0xc4, 0xf9, 0xbc,
    0x3a, 0xb1, 0xee, 0x4f, 0xfe, 0xd9, 0x44, 0x85, 0x7c, 0x86, 0x5c, 0xa6, 0x82, 0x72, 0xe9, 0x27,
    0xcf, 0x45, 0x5d, 0x30, 0x99, 0xcf, 0x3c, 0x8c, 0x8f, 0xa5, 0x90, 0x09, 0x40, 0x99, 0x1b, 0x05]

def highScalars : Bytes :=
  [0x5c, 0xbd, 0xf0, 0x64, 0x6e, 0x5d, 0xb4, 0xea, 0xa3, 0x98, 0xf3, 0x65, 0xf2, 0xea, 0x7a, 0x0e,
    0x3d, 0x41, 0x9b, 0x7e, 0x03, 0x30, 0xe3, 0x9c, 0xe9, 0x2b, 0xdd, 0xed, 0xca, 0xc4, 0xf9, 0xbc,
    0xc5, 0x4e, 0x11, 0xb0, 0x01, 0x26, 0xbb, 0x7a, 0x83, 0x79, 0xa3, 0x59, 0x7d, 0x8d, 0x16, 0xd6,
    0xeb, 0x69, 0x7f, 0xb6, 0x15, 0x79, 0x63, 0xaf, 0x30, 0x2c, 0xce, 0x83, 0x8f, 0x9d, 0x26, 0x3c]

def signerAddress : Bytes :=
  [0x7e, 0x5f, 0x45, 0x52, 0x09, 0x1a, 0x69, 0x12, 0x5d, 0x5d, 0xfc, 0xb7, 0xb8, 0xc2, 0x65, 0x90,
    0x29, 0x39, 0x5b, 0xdf]

def alloySignature (bytes : Bytes) : Option (Bytes × Bool) :=
  if bytes.length = 65 then (bytes[64]?.bind normalizeV).map fun parity => (bytes.take 64, parity)
  else none

def alloy : Alloy where
  Signature := Bytes × Bool
  tryFrom := alloySignature
  recoverAddressFromMsg sig text :=
    if text = "xmtp" ∧ sig = (scalars, false) then some signerAddress else none
  length_of_tryFrom := by
    intro bytes sig h
    unfold alloySignature at h
    split at h
    · assumption
    · cases h
  parity_only := by
    intro rs v w h
    unfold alloySignature
    by_cases hlength : rs.length = 64
    · have hv : (rs ++ [v])[64]? = some v := by rw [← hlength]; simp
      have hw : (rs ++ [w])[64]? = some w := by rw [← hlength]; simp
      simp only [List.length_append, List.length_singleton, hlength, hv, hw, Option.bind_some, h,
        List.take_left' hlength]
    · simp [hlength]

def recovered (recoveryId : UInt8) : VerifiedSignature :=
  ⟨.ethereum "0x7e5f4552091a69125d5dfcb7b8c2659029395bdf", .erc191, scalars ++ [recoveryId], none⟩

theorem recovered_of_scalars (recoveryId : UInt8) (h : recoveryId = 0 ∨ recoveryId = 27) :
    fromRecoverableEcdsa Secp256k1.k256 alloy crates "xmtp" (scalars ++ [recoveryId]) =
      .ok (recovered recoveryId) := by
  rcases h with rfl | rfl <;> decide +kernel

theorem recovered_of_highScalars :
    fromRecoverableEcdsa Secp256k1.k256 alloy crates "xmtp" (highScalars ++ [0]) =
      .ok (recovered 0) := by decide +kernel

theorem sameUpToS_scalars (rid rid' : UInt8) :
    SameUpToS Secp256k1.k256 (scalars ++ [rid]) (scalars ++ [rid']) := by
  have hsome : (Secp256k1.tryFrom scalars).isSome = true := by decide +kernel
  obtain ⟨sig, hsig⟩ := Option.isSome_iff_exists.mp hsome
  exact ⟨sig, hsig, .inl hsig⟩

theorem sameUpToS_highScalars :
    SameUpToS Secp256k1.k256 (highScalars ++ [0]) (scalars ++ [0]) := by
  have hsome : (Secp256k1.tryFrom highScalars).any fun sig =>
      decide (Secp256k1.tryFrom scalars = some (Secp256k1.negateS sig)) := by decide +kernel
  obtain ⟨sig, hsig, hcheck⟩ := (Option.any_eq_true _ _).mp hsome
  have htwin : Secp256k1.tryFrom scalars = some (Secp256k1.negateS sig) := of_decide_eq_true hcheck
  exact ⟨sig, hsig, .inr htwin⟩

end Sample

theorem rawBytes_canonical_iff_twins :
    ∃ va vb,
      fromRecoverableEcdsa Secp256k1.k256 Sample.alloy Sample.crates "xmtp"
        (Sample.highScalars ++ [0]) = .ok va ∧
      fromRecoverableEcdsa Secp256k1.k256 Sample.alloy Sample.crates "xmtp"
        (Sample.scalars ++ [0]) = .ok vb ∧
      va.rawBytes = vb.rawBytes := by
  have hhigh := Sample.recovered_of_highScalars
  have hlow := Sample.recovered_of_scalars 0 (.inl rfl)
  exact ⟨_, _, hhigh, hlow,
    (rawBytes_canonical_iff hhigh hlow Sample.sameUpToS_highScalars).1.mpr rfl⟩

/-- One signature of one signer is accepted with the recovery bytes 0 and 27, and remembered by
different bytes. -/
theorem rawBytes_not_canonical :
    ∃ va vb,
      fromRecoverableEcdsa Secp256k1.k256 Sample.alloy Sample.crates "xmtp"
        (Sample.scalars ++ [0]) = .ok va ∧
      fromRecoverableEcdsa Secp256k1.k256 Sample.alloy Sample.crates "xmtp"
        (Sample.scalars ++ [27]) = .ok vb ∧
      SameUpToS Secp256k1.k256 (Sample.scalars ++ [0]) (Sample.scalars ++ [27]) ∧
      va.signer = vb.signer ∧ va.rawBytes ≠ vb.rawBytes :=
  ⟨Sample.recovered 0, Sample.recovered 27, Sample.recovered_of_scalars 0 (.inl rfl),
    Sample.recovered_of_scalars 27 (.inr rfl), Sample.sameUpToS_scalars 0 27, rfl, by decide⟩

end LibXmtp.Associations
