import LibXmtp.Associations.Membership
import LibXmtp.Data.Text

namespace LibXmtp.Associations

open LibXmtp.Data

namespace Identifier

variable {crates : Crates}

theorem toString_toNat (n : UInt64) : toString n = Nat.repr n.toNat := rfl

theorem inboxIdText_inj {address : String} {i : Identifier} {nonce : UInt64}
    (haddress : (ethereum address).isValidAddress = true) (hi : i.isValidAddress = true)
    (h : (ethereum address).inboxIdText crates 0 = i.inboxIdText crates nonce) :
    ethereum address = i ∧ nonce = 0 := by
  cases i with
  | ethereum a =>
    have hsize : address.utf8ByteSize = a.utf8ByteSize := by
      simp only [isValidAddress, Bool.and_eq_true, beq_iff_eq] at haddress hi
      rw [haddress.1.1, hi.1.1]
    obtain ⟨rfl, hnonce⟩ := append_inj_of_size h hsize
    rw [toString_toNat, toString_toNat] at hnonce
    exact ⟨rfl, (UInt64.toNat_inj.mp (repr_inj hnonce)).symm⟩
  | passkey p =>
    -- the text of a passkey has hexadecimal digits only
    have hx : 'x' ∈ ((passkey p).inboxIdText crates nonce).toList := by
      rw [← h, inboxIdText, String.toList_append]
      exact List.mem_append_left _ (x_mem_of_isValidAddress haddress)
    rw [inboxIdText, String.toList_append, List.mem_append] at hx
    rcases hx with hx | hx
    · exact absurd (crates.hex.mem_encode hx) (by decide)
    · exact absurd (isDigit_of_mem_repr hx) (by decide)

end Identifier

section Legacy

variable {crates : Crates}

/-- The signer of every legacy signature of the action created the inbox with nonce 0. -/
def AddAssociation.LegacyRule (crates : Crates) (a : AddAssociation) (s : AssociationState) : Prop :=
  ∀ signature ∈ [a.newMemberSignature, a.existingMemberSignature],
    isLegacySignature signature = true →
      ∃ i, signature.signer.toIdentifier = some i ∧ i.inboxId crates 0 = .ok s.inboxId

theorem kind_of_isAllowedSignature_legacy {role : MemberKind}
    (h : isAllowedSignature role .legacyDelegated = true) : role = .ethereum := by
  cases role <;> first | rfl | cases h

theorem eq_ethereum_of_kind {m : MemberIdentifier} (h : m.kind = .ethereum) :
    ∃ address, m = .ethereum address := by
  cases m with
  | ethereum address => exact ⟨address, rfl⟩
  | installation _ => cases h
  | passkey _ => cases h

namespace AddAssociation.Accepted

variable {a : AddAssociation} {s : AssociationState} {entity : MemberIdentifier}

theorem legacyRule_existing (h : a.Accepted crates s entity)
    (keyed : ∀ e ∈ s.members.entries, (e.1 == e.2.identifier) = true)
    (hlegacy : isLegacySignature a.existingMemberSignature = true) :
    ∃ i, a.existingMemberSignature.signer.toIdentifier = some i ∧
      i.inboxId crates 0 = .ok s.inboxId := by
  have hkind : a.existingMemberSignature.signer.kind = .ethereum := by
    have hallowed := h.existingSignature
    rw [show a.existingMemberSignature.kind = .legacyDelegated by
      simpa [isLegacySignature] using hlegacy] at hallowed
    rw [MemberIdentifier.kind_eq_of_beq (h.entity_beq keyed)]
    exact kind_of_isAllowedSignature_legacy hallowed
  obtain ⟨address, haddress⟩ := eq_ethereum_of_kind hkind
  have hcheck := h.legacy
  simp only [legacyCheck, haddress, MemberIdentifier.toIdentifier, hlegacy, Bool.or_true, if_true,
    bind_eq_ok, rejectIf_eq_ok, bne_eq_false_iff_eq] at hcheck
  obtain ⟨_, hid, hsame⟩ := hcheck
  refine ⟨.ethereum address, by rw [haddress]; rfl, ?_⟩
  rw [hid, hsame]

theorem newSigner_ethereum (h : a.Accepted crates s entity)
    (hlegacy : isLegacySignature a.newMemberSignature = true) :
    ∃ address, a.newMemberSignature.signer = .ethereum address := by
  apply eq_ethereum_of_kind
  have hallowed := h.newSignature
  rw [show a.newMemberSignature.kind = .legacyDelegated by
    simpa [isLegacySignature] using hlegacy] at hallowed
  rw [MemberIdentifier.kind_eq_of_beq h.signer]
  exact kind_of_isAllowedSignature_legacy hallowed

end AddAssociation.Accepted

/-- At any point of a run, an accepted addition keeps the rule of legacy signatures exactly when
its new member does not use one, or is the account the inbox was created for with nonce 0. An
existing member that uses one is always checked; the new member never is, except that its signature
makes the existing signer be checked when that is no installation. -/
theorem legacyRule_iff {c : CreateInbox} {ts ts' : UInt64} {rest : List Event}
    {s s' : AssociationState} {a : AddAssociation}
    (hrun : Run crates none (.action ts (.createInbox c) :: rest) (some s))
    (hadd : a.updateState crates (some s) ts' = .ok s')
    (collisionFree : ∀ i, a.newMemberSignature.signer.toIdentifier = some i →
      crates.sha256 (i.inboxIdText crates 0) =
        crates.sha256 (c.accountIdentifier.inboxIdText crates c.nonce) →
      i.inboxIdText crates 0 = c.accountIdentifier.inboxIdText crates c.nonce) :
    a.LegacyRule crates s ↔
      (a.newMemberSignature.kind = .legacyDelegated →
        a.newMemberSignature.signer = c.accountIdentifier.toMember ∧ c.nonce = 0) := by
  obtain ⟨_, entity, ⟨⟩, ha, _⟩ := AddAssociation.updateState_eq_ok.mp hadd
  obtain ⟨_, _, _, hes, _, hid, hentries⟩ := hrun.sound
  cases hes
  have keyed : ∀ e ∈ s.members.entries, (e.1 == e.2.identifier) = true :=
    fun e he => (hentries e he).keyed
  constructor
  · intro hrule hkind
    have hlegacy : isLegacySignature a.newMemberSignature = true := by
      simpa [isLegacySignature] using hkind
    obtain ⟨i, hi, hinbox⟩ := hrule _ List.mem_cons_self hlegacy
    obtain ⟨address, haddress⟩ := ha.newSigner_ethereum hlegacy
    rw [haddress] at hi
    cases hi
    obtain ⟨hvalid, hdigest⟩ := Identifier.inboxId_eq_ok.mp hinbox
    obtain ⟨hvalid', hdigest'⟩ := Identifier.inboxId_eq_ok.mp hid
    have hsha := crates.hex.encode_inj.mp (hdigest.trans hdigest'.symm)
    have htext := collisionFree (.ethereum address) (by rw [haddress]; rfl) hsha
    obtain ⟨hsame, hnonce⟩ := Identifier.inboxIdText_inj hvalid hvalid' htext
    refine ⟨?_, hnonce⟩
    rw [haddress, ← hsame]
    rfl
  · intro hcreator signature hmem hlegacy
    rcases List.mem_cons.mp hmem with rfl | hmem
    · obtain ⟨hsigner, hnonce⟩ := hcreator (by simpa [isLegacySignature] using hlegacy)
      refine ⟨c.accountIdentifier, by rw [hsigner]; simp, ?_⟩
      rw [← hnonce]
      exact hid
    · rw [List.mem_singleton.mp hmem] at hlegacy ⊢
      exact ha.legacyRule_existing keyed hlegacy

namespace Sample

def relinked : AddAssociation :=
  ⟨signed wallet.toMember .legacyDelegated 6, wallet.toMember,
    signed installation .installationKey 8⟩

def createdNonceOne : IdentityUpdate :=
  ⟨"0e2928b6d7cf29cacd3b83588629639f43b46eb7b1bb14e738057c68e8d3450e", 1,
    [.createInbox ⟨1, wallet, signed wallet.toMember .erc191 1⟩,
      .addAssociation ⟨signed installation .installationKey 2, installation,
        signed wallet.toMember .erc191 3⟩]⟩

def legacyLinked : AddAssociation :=
  ⟨signed otherWallet.toMember .legacyDelegated 6, otherWallet.toMember,
    signed installation .installationKey 8⟩

end Sample

theorem legacyRule_iff_relinked :
    ∃ s s', getState Sample.crates [Sample.created] = .ok s ∧
      Sample.relinked.updateState Sample.crates (some s) 9 = .ok s' ∧
      Sample.relinked.LegacyRule Sample.crates s := by
  obtain ⟨s, hs, hok⟩ := Sample.exists_of_check [Sample.created]
    (fun s => (Sample.relinked.updateState Sample.crates (some s) 9).isOk) (by decide +kernel)
  obtain ⟨s', hadd⟩ := exists_of_isOk hok
  refine ⟨s, s', hs, hadd, (legacyRule_iff (getState_eq_ok.mp hs) hadd ?_).mpr ?_⟩
  · rintro _ ⟨⟩ _
    rfl
  · intro _
    exact ⟨rfl, rfl⟩

/-- A legacy signature is accepted on an inbox of nonce 1 that its signer never created. -/
theorem legacyRule_fails :
    ∃ s s', getState Sample.crates [Sample.createdNonceOne] = .ok s ∧
      Sample.legacyLinked.updateState Sample.crates (some s) 9 = .ok s' ∧
      isLegacySignature Sample.legacyLinked.newMemberSignature = true ∧
      ¬Sample.legacyLinked.LegacyRule Sample.crates s := by
  obtain ⟨s, hs, hcheck⟩ := Sample.exists_of_check [Sample.createdNonceOne]
    (fun s => (Sample.legacyLinked.updateState Sample.crates (some s) 9).isOk &&
      decide (Sample.otherWallet.inboxId Sample.crates 0 ≠ .ok s.inboxId)) (by decide +kernel)
  obtain ⟨hok, hne⟩ := Bool.and_eq_true_iff.mp hcheck
  obtain ⟨s', hadd⟩ := exists_of_isOk hok
  refine ⟨s, s', hs, hadd, rfl, fun hrule => ?_⟩
  obtain ⟨i, hi, hinbox⟩ := hrule _ List.mem_cons_self rfl
  cases hi
  exact of_decide_eq_true hne hinbox

end Legacy

end LibXmtp.Associations
