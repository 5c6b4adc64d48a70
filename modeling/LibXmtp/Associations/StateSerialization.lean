import LibXmtp.Associations.Serialization

namespace LibXmtp.Associations

open LibXmtp.Data
open Proto (ConversionError IdentifierKind)

structure IterOrder where
  members : HashMap MemberIdentifier Member → List (MemberIdentifier × Member)
  members_perm : ∀ m, (members m).Perm m.entries
  signatures : Finset Bytes → List Bytes
  signatures_toFinset : ∀ s, (signatures s).toFinset = s

namespace Member

def toProto (m : Member) : Proto.Member where
  identifier := some m.identifier.toProto
  addedByEntity := m.addedByEntity.map MemberIdentifier.toProto
  clientTimestampNs := m.clientTimestampNs
  addedOnChainId := m.addedOnChainId

def tryFrom (proto : Proto.Member) : Except ConversionError Member := do
  let identifier ← okOr proto.identifier (.missing "member_identifier" "MemberIdentifier")
  let identifier ← MemberIdentifier.tryFrom identifier
  let addedByEntity ← proto.addedByEntity.mapM MemberIdentifier.tryFrom
  return ⟨identifier, addedByEntity, proto.clientTimestampNs, proto.addedOnChainId⟩

@[simp] theorem tryFrom_toProto (m : Member) : tryFrom m.toProto = .ok m := by
  obtain ⟨identifier, addedByEntity, ts, chain⟩ := m
  cases addedByEntity with
  | none => simp [tryFrom, toProto]
  | some e => simp [tryFrom, toProto]

end Member

namespace AssociationState

variable (crates : Crates)

def memberToProto (e : MemberIdentifier × Member) : Proto.MemberMap :=
  ⟨some e.1.toProto, some e.2.toProto⟩

def memberTryFrom (kv : Proto.MemberMap) : Except ConversionError (MemberIdentifier × Member) := do
  let key ← okOr kv.key (.missing "member_identifier" "MemberIdentifier")
  let key ← MemberIdentifier.tryFrom key
  let value ← okOr kv.value (.missing "member" "Member")
  let value ← Member.tryFrom value
  return (key, value)

def toProto (order : IterOrder) (s : AssociationState) : Proto.AssociationState where
  inboxId := s.inboxId
  members := (order.members s.members).map memberToProto
  recoveryIdentifier := s.recoveryIdentifier.toMember.display crates
  recoveryIdentifierKind := s.recoveryIdentifier.protoKind.toI32
  seenSignatures := order.signatures s.seenSignatures
  relyingParty := s.recoveryIdentifier.relyingParty

def tryFrom (proto : Proto.AssociationState) : Except ConversionError AssociationState := do
  let kind := Identifier.normalizeKind (.ofI32 proto.recoveryIdentifierKind)
  let recoveryIdentifier ←
    Identifier.fromProto crates proto.recoveryIdentifier kind proto.relyingParty
  let members ← proto.members.mapM memberTryFrom
  return ⟨proto.inboxId, HashMap.ofList members, recoveryIdentifier,
    proto.seenSignatures.toFinset⟩

theorem memberTryFrom_toProto (e : MemberIdentifier × Member) :
    memberTryFrom (memberToProto e) = .ok e := by
  simp [memberTryFrom, memberToProto]

theorem tryFrom_toProto (order : IterOrder) (s : AssociationState) :
    ∃ s', tryFrom crates (s.toProto crates order) = .ok s' ∧ s'.Equiv s := by
  refine ⟨⟨s.inboxId, HashMap.ofList (order.members s.members), s.recoveryIdentifier,
    (order.signatures s.seenSignatures).toFinset⟩, ?_, ?_⟩
  · simp only [tryFrom, toProto, IdentifierKind.ofI32_toI32, Identifier.fromProto_display, ok_bind,
      mapM_map_of_forall fun e _ => memberTryFrom_toProto e]
    rfl
  · exact {
      inboxId := rfl
      members := HashMap.ofList_equiv_of_perm (order.members_perm s.members)
      recoveryIdentifier := rfl
      seenSignatures := order.signatures_toFinset s.seenSignatures }

end AssociationState

end LibXmtp.Associations
