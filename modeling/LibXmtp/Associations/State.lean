import LibXmtp.Associations.Member
import Mathlib.Data.Finset.Lattice.Basic
import Mathlib.Data.Finset.Basic

namespace LibXmtp.Associations

open LibXmtp.Data

structure AssociationStateDiff where
  newMembers : List MemberIdentifier
  removedMembers : List MemberIdentifier

def installationKey : MemberIdentifier → Option Bytes
  | .installation key => some key
  | _ => none

namespace AssociationStateDiff

def newInstallations (d : AssociationStateDiff) : List Bytes :=
  d.newMembers.filterMap installationKey

def removedInstallations (d : AssociationStateDiff) : List Bytes :=
  d.removedMembers.filterMap installationKey

/-- The same members in some order: the source lists the keys of hash maps. -/
structure Equiv (d e : AssociationStateDiff) : Prop where
  newMembers : d.newMembers.Perm e.newMembers
  removedMembers : d.removedMembers.Perm e.removedMembers

end AssociationStateDiff

structure AssociationState where
  inboxId : String
  members : HashMap MemberIdentifier Member
  recoveryIdentifier : Identifier
  seenSignatures : Finset Bytes

namespace AssociationState

def add (s : AssociationState) (member : Member) : AssociationState :=
  { s with members := s.members.insert member.identifier member }

def remove (s : AssociationState) (identifier : MemberIdentifier) : AssociationState :=
  { s with members := s.members.remove identifier }

def setRecoveryIdentifier (s : AssociationState) (recoveryIdentifier : Identifier) :
    AssociationState :=
  { s with recoveryIdentifier }

def get (s : AssociationState) (identifier : MemberIdentifier) : Option Member :=
  s.members.get identifier

def addSeenSignatures (s : AssociationState) (signatures : List Bytes) : AssociationState :=
  { s with seenSignatures := s.seenSignatures ∪ signatures.toFinset }

def hasSeen (s : AssociationState) (signature : Bytes) : Bool :=
  decide (signature ∈ s.seenSignatures)

def membersByParent (s : AssociationState) (parentId : MemberIdentifier) : List Member :=
  s.members.values.filter fun e => e.addedByEntity.any (· == parentId)

def diff (s newState : AssociationState) : AssociationStateDiff where
  newMembers := newState.members.keys.filter fun k => !s.members.containsKey k
  removedMembers := s.members.keys.filter fun k => !newState.members.containsKey k

def asDiff (s : AssociationState) : AssociationStateDiff where
  newMembers := s.members.keys
  removedMembers := []

def new (crates : Crates) (accountIdentifier : Identifier) (nonce : UInt64)
    (chainId : Option UInt64) : Except AssociationError AssociationState := do
  let inboxId ← accountIdentifier.inboxId crates nonce
  let newMember : Member := ⟨accountIdentifier.toMember, none, none, chainId⟩
  return {
    inboxId
    members := HashMap.ofList [(accountIdentifier.toMember, newMember)]
    recoveryIdentifier := accountIdentifier
    seenSignatures := ∅ }

def isMember (s : AssociationState) (m : MemberIdentifier) : Bool := s.members.containsKey m

@[simp] theorem inboxId_add (s : AssociationState) (m : Member) :
    (s.add m).inboxId = s.inboxId := rfl

@[simp] theorem recoveryIdentifier_add (s : AssociationState) (m : Member) :
    (s.add m).recoveryIdentifier = s.recoveryIdentifier := rfl

@[simp] theorem seenSignatures_add (s : AssociationState) (m : Member) :
    (s.add m).seenSignatures = s.seenSignatures := rfl

@[simp] theorem members_add (s : AssociationState) (m : Member) :
    (s.add m).members = s.members.insert m.identifier m := rfl

@[simp] theorem inboxId_addSeenSignatures (s : AssociationState) (sigs : List Bytes) :
    (s.addSeenSignatures sigs).inboxId = s.inboxId := rfl

@[simp] theorem members_addSeenSignatures (s : AssociationState) (sigs : List Bytes) :
    (s.addSeenSignatures sigs).members = s.members := rfl

@[simp] theorem recoveryIdentifier_addSeenSignatures (s : AssociationState) (sigs : List Bytes) :
    (s.addSeenSignatures sigs).recoveryIdentifier = s.recoveryIdentifier := rfl

@[simp] theorem hasSeen_addSeenSignatures (s : AssociationState) (sigs : List Bytes) (b : Bytes) :
    (s.addSeenSignatures sigs).hasSeen b = (s.hasSeen b || sigs.contains b) := by
  simp [hasSeen, addSeenSignatures]

@[simp] theorem inboxId_setRecoveryIdentifier (s : AssociationState) (r : Identifier) :
    (s.setRecoveryIdentifier r).inboxId = s.inboxId := rfl

@[simp] theorem members_setRecoveryIdentifier (s : AssociationState) (r : Identifier) :
    (s.setRecoveryIdentifier r).members = s.members := rfl

@[simp] theorem recoveryIdentifier_setRecoveryIdentifier (s : AssociationState) (r : Identifier) :
    (s.setRecoveryIdentifier r).recoveryIdentifier = r := rfl

@[simp] theorem seenSignatures_setRecoveryIdentifier (s : AssociationState) (r : Identifier) :
    (s.setRecoveryIdentifier r).seenSignatures = s.seenSignatures := rfl

def removeAll (s : AssociationState) (ms : List Member) : AssociationState :=
  ms.foldl (fun state m => state.remove m.identifier) s

theorem removeAll_eq (s : AssociationState) (ms : List Member) :
    s.removeAll ms =
      { s with members := s.members.removeAll (ms.map Member.identifier) } := by
  induction ms generalizing s with
  | nil => rfl
  | cons m ms ih =>
    simp only [removeAll, List.foldl_cons] at ih ⊢
    rw [ih]
    rfl

/-- Two states that no operation tells apart: equal but for the order of the members. -/
structure Equiv (s t : AssociationState) : Prop where
  inboxId : s.inboxId = t.inboxId
  members : s.members.Equiv t.members
  recoveryIdentifier : s.recoveryIdentifier = t.recoveryIdentifier
  seenSignatures : s.seenSignatures = t.seenSignatures

namespace Equiv

@[refl] theorem refl (s : AssociationState) : s.Equiv s := ⟨rfl, .refl _, rfl, rfl⟩

@[symm] theorem symm {s t : AssociationState} (h : s.Equiv t) : t.Equiv s :=
  ⟨h.inboxId.symm, h.members.symm, h.recoveryIdentifier.symm, h.seenSignatures.symm⟩

@[trans] theorem trans {s t u : AssociationState} (h : s.Equiv t) (h' : t.Equiv u) : s.Equiv u :=
  ⟨h.inboxId.trans h'.inboxId, h.members.trans h'.members,
    h.recoveryIdentifier.trans h'.recoveryIdentifier, h.seenSignatures.trans h'.seenSignatures⟩

variable {s t s' t' : AssociationState}

theorem get (h : s.Equiv t) (m : MemberIdentifier) : s.get m = t.get m := h.members.get m

theorem hasSeen (h : s.Equiv t) (b : Bytes) : s.hasSeen b = t.hasSeen b := by
  simp only [AssociationState.hasSeen, h.seenSignatures]

theorem add (h : s.Equiv t) (m : Member) : (s.add m).Equiv (t.add m) :=
  ⟨h.inboxId, h.members.insert _ _, h.recoveryIdentifier, h.seenSignatures⟩

theorem remove (h : s.Equiv t) (m : MemberIdentifier) : (s.remove m).Equiv (t.remove m) :=
  ⟨h.inboxId, h.members.remove _, h.recoveryIdentifier, h.seenSignatures⟩

theorem setRecoveryIdentifier (h : s.Equiv t) (r : Identifier) :
    (s.setRecoveryIdentifier r).Equiv (t.setRecoveryIdentifier r) :=
  ⟨h.inboxId, h.members, rfl, h.seenSignatures⟩

theorem addSeenSignatures (h : s.Equiv t) (sigs : List Bytes) :
    (s.addSeenSignatures sigs).Equiv (t.addSeenSignatures sigs) :=
  ⟨h.inboxId, h.members, h.recoveryIdentifier, by
    simp only [AssociationState.addSeenSignatures, h.seenSignatures]⟩

theorem membersByParent (h : s.Equiv t) (p : MemberIdentifier) :
    (s.membersByParent p).Perm (t.membersByParent p) :=
  (h.members.perm.map Prod.snd).filter _

theorem removeAll (h : s.Equiv t) {ms ns : List Member} (hms : ms.Perm ns) :
    (s.removeAll ms).Equiv (t.removeAll ns) := by
  rw [removeAll_eq, removeAll_eq]
  exact ⟨h.inboxId, h.members.removeAll (hms.map _), h.recoveryIdentifier, h.seenSignatures⟩

theorem diff (h : s.Equiv t) (h' : s'.Equiv t') : (s.diff s').Equiv (t.diff t') where
  newMembers := by
    simp only [AssociationState.diff, h.members.containsKey]
    exact (h'.members.perm.map Prod.fst).filter _
  removedMembers := by
    simp only [AssociationState.diff, h'.members.containsKey]
    exact (h.members.perm.map Prod.fst).filter _

theorem asDiff (h : s.Equiv t) : s.asDiff.Equiv t.asDiff :=
  ⟨h.members.perm.map Prod.fst, .refl _⟩

end Equiv

end AssociationState

end LibXmtp.Associations
