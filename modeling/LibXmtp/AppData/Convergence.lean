import LibXmtp.AppData.Components

namespace LibXmtp.AppData

open LibXmtp.Data LibXmtp.Groups

def Converges {ε α : Type} (x y : Except ε α) : Prop :=
  (∃ a, x = .ok a ∧ y = .ok a) ∨ (∃ e, x = .error e) ∧ ∃ e, y = .error e

section Converges

variable {ε α β : Type} {x : Except ε α}

theorem Converges.mapError (x : Except ε α) (f : ε → ε) : Converges x (x.mapError f) := by
  cases x with
  | ok a => exact .inl ⟨a, rfl, rfl⟩
  | error e => exact .inr ⟨⟨e, rfl⟩, f e, rfl⟩

theorem converges_ok_iff {a : α} {c : Bool} {e : ε} {check : Except ε β} {b : β}
    (hcheck : check = if c then .ok b else .error e) :
    Converges (check >>= fun _ => .ok a) (.ok a) ↔ c = true := by
  subst hcheck
  cases c with
  | true => simp [Converges]
  | false => simp [Converges]

end Converges

/-- What the two clients make of an update, and which changes they expand it to. -/
structure TypeConverges (wire : Wire) (component : ErasedComponent) (payload : Bytes)
    (prior : Option Bytes) : Prop where
  apply : Converges (component.applyUpdatePayload payload prior)
    (applyUpdatePayloadForType wire component.id component.componentType payload prior)
  expand : Converges (component.expandToChanges (.update payload) prior)
    (expandToChangesForType wire component.id component.componentType (.update payload) prior)

section

variable {wire : Wire} {component : ErasedComponent} {payload : Bytes} {prior : Option Bytes}

theorem inboxIdSet_converges (id : UInt16) :
    TypeConverges wire (inboxIdSetComponent wire id) payload prior where
  apply := .mapError _ _
  expand := .mapError _ _

theorem groupMembership_converges :
    TypeConverges wire (groupMembershipComponent wire) payload prior where
  apply := .mapError _ _
  expand := .mapError _ _

theorem passthroughString_converges (id : UInt16) :
    TypeConverges wire (passthroughStringComponent id) payload prior where
  apply := .mapError _ _
  expand := .mapError _ _

theorem beI64_converges_iff (id : UInt16) :
    TypeConverges wire (beI64Component id) payload prior ↔ payload.length = 8 := by
  have hcheck : decodeBeI64 id payload = if decide (payload.length = 8) = true then
      .ok (UInt64.ofNat (ofBigEndian payload)).toInt64
      else .error (.malformedValue id
        s!"expected 8 bytes (big-endian i64), got {payload.length}") := by
    simp [decodeBeI64]
  rw [← decide_eq_true_iff (p := payload.length = 8)]
  constructor
  · intro h
    exact (converges_ok_iff hcheck).mp h.apply
  · intro h
    exact ⟨(converges_ok_iff hcheck).mpr h, (converges_ok_iff hcheck).mpr h⟩

theorem commitLogSigner_converges_iff :
    TypeConverges wire commitLogSignerComponent payload prior ↔
      payload.length = ed25519KeyLength := by
  have hcheck : requireExactLen ComponentId.commitLogSigner payload ed25519KeyLength =
      if decide (payload.length = ed25519KeyLength) = true then .ok ()
      else .error (.malformedValue ComponentId.commitLogSigner
        s!"expected {ed25519KeyLength} bytes, got {payload.length}") := by
    simp [requireExactLen]
  rw [← decide_eq_true_iff (p := payload.length = ed25519KeyLength)]
  constructor
  · intro h
    exact (converges_ok_iff hcheck).mp h.apply
  · intro h
    exact ⟨(converges_ok_iff hcheck).mpr h, (converges_ok_iff hcheck).mpr h⟩

def fixedLength (id : UInt16) : Option Nat :=
  if id = ComponentId.messageDisappearFromNs ∨ id = ComponentId.messageDisappearInNs then some 8
  else if id = ComponentId.commitLogSigner then some ed25519KeyLength
  else none

def LengthFits (id : UInt16) (payload : Bytes) : Prop :=
  ∀ n, fixedLength id = some n → payload.length = n

theorem lengthFits_of_none {id : UInt16} (h : fixedLength id = none) : LengthFits id payload := by
  intro n hn
  rw [h] at hn
  cases hn

theorem lengthFits_iff {id : UInt16} {n : Nat} (h : fixedLength id = some n) :
    LengthFits id payload ↔ payload.length = n := by
  simp [LengthFits, h]

/-- The two clients agree on an update unless the component wants a length that it has not. -/
theorem typeConverges_iff (hmem : component ∈ wellKnown wire)
    (hregistry : component.id ≠ ComponentId.componentRegistry) :
    TypeConverges wire component payload prior ↔ LengthFits component.id payload := by
  simp only [wellKnown, List.mem_cons, List.not_mem_nil, or_false] at hmem
  rcases hmem with h | h | h | h | h | h | h | h | h | h | h | h | h <;> subst h
  · exact absurd rfl hregistry
  · exact iff_of_true (inboxIdSet_converges _) (lengthFits_of_none rfl)
  · exact iff_of_true (inboxIdSet_converges _) (lengthFits_of_none rfl)
  · exact iff_of_true groupMembership_converges (lengthFits_of_none rfl)
  · exact iff_of_true (passthroughString_converges _) (lengthFits_of_none rfl)
  · exact iff_of_true (passthroughString_converges _) (lengthFits_of_none rfl)
  · exact iff_of_true (passthroughString_converges _) (lengthFits_of_none rfl)
  · exact (beI64_converges_iff _).trans (lengthFits_iff rfl).symm
  · exact (beI64_converges_iff _).trans (lengthFits_iff rfl).symm
  · exact iff_of_true (passthroughString_converges _) (lengthFits_of_none rfl)
  · exact iff_of_true (passthroughString_converges _) (lengthFits_of_none rfl)
  · exact commitLogSigner_converges_iff.trans (lengthFits_iff rfl).symm
  · exact iff_of_true (inboxIdSet_converges _) (lengthFits_of_none rfl)

theorem typeConverges_iff_timer :
    TypeConverges bareHost.toWire messageDisappearInNsComponent [0, 0, 0, 0, 0, 0, 0, 9] none := by
  have hmem : messageDisappearInNsComponent ∈ wellKnown bareHost.toWire := by simp [wellKnown]
  apply (typeConverges_iff hmem (by decide)).mpr
  simp [LengthFits, fixedLength, messageDisappearInNsComponent, beI64Component]

/-- Four bytes for a timer are refused by a client that knows it, and stored by the others. -/
theorem typeConverges_fails :
    messageDisappearInNsComponent ∈ wellKnown bareHost.toWire ∧
      messageDisappearInNsComponent.id ≠ ComponentId.componentRegistry ∧
      (messageDisappearInNsComponent.applyUpdatePayload [0, 0, 0, 9] none).isOk = false ∧
      applyUpdatePayloadForType bareHost.toWire messageDisappearInNsComponent.id
        messageDisappearInNsComponent.componentType [0, 0, 0, 9] none = .ok [0, 0, 0, 9] :=
  ⟨by simp [wellKnown], by decide, rfl, rfl⟩

end

end LibXmtp.AppData
