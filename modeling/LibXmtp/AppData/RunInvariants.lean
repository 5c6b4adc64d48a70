import LibXmtp.AppData.UpdateValidation

/-! What holds over whole runs of commits: a version floor does not sink, and an immutable
component keeps its first value. -/

namespace LibXmtp.AppData

open LibXmtp.Data LibXmtp.Groups

section Floor

variable {Version : Type} {semver : Semver Version} {host : Host} {registry : ComponentRegistry}
  {extensions extensions' : Extensions}

structure TotalOrder (semver : Semver Version) : Prop where
  irrefl : ∀ v, semver.lt v v = false
  trans : ∀ u v w, semver.lt u v = true → semver.lt v w = true → semver.lt u w = true
  total : ∀ u v, semver.lt u v = true ∨ u = v ∨ semver.lt v u = true

theorem TotalOrder.not_lt_trans (ho : TotalOrder semver) {u v w : Version}
    (huv : semver.lt v u = false) (hvw : semver.lt w v = false) : semver.lt w u = false := by
  rw [← Bool.not_eq_true] at huv hvw ⊢
  intro hwu
  rcases ho.total u v with hlt | heq | hgt
  · exact hvw (ho.trans w u v hwu hlt)
  · exact hvw (heq ▸ hwu)
  · exact huv hgt

def versionOf (semver : Semver Version) (value : Option Bytes) : Option Version := do
  let text ← utf8 (← value)
  semver.parse text

def versionFloor (semver : Semver Version) (extensions : Extensions) : Option Version :=
  versionOf semver (readFromAppDataDict ComponentId.minSupportedProtocolVersion extensions)

theorem versionOf_eq_some {value : Option Bytes} {v : Version} :
    versionOf semver value = some v ↔
      ∃ bytes text, value = some bytes ∧ utf8 bytes = some text ∧ semver.parse text = some v := by
  simp [versionOf, Option.bind_eq_some_iff]

theorem update_of_enforceMinVersionMonotonicity {operation : AppDataUpdateOperation}
    {oldValue : Option Bytes} {v : Version} (hv : versionOf semver oldValue = some v)
    (h : enforceMinVersionMonotonicity semver operation oldValue = .ok ()) :
    ∃ payload w, operation = .update payload ∧ versionOf semver (some payload) = some w ∧
      semver.lt w v = false := by
  obtain ⟨oldBytes, oldStr, hvalue, hutf8, hparse⟩ := versionOf_eq_some.mp hv
  subst hvalue
  simp only [enforceMinVersionMonotonicity, hutf8, hparse] at h
  cases operation with
  | remove => cases h
  | update payload =>
    simp only [bind_eq_ok, okOr_eq_ok, rejectIf_eq_ok] at h
    obtain ⟨newStr, hnew, w, hw, hlt⟩ := h
    exact ⟨payload, w, rfl, versionOf_eq_some.mpr ⟨payload, newStr, rfl, hnew, hw⟩, hlt⟩

theorem apply_minSupportedProtocolVersion {payload bytes : Bytes} {oldValue : Option Bytes}
    (h : applyAppDataUpdatePayload host ComponentId.minSupportedProtocolVersion registry payload
      oldValue = .ok bytes) : bytes = payload := by
  have hmem : minSupportedProtocolVersionComponent ∈ wellKnown host.toWire := by simp [wellKnown]
  have hlookup : lookupComponent host ComponentId.minSupportedProtocolVersion =
      some minSupportedProtocolVersionComponent := lookupComponent_of_mem hmem
  obtain ⟨_, happly⟩ := (applyAppDataUpdatePayload_eq_ok hlookup).mp h
  simp only [minSupportedProtocolVersionComponent, passthroughStringComponent, bind_eq_ok,
    applyPassthrough, Except.ok.injEq] at happly
  obtain ⟨_, _, heq⟩ := happly
  exact heq.symm

theorem AcceptedUpdates.versionFloor_step (ho : TotalOrder semver)
    {proposals : List AuthoredUpdate} {v : Version}
    (h : AcceptedUpdates semver host extensions proposals extensions')
    (hv : versionFloor semver extensions = some v) :
    ∃ w, versionFloor semver extensions' = some w ∧ semver.lt w v = false := by
  apply h.invariant (P := fun value => ∃ w, versionOf semver value = some w ∧
    semver.lt w v = false)
  · exact ⟨v, hv, ho.irrefl v⟩
  · intro registry p value value' _ _ hvalid _ happly
    obtain ⟨payload, w, hop, hw, hlt⟩ :=
      update_of_enforceMinVersionMonotonicity hv (floor_of_validate hvalid)
    simp only [hop, applyOperation, bind_eq_ok, pure_eq_ok] at happly
    obtain ⟨bytes, hbytes, hvalue'⟩ := happly
    rw [← hvalue', apply_minSupportedProtocolVersion hbytes]
    exact ⟨w, hw, hlt⟩

/-- From the moment a group has a version floor it keeps one, and never a lower one. -/
theorem versionFloor_monotone (ho : TotalOrder semver) {commits : List (List AuthoredUpdate)}
    (h : Runs (AcceptedUpdates semver host) extensions commits extensions') {v : Version}
    (hv : versionFloor semver extensions = some v) :
    ∃ w, versionFloor semver extensions' = some w ∧ semver.lt w v = false := by
  apply h.invariant (P := fun extensions => ∃ w, versionFloor semver extensions = some w ∧
    semver.lt w v = false)
  · exact ⟨v, hv, ho.irrefl v⟩
  · intro extensions proposals extensions' _ ⟨w, hw, hvw⟩ hstep
    have ⟨u, hu, hwu⟩ := hstep.versionFloor_step ho hw
    exact ⟨u, hu, ho.not_lt_trans hvw hwu⟩

theorem Sample.totalOrder : TotalOrder Sample.semver where
  irrefl v := by simp [semver]
  trans u v w huv hvw := by
    simp only [semver, decide_eq_true_eq] at huv hvw ⊢
    exact huv.trans hvw
  total u v := by
    simp only [semver, decide_eq_true_eq]
    exact lt_trichotomy u v

theorem versionFloor_monotone_raise :
    ∃ w, versionFloor Sample.semver (Sample.groupAt 2) = some w ∧
      Sample.semver.lt w [1, 1, 0] = false :=
  versionFloor_monotone Sample.totalOrder (.cons Sample.acceptedUpdates .nil) (by decide +kernel)

end Floor

section Immutable

variable {Version : Type} {semver : Semver Version} {host : Host} {registry : ComponentRegistry}
  {extensions extensions' : Extensions} {id : UInt16}

/-- The components of the host expand the removal of a value to its deletion, as the interface they
implement asks of them. -/
def RemovalsDelete (host : Host) : Prop :=
  ∀ id component prior changes, host.lookupRuntimeComponent id = some component →
    component.expandToChanges .remove prior = .ok changes → ∃ change ∈ changes, change.op = .delete

theorem remove_of_wellKnown {wire : Wire} {component : ErasedComponent}
    (h : component ∈ wellKnown wire) {prior : Option Bytes}
    {changes : List ExpandedComponentChange}
    (hchanges : component.expandToChanges .remove prior = .ok changes) :
    changes = [⟨.delete, none⟩] := by
  simp only [wellKnown, List.mem_cons, List.not_mem_nil, or_false] at h
  rcases h with h | h | h | h | h | h | h | h | h | h | h | h | h <;> subst h <;> cases hchanges <;>
    rfl

theorem remove_of_type {wire : Wire} {ty : ComponentType} {prior : Option Bytes}
    {changes : List ExpandedComponentChange}
    (hchanges : expandToChangesForType wire id ty .remove prior = .ok changes) :
    changes = [⟨.delete, none⟩] := by
  cases ty <;> cases hchanges <;> rfl

theorem delete_of_remove (hhost : RemovalsDelete host) {prior : Option Bytes}
    {changes : List ExpandedComponentChange}
    (h : expandAppDataUpdateToChanges host id registry .remove prior = .ok changes) :
    ∃ change ∈ changes, change.op = .delete := by
  cases hcomponent : lookupComponent host id with
  | none =>
    simp only [expandAppDataUpdateToChanges, hcomponent, bind_eq_ok, mapError_eq_ok] at h
    obtain ⟨ty, _, hchanges⟩ := h
    rw [remove_of_type hchanges]
    exact ⟨_, List.mem_singleton_self _, rfl⟩
  | some component =>
    rw [expandAppDataUpdateToChanges_eq hcomponent, mapError_eq_ok] at h
    by_cases hrange : ComponentId.isXmtpRange id = true
    · obtain ⟨hmem, _⟩ := (lookupComponent_eq_some_iff hrange).mp hcomponent
      rw [remove_of_wellKnown hmem h]
      exact ⟨_, List.mem_singleton_self _, rfl⟩
    · rw [lookupComponent, if_neg hrange] at hcomponent
      split at hcomponent
      · exact hhost id component prior changes hcomponent h
      · cases hcomponent

theorem update_of_isImmutable (hhost : RemovalsDelete host)
    (hid : ComponentId.isImmutable id = true) {operation : AppDataUpdateOperation}
    {actor : ActorAuthority} {oldValue : Option Bytes}
    (h : validateOneAppDataUpdateWithOldValue semver host id operation actor registry oldValue =
      .ok ()) : ∃ payload, operation = .update payload := by
  cases operation with
  | update payload => exact ⟨payload, rfl⟩
  | remove =>
    have ⟨changes, hchanges, hwrites⟩ := changes_of_validate h
    have ⟨change, hchange, hop⟩ := delete_of_remove hhost hchanges
    have hinsert := insert_of_isImmutable hid (hwrites change hchange)
    rw [hop] at hinsert
    cases hinsert

theorem apply_of_isImmutable (hid : ComponentId.isImmutable id = true) {payload bytes : Bytes} :
    applyAppDataUpdatePayload host id registry payload (some bytes) =
      .error (.immutableUpdate id) := by
  simp [applyAppDataUpdatePayload, hid]

theorem AcceptedUpdates.immutable_step (hhost : RemovalsDelete host)
    (hid : ComponentId.isImmutable id = true) {proposals : List AuthoredUpdate} {bytes : Bytes}
    (h : AcceptedUpdates semver host extensions proposals extensions')
    (hbytes : readFromAppDataDict id extensions = some bytes) :
    readFromAppDataDict id extensions' = some bytes := by
  apply h.invariant (P := (· = some bytes)) hbytes
  intro registry p value value' _ _ hvalid hvalue happly
  have ⟨payload, hop⟩ := update_of_isImmutable hhost hid hvalid
  rw [hop, applyOperation, hvalue, apply_of_isImmutable hid] at happly
  cases happly

/-- The first value of an immutable component is its last. -/
theorem immutable_writeOnce (hhost : RemovalsDelete host)
    (hid : ComponentId.isImmutable id = true) {commits : List (List AuthoredUpdate)}
    (h : Runs (AcceptedUpdates semver host) extensions commits extensions') {bytes : Bytes}
    (hbytes : readFromAppDataDict id extensions = some bytes) :
    readFromAppDataDict id extensions' = some bytes := by
  apply h.invariant (P := fun extensions => readFromAppDataDict id extensions = some bytes) hbytes
  intro extensions proposals extensions' _ hvalue hstep
  exact hstep.immutable_step hhost hid hvalue

theorem Sample.removalsDelete : RemovalsDelete bareHost := by
  intro id component prior changes h
  cases h

theorem immutable_writeOnce_conversationType :
    readFromAppDataDict ComponentId.conversationType (Sample.groupAt 2) = some [1] :=
  immutable_writeOnce Sample.removalsDelete (by decide)
    (.cons Sample.acceptedUpdates .nil) (by decide +kernel)

end Immutable

end LibXmtp.AppData
