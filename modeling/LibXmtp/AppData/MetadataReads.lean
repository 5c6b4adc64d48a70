import LibXmtp.AppData.Bootstrap
import LibXmtp.AppData.PermissionUpdates
import LibXmtp.AppData.SuperAdminList
import LibXmtp.Data.BestEffort
import LibXmtp.Data.ParseInt
import LibXmtp.Data.Text

/-! The metadata of a group, read from its legacy extensions or, once it is migrated, from its
dictionary: by its members, and by the exporter of an archive. -/

namespace LibXmtp.AppData

open LibXmtp.Data LibXmtp.Groups
open Associations.Proto (ConversionError)

/-- The errors of a component source that a read of the mutable metadata ends in. -/
inductive MetadataSourceError
  | malformedComponentValue (componentId : UInt16) (reason : String)
  | groupMutableMetadata (error : GroupMutableMetadataError)

def MetadataSourceError.ofMerge : GroupMutableMetadataError → MetadataSourceError
  | .malformedComponent (some componentId) reason => .malformedComponentValue componentId reason
  | other => .groupMutableMetadata other

/-- The errors of the immutable metadata, with those that only a dictionary has. -/
inductive DictMetadataError
  | groupMetadata (error : GroupMetadataError)
  | invalidConversationType
  | invalidDmMembers

inductive MetadataReadError
  | componentSource (error : MetadataSourceError)
  | groupMetadata (error : DictMetadataError)

structure ReadHost extends BootstrapHost where
  decodeOneshotMessage : Bytes → Except String Groups.Proto.OneshotMessage
  decode_encodeOneshotMessage : ∀ message,
    decodeOneshotMessage (encodeOneshotMessage message) = .ok message

section Mutable

variable (host : BootstrapHost)

def decodeMetadataComponent (id : UInt16) (bytes : Bytes) :
    Except GroupMutableMetadataError String :=
  if id = ComponentId.messageDisappearFromNs ∨ id = ComponentId.messageDisappearInNs then
    if bytes.length = 8 then .ok (displayI64 (UInt64.ofNat (ofBigEndian bytes)).toInt64)
    else .error (.malformedComponent (some id) s!"expected 8 bytes (BE i64), got {bytes.length}")
  else if id = ComponentId.commitLogSigner then .ok (host.hex.encode bytes)
  else (strFromUtf8 bytes).mapError fun e =>
    .malformedComponent (some id) s!"non-UTF-8 bytes: {e.text}"

variable (dictionary : HashMap UInt16 Bytes)

def mergeComponent {α : Type} (id : UInt16) (decode : Bytes → Except GroupMutableMetadataError α)
    (set : GroupMutableMetadata → α → GroupMutableMetadata) (base : GroupMutableMetadata) :
    Except GroupMutableMetadataError GroupMutableMetadata :=
  match dictionary.get id with
  | some bytes => do
    let value ← decode bytes
    return set base value
  | none => .ok base

def mergeAttribute (field : MetadataField) :
    GroupMutableMetadata → Except GroupMutableMetadataError GroupMutableMetadata :=
  mergeComponent dictionary (metadataFieldComponentMap field)
    (decodeMetadataComponent host (metadataFieldComponentMap field)) fun base legacyValue =>
      { base with attributes := base.attributes.insert field.asStr legacyValue }

def mergeAdminList :
    GroupMutableMetadata → Except GroupMutableMetadataError GroupMutableMetadata :=
  mergeComponent dictionary ComponentId.adminList
    (decodeInboxIdList host.hex host.toWire ComponentId.adminList) fun base list =>
      { base with adminList := list }

def mergeSuperAdminList :
    GroupMutableMetadata → Except GroupMutableMetadataError GroupMutableMetadata :=
  mergeComponent dictionary ComponentId.superAdminList
    (decodeInboxIdList host.hex host.toWire ComponentId.superAdminList) fun base list =>
      { base with superAdminList := list }

def merges : List (GroupMutableMetadata → Except GroupMutableMetadataError GroupMutableMetadata) :=
  metadataFields.map (mergeAttribute host dictionary) ++
    [mergeAdminList host dictionary, mergeSuperAdminList host dictionary]

variable (base : GroupMutableMetadata) (extensions : Extensions)

def mergeDictIntoMutableMetadata : GroupMutableMetadata × Except GroupMutableMetadataError Unit :=
  match extensions.appDataDictionary with
  | none => (base, .ok ())
  | some dictionary => failFast (merges host dictionary) base

def mergeDictIntoMutableMetadataLossy : GroupMutableMetadata × List GroupMutableMetadataError :=
  match extensions.appDataDictionary with
  | none => (base, [])
  | some dictionary => bestEffort (merges host dictionary) base

def mergeAppDataIntoMutableMetadata : GroupMutableMetadata × Except MetadataSourceError Unit :=
  if extensions.isMigrated then
    ((mergeDictIntoMutableMetadata host base extensions).1,
      (mergeDictIntoMutableMetadata host base extensions).2.mapError .ofMerge)
  else (base, .ok ())

def emptyMutableMetadata : GroupMutableMetadata := ⟨.empty, [], []⟩

def extractGroupMutableMetadataCapabilityAware :
    Except MetadataSourceError GroupMutableMetadata :=
  if extensions.isMigrated then do
    let (base, merged) := mergeAppDataIntoMutableMetadata host emptyMutableMetadata extensions
    merged
    return base
  else (legacyMutableMetadata host extensions).mapError .groupMutableMetadata

def exportedMutableMetadata : Option GroupMutableMetadata :=
  if extensions.isMigrated then
    some (mergeDictIntoMutableMetadataLossy host emptyMutableMetadata extensions).1
  else (legacyMutableMetadata host extensions).toOption

end Mutable

section Immutable

variable (host : ReadHost) (extensions : Extensions)

def readI32 (bytes : Bytes) : Option Int32 :=
  if bytes.length = 4 then some (UInt32.ofNat (ofBigEndian bytes)).toInt32 else none

def pairOfIds : List InboxId → Option (InboxId × InboxId)
  | [one, two] => some (one, two)
  | _ => none

def readDmMembers (bytes : Bytes) : Except DictMetadataError DmMembers := do
  let set ← ((TlsSet.codec host.vlen (InboxId.codec host.vlen)).deserializeExact bytes).mapError
    fun _ => .invalidDmMembers
  let (one, two) ← okOr (pairOfIds set.iter) .invalidDmMembers
  return ⟨one.toHex host.hex, two.toHex host.hex⟩

def readGroupMetadataFromDict : Except DictMetadataError (Option LegacyGroupMetadata) :=
  match extensions.appDataDictionary with
  | none => .ok none
  | some dictionary =>
    if !dictionary.containsKey ComponentId.componentRegistry then .ok none
    else do
      let ctBytes ← okOr (dictionary.get ComponentId.conversationType)
        (.groupMetadata (.conversion (.missing "CONVERSATION_TYPE" "AppData dictionary entry")))
      let creatorBytes ← okOr (dictionary.get ComponentId.creatorInboxId)
        (.groupMetadata (.conversion (.missing "CREATOR_INBOX_ID" "AppData dictionary entry")))
      let conversationTypeI32 ← okOr (readI32 ctBytes) .invalidConversationType
      let conversationType ← (ConversationType.tryFrom conversationTypeI32).mapError fun e =>
        .groupMetadata (.conversion e)
      let creator ← ((InboxId.codec host.vlen).deserializeExact creatorBytes).mapError fun e =>
        .groupMetadata (.conversion
          (.invalidValue "CREATOR_INBOX_ID" "versioned InboxId TLS encoding" e.text))
      let dmMembers ← (dictionary.get ComponentId.dmMembers).mapM (readDmMembers host)
      let oneshotMessage ← (dictionary.get ComponentId.oneshotMessage).mapM fun bytes =>
        (host.decodeOneshotMessage bytes).mapError fun _ => .groupMetadata .deserialization
      return some ⟨⟨conversationType, creator.toHex host.hex, dmMembers⟩, oneshotMessage⟩

def extractGroupMetadata : Except DictMetadataError LegacyGroupMetadata := do
  match ← readGroupMetadataFromDict host extensions with
  | some metadata => return metadata
  | none => (legacyGroupMetadata host.toBootstrapHost extensions).mapError .groupMetadata

structure GroupMetadataReturn where
  conversationType : Int32
  creatorInboxId : String
  dmMembers : Option Groups.Proto.DmMembers
  oneshot : Option Groups.Proto.OneshotMessage

def readProtoDmMembers (bytes : Bytes) : Except MetadataSourceError Groups.Proto.DmMembers := do
  let set ← ((TlsSet.codec host.vlen (InboxId.codec host.vlen)).deserializeExact bytes).mapError
    fun e => .malformedComponentValue ComponentId.dmMembers s!"invalid TlsSet<InboxId>: {e.text}"
  let (one, two) ← okOr (pairOfIds set.iter) (.malformedComponentValue ComponentId.dmMembers
    s!"expected 2 inbox ids, got {set.iter.length}")
  return ⟨some ⟨one.toHex host.hex⟩, some ⟨two.toHex host.hex⟩⟩

/-- Nothing for a group that is not migrated, nor for one without the seeds it has to have. -/
def readGroupMetadataFromExtensions : Except MetadataSourceError (Option GroupMetadataReturn) :=
  if !extensions.isMigrated then .ok none
  else match extensions.appDataDictionary with
  | none => .ok none
  | some dictionary =>
    match dictionary.get ComponentId.conversationType, dictionary.get ComponentId.creatorInboxId with
    | some ctBytes, some creatorBytes => do
      let conversationType ← okOr (readI32 ctBytes) (.malformedComponentValue
        ComponentId.conversationType s!"expected 4 bytes, got {ctBytes.length}")
      let creator ← ((InboxId.codec host.vlen).deserializeExact creatorBytes).mapError fun e =>
        .malformedComponentValue ComponentId.creatorInboxId
          s!"invalid InboxId TLS encoding: {e.text}"
      let dmMembers ← (dictionary.get ComponentId.dmMembers).mapM (readProtoDmMembers host)
      let oneshot ← (dictionary.get ComponentId.oneshotMessage).mapM fun bytes =>
        (host.decodeOneshotMessage bytes).mapError fun e =>
          .malformedComponentValue ComponentId.oneshotMessage s!"OneshotMessage prost decode: {e}"
      return some ⟨conversationType, creator.toHex host.hex, dmMembers, oneshot⟩
    | _, _ => .ok none

def metadata : Except MetadataReadError LegacyGroupMetadata :=
  if extensions.isMigrated then do
    let seed ← (readGroupMetadataFromExtensions host extensions).mapError .componentSource
    let seed ← okOr seed (.groupMetadata (.groupMetadata .missingExtension))
    let metadata ← (GroupMetadata.tryFrom ⟨seed.conversationType, seed.creatorInboxId,
      seed.dmMembers⟩).mapError fun e => .groupMetadata (.groupMetadata e)
    return ⟨metadata, seed.oneshot⟩
  else (extractGroupMetadata host extensions).mapError .groupMetadata

end Immutable

section Overlay

variable {host : BootstrapHost} {dictionary : HashMap UInt16 Bytes} {base : GroupMutableMetadata}

def decoded {α : Type} (dictionary : HashMap UInt16 Bytes) (id : UInt16)
    (decode : Bytes → Except GroupMutableMetadataError α) : Option α :=
  (dictionary.get id).bind fun bytes => (decode bytes).toOption

def malformed {α : Type} (dictionary : HashMap UInt16 Bytes) (id : UInt16)
    (decode : Bytes → Except GroupMutableMetadataError α) : Option GroupMutableMetadataError :=
  (dictionary.get id).bind fun bytes => errorOf (decode bytes)

def decodedAttribute (host : BootstrapHost) (dictionary : HashMap UInt16 Bytes)
    (field : MetadataField) : Option String :=
  decoded dictionary (metadataFieldComponentMap field)
    (decodeMetadataComponent host (metadataFieldComponentMap field))

def malformedAttribute (host : BootstrapHost) (dictionary : HashMap UInt16 Bytes)
    (field : MetadataField) : Option GroupMutableMetadataError :=
  malformed dictionary (metadataFieldComponentMap field)
    (decodeMetadataComponent host (metadataFieldComponentMap field))

def decodedInboxIds (host : BootstrapHost) (dictionary : HashMap UInt16 Bytes) (id : UInt16) :
    Option (List String) :=
  decoded dictionary id (decodeInboxIdList host.hex host.toWire id)

def malformedInboxIds (host : BootstrapHost) (dictionary : HashMap UInt16 Bytes) (id : UInt16) :
    Option GroupMutableMetadataError :=
  malformed dictionary id (decodeInboxIdList host.hex host.toWire id)

def malformedComponents (host : BootstrapHost) (dictionary : HashMap UInt16 Bytes) :
    List GroupMutableMetadataError :=
  metadataFields.filterMap (malformedAttribute host dictionary) ++
    [ComponentId.adminList, ComponentId.superAdminList].filterMap (malformedInboxIds host dictionary)

structure Overlaid (host : BootstrapHost) (dictionary : HashMap UInt16 Bytes)
    (base merged : GroupMutableMetadata) : Prop where
  attributes : ∀ field : MetadataField, merged.attributes.get field.asStr =
    (decodedAttribute host dictionary field).or (base.attributes.get field.asStr)
  other : ∀ name, (∀ field : MetadataField, field.asStr ≠ name) →
    merged.attributes.get name = base.attributes.get name
  adminList : merged.adminList =
    (decodedInboxIds host dictionary ComponentId.adminList).getD base.adminList
  superAdminList : merged.superAdminList =
    (decodedInboxIds host dictionary ComponentId.superAdminList).getD base.superAdminList

theorem bestEffort_mergeComponent {α : Type} (id : UInt16)
    (decode : Bytes → Except GroupMutableMetadataError α)
    (set : GroupMutableMetadata → α → GroupMutableMetadata)
    (rest : List (GroupMutableMetadata → Except GroupMutableMetadataError GroupMutableMetadata)) :
    bestEffort (mergeComponent dictionary id decode set :: rest) base =
      ((bestEffort rest ((decoded dictionary id decode).elim base (set base))).1,
        (malformed dictionary id decode).toList ++
          (bestEffort rest ((decoded dictionary id decode).elim base (set base))).2) := by
  rw [bestEffort, mergeComponent, decoded, malformed]
  cases dictionary.get id with
  | none => rfl
  | some bytes =>
    simp only [Option.bind_some]
    cases decode bytes with
    | ok value => rfl
    | error e => rfl

def overlay (host : BootstrapHost) (dictionary : HashMap UInt16 Bytes) (field : MetadataField)
    (base : GroupMutableMetadata) : GroupMutableMetadata :=
  (decodedAttribute host dictionary field).elim base fun legacyValue =>
    { base with attributes := base.attributes.insert field.asStr legacyValue }

@[simp] theorem overlay_adminList (field : MetadataField) :
    (overlay host dictionary field base).adminList = base.adminList := by
  rw [overlay]
  cases decodedAttribute host dictionary field <;> rfl

@[simp] theorem overlay_superAdminList (field : MetadataField) :
    (overlay host dictionary field base).superAdminList = base.superAdminList := by
  rw [overlay]
  cases decodedAttribute host dictionary field <;> rfl

theorem get_overlay_self (field : MetadataField) :
    (overlay host dictionary field base).attributes.get field.asStr =
      (decodedAttribute host dictionary field).or (base.attributes.get field.asStr) := by
  rw [overlay]
  cases decodedAttribute host dictionary field <;> simp

theorem get_overlay_of_ne {field : MetadataField} {name : String} (h : field.asStr ≠ name) :
    (overlay host dictionary field base).attributes.get name = base.attributes.get name := by
  rw [overlay]
  cases decodedAttribute host dictionary field <;> simp [h]

theorem bestEffort_attributes {fields : List MetadataField} (hnodup : fields.Nodup)
    {merged : GroupMutableMetadata} {errors : List GroupMutableMetadataError}
    (h : bestEffort (fields.map (mergeAttribute host dictionary)) base = (merged, errors)) :
    (∀ field ∈ fields, merged.attributes.get field.asStr =
      (decodedAttribute host dictionary field).or (base.attributes.get field.asStr)) ∧
    (∀ name, (∀ field ∈ fields, field.asStr ≠ name) →
      merged.attributes.get name = base.attributes.get name) ∧
    merged.adminList = base.adminList ∧ merged.superAdminList = base.superAdminList ∧
    errors = fields.filterMap (malformedAttribute host dictionary) := by
  induction fields generalizing base errors with
  | nil =>
    cases h
    simp
  | cons field fields ih =>
    obtain ⟨hnotMem, hnodup⟩ := List.nodup_cons.mp hnodup
    have hne : ∀ other ∈ fields, other.asStr ≠ field.asStr := by
      intro other hmem heq
      rw [asStr_injective heq] at hmem
      exact hnotMem hmem
    rw [List.map_cons, mergeAttribute, bestEffort_mergeComponent, Prod.mk.injEq] at h
    obtain ⟨rfl, rfl⟩ := h
    obtain ⟨hfields, hother, hadmin, hsuper, herrors⟩ :=
      ih hnodup (Prod.mk.eta (p := bestEffort (fields.map (mergeAttribute host dictionary))
        (overlay host dictionary field base))).symm
    refine ⟨fun field' hmem => ?_, fun name hname => ?_, hadmin.trans (overlay_adminList field),
      hsuper.trans (overlay_superAdminList field), ?_⟩
    · rcases List.mem_cons.mp hmem with rfl | hmem
      · exact (hother _ hne).trans (get_overlay_self field')
      · refine (hfields field' hmem).trans ?_
        rw [get_overlay_of_ne (hne field' hmem).symm]
    · exact (hother name fun other hmem => hname other (List.mem_cons_of_mem _ hmem)).trans
        (get_overlay_of_ne (hname field List.mem_cons_self))
    · change (malformedAttribute host dictionary field).toList ++ _ = _
      rw [List.filterMap_cons]
      cases malformedAttribute host dictionary field with
      | none => exact herrors
      | some e => exact congrArg (e :: ·) herrors

theorem bestEffort_inboxIds :
    bestEffort [mergeAdminList host dictionary, mergeSuperAdminList host dictionary] base =
      (⟨base.attributes,
        (decodedInboxIds host dictionary ComponentId.adminList).getD base.adminList,
        (decodedInboxIds host dictionary ComponentId.superAdminList).getD base.superAdminList⟩,
        [ComponentId.adminList, ComponentId.superAdminList].filterMap
          (malformedInboxIds host dictionary)) := by
  rw [mergeAdminList, bestEffort_mergeComponent, mergeSuperAdminList, bestEffort_mergeComponent,
    bestEffort, List.append_nil]
  simp only [List.filterMap_cons, List.filterMap_nil]
  apply Prod.ext
  · rw [decodedInboxIds, decodedInboxIds]
    cases decoded dictionary ComponentId.adminList
        (decodeInboxIdList host.hex host.toWire ComponentId.adminList) <;>
      cases decoded dictionary ComponentId.superAdminList
        (decodeInboxIdList host.hex host.toWire ComponentId.superAdminList) <;> rfl
  · rw [malformedInboxIds, malformedInboxIds]
    cases malformed dictionary ComponentId.adminList
        (decodeInboxIdList host.hex host.toWire ComponentId.adminList) <;>
      cases malformed dictionary ComponentId.superAdminList
        (decodeInboxIdList host.hex host.toWire ComponentId.superAdminList) <;> rfl

theorem metadataFields_nodup : metadataFields.Nodup := by decide

theorem mem_metadataFields (field : MetadataField) : field ∈ metadataFields := by
  cases field <;> decide

theorem bestEffort_merges (host : BootstrapHost) (dictionary : HashMap UInt16 Bytes)
    (base : GroupMutableMetadata) :
    Overlaid host dictionary base (bestEffort (merges host dictionary) base).1 ∧
      (bestEffort (merges host dictionary) base).2 = malformedComponents host dictionary := by
  obtain ⟨merged, errors, h⟩ : ∃ merged errors,
      bestEffort (metadataFields.map (mergeAttribute host dictionary)) base = (merged, errors) :=
    ⟨_, _, (Prod.mk.eta).symm⟩
  obtain ⟨hfields, hother, hadmin, hsuper, rfl⟩ := bestEffort_attributes metadataFields_nodup h
  rw [merges, bestEffort_append, h, bestEffort_inboxIds]
  refine ⟨⟨fun field => hfields field (mem_metadataFields field),
    fun name hname => hother name fun field _ => hname field, ?_, ?_⟩, rfl⟩
  · rw [← hadmin]
  · rw [← hsuper]

end Overlay

section Agreement

variable {host : ReadHost} {extensions : Extensions} {dictionary : HashMap UInt16 Bytes}

structure DescribesGroup (host : ReadHost) (dictionary : HashMap UInt16 Bytes)
    (metadata : LegacyGroupMetadata) : Prop where
  conversationType : ∃ bytes number, dictionary.get ComponentId.conversationType = some bytes ∧
    readI32 bytes = some number ∧ ConversationType.tryFrom number = .ok metadata.conversationType
  creator : ∃ bytes creator, dictionary.get ComponentId.creatorInboxId = some bytes ∧
    (InboxId.codec host.vlen).deserializeExact bytes = .ok creator ∧
      metadata.creatorInboxId = creator.toHex host.hex
  dmMembers : (dictionary.get ComponentId.dmMembers).mapM (readDmMembers host) =
    .ok metadata.dmMembers
  oneshotMessage : (dictionary.get ComponentId.oneshotMessage).mapM host.decodeOneshotMessage =
    .ok metadata.oneshotMessage

theorem isMigrated_of_dictionary (hdictionary : extensions.appDataDictionary = some dictionary) :
    extensions.isMigrated = dictionary.containsKey ComponentId.componentRegistry := by
  rw [Extensions.isMigrated, hdictionary]
  rfl

theorem mapM_mapError_eq_ok {α β ε ε' : Type} {f : α → Except ε β} {g : ε → ε'} {stored : Option α}
    {value : Option β} :
    stored.mapM (fun a => (f a).mapError g) = .ok value ↔ stored.mapM f = .ok value := by
  cases stored with
  | none => simp [Option.mapM_none]
  | some a => simp [Option.mapM_some, mapError_eq_ok]

theorem readGroupMetadataFromDict_eq_ok
    (hdictionary : extensions.appDataDictionary = some dictionary)
    (hmigrated : extensions.isMigrated = true) {metadata : LegacyGroupMetadata} :
    readGroupMetadataFromDict host extensions = .ok (some metadata) ↔
      DescribesGroup host dictionary metadata := by
  rw [isMigrated_of_dictionary hdictionary] at hmigrated
  unfold readGroupMetadataFromDict
  simp only [hdictionary, hmigrated, Bool.not_true, Bool.false_eq_true, if_false, bind_eq_ok,
    okOr_eq_ok, mapError_eq_ok, mapM_mapError_eq_ok, pure_eq_ok, Option.some.injEq]
  constructor
  · rintro ⟨ctBytes, hct, creatorBytes, hcreator, number, hnumber, conversationType, htype, creator,
      hid, dmMembers, hdm, oneshot, honeshot, rfl⟩
    exact ⟨⟨ctBytes, number, hct, hnumber, htype⟩, ⟨creatorBytes, creator, hcreator, hid, rfl⟩, hdm,
      honeshot⟩
  · obtain ⟨⟨conversationType, creatorInboxId, dmMembers⟩, oneshotMessage⟩ := metadata
    rintro ⟨⟨ctBytes, number, hct, hnumber, htype⟩, ⟨creatorBytes, creator, hcreator, hid, rfl⟩, hdm,
      honeshot⟩
    exact ⟨ctBytes, hct, creatorBytes, hcreator, number, hnumber, conversationType, htype, creator,
      hid, dmMembers, hdm, oneshotMessage, honeshot, rfl⟩

theorem exists_dictionary (hmigrated : extensions.isMigrated = true) :
    ∃ dictionary, extensions.appDataDictionary = some dictionary := by
  apply Option.isSome_iff_exists.mp
  rw [Extensions.isMigrated] at hmigrated
  cases hdictionary : extensions.appDataDictionary with
  | none => simp [hdictionary] at hmigrated
  | some dictionary => rfl

theorem extractGroupMetadata_eq_ok (hdictionary : extensions.appDataDictionary = some dictionary)
    (hmigrated : extensions.isMigrated = true) {metadata : LegacyGroupMetadata} :
    extractGroupMetadata host extensions = .ok metadata ↔
      DescribesGroup host dictionary metadata := by
  rw [← readGroupMetadataFromDict_eq_ok hdictionary hmigrated, extractGroupMetadata]
  cases hread : readGroupMetadataFromDict host extensions with
  | error e => simp
  | ok seed =>
    cases seed with
    | some seed => simp
    | none =>
      exfalso
      rw [isMigrated_of_dictionary hdictionary] at hmigrated
      unfold readGroupMetadataFromDict at hread
      simp [hdictionary, hmigrated] at hread

theorem readProtoDmMembers_eq_ok {bytes : Bytes} {members : Groups.Proto.DmMembers} :
    readProtoDmMembers host bytes = .ok members ↔ ∃ one two : String,
      readDmMembers host bytes = .ok ⟨one, two⟩ ∧ members = ⟨some ⟨one⟩, some ⟨two⟩⟩ := by
  rw [readProtoDmMembers, readDmMembers]
  cases (TlsSet.codec host.vlen (InboxId.codec host.vlen)).deserializeExact bytes with
  | error e => simp [Except.mapError]
  | ok set =>
    simp only [Except.mapError, ok_bind]
    cases pairOfIds set.iter with
    | none => simp
    | some pair =>
      obtain ⟨one, two⟩ := pair
      simp only [okOr_some, ok_bind, pure_eq_ok, DmMembers.mk.injEq]
      constructor
      · rintro rfl
        exact ⟨_, _, ⟨rfl, rfl⟩, rfl⟩
      · rintro ⟨_, _, ⟨rfl, rfl⟩, rfl⟩
        rfl

theorem mapM_readProtoDmMembers {stored : Option Bytes} {dmMembers : Option DmMembers} :
    (∃ members, stored.mapM (readProtoDmMembers host) = .ok members ∧
      members.mapM DmMembers.tryFrom = .ok dmMembers) ↔
    stored.mapM (readDmMembers host) = .ok dmMembers := by
  cases stored with
  | none => simp [Option.mapM_none]
  | some bytes =>
    simp only [Option.mapM_some, map_eq_ok, readProtoDmMembers_eq_ok]
    constructor
    · rintro ⟨_, ⟨_, ⟨one, two, hread, rfl⟩, rfl⟩, hmembers⟩
      exact ⟨⟨one, two⟩, hread, Except.ok.inj hmembers⟩
    · rintro ⟨⟨one, two⟩, hread, rfl⟩
      exact ⟨_, ⟨_, ⟨one, two, hread, rfl⟩, rfl⟩, rfl⟩

theorem metadata_eq_ok (hdictionary : extensions.appDataDictionary = some dictionary)
    (hmigrated : extensions.isMigrated = true) {described : LegacyGroupMetadata} :
    metadata host extensions = .ok described ↔ DescribesGroup host dictionary described := by
  rw [metadata, if_pos hmigrated]
  unfold readGroupMetadataFromExtensions
  simp only [hdictionary, hmigrated, Bool.not_true, Bool.false_eq_true, if_false]
  cases hct : dictionary.get ComponentId.conversationType with
  | none =>
    refine ⟨fun h => by simp [Except.mapError] at h, fun h => ?_⟩
    obtain ⟨_, _, hget, _⟩ := h.conversationType
    rw [hct] at hget
    cases hget
  | some ctBytes =>
    cases hcreator : dictionary.get ComponentId.creatorInboxId with
    | none =>
      refine ⟨fun h => by simp [Except.mapError] at h, fun h => ?_⟩
      obtain ⟨_, _, hget, _⟩ := h.creator
      rw [hcreator] at hget
      cases hget
    | some creatorBytes =>
      simp only [bind_eq_ok, mapError_eq_ok, okOr_eq_ok, mapM_mapError_eq_ok, pure_eq_ok,
        GroupMetadata.tryFrom]
      constructor
      · rintro ⟨_, ⟨number, hnumber, creator, hid, members, hmembers, oneshot, honeshot, rfl⟩, seed, hseed,
          _, ⟨dmMembers, hdm, conversationType, htype, rfl⟩, rfl⟩
        cases hseed
        exact ⟨⟨ctBytes, number, hct, hnumber, htype⟩, ⟨creatorBytes, creator, hcreator, hid, rfl⟩,
          mapM_readProtoDmMembers.mp ⟨members, hmembers, hdm⟩, honeshot⟩
      · obtain ⟨⟨conversationType, creatorInboxId, dmMembers⟩, oneshotMessage⟩ := described
        rintro ⟨⟨bytes, number, hget, hnumber, htype⟩, ⟨bytes', creator, hget', hid, rfl⟩, hdm,
          honeshot⟩
        cases hct.symm.trans hget
        cases hcreator.symm.trans hget'
        obtain ⟨members, hmembers, hdm⟩ := mapM_readProtoDmMembers.mpr hdm
        exact ⟨_, ⟨number, hnumber, creator, hid, members, hmembers, oneshotMessage, honeshot, rfl⟩, _,
          rfl, _, ⟨dmMembers, hdm, conversationType, htype, rfl⟩, rfl⟩

theorem metadata_eq_ok_iff {described : LegacyGroupMetadata} :
    metadata host extensions = .ok described ↔
      extractGroupMetadata host extensions = .ok described := by
  cases hmigrated : extensions.isMigrated with
  | false => simp [metadata, hmigrated, mapError_eq_ok]
  | true =>
    obtain ⟨dictionary, hdictionary⟩ := exists_dictionary hmigrated
    rw [metadata_eq_ok hdictionary hmigrated, extractGroupMetadata_eq_ok hdictionary hmigrated]

variable {legacy : BootstrapHost} {gmm : GroupMutableMetadata}

theorem extractGroupMutableMetadata_eq (hdictionary : extensions.appDataDictionary = some dictionary)
    (hmigrated : extensions.isMigrated = true) :
    extractGroupMutableMetadataCapabilityAware legacy extensions =
      ((failFast (merges legacy dictionary) emptyMutableMetadata).2.mapError .ofMerge).map fun _ =>
        (failFast (merges legacy dictionary) emptyMutableMetadata).1 := by
  simp only [extractGroupMutableMetadataCapabilityAware, mergeAppDataIntoMutableMetadata,
    mergeDictIntoMutableMetadata, hdictionary, hmigrated, if_true]
  cases (failFast (merges legacy dictionary) emptyMutableMetadata).2 <;> rfl

theorem exportedMutableMetadata_eq (hdictionary : extensions.appDataDictionary = some dictionary)
    (hmigrated : extensions.isMigrated = true) :
    exportedMutableMetadata legacy extensions =
      some (bestEffort (merges legacy dictionary) emptyMutableMetadata).1 := by
  simp only [exportedMutableMetadata, mergeDictIntoMutableMetadataLossy, hdictionary, hmigrated, if_true]

theorem extractGroupMutableMetadata_eq_ok
    (hdictionary : extensions.appDataDictionary = some dictionary)
    (hmigrated : extensions.isMigrated = true) :
    extractGroupMutableMetadataCapabilityAware legacy extensions = .ok gmm ↔
      exportedMutableMetadata legacy extensions = some gmm ∧
        malformedComponents legacy dictionary = [] := by
  rw [extractGroupMutableMetadata_eq hdictionary hmigrated,
    exportedMutableMetadata_eq hdictionary hmigrated, ← (bestEffort_merges legacy dictionary _).2]
  obtain ⟨merged, result, hfast⟩ : ∃ merged result,
      failFast (merges legacy dictionary) emptyMutableMetadata = (merged, result) :=
    ⟨_, _, (Prod.mk.eta).symm⟩
  cases result with
  | ok _ =>
    rw [hfast, bestEffort_eq_nil.mpr hfast]
    simp [Except.mapError, Except.map]
  | error e =>
    have herror : (failFast (merges legacy dictionary) emptyMutableMetadata).2 = .error e := by
      rw [hfast]
    rw [failFast_eq_error] at herror
    rw [hfast]
    refine ⟨fun h => ?_, fun h => ?_⟩
    · simp [Except.mapError, Except.map] at h
    · rw [h.2] at herror
      cases herror

theorem extractGroupMutableMetadata_eq_error
    (hdictionary : extensions.appDataDictionary = some dictionary)
    (hmigrated : extensions.isMigrated = true) {error : MetadataSourceError} :
    extractGroupMutableMetadataCapabilityAware legacy extensions = .error error ↔
      (malformedComponents legacy dictionary).head?.map .ofMerge = some error := by
  rw [extractGroupMutableMetadata_eq hdictionary hmigrated,
    ← (bestEffort_merges legacy dictionary emptyMutableMetadata).2]
  cases hresult : (failFast (merges legacy dictionary) emptyMutableMetadata).2 with
  | error e => simp [failFast_eq_error.mp hresult, Except.mapError, Except.map]
  | ok _ =>
    rw [bestEffort_eq_nil.mpr (Prod.ext rfl hresult)]
    simp [Except.mapError, Except.map]

/-- What the readers of a group have in common: the group itself, its members and the exporter of an
archive. -/
structure ReadersAgree (host : ReadHost) (extensions : Extensions) : Prop where
  immutable : ∀ described, metadata host extensions = .ok described ↔
    extractGroupMetadata host extensions = .ok described
  notMigrated : extensions.isMigrated = false →
    (extractGroupMutableMetadataCapabilityAware host.toBootstrapHost extensions).toOption =
      exportedMutableMetadata host.toBootstrapHost extensions
  exported : ∀ dictionary, extensions.isMigrated = true →
    extensions.appDataDictionary = some dictionary → ∃ gmm,
      exportedMutableMetadata host.toBootstrapHost extensions = some gmm ∧
        Overlaid host.toBootstrapHost dictionary emptyMutableMetadata gmm
  strict : ∀ dictionary, extensions.isMigrated = true →
    extensions.appDataDictionary = some dictionary → ∀ gmm,
      extractGroupMutableMetadataCapabilityAware host.toBootstrapHost extensions = .ok gmm ↔
        exportedMutableMetadata host.toBootstrapHost extensions = some gmm ∧
          malformedComponents host.toBootstrapHost dictionary = []
  failure : ∀ dictionary, extensions.isMigrated = true →
    extensions.appDataDictionary = some dictionary → ∀ error,
      extractGroupMutableMetadataCapabilityAware host.toBootstrapHost extensions = .error error ↔
        (malformedComponents host.toBootstrapHost dictionary).head?.map .ofMerge = some error

theorem readersAgree (host : ReadHost) (extensions : Extensions) : ReadersAgree host extensions where
  immutable _ := metadata_eq_ok_iff
  notMigrated hmigrated := by
    rw [extractGroupMutableMetadataCapabilityAware, exportedMutableMetadata, hmigrated]
    cases legacyMutableMetadata host.toBootstrapHost extensions <;> rfl
  exported _ hmigrated hdictionary :=
    ⟨_, exportedMutableMetadata_eq hdictionary hmigrated, (bestEffort_merges _ _ _).1⟩
  strict _ hmigrated hdictionary _ := extractGroupMutableMetadata_eq_ok hdictionary hmigrated
  failure _ hmigrated hdictionary _ := extractGroupMutableMetadata_eq_error hdictionary hmigrated

end Agreement

end LibXmtp.AppData
