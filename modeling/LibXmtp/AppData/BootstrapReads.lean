import LibXmtp.AppData.BootstrapState
import LibXmtp.AppData.MetadataReads

namespace LibXmtp.AppData

open LibXmtp.Data LibXmtp.Groups

def RespelledInboxIds (hex : Hex) (texts texts' : List String) : Prop :=
  ∃ ids, texts.mapM (InboxId.fromHex hex) = .ok ids ∧
    texts' = (TlsSet.ofList ids).iter.map (InboxId.toHex hex)

section Components

variable {host : BootstrapHost} {extensions post : Extensions}
  {expected : CanonicalBootstrapExpectation} {gmm : GroupMutableMetadata}
  {registry : ComponentRegistry} {legacy : Groups.Proto.GroupMembership}
  {metadata : LegacyGroupMetadata} {members : List (String × UInt64)}

theorem Determined.read_of_seed (h : Determined host extensions expected post)
    (hcanonical : Canonical host extensions expected gmm registry legacy metadata members)
    {id : UInt16} {value : Except MigrationError (Option Bytes)}
    (hmem : (id, value) ∈ strictSeeds host gmm metadata) : ∃ payload, value = .ok payload ∧
      readFromAppDataDict id post = payload.bind fun payload =>
        (applyAppDataUpdatePayload host.toHost id .new payload none).toOption := by
  obtain ⟨hmembership, hregistry⟩ := ne_of_mem_strictSeeds hmem
  obtain ⟨payload, hvalue, hget⟩ := get_of_mem_seeds hcanonical.strict (nodup_strictSeeds _ _ _)
    (fun _ _ => rfl) hmem
  refine ⟨payload, hvalue, ?_⟩
  rw [h.component id hregistry hmembership, hget]
  cases payload <;> rfl

theorem decodeInboxIdList_of_readSet {id : UInt16} {bytes : Bytes} {set : TlsSet InboxId}
    (h : readSet host.toWire (InboxId.codec host.vlen) (some bytes) = .ok set) :
    decodeInboxIdList host.hex host.toWire id bytes = .ok (set.iter.map (InboxId.toHex host.hex)) := by
  rw [readSet, mapError_eq_ok] at h
  simp only [decodeInboxIdList, h, Except.mapError, ok_bind]
  rfl

theorem mapM_inboxIdFromHex {texts : List String} {ids : List InboxId} :
    texts.mapM (inboxIdFromHex host) = .ok ids ↔ texts.mapM (InboxId.fromHex host.hex) = .ok ids := by
  induction texts generalizing ids with
  | nil => simp
  | cons text texts ih => simp [List.mapM_cons, inboxIdFromHex_eq_ok, ih]

theorem Determined.inboxIds (h : Determined host extensions expected post)
    (hcanonical : Canonical host extensions expected gmm registry legacy metadata members)
    (hvlen : host.vlen.Downward) {id : UInt16} {texts : List String}
    (hmem : inboxIdSetComponent host.toWire id ∈ wellKnown host.toWire)
    (hrow : (id, some <$> encodeInboxIdSet host texts) ∈ strictSeeds host gmm metadata) :
    ∃ bytes list, readFromAppDataDict id post = some bytes ∧
      decodeInboxIdList host.hex host.toWire id bytes = .ok list ∧
        RespelledInboxIds host.hex texts list := by
  obtain ⟨payload, hvalue, hread⟩ := h.read_of_seed hcanonical hrow
  obtain ⟨seed, hencode, rfl⟩ := map_eq_ok.mp hvalue
  obtain ⟨ids, hids, hdelta⟩ := encodeInboxIdSet_eq_ok.mp hencode
  obtain ⟨bytes, happly, hset⟩ := @apply_inboxIds _ .new _ hvlen _ hmem _ hdelta
  rw [Option.bind_some, happly, toOption_ok] at hread
  exact ⟨bytes, _, hread, decodeInboxIdList_of_readSet hset, ids, mapM_inboxIdFromHex.mp hids, rfl⟩

theorem tryFrom_toProto (conversationType : ConversationType) :
    ConversationType.tryFrom conversationType.toProto = .ok conversationType := by
  cases conversationType <;> decide

end Components

section Immutable

variable {host : ReadHost} {extensions post : Extensions}
  {expected : CanonicalBootstrapExpectation} {gmm : GroupMutableMetadata}
  {registry : ComponentRegistry} {legacy : Groups.Proto.GroupMembership}
  {metadata : LegacyGroupMetadata} {members : List (String × UInt64)}

end Immutable

section Reads

variable (merge : CommitMerge) {Version : Type} {semver : Semver Version} {host : ReadHost} {order : MembersOrder}
  {commit : StagedCommit} {extensions : Extensions} {proposer : CommitParticipant}
  {ownVersion : String} {expected : CanonicalBootstrapExpectation} {updates : Option AppDataUpdates}

end Reads

namespace ReadsSample

open BootstrapSample

def dmCodec : GroupCodec where
  decodeInboxId _ := none
  decodeGroupMetadata bytes :=
    if bytes = [3] then some ⟨2, creator, some ⟨some ⟨other⟩, some ⟨spelled⟩⟩⟩ else none
  decodeGroupMutableMetadata bytes :=
    if bytes = [4] then some ⟨.ofList [("message_disappear_from_ns", "+007"),
      ("message_disappear_in_ns", "60")], some ⟨[]⟩, some ⟨[spelled, creator]⟩⟩ else none
  decodeGroupMutablePermissions bytes := if bytes = [5] then some ⟨some openPolicies⟩ else none
  decodeGroupMembership bytes :=
    if bytes = [6] then some (membership [(creator, 1), (other, 2)]) else none

def encodeOneshot : Groups.Proto.OneshotMessage → Bytes
  | ⟨none⟩ => []
  | ⟨some request⟩ => 0x0A :: pack (request.latestCommitSequenceId, [request.groupId])

def decodeOneshot : Bytes → Except String Groups.Proto.OneshotMessage
  | [] => .ok ⟨none⟩
  | 0x0A :: bytes =>
    match unpack bytes with
    | some (latestCommitSequenceId, [groupId]) => .ok ⟨some ⟨groupId, latestCommitSequenceId⟩⟩
    | _ => .error "failed to decode Protobuf message"
  | _ => .error "failed to decode Protobuf message"

theorem decodeOneshot_encodeOneshot (message : Groups.Proto.OneshotMessage) :
    decodeOneshot (encodeOneshot message) = .ok message := by
  obtain ⟨_ | request⟩ := message
  · rfl
  · simp only [encodeOneshot, decodeOneshot, unpack_pack]

def dmHost : ReadHost where
  toHost := bareHost
  hex := .lower
  decodeGroupMembershipEntry := decodeEntry
  codec := dmCodec
  oneshotMessage _ := none
  encodeOneshotMessage := encodeOneshot
  encodeGroupMembershipEntry := encodeEntry
  decodeOneshotMessage := decodeOneshot
  decode_encodeOneshotMessage := decodeOneshot_encodeOneshot

def values : TlsMap UInt16 Bytes :=
  (synthesizeInitialComponentValuesFromExtensions dmHost.toBootstrapHost inOrder lookup
    (groupOf 6)).toOption.getD .new

end ReadsSample

end LibXmtp.AppData
