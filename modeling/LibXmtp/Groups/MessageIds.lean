import LibXmtp.Db.GroupMessage
import LibXmtp.Data.Result
import Mathlib.Data.List.Induction

namespace LibXmtp.Groups

open LibXmtp.Data LibXmtp.Db

structure MessageSource where
  groupId : Bytes
  idempotencyKey : String
  content : Bytes
  deriving DecidableEq

namespace MessageSource

def separator : UInt8 := 9

def keyBytes (m : MessageSource) : Bytes := m.idempotencyKey.toUTF8.data.toList

def idBytes (m : MessageSource) : Bytes :=
  m.groupId ++ separator :: (m.keyBytes ++ separator :: m.content)

/-- The key of one goes on after a separator, with what the content of the other starts with. -/
def Overlaps (m m' : MessageSource) : Prop :=
  m.groupId = m'.groupId ∧ ∃ shared : Bytes,
    m'.keyBytes = m.keyBytes ++ separator :: shared ∧ m.content = shared ++ separator :: m'.content

def Ambiguous (m m' : MessageSource) : Prop := m.Overlaps m' ∨ m'.Overlaps m

theorem keyBytes_inj {m m' : MessageSource} (h : m.keyBytes = m'.keyBytes) :
    m.idempotencyKey = m'.idempotencyKey := by
  apply String.toByteArray_inj.mp
  exact ByteArray.ext (Array.toList_inj.mp h)

theorem ne_of_overlaps {m m' : MessageSource} (h : m.Overlaps m') : m ≠ m' := by
  rintro rfl
  obtain ⟨_, shared, hkey, _⟩ := h
  have hlength := congrArg List.length hkey
  simp at hlength

theorem idBytes_of_overlaps {m m' : MessageSource} (h : m.Overlaps m') : m.idBytes = m'.idBytes := by
  obtain ⟨hgroup, shared, hkey, hcontent⟩ := h
  simp [idBytes, hgroup, hkey, hcontent]

theorem not_ambiguous {m m' : MessageSource} (h : m = m' ∨ m.idBytes ≠ m'.idBytes) :
    ¬m.Ambiguous m' := by
  rintro (hoverlaps | hoverlaps)
  · rcases h with hsame | hne
    · exact ne_of_overlaps hoverlaps hsame
    · exact hne (idBytes_of_overlaps hoverlaps)
  · rcases h with hsame | hne
    · exact ne_of_overlaps hoverlaps hsame.symm
    · exact hne (idBytes_of_overlaps hoverlaps).symm

theorem idBytes_eq_iff {m m' : MessageSource} (hlength : m.groupId.length = m'.groupId.length) :
    m.idBytes = m'.idBytes ↔ m = m' ∨ m.Ambiguous m' := by
  constructor
  · intro h
    obtain ⟨hgroup, hrest⟩ := List.append_inj h hlength
    rw [List.cons.injEq] at hrest
    rcases List.append_eq_append_iff.mp hrest.2 with ⟨gap, hkey, hcontent⟩ | ⟨gap, hkey, hcontent⟩
    · cases gap with
      | nil =>
        left
        rw [List.append_nil] at hkey
        rw [List.nil_append, List.cons.injEq] at hcontent
        have hidempotency := keyBytes_inj hkey
        cases m
        cases m'
        simp_all
      | cons first shared =>
        rw [List.cons_append, List.cons.injEq] at hcontent
        obtain ⟨hfirst, hcontent⟩ := hcontent
        exact .inr (.inl ⟨hgroup, shared, hfirst ▸ hkey, hcontent⟩)
    · cases gap with
      | nil =>
        left
        rw [List.append_nil] at hkey
        rw [List.nil_append, List.cons.injEq] at hcontent
        have hidempotency := keyBytes_inj hkey
        cases m
        cases m'
        simp_all
      | cons first shared =>
        rw [List.cons_append, List.cons.injEq] at hcontent
        obtain ⟨hfirst, hcontent⟩ := hcontent
        exact .inr (.inr ⟨hgroup.symm, shared, hfirst ▸ hkey, hcontent⟩)
  · rintro (rfl | h | h)
    · rfl
    · exact idBytes_of_overlaps h
    · exact (idBytes_of_overlaps h).symm

end MessageSource

def calculateMessageId (sha256 : Bytes → Bytes) (groupId decryptedMessageBytes : Bytes)
    (idempotencyKey : String) : Bytes :=
  sha256 (MessageSource.idBytes ⟨groupId, idempotencyKey, decryptedMessageBytes⟩)

inductive DeliveryStatus
  | unpublished
  | published
  | failed

structure QueryableContentFields where
  contentType : ContentType
  versionMajor : Int
  versionMinor : Int
  authorityId : String
  referenceId : Option Bytes

/-- A row of the messages, with the columns that tell where it comes from. -/
structure StoredMessage extends StoredGroupMessage where
  senderInstallationId : Bytes
  deliveryStatus : DeliveryStatus
  versionMajor : Int
  versionMinor : Int
  authorityId : String
  sequenceId : Int
  originatorId : Int
  expireAtNs : Option Int
  shouldPush : Bool
  idempotencyKey : String

namespace StoredMessage

def messageId (row : StoredMessage) : Bytes := row.id

def source (row : StoredMessage) : MessageSource :=
  ⟨row.groupId, row.idempotencyKey, row.decryptedMessageBytes⟩

end StoredMessage

inductive PlaintextContent
  | v1 (idempotencyKey : String) (content : Bytes)
  | v2

structure MessageCodec where
  sha256 : Bytes → Bytes
  /-- Nothing where the bytes are no envelope, and no content where the envelope has none. -/
  decodeEnvelope : Bytes → Option (Option PlaintextContent)
  extractQueryableContentFields : Bytes → QueryableContentFields

/-- An application message as it has been decrypted, and whether what follows on its kind of content,
in the same transaction, succeeds. -/
structure ApplicationMessage where
  groupId : Bytes
  bytes : Bytes
  senderInboxId : String
  senderInstallationId : Bytes
  envelopeTimestampNs : Int
  sequenceId : Int
  originatorId : Int
  expireAtNs : Option Int
  followed : Bool

inductive ApplicationMessageError
  | decode
  | invalidPayload
  | notFollowed

structure PreparedMessage where
  groupId : Bytes
  installationId : Bytes
  inboxId : String
  now : Int
  message : Bytes
  shouldPush : Bool
  idempotencyKey : Option String

def PreparedMessage.key (p : PreparedMessage) : String := p.idempotencyKey.getD (toString p.now)

section Storing

variable (codec : MessageCodec)

def ApplicationMessage.stored (m : ApplicationMessage) (idempotencyKey : String) (content : Bytes) :
    StoredMessage :=
  let fields := codec.extractQueryableContentFields content
  { id := calculateMessageId codec.sha256 m.groupId content idempotencyKey
    groupId := m.groupId
    decryptedMessageBytes := content
    sentAtNs := m.envelopeTimestampNs
    kind := .application
    senderInboxId := m.senderInboxId
    contentType := fields.contentType
    referenceId := fields.referenceId
    senderInstallationId := m.senderInstallationId
    deliveryStatus := .published
    versionMajor := fields.versionMajor
    versionMinor := fields.versionMinor
    authorityId := fields.authorityId
    sequenceId := m.sequenceId
    originatorId := m.originatorId
    expireAtNs := m.expireAtNs
    shouldPush := true
    idempotencyKey }

/-- The branch of `process_external_message` for application messages. The second version of the
contents is not stored. -/
def processApplicationMessage (m : ApplicationMessage)
    (messages : Table StoredMessage.messageId) :
    Except ApplicationMessageError (Table StoredMessage.messageId) := do
  let envelope ← okOr (codec.decodeEnvelope m.bytes) .decode
  let content ← okOr envelope .invalidPayload
  match content with
  | .v1 idempotencyKey content =>
    rejectIf (!m.followed) .notFollowed
    return messages.insertOrIgnore (m.stored codec idempotencyKey content)
  | .v2 => return messages

def PreparedMessage.stored (p : PreparedMessage) : StoredMessage :=
  let fields := codec.extractQueryableContentFields p.message
  { id := calculateMessageId codec.sha256 p.groupId p.message p.key
    groupId := p.groupId
    decryptedMessageBytes := p.message
    sentAtNs := p.now
    kind := .application
    senderInboxId := p.inboxId
    contentType := fields.contentType
    referenceId := fields.referenceId
    senderInstallationId := p.installationId
    deliveryStatus := .unpublished
    versionMajor := fields.versionMajor
    versionMinor := fields.versionMinor
    authorityId := fields.authorityId
    sequenceId := 0
    originatorId := 0
    expireAtNs := none
    shouldPush := p.shouldPush
    idempotencyKey := p.key }

/-- The id that the message has from now on, which may be that of a message stored before. -/
def prepareMessageForLaterPublish (p : PreparedMessage) (messages : Table StoredMessage.messageId) :
    Bytes × Table StoredMessage.messageId :=
  let messageId := calculateMessageId codec.sha256 p.groupId p.message p.key
  match messages.fetch messageId with
  | some existing => (existing.id, messages)
  | none => (messageId, messages.insertOrIgnore (p.stored codec))

end Storing

/-- A message reaches the database of the client from the network or from its own user. -/
inductive Arrival
  | received (message : ApplicationMessage)
  | prepared (message : PreparedMessage)

namespace Arrival

variable (codec : MessageCodec)

def act (messages : Table StoredMessage.messageId) : Arrival → Table StoredMessage.messageId
  | .received m => (processApplicationMessage codec m messages).toOption.getD messages
  | .prepared p => (prepareMessageForLaterPublish codec p messages).2

def run (arrivals : List Arrival) : Table StoredMessage.messageId :=
  arrivals.foldl (act codec) .empty

def row : Arrival → Option StoredMessage
  | .received m =>
    match codec.decodeEnvelope m.bytes with
    | some (some (.v1 key content)) => if m.followed then some (m.stored codec key content) else none
    | _ => none
  | .prepared p => some (p.stored codec)

def sources (arrivals : List Arrival) : List MessageSource :=
  (arrivals.filterMap (row codec)).map StoredMessage.source

/-- Every message that is not refused is stored, with the content it was sent with. -/
def Kept (arrivals : List Arrival) : Prop :=
  ∀ source ∈ sources codec arrivals, ∃ row ∈ (run codec arrivals).rows, row.source = source

def Injective (messages : List MessageSource) : Prop :=
  ∀ m ∈ messages, ∀ m' ∈ messages,
    codec.sha256 m.idBytes = codec.sha256 m'.idBytes → m.idBytes = m'.idBytes

variable {codec}

theorem row_messageId {arrival : Arrival} {r : StoredMessage} (h : arrival.row codec = some r) :
    r.messageId = codec.sha256 r.source.idBytes := by
  cases arrival with
  | received m =>
    rw [row] at h
    split at h
    · split at h
      · cases h
        rfl
      · cases h
    · cases h
  | prepared p =>
    cases h
    rfl

theorem act_eq (messages : Table StoredMessage.messageId) (arrival : Arrival) :
    arrival.act codec messages =
      (arrival.row codec).elim messages fun r => messages.insertOrIgnore r := by
  cases arrival with
  | received m =>
    rw [act, processApplicationMessage, row]
    cases codec.decodeEnvelope m.bytes with
    | none => rfl
    | some envelope =>
      cases envelope with
      | none => rfl
      | some content =>
        cases content with
        | v2 => rfl
        | v1 key content =>
          cases hfollowed : m.followed with
          | true => simp [toOption_ok, okOr, pure, Except.pure]
          | false => simp [okOr, rejectIf, Except.toOption]
  | prepared p =>
    rw [act, prepareMessageForLaterPublish, row, Option.elim_some]
    split
    · rename_i existing hfetch
      have hkey : (p.stored codec).messageId ∈ messages.rows.map StoredMessage.messageId := by
        obtain ⟨hmem, hid⟩ := Table.fetch_eq_some_iff.mp hfetch
        exact List.mem_map.mpr ⟨existing, hmem, hid⟩
      rw [Table.insertOrIgnore, dif_pos hkey]
    · rfl

/-- What is stored after some arrivals, told by the rows that they were to be stored as. -/
structure Stores (rows : List StoredMessage) (messages : Table StoredMessage.messageId) : Prop where
  of_mem : ∀ r ∈ messages.rows, r ∈ rows
  has : ∀ r ∈ rows, r.messageId ∈ messages.rows.map StoredMessage.messageId

theorem Stores.insert {rows : List StoredMessage} {messages : Table StoredMessage.messageId}
    (h : Stores rows messages) (r : StoredMessage) :
    Stores (rows ++ [r]) (messages.insertOrIgnore r) where
  of_mem r' hr' := by
    rcases Table.mem_insertOrIgnore.mp hr' with hold | ⟨rfl, _⟩
    · exact List.mem_append_left _ (h.of_mem r' hold)
    · exact List.mem_append_right _ (List.mem_singleton_self r')
  has r' hr' := by
    rcases List.mem_append.mp hr' with hold | hnew
    · obtain ⟨stored, hstored, hid⟩ := List.mem_map.mp (h.has r' hold)
      exact List.mem_map.mpr ⟨stored, Table.mem_insertOrIgnore.mpr (.inl hstored), hid⟩
    · rw [List.mem_singleton.mp hnew]
      exact Table.key_mem_insertOrIgnore messages r

theorem stores_run (codec : MessageCodec) (arrivals : List Arrival) :
    Stores (arrivals.filterMap (row codec)) (run codec arrivals) := by
  induction arrivals using List.reverseRecOn with
  | nil => exact ⟨fun _ h => (by cases h), fun _ h => (by cases h)⟩
  | append_singleton arrivals arrival ih =>
    rw [run, List.foldl_append, List.foldl_cons, List.foldl_nil, ← run, act_eq,
      List.filterMap_append]
    cases hrow : arrival.row codec with
    | none => simpa [hrow] using ih
    | some r => simpa [hrow] using ih.insert r

theorem source_idBytes {arrivals : List Arrival} {r : StoredMessage}
    (h : r ∈ arrivals.filterMap (row codec)) : r.messageId = codec.sha256 r.source.idBytes := by
  obtain ⟨arrival, _, hrow⟩ := List.mem_filterMap.mp h
  exact row_messageId hrow

theorem messageId_eq_iff {messages : List MessageSource} (hinjective : Injective codec messages)
    (hlength : ∀ m ∈ messages, ∀ m' ∈ messages, m.groupId.length = m'.groupId.length)
    {m m' : MessageSource} (hm : m ∈ messages) (hm' : m' ∈ messages) :
    codec.sha256 m.idBytes = codec.sha256 m'.idBytes ↔ m = m' ∨ m.Ambiguous m' := by
  rw [← MessageSource.idBytes_eq_iff (hlength m hm m' hm')]
  exact ⟨hinjective m hm m' hm', fun h => congrArg codec.sha256 h⟩

/-- Messages with the same id are the same, and none is lost to another one, in just those runs in
which no two messages are ambiguous. -/
theorem kept_iff {arrivals : List Arrival} (hinjective : Injective codec (sources codec arrivals))
    (hlength : ∀ m ∈ sources codec arrivals, ∀ m' ∈ sources codec arrivals,
      m.groupId.length = m'.groupId.length) :
    Kept codec arrivals ↔
      ∀ m ∈ sources codec arrivals, ∀ m' ∈ sources codec arrivals, ¬m.Ambiguous m' := by
  have hstores := stores_run codec arrivals
  constructor
  · intro hkept m hm m' hm' hambiguous
    obtain ⟨r, hr, hsource⟩ := hkept m hm
    obtain ⟨r', hr', hsource'⟩ := hkept m' hm'
    -- Both would be stored under one id.
    have hid : r.messageId = r'.messageId := by
      rw [source_idBytes (hstores.of_mem r hr), source_idBytes (hstores.of_mem r' hr'), hsource,
        hsource']
      exact (messageId_eq_iff hinjective hlength hm hm').mpr (.inr hambiguous)
    have hsame : m = m' := by
      rw [← hsource, ← hsource', (run codec arrivals).eq_of_key_eq hr hr' hid]
    exact MessageSource.not_ambiguous (.inl hsame) hambiguous
  · intro hnone source hsource
    obtain ⟨r, hr, rfl⟩ := List.mem_map.mp hsource
    obtain ⟨stored, hstored, hid⟩ := List.mem_map.mp (hstores.has r hr)
    refine ⟨stored, hstored, ?_⟩
    have hmem := hstores.of_mem stored hstored
    have hmem' : stored.source ∈ sources codec arrivals := List.mem_map_of_mem hmem
    rw [source_idBytes hmem, source_idBytes hr] at hid
    rcases (messageId_eq_iff hinjective hlength hmem' hsource).mp hid with hsame | hambiguous
    · exact hsame
    · exact absurd hambiguous (hnone _ hmem' _ hsource)

/-- Two messages share their id without being the same just where they are ambiguous, and a message
is lost in just those runs in which two are. -/
theorem messages_identified {arrivals : List Arrival}
    (hinjective : Injective codec (sources codec arrivals))
    (hlength : ∀ m ∈ sources codec arrivals, ∀ m' ∈ sources codec arrivals,
      m.groupId.length = m'.groupId.length) :
    (∀ m ∈ sources codec arrivals, ∀ m' ∈ sources codec arrivals,
      ((calculateMessageId codec.sha256 m.groupId m.content m.idempotencyKey =
          calculateMessageId codec.sha256 m'.groupId m'.content m'.idempotencyKey → m = m') ↔
        ¬m.Ambiguous m')) ∧
      (Kept codec arrivals ↔
        ∀ m ∈ sources codec arrivals, ∀ m' ∈ sources codec arrivals, ¬m.Ambiguous m') := by
  refine ⟨fun m hm m' hm' => ?_, kept_iff hinjective hlength⟩
  change (codec.sha256 m.idBytes = codec.sha256 m'.idBytes → m = m') ↔ _
  rw [messageId_eq_iff hinjective hlength hm hm']
  constructor
  · intro h hambiguous
    exact MessageSource.not_ambiguous (.inl (h (.inr hambiguous))) hambiguous
  · rintro hnot (hsame | hambiguous)
    · exact hsame
    · exact absurd hambiguous hnot

end Arrival

namespace MessageSample

def group : Bytes := [7, 7, 7, 7, 7, 7, 7, 7, 7, 7, 7, 7, 7, 7, 7, 7]

def fromAlice : MessageSource := ⟨group, "a\tb", [0x63]⟩

def fromBob : MessageSource := ⟨group, "a", [0x62, 0x09, 0x63]⟩

def fromCarol : MessageSource := ⟨group, "b", [0x64]⟩

def digest : Bytes :=
  [0xfb, 0xbe, 0x3f, 0x4a, 0xfd, 0x4a, 0x01, 0xf2, 0x67, 0x19, 0x33, 0xd7, 0x1b, 0x56, 0x9c,
   0xb5, 0x3a, 0x1d, 0x6d, 0x0a, 0xa6, 0xb4, 0x2f, 0x72, 0xb6, 0xa3, 0x83, 0x42, 0xa9, 0x4e,
   0x35, 0x5d]

def otherDigest : Bytes :=
  [0x8a, 0x78, 0x8c, 0x3d, 0x4f, 0x71, 0xba, 0x43, 0x23, 0x05, 0xc9, 0x4d, 0x92, 0xfb, 0x61,
   0x8f, 0xad, 0xab, 0x7b, 0x05, 0xc9, 0x14, 0x55, 0x67, 0xb3, 0xce, 0x48, 0xdc, 0x2c, 0xb0,
   0xae, 0xda]

def codec : MessageCodec where
  sha256 bytes :=
    if bytes = fromAlice.idBytes then digest
    else if bytes = fromCarol.idBytes then otherDigest
    else []
  decodeEnvelope bytes :=
    if bytes = [0x0a, 0x08, 0x0a, 0x01, 0x63, 0x12, 0x03, 0x61, 0x09, 0x62] then
      some (some (.v1 fromAlice.idempotencyKey fromAlice.content))
    else if bytes = [0x0a, 0x08, 0x0a, 0x03, 0x62, 0x09, 0x63, 0x12, 0x01, 0x61] then
      some (some (.v1 fromBob.idempotencyKey fromBob.content))
    else if bytes = [0x0a, 0x06, 0x0a, 0x01, 0x64, 0x12, 0x01, 0x62] then
      some (some (.v1 fromCarol.idempotencyKey fromCarol.content))
    else none
  extractQueryableContentFields _ := ⟨.unknown, 0, 0, "", none⟩

def arrives (senderInboxId : String) (sequenceId : Int) (bytes : Bytes) : Arrival :=
  .received ⟨group, bytes, senderInboxId, [1], 100, sequenceId, 0, none, true⟩

def alice : Arrival := arrives "alice" 1 [0x0a, 0x08, 0x0a, 0x01, 0x63, 0x12, 0x03, 0x61, 0x09, 0x62]

def bob : Arrival := arrives "bob" 2 [0x0a, 0x08, 0x0a, 0x03, 0x62, 0x09, 0x63, 0x12, 0x01, 0x61]

def carol : Arrival := arrives "carol" 2 [0x0a, 0x06, 0x0a, 0x01, 0x64, 0x12, 0x01, 0x62]

end MessageSample

open MessageSample in
theorem messages_identified_sample : Arrival.Kept codec [alice, carol] := by
  have hsources : Arrival.sources codec [alice, carol] = [fromAlice, fromCarol] := by decide +kernel
  refine (Arrival.messages_identified ?_ ?_).2.mpr ?_
  · rw [hsources, Arrival.Injective]
    decide +kernel
  · rw [hsources]
    decide +kernel
  · rw [hsources]
    have hapart : ∀ m ∈ [fromAlice, fromCarol], ∀ m' ∈ [fromAlice, fromCarol],
        m = m' ∨ m.idBytes ≠ m'.idBytes := by decide +kernel
    exact fun m hm m' hm' => MessageSource.not_ambiguous (hapart m hm m' hm')

open MessageSample in
/-- The message of Bob is taken for that of Alice, and dropped. -/
theorem message_dropped :
    Arrival.sources codec [alice, bob] = [fromAlice, fromBob] ∧ fromAlice ≠ fromBob ∧
      calculateMessageId codec.sha256 group fromAlice.content fromAlice.idempotencyKey =
        calculateMessageId codec.sha256 group fromBob.content fromBob.idempotencyKey ∧
      ((Arrival.run codec [alice, bob]).rows.map StoredMessage.source) = [fromAlice] := by
  decide +kernel

end LibXmtp.Groups
