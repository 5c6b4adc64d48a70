import LibXmtp.Data.Loop
import LibXmtp.Data.Pages
import LibXmtp.Db.Group
import LibXmtp.Db.GroupMessage

namespace LibXmtp.Archive

open LibXmtp.Data LibXmtp.Db

inductive BackupElementSelection
  | unspecified
  | messages
  | consent
  | event
  deriving DecidableEq

structure ArchiveOptions where
  elements : List BackupElementSelection
  startNs : Option Int := none
  endNs : Option Int := none
  excludeDisappearingMessages : Bool := false

structure StoredMessageRow extends StoredGroupMessage where
  expireAtNs : Option Int := none
  deriving DecidableEq

def StoredMessageRow.key (m : StoredMessageRow) : Bytes := m.id

inductive BackupElement
  | consent (record : StoredConsentRecord)
  | group (save : StoredGroup)
  | groupMessage (message : StoredMessageRow)
  deriving DecidableEq

/-- What an archive is made from. A group is readable if its MLS state and its metadata can be
read. -/
structure ArchiveDb where
  groups : GroupTable
  messages : Table StoredMessageRow.key
  consents : ConsentTable
  readable : Bytes → Bool
  foreignKey : ∀ m ∈ messages.rows, ∃ g ∈ groups.rows, g.id = m.groupId

def inTimeRange (opts : ArchiveOptions) (ns : Int) : Bool :=
  opts.startNs.all (· < ns) && opts.endNs.all (ns ≤ ·)

def orderByBytes {ρ : Type} (key : ρ → List Nat) (rows : List ρ) : List ρ :=
  rows.insertionSort fun r s => key r ≤ key s

def batchSize : Nat := 100

namespace ArchiveDb

variable (db : ArchiveDb) (opts : ArchiveOptions)

def consentRecords : List StoredConsentRecord :=
  orderByBytes (fun r => (match r.entityType with | .conversationId => 1 | .inboxId => 2) ::
    r.entity.toUTF8.toList.map UInt8.toNat) db.consents.rows

def groupsById : List StoredGroup :=
  orderByBytes (fun g => g.id.map UInt8.toNat) (db.groups.rows.filter fun g =>
    !g.conversationType.isVirtual && inTimeRange opts g.createdAtNs)

/-- The messages that are left out are those that disappear, if the options say so, or those that
have expired. -/
def keeps (now : Int) (m : StoredMessageRow) : Bool :=
  if opts.excludeDisappearingMessages then m.expireAtNs.isNone else m.expireAtNs.all (now < ·)

def hasConversation (m : StoredMessageRow) : Bool :=
  db.groups.rows.any fun g => g.id = m.groupId && !g.conversationType.isVirtual

def messagesById : List StoredMessageRow :=
  orderByBytes (fun m => m.id.map UInt8.toNat) (db.messages.rows.filter fun m =>
    db.hasConversation m && m.kind = .application && inTimeRange opts m.sentAtNs)

def consentRecordsPaged (limit offset : Nat) : List StoredConsentRecord :=
  (db.consentRecords.drop offset).take limit

def findGroupsByIdPaged (limit offset : Nat) : List StoredGroup :=
  ((db.groupsById opts).drop offset).take limit

def groupMessagesPaged (now : Int) (limit offset : Nat) : List StoredMessageRow :=
  (((db.messagesById opts).filter (keeps opts now)).drop offset).take limit

def groupSave (record : StoredGroup) : Option BackupElement :=
  if record.conversationType.isVirtual then none
  else if !db.readable record.id then none
  else some (.group record)

end ArchiveDb

inductive BackupRecordProvider
  | consentSave
  | groupSave
  | groupMessageSave

def BackupRecordProvider.backupRecords (db : ArchiveDb) (opts : ArchiveOptions) (now : Int)
    (cursor : Nat) : BackupRecordProvider → List BackupElement
  | .consentSave => (db.consentRecordsPaged batchSize cursor).map .consent
  | .groupSave => (db.findGroupsByIdPaged opts batchSize cursor).filterMap db.groupSave
  | .groupMessageSave => (db.groupMessagesPaged opts now batchSize cursor).map .groupMessage

structure Clock where
  now : Nat → Int
  mono : ∀ i j, i ≤ j → now i ≤ now j

structure BackupRecordStreamer where
  provider : BackupRecordProvider
  clock : Clock
  cursor : Nat := 0

/-- The next batch, by its first element and its rest. An empty one is the end of the stream. -/
def BackupRecordStreamer.pollNext (db : ArchiveDb) (opts : ArchiveOptions) (s : BackupRecordStreamer) :
    Option (BackupElement × List BackupElement) × BackupRecordStreamer :=
  match s.provider.backupRecords db opts (s.clock.now s.cursor) s.cursor with
  | [] => (none, s)
  | element :: batch => (some (element, batch), { s with cursor := s.cursor + batchSize })

structure BatchExportStream where
  buffer : List BackupElement := []
  inputStreams : List BackupRecordStreamer

namespace BatchExportStream

variable (db : ArchiveDb) (opts : ArchiveOptions)

def streamsOf (clock : Clock) : BackupElementSelection → List BackupRecordStreamer
  | .consent => [{ provider := .consentSave, clock }]
  | .messages => [{ provider := .groupSave, clock }, { provider := .groupMessageSave, clock }]
  | .event => []
  | .unspecified => []

def new (clocks : Nat → Clock) : BatchExportStream where
  inputStreams := opts.elements.zipIdx.flatMap fun (e, i) => streamsOf (clocks i) e

def pollStreams : List BackupRecordStreamer → Option BackupElement × BatchExportStream
  | [] => (none, { inputStreams := [] })
  | last :: inputStreams =>
    match last.pollNext db opts with
    | (some (element, buffer), last) => (some element, { buffer, inputStreams := last :: inputStreams })
    | (none, _) => pollStreams inputStreams

def pollNext (s : BatchExportStream) : Option BackupElement × BatchExportStream :=
  match s.buffer with
  | element :: buffer => (some element, { s with buffer })
  | [] => pollStreams db opts s.inputStreams

def collect (s : BatchExportStream × List BackupElement) :
    Option (Next (BatchExportStream × List BackupElement) (List BackupElement)) :=
  match s.1.pollNext db opts with
  | (some element, next) => some (.again (next, s.2 ++ [element]))
  | (none, _) => some (.done s.2)

def Exports (clocks : Nat → Clock) (elements : List BackupElement) : Prop :=
  Loop.Returns (collect db opts) (new opts clocks, []) elements

end BatchExportStream

namespace BackupRecordStreamer

variable (db : ArchiveDb) (opts : ArchiveOptions) (s : BackupRecordStreamer)

def pages (k : Nat) : List BackupElement :=
  s.provider.backupRecords db opts (s.clock.now (batchSize * k)) (batchSize * k)

def Yields (elements : List BackupElement) : Prop :=
  ∃ k, s.cursor = batchSize * k ∧ Reads (s.pages db opts) k elements

end BackupRecordStreamer

section Collect

variable {db : ArchiveDb} {opts : ArchiveOptions} {streams : List BackupRecordStreamer}
  {outs : List (List BackupElement)} {acc out : List BackupElement}

theorem returns_buffer (buffer rest : List BackupElement)
    (h : ∀ acc, Loop.Returns (BatchExportStream.collect db opts) ({ inputStreams := streams }, acc)
      (acc ++ rest)) (acc : List BackupElement) :
    Loop.Returns (BatchExportStream.collect db opts) ({ buffer, inputStreams := streams }, acc)
      (acc ++ buffer ++ rest) := by
  induction buffer generalizing acc with
  | nil => simpa using h acc
  | cons element buffer ih =>
    refine .again (t := ({ buffer, inputStreams := streams }, acc ++ [element])) rfl ?_
    simpa using ih (acc ++ [element])

theorem collect_exhausted {s : BackupRecordStreamer} (h : s.pollNext db opts = (none, s)) :
    BatchExportStream.collect db opts ({ inputStreams := s :: streams }, acc) =
      BatchExportStream.collect db opts ({ inputStreams := streams }, acc) := by
  simp only [BatchExportStream.collect, BatchExportStream.pollNext, BatchExportStream.pollStreams, h]

theorem returns_stream {s : BackupRecordStreamer} {rest : List BackupElement}
    (hrest : ∀ acc, Loop.Returns (BatchExportStream.collect db opts) ({ inputStreams := streams }, acc)
      (acc ++ rest))
    {k : Nat} (hreads : Reads (s.pages db opts) k out) (acc : List BackupElement) :
    Loop.Returns (BatchExportStream.collect db opts)
      ({ inputStreams := { s with cursor := batchSize * k } :: streams }, acc) (acc ++ out ++ rest) := by
  induction hreads generalizing acc with
  | @last k hempty =>
    have hnone : BackupRecordStreamer.pollNext db opts { s with cursor := batchSize * k } =
        (none, { s with cursor := batchSize * k }) := by
      unfold BackupRecordStreamer.pollNext
      split
      · rfl
      · rename_i hbatch
        rw [BackupRecordStreamer.pages] at hempty
        rw [hempty] at hbatch
        cases hbatch
    rw [List.append_nil]
    cases hrest acc with
    | done hdone => exact .done ((collect_exhausted hnone).trans hdone)
    | again hagain hreturns => exact .again ((collect_exhausted hnone).trans hagain) hreturns
  | @next k out hpage _ ih =>
    obtain ⟨element, batch, hbatch⟩ := List.exists_cons_of_ne_nil hpage
    have hpoll : BackupRecordStreamer.pollNext db opts { s with cursor := batchSize * k } =
        (some (element, batch), { s with cursor := batchSize * (k + 1) }) := by
      unfold BackupRecordStreamer.pollNext
      rw [BackupRecordStreamer.pages] at hbatch
      simp only [hbatch]
      rfl
    refine .again (t := (⟨batch, { s with cursor := batchSize * (k + 1) } :: streams⟩,
      acc ++ [element])) ?_ ?_
    · simp only [BatchExportStream.collect, BatchExportStream.pollNext, BatchExportStream.pollStreams, hpoll]
    · have hbuffer := returns_buffer batch (out ++ rest)
        (fun acc => by simpa using ih acc) (acc ++ [element])
      rw [hbatch]
      simpa using hbuffer

theorem returns_streams (h : List.Forall₂ (BackupRecordStreamer.Yields db opts) streams outs)
    (acc : List BackupElement) :
    Loop.Returns (BatchExportStream.collect db opts) ({ inputStreams := streams }, acc)
      (acc ++ outs.flatten) := by
  induction h generalizing acc with
  | nil => simpa using Loop.Returns.done rfl
  | @cons s out streams outs hs _ ih =>
    obtain ⟨k, hcursor, hreads⟩ := hs
    have hstream := returns_stream ih hreads acc
    rw [← hcursor] at hstream
    simpa using hstream

end Collect

end LibXmtp.Archive
