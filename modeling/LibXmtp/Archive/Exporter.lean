import LibXmtp.Archive.Format
import Mathlib.Data.Prod.Lex

namespace LibXmtp.Archive

open LibXmtp.Data

inductive Poll (α : Type)
  | pending
  | ready (a : α)
  deriving DecidableEq

def Poll.toOption {α : Type} : Poll α → Option α
  | .pending => none
  | .ready a => some a

inductive Stage
  | nonce
  | metadata
  | elements
  deriving DecidableEq

variable {ε : Type}

/-- The stream is given by what it answers until it ends. The buffer is the vector that the encoder
writes to. -/
structure ArchiveExporter (f : ArchiveFormat ε) where
  stage : Stage
  metadata : Proto.BackupMetadataSave
  stream : List (Poll (Proto.BackupElement ε))
  position : Nat
  encoder : f.zstd.State
  buffer : Bytes
  encoderFinished : Bool
  key : Bytes
  nonce : Nonce
  nonceBuffer : Bytes

namespace ArchiveExporter

variable {f : ArchiveFormat ε}

def new (options : ArchiveOptions) (now : Int) (stream : List (Poll (Proto.BackupElement ε)))
    (nonce : Nonce) (key : Bytes) : ArchiveExporter f where
  stage := .nonce
  metadata := .fromOptions options now
  stream
  position := 0
  encoder := f.zstd.new
  buffer := []
  encoderFinished := false
  key
  nonce
  nonceBuffer := toLittleEndian 2 backupVersion ++ nonce.bytes

def write (s : ArchiveExporter f) (element : Proto.BackupElement ε) : ArchiveExporter f :=
  let written := f.zstd.write s.encoder (f.frame s.key s.nonce element)
  { s with
    nonce := s.nonce.increment
    buffer := s.buffer ++ written.1
    encoder := written.2 }

def close (s : ArchiveExporter f) : ArchiveExporter f :=
  if s.encoderFinished then s
  else
    let closed := f.zstd.close s.encoder
    { s with
      encoderFinished := true
      buffer := s.buffer ++ closed.1
      encoder := closed.2 }

def flush (s : ArchiveExporter f) : ArchiveExporter f :=
  if s.encoderFinished then s
  else
    let flushed := f.zstd.flush s.encoder
    { s with
      buffer := s.buffer ++ flushed.1
      encoder := flushed.2 }

def bufferSize : Nat := 8000

/-- Elements are written until the buffer is full or the stream is pending or at its end. -/
def fillElements : List (Poll (Proto.BackupElement ε)) → ArchiveExporter f →
    Poll Unit × ArchiveExporter f
  | [], s =>
    if s.buffer.length < bufferSize then (.ready (), { s with stream := [] }.close)
    else (.ready (), { s with stream := [] })
  | answer :: stream, s =>
    if s.buffer.length < bufferSize then
      match answer with
      | .pending => (.pending, { s with stream })
      | .ready element => fillElements stream (s.write element)
    else (.ready (), { s with stream := answer :: stream })

def fill (s : ArchiveExporter f) : Poll Unit × ArchiveExporter f :=
  if s.stage = .metadata then
    fillElements s.stream ({ s with stage := .elements }.write ⟨some (.metadata s.metadata)⟩)
  else fillElements s.stream s

def readNonce (len : Nat) (s : ArchiveExporter f) : Poll Bytes × ArchiveExporter f :=
  (.ready (s.nonceBuffer.take len),
    { s with
      nonceBuffer := s.nonceBuffer.drop len
      stage := if s.nonceBuffer.drop len = [] then .metadata else .nonce })

def readBuffer (len : Nat) (s : ArchiveExporter f) : Poll Bytes × ArchiveExporter f :=
  (.ready ((s.buffer.drop s.position).take len),
    { s with position := s.position + min (s.buffer.length - s.position) len })

def flushAndRead (len : Nat) : Poll Unit × ArchiveExporter f → Poll Bytes × ArchiveExporter f
  | (.pending, s) => (.pending, s)
  | (.ready _, s) => if s.flush.buffer = [] then (.ready [], s.flush) else s.flush.readBuffer len

def pollRead (len : Nat) (s : ArchiveExporter f) : Poll Bytes × ArchiveExporter f :=
  if s.stage = .nonce then s.readNonce len
  else if s.position < s.buffer.length then s.readBuffer len
  else flushAndRead len (fill { s with position := 0, buffer := [] })

end ArchiveExporter

namespace ArchiveExporter

variable {f : ArchiveFormat ε}

def remaining (s : ArchiveExporter f) : List (Proto.BackupElement ε) :=
  (if s.stage = .elements then [] else [⟨some (.metadata s.metadata)⟩]) ++
    s.stream.filterMap Poll.toOption

def unread (s : ArchiveExporter f) : Bytes := s.buffer.drop s.position

def work (s : ArchiveExporter f) : Nat :=
  s.nonceBuffer.length + (if s.stage = .elements then 0 else 1) + s.stream.length +
    (if s.encoderFinished then 0 else 1)

/-- The encoder was given the frames of the elements written so far and made `out` of them. -/
inductive Encoded (key : Bytes) (nonce : Nonce) (s : ArchiveExporter f) (out : Bytes)
    (written : List (Proto.BackupElement ε)) : Prop
  | unfinished : s.encoderFinished = false →
      f.zstd.Wrote s.encoder out (f.frames key nonce written) → Encoded key nonce s out written
  | finished : s.encoderFinished = true → s.stage = .elements → s.stream = [] →
      f.zstd.decode out = f.frames key nonce written → Encoded key nonce s out written

/-- The exporter of `elements`, after `read` was read of the compressed stream. -/
structure Sound (key : Bytes) (nonce : Nonce) (elements : List (Proto.BackupElement ε))
    (s : ArchiveExporter f) (read : Bytes) : Prop where
  key_eq : s.key = key
  position_le : s.position ≤ s.buffer.length
  encoded : ∃ written, elements = written ++ s.remaining ∧
    s.nonce = ArchiveFormat.nonceAfter nonce written.length ∧
    Encoded key nonce s (read ++ s.unread) written

section Sound

variable {key : Bytes} {nonce : Nonce} {elements : List (Proto.BackupElement ε)}
  {s : ArchiveExporter f} {read : Bytes}

theorem unread_append (h : s.position ≤ s.buffer.length) (bytes : Bytes) :
    (s.buffer ++ bytes).drop s.position = s.unread ++ bytes := by
  rw [List.drop_append_of_le_length h, unread]

theorem Sound.write {stream : List (Poll (Proto.BackupElement ε))}
    {element : Proto.BackupElement ε} (h : Sound key nonce elements s read)
    (hopen : s.encoderFinished = false) {stage : Stage}
    (hremaining : s.remaining = element :: remaining { s with stage, stream }) :
    Sound key nonce elements ({ s with stage, stream }.write element) read := by
  obtain ⟨written, helements, hnonce, hencoded⟩ := h.encoded
  have hwrote : f.zstd.Wrote s.encoder (read ++ s.unread) (f.frames key nonce written) := by
    cases hencoded with
    | unfinished _ hwrote => exact hwrote
    | finished hfinished => simp [hopen] at hfinished
  refine ⟨h.key_eq, ?_, written ++ [element], ?_, ?_, .unfinished hopen ?_⟩
  · simp only [ArchiveExporter.write, List.length_append]
    exact h.position_le.trans (Nat.le_add_right _ _)
  · rw [helements, hremaining, List.append_assoc]
    rfl
  · rw [List.length_append, List.length_singleton, ArchiveFormat.nonceAfter,
      Function.iterate_succ_apply', ← ArchiveFormat.nonceAfter, ← hnonce]
    rfl
  · have hframe : f.frames key nonce (written ++ [element]) =
        f.frames key nonce written ++ f.frame s.key s.nonce element := by
      rw [ArchiveFormat.frames_append, ← hnonce, h.key_eq, ArchiveFormat.frames,
        ArchiveFormat.frames, List.append_nil]
    have hnext := hwrote.write (f.frame s.key s.nonce element)
    rw [List.append_assoc, ← unread_append h.position_le, ← hframe] at hnext
    exact hnext

theorem Sound.close (h : Sound key nonce elements s read) (hstage : s.stage = .elements)
    (hstream : s.stream = []) : Sound key nonce elements s.close read := by
  obtain ⟨written, helements, hnonce, hencoded⟩ := h.encoded
  cases hencoded with
  | finished hfinished =>
    rw [ArchiveExporter.close, if_pos hfinished]
    exact h
  | unfinished hopen hwrote =>
    have hdecode := f.zstd.decode_close _ _ _ hwrote
    rw [List.append_assoc, ← unread_append h.position_le] at hdecode
    rw [ArchiveExporter.close, if_neg (by simp [hopen])]
    refine ⟨h.key_eq, ?_, written, helements, hnonce, .finished rfl hstage hstream hdecode⟩
    simp only [List.length_append]
    exact h.position_le.trans (Nat.le_add_right _ _)

theorem Sound.flush (h : Sound key nonce elements s read) :
    Sound key nonce elements s.flush read := by
  obtain ⟨written, helements, hnonce, hencoded⟩ := h.encoded
  cases hencoded with
  | finished hfinished =>
    rw [ArchiveExporter.flush, if_pos hfinished]
    exact h
  | unfinished hopen hwrote =>
    have hnext := hwrote.flush
    rw [List.append_assoc, ← unread_append h.position_le] at hnext
    rw [ArchiveExporter.flush, if_neg (by simp [hopen])]
    refine ⟨h.key_eq, ?_, written, helements, hnonce, .unfinished hopen hnext⟩
    simp only [List.length_append]
    exact h.position_le.trans (Nat.le_add_right _ _)

theorem Sound.readBuffer (h : Sound key nonce elements s read) (len : Nat) :
    Sound key nonce elements (s.readBuffer len).2 (read ++ s.unread.take len) := by
  obtain ⟨written, helements, hnonce, hencoded⟩ := h.encoded
  have hunread : s.unread.take len ++ unread (s.readBuffer len).2 = s.unread := by
    have hrest : unread (s.readBuffer len).2 = s.unread.drop len := by
      rw [unread, unread, List.drop_drop]
      simp only [ArchiveExporter.readBuffer]
      rcases Nat.le_total len (s.buffer.length - s.position) with hle | hle
      · rw [Nat.min_eq_right hle]
      · have hlength := h.position_le
        rw [Nat.min_eq_left hle, List.drop_eq_nil_of_le (by omega),
          List.drop_eq_nil_of_le (by omega)]
    rw [hrest, List.take_append_drop]
  refine ⟨h.key_eq, ?_, written, helements, hnonce, ?_⟩
  · have hlength := h.position_le
    simp only [ArchiveExporter.readBuffer]
    omega
  · rw [List.append_assoc, hunread]
    cases hencoded with
    | unfinished hopen hwrote => exact .unfinished hopen hwrote
    | finished hfinished hstage hstream hdecode => exact .finished hfinished hstage hstream hdecode

structure Filled (key : Bytes) (nonce : Nonce) (elements : List (Proto.BackupElement ε))
    (read : Bytes) (s : ArchiveExporter f) (filled : Poll Unit × ArchiveExporter f) : Prop where
  sound : Sound key nonce elements filled.2 read
  stage_eq : filled.2.stage = .elements
  position_eq : filled.2.position = s.position
  nonceBuffer_eq : filled.2.nonceBuffer = s.nonceBuffer
  full : filled.1 = .ready () →
    filled.2.encoderFinished = true ∨ bufferSize ≤ filled.2.buffer.length
  work_le : filled.2.work ≤ s.work
  work_lt : s.buffer.length < bufferSize → filled.2.work < s.work

theorem filled_fillElements {stream : List (Poll (Proto.BackupElement ε))}
    (h : Sound key nonce elements { s with stream } read) (hopen : s.encoderFinished = false)
    (hstage : s.stage = .elements) :
    Filled key nonce elements read { s with stream } (fillElements stream s) := by
  induction stream generalizing s with
  | nil =>
    rw [fillElements]
    split
    · have hclosed := h.close hstage rfl
      have hwork : ({ s with stream := [] }.close).work < work { s with stream := [] } := by
        simp [work, ArchiveExporter.close, hopen]
      refine ⟨hclosed, ?_, ?_, ?_, fun _ => .inl ?_, hwork.le, fun _ => hwork⟩
      all_goals simp [ArchiveExporter.close, hopen, hstage]
    · rename_i hfull
      exact ⟨h, hstage, rfl, rfl, fun _ => .inr (Nat.le_of_not_lt hfull), le_rfl,
        fun hlt => absurd hlt hfull⟩
  | cons answer stream ih =>
    have hwork : work { s with stream } < work { s with stream := answer :: stream } := by
      simp only [work, List.length_cons]
      omega
    by_cases hroom : s.buffer.length < bufferSize
    · cases answer with
      | pending =>
        rw [fillElements, if_pos hroom]
        obtain ⟨written, helements, hnonce, hencoded⟩ := h.encoded
        have hsound : Sound key nonce elements { s with stream } read := by
          refine ⟨h.key_eq, h.position_le, written, helements, hnonce, ?_⟩
          cases hencoded with
          | unfinished _ hwrote => exact .unfinished hopen hwrote
          | finished hfinished => simp [hopen] at hfinished
        exact ⟨hsound, hstage, rfl, rfl, fun hready => (by cases hready), hwork.le, fun _ => hwork⟩
      | ready element =>
        rw [fillElements, if_pos hroom]
        have hremaining : remaining { s with stream := .ready element :: stream } =
            element :: remaining { s with stream } := by
          simp [remaining, hstage, Poll.toOption]
        have hsound : Sound key nonce elements ({ s with stream }.write element) read :=
          h.write hopen hremaining
        have hrest := ih (s := s.write element) hsound hopen hstage
        have hlt := lt_of_le_of_lt hrest.work_le hwork
        exact ⟨hrest.sound, hrest.stage_eq, hrest.position_eq, hrest.nonceBuffer_eq, hrest.full,
          hlt.le, fun _ => hlt⟩
    · have hfilled : fillElements (answer :: stream) s =
          (.ready (), { s with stream := answer :: stream }) := by
        cases answer <;> rw [fillElements, if_neg hroom]
      rw [hfilled]
      exact ⟨h, hstage, rfl, rfl, fun _ => .inr (Nat.le_of_not_lt hroom), le_rfl,
        fun hlt => absurd hlt hroom⟩

theorem filled_fill (h : Sound key nonce elements s read) (hopen : s.encoderFinished = false)
    (hstage : s.stage ≠ .nonce) (hempty : s.buffer = []) :
    Filled key nonce elements read s s.fill ∧ s.fill.2.work < s.work := by
  have hroom : s.buffer.length < bufferSize := by
    rw [hempty]
    decide
  rw [ArchiveExporter.fill]
  split
  · rename_i hmetadata
    have hremaining : s.remaining = ⟨some (.metadata s.metadata)⟩ ::
        remaining { s with stage := .elements, stream := s.stream } := by
      simp [remaining, hmetadata]
    have hsound := h.write hopen hremaining
    have hfilled := filled_fillElements
      (s := { s with stage := .elements }.write ⟨some (.metadata s.metadata)⟩) hsound hopen rfl
    have hwork : work { s with stage := .elements } < s.work := by
      simp [work, hmetadata]
    have hlt := lt_of_le_of_lt hfilled.work_le hwork
    exact ⟨⟨hfilled.sound, hfilled.stage_eq, hfilled.position_eq, hfilled.nonceBuffer_eq,
      hfilled.full, hlt.le, fun _ => hlt⟩, hlt⟩
  · rename_i hmetadata
    have helements : s.stage = .elements := by
      cases hs : s.stage <;> simp_all
    have hfilled : Filled key nonce elements read s (fillElements s.stream s) :=
      filled_fillElements h hopen helements
    exact ⟨hfilled, hfilled.work_lt hroom⟩

structure Read (key : Bytes) (nonce : Nonce) (elements : List (Proto.BackupElement ε))
    (s : ArchiveExporter f) (archive : Bytes) : Prop where
  nonceBuffer_eq_nil : s.nonceBuffer = [] ↔ s.stage ≠ .nonce
  sound : ∃ read, archive ++ s.nonceBuffer = header nonce ++ read ∧
    Sound key nonce elements s read ∧ (s.stage = .nonce → read = [] ∧ s.encoderFinished = false)

/-- What the exporter has yet to do, and then what it has yet to deliver of its buffer. -/
def size (s : ArchiveExporter f) : ℕ ×ₗ ℕ := toLex (s.work, s.buffer.length - s.position)

structure Polled (key : Bytes) (nonce : Nonce) (elements : List (Proto.BackupElement ε)) (len : Nat)
    (s : ArchiveExporter f) (archive : Bytes) (polled : Poll Bytes × ArchiveExporter f) : Prop where
  read : Read key nonce elements polled.2 (archive ++ polled.1.toOption.getD [])
  progress : polled.2.size < s.size ∨ polled.2.size = s.size ∧ polled.1 = .ready []
  finished : polled.1 = .ready [] → 0 < len →
    polled.2.encoderFinished = true ∧ polled.2.nonceBuffer = [] ∧ polled.2.unread = []

theorem size_lt_of_work_lt {t : ArchiveExporter f} (h : t.work < s.work) : t.size < s.size :=
  Prod.Lex.toLex_lt_toLex.mpr (.inl h)

variable {archive : Bytes} {len : Nat}

theorem polled_readNonce (h : Read key nonce elements s archive) (hstage : s.stage = .nonce) :
    Polled key nonce elements len s archive (s.readNonce len) := by
  obtain ⟨hnil, read, harchive, hsound, hfirst⟩ := h
  have hne : s.nonceBuffer ≠ [] := fun hempty => hnil.mp hempty hstage
  obtain ⟨rfl, hopen⟩ := hfirst hstage
  have hremaining : remaining (s.readNonce len).2 = s.remaining := by
    simp only [remaining, readNonce, hstage]
    split <;> rfl
  refine ⟨⟨?_, [], ?_, ?_, fun _ => ⟨rfl, hopen⟩⟩, ?_, ?_⟩
  · simp only [readNonce]
    split <;> simp_all
  · simp only [readNonce, Poll.toOption, Option.getD_some]
    rw [List.append_assoc, List.take_append_drop, harchive]
  · obtain ⟨written, helements, hnonce, hencoded⟩ := hsound.encoded
    refine ⟨hsound.key_eq, hsound.position_le, written, ?_, hnonce, ?_⟩
    · rw [hremaining, helements]
    · cases hencoded with
      | unfinished _ hwrote => exact .unfinished hopen hwrote
      | finished hfinished => simp [hopen] at hfinished
  · rcases Nat.eq_zero_or_pos len with rfl | hpos
    · right
      simp [readNonce, size, work, hne, hstage]
    · left
      apply size_lt_of_work_lt
      have hlength := List.length_pos_iff.mpr hne
      have hwork : ∀ stage, stage ≠ Stage.elements →
          work { s with nonceBuffer := s.nonceBuffer.drop len, stage } < s.work := by
        intro stage hstage'
        simp only [work, List.length_drop, if_neg hstage', hstage]
        simp
        omega
      exact hwork _ (by split <;> simp)
  · intro hread hpos
    have htake : s.nonceBuffer.take len = [] := by
      simpa [readNonce] using hread
    rw [List.take_eq_nil_iff] at htake
    rcases htake with rfl | hempty
    · exact absurd hpos (lt_irrefl 0)
    · exact absurd hempty hne

theorem polled_readBuffer (h : Read key nonce elements s archive) (hstage : s.stage ≠ .nonce)
    (hunread : s.position < s.buffer.length) :
    Polled key nonce elements len s archive (s.readBuffer len) := by
  obtain ⟨hnil, read, harchive, hsound, hfirst⟩ := h
  have hempty := hnil.mpr hstage
  refine ⟨⟨hnil, read ++ s.unread.take len, ?_, hsound.readBuffer len, ?_⟩, ?_, ?_⟩
  · rw [hempty, List.append_nil] at harchive
    simp only [readBuffer, Poll.toOption, Option.getD_some, hempty, List.append_nil, harchive,
      List.append_assoc, unread]
  · intro hstage'
    exact absurd hstage' hstage
  · rcases Nat.eq_zero_or_pos len with rfl | hpos
    · right
      simp [readBuffer, size, work]
    · left
      refine Prod.Lex.toLex_lt_toLex.mpr (.inr ⟨rfl, ?_⟩)
      simp only [readBuffer]
      omega
  · intro hread hpos
    have htake : (s.buffer.drop s.position).take len = [] := by
      simpa [readBuffer] using hread
    have hlength := congrArg List.length htake
    simp only [List.length_take, List.length_drop, List.length_nil] at hlength
    omega

theorem work_flush (s : ArchiveExporter f) : s.flush.work = s.work := by
  rw [flush]
  split <;> rfl

theorem polled_finished (h : Read key nonce elements s archive) (hunread : s.unread = [])
    (hfinished : s.encoderFinished = true) :
    Polled key nonce elements len s archive (.ready [], { s with position := 0, buffer := [] }) := by
  obtain ⟨hnil, read, harchive, hsound, hfirst⟩ := h
  have hstage : s.stage ≠ .nonce := by
    intro hstage
    rw [(hfirst hstage).2] at hfinished
    cases hfinished
  have hempty := hnil.mpr hstage
  have hlength := List.drop_eq_nil_iff.mp hunread
  refine ⟨⟨hnil, read, by simpa [Poll.toOption] using harchive, ?_, hfirst⟩, .inr ⟨?_, rfl⟩, ?_⟩
  · obtain ⟨written, helements, hnonce, hencoded⟩ := hsound.encoded
    refine ⟨hsound.key_eq, le_rfl, written, helements, hnonce, ?_⟩
    rw [hunread] at hencoded
    cases hencoded with
    | unfinished hopen => simp [hopen] at hfinished
    | finished _ hstage hstream hdecode => exact .finished hfinished hstage hstream hdecode
  · have hzero : s.buffer.length - s.position = 0 := by omega
    simp [size, work, hzero]
  · intro _ _
    exact ⟨hfinished, hempty, rfl⟩

theorem polled_fill (h : Read key nonce elements s archive) (hstage : s.stage ≠ .nonce)
    (hunread : s.unread = []) (hopen : s.encoderFinished = false) :
    Polled key nonce elements len s archive
      (flushAndRead len (fill { s with position := 0, buffer := [] })) := by
  obtain ⟨hnil, read, harchive, hsound, hfirst⟩ := h
  have hempty := hnil.mpr hstage
  have hreset : Sound key nonce elements { s with position := 0, buffer := [] } read := by
    obtain ⟨written, helements, hnonce, hencoded⟩ := hsound.encoded
    refine ⟨hsound.key_eq, le_rfl, written, helements, hnonce, ?_⟩
    rw [hunread] at hencoded
    cases hencoded with
    | unfinished _ hwrote => exact .unfinished hopen hwrote
    | finished hfinished => simp [hopen] at hfinished
  have hwork : work { s with position := 0, buffer := [] } = s.work := rfl
  obtain ⟨hfilled, hlt⟩ := filled_fill hreset hopen hstage rfl
  rw [hwork] at hlt
  have hread : ∀ t : ArchiveExporter f, Sound key nonce elements t read → t.stage = .elements →
      t.nonceBuffer = [] → Read key nonce elements t archive := by
    intro t ht hstage' hempty'
    refine ⟨by simp [hempty', hstage'], read, ?_, ht, by simp [hstage']⟩
    rw [hempty', ← hempty, harchive]
  have hnonceBuffer : (fill { s with position := 0, buffer := [] }).2.nonceBuffer = [] :=
    hfilled.nonceBuffer_eq.trans hempty
  have hfillread := hread _ hfilled.sound hfilled.stage_eq hnonceBuffer
  generalize fill { s with position := 0, buffer := [] } = filled at *
  obtain ⟨answer, t⟩ := filled
  cases answer with
  | pending =>
    rw [flushAndRead]
    refine ⟨by simpa [Poll.toOption] using hfillread, .inl (size_lt_of_work_lt hlt), ?_⟩
    intro hready
    cases hready
  | ready =>
    have hflush : Read key nonce elements t.flush archive := by
      apply hread _ hfilled.sound.flush
      · rw [flush]
        split <;> exact hfilled.stage_eq
      · rw [flush]
        split <;> exact hnonceBuffer
    have hworkflush : t.flush.work < s.work := by
      rw [work_flush]
      exact hlt
    rw [flushAndRead]
    split
    · rename_i hbuffer
      have hfinished : t.flush = t ∧ t.encoderFinished = true := by
        rcases hfilled.full rfl with hfinished | hfull
        · exact ⟨by rw [flush, if_pos hfinished], hfinished⟩
        · have hgrows : t.buffer.length ≤ t.flush.buffer.length := by
            rw [flush]
            split
            · exact le_rfl
            · simp
          rw [hbuffer] at hgrows
          exact absurd (hfull.trans hgrows) (by decide)
      refine ⟨by simpa [Poll.toOption] using hflush, .inl (size_lt_of_work_lt hworkflush), ?_⟩
      intro _ _
      rw [hfinished.1] at hbuffer
      rw [hfinished.1]
      exact ⟨hfinished.2, hnonceBuffer, by rw [unread, hbuffer, List.drop_nil]⟩
    · rename_i hbuffer
      have hposition : t.flush.position = 0 := by
        rw [flush]
        split <;> exact hfilled.position_eq
      have hpos := List.length_pos_iff.mpr hbuffer
      have hstage' : t.flush.stage ≠ .nonce := hflush.nonceBuffer_eq_nil.mp (by
        rw [flush]
        split <;> exact hnonceBuffer)
      have hpolled : Polled key nonce elements len t.flush archive (t.flush.readBuffer len) :=
        polled_readBuffer hflush hstage' (by omega)
      refine ⟨hpolled.read, .inl (size_lt_of_work_lt hworkflush), hpolled.finished⟩

theorem polled_pollRead (h : Read key nonce elements s archive) (len : Nat) :
    Polled key nonce elements len s archive (s.pollRead len) := by
  rw [pollRead]
  split
  · rename_i hstage
    exact polled_readNonce h hstage
  · rename_i hstage
    split
    · rename_i hunread
      exact polled_readBuffer h hstage hunread
    · rename_i hread
      have hunread : s.unread = [] := List.drop_eq_nil_of_le (Nat.le_of_not_lt hread)
      by_cases hfinished : s.encoderFinished = true
      · obtain ⟨_, read, _, hsound, _⟩ := id h
        obtain ⟨written, _, _, hencoded⟩ := hsound.encoded
        cases hencoded with
        | unfinished hopen => simp [hopen] at hfinished
        | finished _ hstage' hstream _ =>
          have hfill : fill { s with position := 0, buffer := [] } =
              (.ready (), { s with position := 0, buffer := [] }) := by
            simp [fill, hstage', hstream, fillElements, close, hfinished, bufferSize]
          rw [hfill, flushAndRead, flush, if_pos hfinished]
          exact polled_finished h hunread hfinished
      · exact polled_fill h hstage hunread (by simpa using hfinished)

end Sound

end ArchiveExporter

structure Export (f : ArchiveFormat ε) where
  exporter : ArchiveExporter f
  reads : Nat := 0
  archive : Bytes := []

def Export.step {f : ArchiveFormat ε} (sizes : Nat → Nat) (s : Export f) :
    Option (Next (Export f) Bytes) :=
  match s.exporter.pollRead (sizes s.reads) with
  | (.pending, exporter) => some (.again { s with exporter, reads := s.reads + 1 })
  | (.ready piece, exporter) =>
    if piece = [] ∧ 0 < sizes s.reads then some (.done s.archive)
    else some (.again ⟨exporter, s.reads + 1, s.archive ++ piece⟩)

/-- The exporter yields the archive when it is read with buffers of these sizes. -/
def Exports (f : ArchiveFormat ε) (options : ArchiveOptions) (now : Int)
    (stream : List (Poll (Proto.BackupElement ε))) (nonce : Nonce) (key : Bytes) (sizes : Nat → Nat)
    (archive : Bytes) : Prop :=
  Loop.Returns (Export.step sizes) { exporter := (.new options now stream nonce key : ArchiveExporter f) }
    archive

section Runs

variable {f : ArchiveFormat ε} {key : Bytes} {nonce : Nonce}
  {elements : List (Proto.BackupElement ε)} {sizes : Nat → Nat}

theorem Export.step_read {s : Export f} (h : s.exporter.Read key nonce elements s.archive) :
    (∃ archive, s.step sizes = some (.done archive) ∧ ∃ out, archive = header nonce ++ out ∧
      f.zstd.decode out = f.frames key nonce elements) ∨
    ∃ t, s.step sizes = some (.again t) ∧ t.exporter.Read key nonce elements t.archive ∧
      (t.exporter.size < s.exporter.size ∨ t.exporter.size = s.exporter.size ∧
        ¬0 < sizes s.reads ∧ t.reads = s.reads + 1) := by
  obtain ⟨hread, hprogress, hfinished⟩ := ArchiveExporter.polled_pollRead h (sizes s.reads)
  rw [Export.step]
  generalize s.exporter.pollRead (sizes s.reads) = polled at *
  obtain ⟨answer, exporter⟩ := polled
  dsimp only at hread hprogress hfinished
  cases answer with
  | pending =>
    rw [Poll.toOption, Option.getD_none, List.append_nil] at hread
    refine .inr ⟨_, rfl, hread, hprogress.imp_right fun hsame => ?_⟩
    cases hsame.2
  | ready piece =>
    rw [Poll.toOption, Option.getD_some] at hread
    dsimp only
    split
    · rename_i hend
      obtain ⟨rfl, hpos⟩ := hend
      obtain ⟨hclosed, hempty, hunread⟩ := hfinished rfl hpos
      obtain ⟨_, read, harchive, hsound, _⟩ := hread
      obtain ⟨written, helements, _, hencoded⟩ := hsound.encoded
      cases hencoded with
      | unfinished hopen => simp [hopen] at hclosed
      | finished _ hstage hstream hdecode =>
        have hall : elements = written := by
          simpa [ArchiveExporter.remaining, hstage, hstream] using helements
        refine .inl ⟨_, rfl, read, by simpa [hempty] using harchive, ?_⟩
        rw [hall, ← hdecode, hunread, List.append_nil]
    · rename_i hgoes
      refine .inr ⟨_, rfl, hread, hprogress.imp_right fun hsame => ⟨hsame.1, ?_, rfl⟩⟩
      intro hpos
      have hnil : piece = [] := by
        simpa using hsame.2
      exact hgoes ⟨hnil, hpos⟩

/-- An exporter that is read again and again with buffers that have room yields an archive, and the
archive holds its metadata and its elements. -/
theorem exists_exports (f : ArchiveFormat ε) (options : ArchiveOptions) (now : Int)
    (stream : List (Poll (Proto.BackupElement ε))) (nonce : Nonce) (key : Bytes)
    (hsizes : Loop.Fair fun i => 0 < sizes i) :
    ∃ archive, Exports f options now stream nonce key sizes archive ∧
      ∃ out, archive = header nonce ++ out ∧ f.zstd.decode out =
        f.frames key nonce (⟨some (.metadata (.fromOptions options now))⟩ ::
          stream.filterMap Poll.toOption) := by
  refine Loop.exists_returns_of_fair hsizes
    (P := fun s => s.exporter.Read key nonce (⟨some (.metadata (.fromOptions options now))⟩ ::
      stream.filterMap Poll.toOption) s.archive)
    (fun s => s.exporter.size) Export.reads (fun s hs => Export.step_read hs) ?_
  refine ⟨?_, [], ?_, ⟨rfl, le_rfl, [], rfl, rfl, .unfinished rfl .new⟩, fun _ => ⟨rfl, rfl⟩⟩
  · constructor
    · intro hempty
      have hlength := congrArg List.length hempty
      simp [ArchiveExporter.new] at hlength
    · intro hstage
      exact absurd rfl hstage
  · simp [header, ArchiveExporter.new]

end Runs

end LibXmtp.Archive
