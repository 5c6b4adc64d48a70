import LibXmtp.Archive.Importer
import Mathlib.Logic.Equiv.List

namespace LibXmtp.Archive

open LibXmtp.Data

variable {ε : Type}

section Runs

variable {f : ArchiveFormat ε} {key : Bytes} {options : ArchiveOptions} {now : Int}
  {elements : List (Proto.BackupElement ε)} {answers : Nat → Poll Nat}

def exportedMetadata (options : ArchiveOptions) (now : Int) : BackupMetadata where
  backupVersion
  elements := options.elements
  exportedAtNs := now
  startNs := options.startNs
  endNs := options.endNs

def asExported (options : ArchiveOptions) (now : Int) (elements : List (Proto.BackupElement ε)) :
    ImportResult ε :=
  .ok (exportedMetadata options now, elements.map .ok)

theorem fromMetadataSave_fromOptions (options : ArchiveOptions) (now : Int) :
    BackupMetadata.fromMetadataSave (.fromOptions options now) backupVersion =
      exportedMetadata options now := by
  rw [exportedMetadata, ← BackupMetadata.elements_fromMetadataSave_fromOptions options now
    backupVersion]
  rfl

/-- The archive is loaded or to be loaded, and what is left of it are the frames of the elements that
are yet to come. -/
structure InStep (f : ArchiveFormat ε) (key : Bytes) (options : ArchiveOptions) (now : Int)
    (elements : List (Proto.BackupElement ε)) (s : Import ε) : Prop where
  key_eq : s.importer.key = key
  version_eq : s.version = backupVersion
  framed : ∃ rest, (∀ element ∈ rest, f.Fits element) ∧
    Framed f key s.importer.nonce s.elementLen (s.importer.decoded ++ s.importer.undelivered) rest ∧
    (s.loaded = false ∧ s.items = [] ∧ rest = ⟨some (.metadata (.fromOptions options now))⟩ :: elements ∨
      s.loaded = true ∧ s.importer.metadata = exportedMetadata options now ∧
        s.items ++ rest.map .ok = elements.map .ok)

def Import.size (s : Import ε) : Nat :=
  s.importer.decoded.length + 2 * s.importer.undelivered.length

theorem InStep.step {s : Import ε} (h : InStep f key options now elements s)
    (hpends : answers s.polls = .pending → s.elementLen = 0) :
    (∃ result, s.step f answers = some (.done result) ∧
      result = asExported options now elements) ∨
    ∃ t, s.step f answers = some (.again t) ∧ InStep f key options now elements t ∧
      (t.size < s.size ∨ t.size = s.size ∧ ¬answers s.polls ≠ .pending ∧ t.polls = s.polls + 1) := by
  obtain ⟨hkey, hversion, rest, hfits, hframed, hrest⟩ := h
  rw [Import.step]
  cases hanswer : answers s.polls with
  | pending =>
    rw [hpends hanswer] at hframed
    exact .inr ⟨_, rfl, ⟨hkey, hversion, rest, hfits, hframed, hrest⟩, .inr ⟨rfl, by simp, rfl⟩⟩
  | ready n =>
    dsimp only
    have hsize : 0 < min (n + 1) Import.readSize := Nat.lt_min.mpr ⟨Nat.succ_pos n, by decide⟩
    generalize min (n + 1) Import.readSize = size at *
    have hend : s.importer.undelivered.take size = [] → s.importer.undelivered.drop size = [] := by
      intro hempty
      rcases List.take_eq_nil_iff.mp hempty with hzero | hempty
      · omega
      · rw [hempty, List.drop_nil]
    have hparts := congrArg List.length (List.take_append_drop size s.importer.undelivered)
    rw [List.length_append] at hparts
    rw [← List.take_append_drop size s.importer.undelivered, ← List.append_assoc] at hframed
    rcases Framed.round { s.importer with undelivered := s.importer.undelivered.drop size }
      hkey hframed hfits hend with
      ⟨element, rest', decoded, rfl, hround, hlt, hframed'⟩ | ⟨rfl, decoded, hround⟩ |
      ⟨elementLen', decoded, hpiece, hround, hle, hframed'⟩
    · rw [hround]
      rw [List.length_append] at hlt
      have hfits' := fun e he => hfits e (List.mem_cons_of_mem _ he)
      have hdecreases : ∀ t : Import ε, t.importer.decoded = decoded →
          t.importer.undelivered = s.importer.undelivered.drop size → t.size < s.size := by
        intro t hdecoded hundelivered
        rw [Import.size, Import.size, hdecoded, hundelivered]
        dsimp only at hlt
        omega
      right
      rcases hrest with ⟨hloaded, hitems, hmetadata⟩ | ⟨hloaded, hmetadata, hitems⟩
      · obtain ⟨rfl, rfl⟩ := List.cons.inj hmetadata
        simp only [Import.received, hloaded]
        refine ⟨_, rfl, ⟨hkey, hversion, rest', hfits', hframed', .inr ⟨rfl, ?_, ?_⟩⟩,
          .inl (hdecreases _ rfl rfl)⟩
        · dsimp only
          rw [hversion, fromMetadataSave_fromOptions]
        · simp [hitems]
      · simp only [Import.received, hloaded]
        refine ⟨_, rfl, ⟨hkey, hversion, rest', hfits', hframed', .inr ⟨rfl, hmetadata, ?_⟩⟩,
          .inl (hdecreases _ rfl rfl)⟩
        rw [← hitems]
        simp
    · left
      rw [hround]
      rcases hrest with ⟨-, -, hmetadata⟩ | ⟨hloaded, hmetadata, hitems⟩
      · cases hmetadata
      · simp only [Import.ended, hloaded]
        refine ⟨_, rfl, ?_⟩
        rw [asExported, hmetadata, ← hitems, List.map_nil, List.append_nil]
    · right
      rw [hround]
      refine ⟨_, rfl, ⟨hkey, hversion, rest, hfits, hframed', hrest⟩, .inl ?_⟩
      have hpos := List.length_pos_iff.mpr hpiece
      rw [List.length_append] at hle
      simp only [Import.size]
      dsimp only at hle
      omega

end Runs

/-- The archive of any elements, read with buffers of any sizes, is imported as it was exported if the
reader, however it delivers the archive, is pending only while no length waits for its element, and if
every element has a length that is a `u32`. -/
theorem archive_round_trip (f : ArchiveFormat ε) (options : ArchiveOptions) (now : Int)
    (stream : List (Poll (Proto.BackupElement ε))) (nonce : Nonce) (key : Bytes) (sizes : Nat → Nat)
    (hsizes : Loop.Fair fun i => 0 < sizes i)
    (hfits : ∀ element ∈ ⟨some (.metadata (.fromOptions options now))⟩ ::
      stream.filterMap Poll.toOption, f.Fits element) :
    ∃ archive, Exports f options now stream nonce key sizes archive ∧
      ∀ answers, Loop.Fair (fun i => answers i ≠ .pending) →
        PendsBetweenElements f key archive answers →
        Imports f key archive answers (asExported options now (stream.filterMap Poll.toOption)) := by
  obtain ⟨archive, hexports, out, rfl, hdecode⟩ := exists_exports f options now stream nonce key hsizes
  refine ⟨_, hexports, fun answers hanswers hpends => ?_⟩
  have hversion : (toLittleEndian 2 backupVersion).length = 2 := by simp
  have hload : ∃ start : Import ε, Import.load f key (header nonce ++ out) = .ok start ∧
      InStep f key options now (stream.filterMap Poll.toOption) start := by
    have hlength : 2 + nonceSize ≤ (header nonce ++ out).length := by
      simp [header, nonce.length_bytes]
    have hdrop : (header nonce ++ out).drop (2 + nonceSize) = out :=
      List.drop_left' (by simp [header, nonce.length_bytes])
    have htake : (header nonce ++ out).take 2 = toLittleEndian 2 backupVersion := by
      rw [header, List.append_assoc]
      exact List.take_left' hversion
    have hnonce : ((header nonce ++ out).drop 2).take nonceSize = nonce.bytes := by
      rw [header, List.append_assoc, List.drop_left' hversion]
      exact List.take_left' nonce.length_bytes
    refine ⟨_, dif_pos hlength, rfl, ?_, _, hfits, ?_, .inl ⟨rfl, rfl, rfl⟩⟩
    · dsimp only
      rw [htake]
      rfl
    · simp only [hdrop, hnonce, hdecode]
      exact .length
  obtain ⟨start, hstart, hinstep⟩ := hload
  rw [Imports, hstart]
  obtain ⟨result, hreturns, rfl⟩ := Loop.exists_returns_of_fair hanswers
    (P := fun s => Loop.Reaches (Import.step f answers) start s ∧
      InStep f key options now (stream.filterMap Poll.toOption) s)
    (Q := fun result => result = asExported options now (stream.filterMap Poll.toOption))
    Import.size Import.polls (fun s hs => by
      rcases hs.2.step (hpends start hstart s hs.1) with hdone | ⟨t, hnext, ht, hprogress⟩
      · exact .inl hdone
      · exact .inr ⟨t, hnext, ⟨hs.1.tail hnext, ht⟩, hprogress⟩) ⟨.refl, hinstep⟩
  exact hreturns

namespace RoundTripSample

def metadataFields (save : Proto.BackupMetadataSave) :
    List Int × Int × Option Int × Option Int :=
  (save.elements, save.exportedAtNs, save.startNs, save.endNs)

def elementFields : Proto.BackupElement Unit →
    Option (Option (List Int × Int × Option Int × Option Int))
  | ⟨none⟩ => none
  | ⟨some (.record _)⟩ => some none
  | ⟨some (.metadata save)⟩ => some (some (metadataFields save))

def ofElementFields : Option (Option (List Int × Int × Option Int × Option Int)) →
    Proto.BackupElement Unit
  | none => ⟨none⟩
  | some none => ⟨some (.record ())⟩
  | some (some (elements, exportedAtNs, startNs, endNs)) =>
    ⟨some (.metadata ⟨elements, exportedAtNs, startNs, endNs⟩)⟩

theorem ofElementFields_elementFields (message : Proto.BackupElement Unit) :
    ofElementFields (elementFields message) = message := by
  obtain ⟨_ | _ | _⟩ := message <;> rfl

def prost : Prost (Proto.BackupElement Unit) where
  encodeToVec message := List.replicate (Encodable.encode (elementFields message)) 0
  decode bytes := (Encodable.decode bytes.length).map ofElementFields
  decode_encodeToVec message := by
    rw [List.length_replicate, Encodable.encodek, Option.map_some, ofElementFields_elementFields]

def tag (nonce : Nonce) : Bytes := nonce.bytes ++ List.replicate 4 0

theorem tag_injective : Function.Injective tag := by
  intro nonce nonce' h
  have hbytes := List.append_cancel_right h
  cases nonce
  cases nonce'
  congr

def cipher : Aead where
  encrypt _ nonce plaintext := tag nonce ++ plaintext
  decrypt _ nonce ciphertext :=
    if ciphertext.take 16 = tag nonce then some (ciphertext.drop 16) else none
  decrypt_encrypt _ nonce plaintext := by
    have hlength : (tag nonce).length = 16 := by simp [tag, nonce.length_bytes, nonceSize]
    rw [List.take_left' hlength, List.drop_left' hlength, if_pos rfl]
  decrypt_of_ne _ nonce nonce' plaintext hne := by
    have hlength : (tag nonce).length = 16 := by simp [tag, nonce.length_bytes, nonceSize]
    rw [List.take_left' hlength, if_neg fun htag => hne (tag_injective htag).symm]
  length_encrypt _ nonce plaintext := by
    simp [tag, nonce.length_bytes, nonceSize]
    omega

def encoder : ZstdEncoder where
  State := Unit
  new := ()
  write _ bytes := (bytes, ())
  flush _ := ([], ())
  close _ := ([], ())

theorem out_of_wrote {state : encoder.State} {out written : Bytes} (h : encoder.Wrote state out written) :
    out = written := by
  induction h with
  | new => rfl
  | write bytes _ ih => rw [ih]; rfl
  | flush _ ih => rw [ih]; exact List.append_nil _

def zstd : Zstd where
  toZstdEncoder := encoder
  decode bytes := bytes
  decode_close _ _ _ h := (List.append_nil _).trans (out_of_wrote h)

def format : ArchiveFormat Unit where
  prost
  cipher
  zstd

def nonce : Nonce where
  bytes := 1 :: List.replicate 11 0
  length_bytes := rfl

def key : Bytes := List.replicate 32 7

def stream : List (Poll (Proto.BackupElement Unit)) := [.ready ⟨some (.record ())⟩]

def archive : Bytes :=
  header nonce ++ format.frames key nonce
    [⟨some (.metadata ⟨[], 0, none, none⟩)⟩, ⟨some (.record ())⟩]

def records : List (Poll (Proto.BackupElement Unit)) :=
  [.ready ⟨some (.record ())⟩, .pending, .ready ⟨some (.record ())⟩]

def recordsArchive : Bytes :=
  header nonce ++ format.frames key nonce
    [⟨some (.metadata ⟨[], 0, none, none⟩)⟩, ⟨some (.record ())⟩, ⟨some (.record ())⟩]

def sizes (i : Nat) : Nat := i % 2 * 30

/-- The reader is pending after the metadata, and again when the last length and some of its element
are delivered but not taken. -/
def pausing : Nat → Poll Nat
  | 0 => .ready 3
  | 1 => .ready 17
  | 2 => .pending
  | 3 => .ready 9
  | 4 => .ready 20
  | 5 => .pending
  | _ => .ready 3

theorem fair_pausing : Loop.Fair fun i => pausing i ≠ .pending := by
  intro i
  refine ⟨i + 6, by omega, ?_⟩
  intro hpending
  cases hpending

theorem exports_records : Exports format ⟨[], none, none, false⟩ 0 records nonce key sizes
    recordsArchive := by
  have hrun : Loop.run (Export.step sizes) 20
      { exporter := (.new ⟨[], none, none, false⟩ 0 records nonce key : ArchiveExporter format) } =
      some recordsArchive := by
    decide +kernel
  exact Loop.returns_of_run hrun

theorem pendsBetweenElements_pausing : PendsBetweenElements format key recordsArchive pausing := by
  intro start hload t hreaches hpending
  rw [Import.load, dif_pos (by decide +kernel), Except.ok.injEq] at hload
  subst hload
  have hchecked := @Loop.Reaches.check _ _ _ _ _
    (fun t : Import Unit => pausing t.polls != .pending || t.elementLen == 0) 30 hreaches
    (by decide +kernel)
  simpa [hpending] using hchecked

def answers (i : Nat) : Poll Nat := if i = 1 then .pending else .ready 3

def start : Import Unit where
  importer := { undelivered := archive.drop 14, key, nonce }
  version := 0

theorem load_archive : Import.load format key archive = .ok start := by
  rw [Import.load, dif_pos (by decide +kernel)]
  rfl

end RoundTripSample

open RoundTripSample in
theorem archive_round_trip_records :
    Imports format key recordsArchive pausing
      (asExported ⟨[], none, none, false⟩ 0 [⟨some (.record ())⟩, ⟨some (.record ())⟩]) := by
  obtain ⟨archive, hexports, himports⟩ := archive_round_trip format ⟨[], none, none, false⟩ 0
    records nonce key sizes (fun i => ⟨2 * i + 1, by omega, by simp [sizes, Nat.add_mod]⟩)
    (by unfold ArchiveFormat.Fits; decide +kernel)
  obtain rfl : archive = recordsArchive := hexports.functional exports_records
  exact himports pausing fair_pausing pendsBetweenElements_pausing

/-- The importer loses the length and takes the next four bytes for one. -/
theorem length_lost_at_pending :
    ∃ archive answers, Exports RoundTripSample.format ⟨[], none, none, false⟩ 0 RoundTripSample.stream
      RoundTripSample.nonce RoundTripSample.key (fun _ => 1024) archive ∧
      Loop.Fair (fun i => answers i ≠ .pending) ∧
      ¬Imports RoundTripSample.format RoundTripSample.key archive answers
        (asExported ⟨[], none, none, false⟩ 0 [⟨some (.record ())⟩]) := by
  refine ⟨RoundTripSample.archive, RoundTripSample.answers, ?_, ?_, ?_⟩
  · have hrun : Loop.run (Export.step fun _ => 1024)
        3 { exporter := (.new ⟨[], none, none, false⟩ 0 RoundTripSample.stream RoundTripSample.nonce
          RoundTripSample.key : ArchiveExporter RoundTripSample.format) } =
        some RoundTripSample.archive := by
      decide +kernel
    exact Loop.returns_of_run hrun
  · intro i
    refine ⟨i + 2, by omega, ?_⟩
    simp [RoundTripSample.answers]
  · have hrun : (Loop.run (Import.step RoundTripSample.format RoundTripSample.answers) 4
        RoundTripSample.start).map Except.toOption = some none := by
      decide +kernel
    rw [Imports, RoundTripSample.load_archive]
    intro hreturns
    obtain ⟨result, hresult, hfailed⟩ := Option.map_eq_some_iff.mp hrun
    rw [← hreturns.functional (Loop.returns_of_run hresult)] at hfailed
    cases hfailed

end LibXmtp.Archive
