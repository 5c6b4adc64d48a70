import LibXmtp.Archive.RoundTrip

/-! Whether the polls of an importer's stream return, and how the stream ends, whatever the bytes
are that its decoder delivers. -/

namespace LibXmtp.Archive

open LibXmtp.Data

variable {ε : Type}

/-- A poll of the stream under way. The reader has been read from `reads` times in all. -/
structure Polling where
  importer : ArchiveImporter
  elementLen : Nat := 0
  reads : Nat

structure Polled (ε : Type) where
  item : Option (Item ε)
  importer : ArchiveImporter
  reads : Nat

def Polled.next (r : Polled ε) : Polling := { importer := r.importer, reads := r.reads }

namespace Polling

variable (f : ArchiveFormat ε) (sizes : Nat → Nat)

/-- The reader is never pending: it delivers a byte at least, unless nothing is left. -/
def step (s : Polling) : Option (Next Polling (Polled ε)) :=
  let size := min (sizes s.reads + 1) Import.readSize
  let undelivered := s.importer.undelivered.drop size
  match ArchiveImporter.round f { s.importer with undelivered } s.elementLen
      (s.importer.undelivered.take size) with
  | .item item importer => some (.done { item := some item, importer, reads := s.reads + 1 })
  | .ended importer => some (.done { item := none, importer, reads := s.reads + 1 })
  | .again elementLen importer => some (.again { importer, elementLen, reads := s.reads + 1 })

inductive Polls : Polling → Polling → Prop
  | refl : Polls s s
  | tail : Polls s t → Loop.Returns (step f sizes) t r → Polls s r.next

/-- Every poll returns, and after finitely many of them the stream has ended or has reported an
error. -/
structure Terminates (s : Polling) : Prop where
  returns : ∀ t, Polls f sizes s t → ∃ r, Loop.Returns (step f sizes) t r
  ends : ∃ t r, Polls f sizes s t ∧ Loop.Returns (step f sizes) t r ∧
    ∀ element, r.item ≠ some (.ok element)

end Polling

/-- The bytes run out where an element could begin, or right after a length. An element that cannot
be decrypted is not taken, and its bytes are read as lengths and elements of their own. -/
inductive RunsOut (f : ArchiveFormat ε) (key : Bytes) : Nonce → Nat → Bytes → Prop
  | nil : RunsOut f key nonce elementLen []
  | length : 4 ≤ bytes.length →
      RunsOut f key nonce (ofLittleEndian (bytes.take 4)) (bytes.drop 4) →
      RunsOut f key nonce 0 bytes
  | element : elementLen ≠ 0 → elementLen ≤ bytes.length →
      ArchiveImporter.decrypt f { undelivered := [], key, nonce } (bytes.take elementLen) =
        (some plaintext, nonce') →
      RunsOut f key nonce'.increment 0 (bytes.drop elementLen) → RunsOut f key nonce elementLen bytes
  | undecrypted : elementLen ≠ 0 → elementLen ≤ bytes.length →
      ArchiveImporter.decrypt f { undelivered := [], key, nonce } (bytes.take elementLen) =
        (none, nonce') →
      RunsOut f key nonce' 0 bytes → RunsOut f key nonce elementLen bytes

section RunsOut

variable {f : ArchiveFormat ε} {key : Bytes} {nonce : Nonce} {elementLen : Nat}
  {decoded rest : Bytes} {this importer : ArchiveImporter} {item : Item ε}

theorem runsOut_takeLength_iff : RunsOut f key nonce elementLen (decoded ++ rest) ↔
    RunsOut f key nonce (ArchiveImporter.takeLength elementLen decoded).1
      ((ArchiveImporter.takeLength elementLen decoded).2 ++ rest) := by
  rw [ArchiveImporter.takeLength]
  split
  · rename_i htaken
    obtain ⟨rfl, hlength⟩ := htaken
    have htake : (decoded ++ rest).take 4 = decoded.take 4 := List.take_append_of_le_length hlength
    have hdrop : (decoded ++ rest).drop 4 = decoded.drop 4 ++ rest :=
      List.drop_append_of_le_length hlength
    rw [← htake, ← hdrop]
    constructor
    · intro h
      generalize hbytes : decoded ++ rest = bytes at h
      cases h with
      | nil => rw [List.drop_nil]; exact .nil
      | length _ hrest => exact hrest
      | element hne => exact absurd rfl hne
      | undecrypted hne => exact absurd rfl hne
    · intro h
      exact .length (by rw [List.length_append]; omega) h
  · exact Iff.rfl

theorem runsOut_takeElement_iff
    (h : ArchiveImporter.takeElement f this elementLen = some (item, importer)) :
    RunsOut f this.key this.nonce elementLen (this.decoded ++ rest) ↔
      RunsOut f this.key importer.nonce 0 (importer.decoded ++ rest) := by
  rw [ArchiveImporter.takeElement] at h
  split at h
  · rename_i hcomplete
    obtain ⟨hne, hle⟩ := hcomplete
    have hle' : elementLen ≤ (this.decoded ++ rest).length := by
      rw [List.length_append]
      omega
    have htake : ArchiveImporter.decrypt f { undelivered := [], key := this.key, nonce := this.nonce }
        ((this.decoded ++ rest).take elementLen) =
        ArchiveImporter.decrypt f this (this.decoded.take elementLen) := by
      rw [List.take_append_of_le_length hle]
      rfl
    have hdrop : (this.decoded ++ rest).drop elementLen = this.decoded.drop elementLen ++ rest :=
      List.drop_append_of_le_length hle
    cases hdecrypt : ArchiveImporter.decrypt f this (this.decoded.take elementLen) with
    | mk plaintext nonce' =>
      rw [hdecrypt] at h htake
      cases plaintext with
      | none =>
        cases h
        dsimp only
        generalize this.decoded ++ rest = bytes at hle' htake ⊢
        constructor
        · intro hruns
          cases hruns with
          | nil => exact .nil
          | length => exact absurd rfl hne
          | element _ _ hsome _ =>
            rw [htake] at hsome
            cases hsome
          | undecrypted _ _ hnone hrest =>
            rw [htake] at hnone
            cases hnone
            exact hrest
        · exact .undecrypted hne hle' htake
      | some plaintext =>
        cases h
        dsimp only
        rw [← hdrop]
        generalize this.decoded ++ rest = bytes at hle' htake ⊢
        constructor
        · intro hruns
          cases hruns with
          | nil =>
            rw [List.drop_nil]
            exact .nil
          | length => exact absurd rfl hne
          | element _ _ hsome hrest =>
            rw [htake] at hsome
            cases hsome
            exact hrest
          | undecrypted _ _ hnone _ =>
            rw [htake] at hnone
            cases hnone
        · exact .element hne hle' htake
  · cases h

theorem eq_nil_of_runsOut (h : RunsOut f key nonce elementLen decoded)
    (hlength : elementLen = 0 → decoded.length < 4)
    (helement : elementLen ≠ 0 → decoded.length < elementLen) : decoded = [] := by
  cases h with
  | nil => rfl
  | length hle => exact absurd (hlength rfl) (Nat.not_lt.mpr hle)
  | element hne hle => exact absurd (helement hne) (Nat.not_lt.mpr hle)
  | undecrypted hne hle => exact absurd (helement hne) (Nat.not_lt.mpr hle)

theorem takeElement_eq_none (h : ArchiveImporter.takeElement f this elementLen = none)
    (hne : elementLen ≠ 0) : this.decoded.length < elementLen := by
  rw [ArchiveImporter.takeElement] at h
  by_contra hle
  rw [if_pos ⟨hne, Nat.le_of_not_lt hle⟩] at h
  split at h <;> cases h

theorem takeElement_eq_some
    (h : ArchiveImporter.takeElement f this elementLen = some (item, importer)) :
    elementLen ≠ 0 ∧ importer.key = this.key ∧ importer.undelivered = this.undelivered ∧
      importer.decoded.length ≤ this.decoded.length := by
  rw [ArchiveImporter.takeElement] at h
  split at h
  · rename_i hcomplete
    split at h
    · cases h
      exact ⟨hcomplete.1, rfl, rfl, Nat.le_refl _⟩
    · cases h
      exact ⟨hcomplete.1, rfl, rfl, by simp⟩
  · cases h

variable {piece : Bytes}

theorem round_eq_item (h : ArchiveImporter.round f this elementLen piece = .item item importer) :
    ArchiveImporter.takeElement f
      { this with decoded := (ArchiveImporter.takeLength elementLen (this.decoded ++ piece)).2 }
      (ArchiveImporter.takeLength elementLen (this.decoded ++ piece)).1 = some (item, importer) := by
  rw [ArchiveImporter.round] at h
  split at h
  · rename_i htake
    cases h
    exact htake
  · split at h <;> cases h

theorem round_eq_ended (h : ArchiveImporter.round f this elementLen piece = .ended importer) :
    piece = [] ∧ (ArchiveImporter.takeLength elementLen (this.decoded ++ piece)).2 = [] ∧
      importer = { this with decoded := [] } := by
  rw [ArchiveImporter.round] at h
  split at h
  · cases h
  · split at h
    · rename_i hempty
      cases h
      exact ⟨hempty.1, hempty.2, by rw [hempty.2]⟩
    · cases h

theorem round_eq_again {elementLen' : Nat}
    (h : ArchiveImporter.round f this elementLen piece = .again elementLen' importer) :
    elementLen' = (ArchiveImporter.takeLength elementLen (this.decoded ++ piece)).1 ∧
      importer = { this with
        decoded := (ArchiveImporter.takeLength elementLen (this.decoded ++ piece)).2 } ∧
      ArchiveImporter.takeElement f importer elementLen' = none ∧
      ¬(piece = [] ∧ importer.decoded = []) := by
  rw [ArchiveImporter.round] at h
  split at h
  · cases h
  · rename_i htake
    split at h
    · cases h
    · rename_i hempty
      cases h
      exact ⟨rfl, rfl, htake, hempty⟩

theorem takeLength_cases (elementLen : Nat) (decoded : Bytes) :
    elementLen = 0 ∧ 4 ≤ decoded.length ∧
      (ArchiveImporter.takeLength elementLen decoded).2.length + 4 = decoded.length ∨
    ¬(elementLen = 0 ∧ 4 ≤ decoded.length) ∧
      ArchiveImporter.takeLength elementLen decoded = (elementLen, decoded) := by
  rw [ArchiveImporter.takeLength]
  split
  · rename_i htaken
    refine .inl ⟨htaken.1, htaken.2, ?_⟩
    rw [List.length_drop]
    omega
  · rename_i htaken
    exact .inr ⟨htaken, rfl⟩

end RunsOut

namespace Polling

variable (f : ArchiveFormat ε) {sizes : Nat → Nat}

def Sound (s : Polling) : Prop :=
  RunsOut f s.importer.key s.importer.nonce s.elementLen
    (s.importer.decoded ++ s.importer.undelivered)

def left (s : Polling) : Nat := s.importer.decoded.length + s.importer.undelivered.length

def budget (s : Polling) : Nat := s.left + if s.elementLen = 0 then 0 else 4

variable {f} {s t : Polling} {r : Polled ε}

theorem take_eq_nil {bytes : Bytes} {n : Nat} (h : bytes.take (min (n + 1) Import.readSize) = []) :
    bytes = [] := by
  rcases List.take_eq_nil_iff.mp h with hsize | hnil
  · have hpos : 0 < min (n + 1) Import.readSize := Nat.lt_min.mpr ⟨Nat.succ_pos n, by decide⟩
    omega
  · exact hnil

theorem sound_iff_taken (s : Polling) (n : Nat) : s.Sound f ↔
    RunsOut f s.importer.key s.importer.nonce
      (ArchiveImporter.takeLength s.elementLen
        (s.importer.decoded ++ s.importer.undelivered.take n)).1
      ((ArchiveImporter.takeLength s.elementLen
        (s.importer.decoded ++ s.importer.undelivered.take n)).2 ++
        s.importer.undelivered.drop n) := by
  rw [← runsOut_takeLength_iff, List.append_assoc, List.take_append_drop]
  exact Iff.rfl

theorem budget_taken (s : Polling) (n : Nat) :
    (ArchiveImporter.takeLength s.elementLen
      (s.importer.decoded ++ s.importer.undelivered.take n)).2.length +
      (s.importer.undelivered.drop n).length +
      (if (ArchiveImporter.takeLength s.elementLen
        (s.importer.decoded ++ s.importer.undelivered.take n)).1 = 0 then 0 else 4) ≤ s.budget := by
  have hparts : s.importer.undelivered.length =
      (s.importer.undelivered.take n).length + (s.importer.undelivered.drop n).length := by
    rw [← List.length_append, List.take_append_drop]
  rw [budget, left, hparts]
  rcases takeLength_cases s.elementLen (s.importer.decoded ++ s.importer.undelivered.take n) with
    ⟨hzero, -, hlength⟩ | ⟨-, htaken⟩
  · rw [List.length_append] at hlength
    rw [if_pos hzero]
    split <;> omega
  · rw [htaken]
    dsimp only
    rw [List.length_append]
    omega

theorem step_item (h : step f sizes s = some (.done r)) (hitem : r.item ≠ none) :
    (s.Sound f ↔ r.next.Sound f) ∧ r.next.left < s.budget := by
  simp only [step] at h
  split at h
  · rename_i hround
    cases h
    have htake := round_eq_item hround
    obtain ⟨hne, hkey, hundelivered, hle⟩ := takeElement_eq_some htake
    have hbudget := budget_taken s (min (sizes s.reads + 1) Import.readSize)
    rw [if_neg hne] at hbudget
    constructor
    · rw [sound_iff_taken s (min (sizes s.reads + 1) Import.readSize),
        runsOut_takeElement_iff htake, Sound, Polled.next, hkey, hundelivered]
    · rw [left, Polled.next, hundelivered]
      dsimp only at hle ⊢
      omega
  · cases h
    exact absurd rfl hitem
  · cases h

theorem step_ended (h : step f sizes s = some (.done r)) (hitem : r.item = none) :
    s.Sound f ∧ r.next.Sound f ∧ r.next.left = 0 := by
  simp only [step] at h
  split at h
  · cases h
    cases hitem
  · rename_i hround
    cases h
    obtain ⟨hpiece, hdecoded, rfl⟩ := round_eq_ended hround
    have hnil := take_eq_nil hpiece
    refine ⟨?_, ?_, ?_⟩
    · rw [sound_iff_taken s (min (sizes s.reads + 1) Import.readSize), hdecoded, hnil, List.drop_nil]
      exact .nil
    · rw [Sound, Polled.next, hnil, List.drop_nil]
      exact .nil
    · rw [left, Polled.next, hnil, List.drop_nil]
      rfl
  · cases h

def size (s : Polling) : Nat := 2 * s.importer.undelivered.length + s.importer.decoded.length

theorem step_again (h : step f sizes s = some (.again t)) :
    (s.Sound f ↔ t.Sound f) ∧ t.budget ≤ s.budget ∧ (s.Sound f → t.size < s.size) := by
  simp only [step] at h
  split at h
  · cases h
  · cases h
  · rename_i hround
    cases h
    obtain ⟨rfl, rfl, htake, hempty⟩ := round_eq_again hround
    refine ⟨sound_iff_taken s _, budget_taken s _, fun hsound => ?_⟩
    rw [sound_iff_taken s (min (sizes s.reads + 1) Import.readSize)] at hsound
    generalize hsize : min (sizes s.reads + 1) Import.readSize = n at *
    have hparts : s.importer.undelivered.length =
        (s.importer.undelivered.take n).length + (s.importer.undelivered.drop n).length := by
      rw [← List.length_append, List.take_append_drop]
    simp only [size]
    rcases takeLength_cases s.elementLen (s.importer.decoded ++ s.importer.undelivered.take n) with
      ⟨-, -, hlength⟩ | ⟨hnot, htaken⟩
    · rw [List.length_append] at hlength
      omega
    · rw [htaken] at htake hempty hsound ⊢
      dsimp only at htake hempty hsound ⊢
      rw [List.length_append]
      by_cases hpiece : s.importer.undelivered.take n = []
      · -- Nothing is read and nothing is taken: the bytes would have to have run out.
        have hnil : s.importer.undelivered = [] := take_eq_nil (hsize ▸ hpiece)
        rw [hnil, List.take_nil, List.append_nil] at hnot htake hempty hsound
        rw [List.drop_nil, List.append_nil] at hsound
        have hlength (hzero : s.elementLen = 0) : s.importer.decoded.length < 4 :=
          Nat.lt_of_not_le fun hle => hnot ⟨hzero, hle⟩
        have helement (hne : s.elementLen ≠ 0) : s.importer.decoded.length < s.elementLen := by
          have hlt := takeElement_eq_none htake hne
          exact hlt
        exact absurd ⟨rfl, eq_nil_of_runsOut hsound hlength helement⟩ hempty
      · have hpos := List.length_pos_iff.mpr hpiece
        omega

theorem exists_step (s : Polling) :
    (∃ r, step f sizes s = some (.done r)) ∨ ∃ t, step f sizes s = some (.again t) := by
  rw [step]
  split
  · exact .inl ⟨_, rfl⟩
  · exact .inl ⟨_, rfl⟩
  · exact .inr ⟨_, rfl⟩

theorem Sound.exists_returns (h : s.Sound f) : ∃ r, Loop.Returns (step f sizes) s r := by
  refine Loop.exists_returns (P := Sound f) size (fun s hs => ?_) h
  rcases exists_step s with hr | ⟨t, ht⟩
  · exact .inl hr
  · obtain ⟨hsound, -, hprogress⟩ := step_again ht
    exact .inr ⟨t, ht, hsound.mp hs, hprogress hs⟩

theorem returns_item (h : Loop.Returns (step f sizes) s r) (hitem : r.item ≠ none) :
    (s.Sound f ↔ r.next.Sound f) ∧ r.next.left < s.budget := by
  induction h with
  | done hs => exact step_item hs hitem
  | again hs _ ih =>
    obtain ⟨hsound, hbudget, -⟩ := step_again hs
    obtain ⟨hsound', hleft⟩ := ih hitem
    exact ⟨hsound.trans hsound', Nat.lt_of_lt_of_le hleft hbudget⟩

theorem returns_ended (h : Loop.Returns (step f sizes) s r) (hitem : r.item = none) :
    s.Sound f ∧ r.next.Sound f := by
  induction h with
  | done hs => exact ⟨(step_ended hs hitem).1, (step_ended hs hitem).2.1⟩
  | again hs _ ih =>
    obtain ⟨hsound, hended⟩ := ih hitem
    exact ⟨(step_again hs).1.mpr hsound, hended⟩

theorem Sound.polls (h : s.Sound f) (hpolls : Polls f sizes s t) : t.Sound f := by
  induction hpolls with
  | refl => exact h
  | @tail t r _ hr ih =>
    by_cases hitem : r.item = none
    · exact (returns_ended hr hitem).2
    · exact (returns_item hr hitem).1.mp ih

theorem Polls.head (hr : Loop.Returns (step f sizes) s r) (h : Polls f sizes r.next t) :
    Polls f sizes s t := by
  induction h with
  | refl => exact .tail .refl hr
  | tail _ hr' ih => exact .tail ih hr'

theorem sound_of_returns (hlen : s.elementLen = 0)
    (h : ∀ t, Polls f sizes s t → ∃ r, Loop.Returns (step f sizes) t r) : s.Sound f := by
  induction hn : s.left using Nat.strongRecOn generalizing s with
  | _ n ih =>
    obtain ⟨r, hr⟩ := h s .refl
    by_cases hitem : r.item = none
    · exact (returns_ended hr hitem).1
    · obtain ⟨hsound, hleft⟩ := returns_item hr hitem
      rw [budget, if_pos hlen, hn] at hleft
      exact hsound.mpr (ih _ hleft rfl (fun t ht => h t (.head hr ht)) rfl)

theorem Sound.exists_end (h : s.Sound f) (hlen : s.elementLen = 0) :
    ∃ t r, Polls f sizes s t ∧ Loop.Returns (step f sizes) t r ∧
      ∀ element, r.item ≠ some (.ok element) := by
  induction hn : s.left using Nat.strongRecOn generalizing s with
  | _ n ih =>
    obtain ⟨r, hr⟩ : ∃ r, Loop.Returns (step f sizes) s r := h.exists_returns
    by_cases hitem : ∃ element, r.item = some (.ok element)
    · obtain ⟨element, hitem⟩ := hitem
      obtain ⟨hsound, hleft⟩ := returns_item hr (by rw [hitem]; simp)
      rw [budget, if_pos hlen, hn] at hleft
      obtain ⟨t, r', hpolls, hr', hend⟩ := ih _ hleft (hsound.mp h) rfl rfl
      exact ⟨t, r', .head hr hpolls, hr', hend⟩
    · exact ⟨s, r, .refl, hr, fun element heq => hitem ⟨element, heq⟩⟩

/-- A stream whose every poll returns is one whose bytes run out, and it ends or reports an error. -/
theorem terminates_iff (f : ArchiveFormat ε) (sizes : Nat → Nat) (importer : ArchiveImporter)
    (reads : Nat) : Terminates f sizes { importer, reads } ↔
      RunsOut f importer.key importer.nonce 0 (importer.decoded ++ importer.undelivered) := by
  constructor
  · intro h
    exact sound_of_returns rfl h.returns
  · intro h
    have hsound : Sound f { importer, reads } := h
    exact ⟨fun t ht => (hsound.polls ht).exists_returns, hsound.exists_end rfl⟩

/-- A byte that is left over is looked at for ever. -/
theorem not_terminates_byte : ¬Terminates RoundTripSample.format (fun _ => 0)
    { importer := { undelivered := [0], key := RoundTripSample.key, nonce := RoundTripSample.nonce }
      reads := 0 } := by
  intro h
  have hruns : Sound RoundTripSample.format _ := sound_of_returns rfl h.returns
  cases hruns with
  | length hle => exact absurd hle (by decide)
  | element hne => exact absurd rfl hne
  | undecrypted hne => exact absurd rfl hne

end Polling

end LibXmtp.Archive
