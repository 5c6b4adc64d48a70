import LibXmtp.Archive.Restore

namespace LibXmtp.Archive

open LibXmtp.Data LibXmtp.Db

structure Exportable (db : ArchiveDb) (opts : ArchiveOptions) (g : StoredGroup) : Prop where
  stored : g ∈ db.groups.rows
  notVirtual : g.conversationType.isVirtual = false
  readable : db.readable g.id = true
  inRange : inTimeRange opts g.createdAtNs = true

/-- The message is an application message of the time range, in a group that is not virtual. -/
structure Wanted (db : ArchiveDb) (opts : ArchiveOptions) (m : StoredMessageRow) : Prop where
  stored : m ∈ db.messages.rows
  conversation : ∃ g ∈ db.groups.rows, g.id = m.groupId ∧ g.conversationType.isVirtual = false
  application : m.kind = .application
  inRange : inTimeRange opts m.sentAtNs = true

structure Complete (db : ArchiveDb) (opts : ArchiveOptions) (elements : List BackupElement) : Prop where
  consents : .consent ∈ opts.elements → ∀ r ∈ db.consents.rows, BackupElement.consent r ∈ elements
  groups : .messages ∈ opts.elements → ∀ g, Exportable db opts g → elements.count (.group g) = 1
  messages : .messages ∈ opts.elements → ∀ m, Wanted db opts m → elements.count (.groupMessage m) = 1
  preceded : Preceded elements
  restorable : Restorable elements

structure ExportsAll (db : ArchiveDb) (opts : ArchiveOptions) (clocks : Nat → Clock) : Prop where
  once : opts.elements.count .messages = 1 ∨
    (∀ g, ¬Exportable db opts g) ∧ ∀ m, ¬Wanted db opts m
  gapless : ∀ k, (∀ g ∈ page batchSize k (db.groupsById opts), db.readable g.id = false) →
    ∀ g ∈ (db.groupsById opts).drop (batchSize * k), db.readable g.id = false
  owned : ∀ m, Wanted db opts m → ∃ g, Exportable db opts g ∧ g.id = m.groupId
  /-- No message is left out, at the times at which the pages of the messages are read. -/
  kept : ∀ i, opts.elements[i]? = some .messages → ∀ k, batchSize * k < (db.messagesById opts).length →
    ∀ m, Wanted db opts m → ArchiveDb.keeps opts ((clocks i).now (batchSize * k)) m = true

section Rows

variable {db : ArchiveDb} {opts : ArchiveOptions} {g : StoredGroup} {m : StoredMessageRow}

theorem perm_orderByBytes {ρ : Type} (key : ρ → List Nat) (rows : List ρ) :
    (orderByBytes key rows).Perm rows := List.perm_insertionSort _ rows

theorem mem_groupsById : g ∈ db.groupsById opts ↔ g ∈ db.groups.rows ∧
    g.conversationType.isVirtual = false ∧ inTimeRange opts g.createdAtNs = true := by
  rw [ArchiveDb.groupsById, (perm_orderByBytes _ _).mem_iff]
  simp

theorem nodup_groupsById (db : ArchiveDb) (opts : ArchiveOptions) : (db.groupsById opts).Nodup := by
  rw [ArchiveDb.groupsById, (perm_orderByBytes _ _).nodup_iff]
  exact (List.Nodup.of_map _ db.groups.distinct).filter _

theorem groupSave_eq_some_iff {element : BackupElement} : db.groupSave g = some element ↔
    g.conversationType.isVirtual = false ∧ db.readable g.id = true ∧ element = .group g := by
  unfold ArchiveDb.groupSave
  cases g.conversationType.isVirtual <;> cases db.readable g.id <;> simp [eq_comm]

theorem exportable_iff : Exportable db opts g ↔
    g ∈ db.groupsById opts ∧ db.groupSave g = some (.group g) := by
  rw [mem_groupsById, groupSave_eq_some_iff]
  constructor
  · intro h
    exact ⟨⟨h.stored, h.notVirtual, h.inRange⟩, h.notVirtual, h.readable, rfl⟩
  · rintro ⟨⟨hstored, hvirtual, hrange⟩, -, hreadable, -⟩
    exact ⟨hstored, hvirtual, hreadable, hrange⟩

theorem wanted_iff : Wanted db opts m ↔ m ∈ db.messagesById opts := by
  rw [ArchiveDb.messagesById, (perm_orderByBytes _ _).mem_iff]
  simp only [List.mem_filter, ArchiveDb.hasConversation, Bool.and_eq_true, List.any_eq_true,
    decide_eq_true_eq, Bool.not_eq_true']
  constructor
  · intro h
    exact ⟨h.stored, ⟨h.conversation, h.application⟩, h.inRange⟩
  · rintro ⟨hstored, ⟨hconversation, happlication⟩, hrange⟩
    exact ⟨hstored, hconversation, happlication, hrange⟩

theorem nodup_messagesById (db : ArchiveDb) (opts : ArchiveOptions) : (db.messagesById opts).Nodup := by
  rw [ArchiveDb.messagesById, (perm_orderByBytes _ _).nodup_iff]
  exact (List.Nodup.of_map _ db.messages.distinct).filter _

theorem keeps_of_le {now later : Int} (hle : now ≤ later) (h : ArchiveDb.keeps opts later m = true) :
    ArchiveDb.keeps opts now m = true := by
  unfold ArchiveDb.keeps at h ⊢
  split_ifs at h ⊢
  · exact h
  · cases hexpire : m.expireAtNs with
    | none => rfl
    | some expireAtNs =>
      rw [hexpire, Option.all_some, decide_eq_true_eq] at h
      rw [Option.all_some, decide_eq_true_eq]
      exact Int.lt_of_le_of_lt hle h

end Rows

/-- What the selections from the `i`th on come to, with what each of their streams yields. -/
def exportedFrom (consents groups : List BackupElement) (messages : Nat → List BackupElement) :
    List BackupElementSelection → Nat → List BackupElement
  | [], _ => []
  | .consent :: selections, i => consents ++ exportedFrom consents groups messages selections (i + 1)
  | .messages :: selections, i =>
    groups ++ messages i ++ exportedFrom consents groups messages selections (i + 1)
  | .event :: selections, i => exportedFrom consents groups messages selections (i + 1)
  | .unspecified :: selections, i => exportedFrom consents groups messages selections (i + 1)

section Exported

variable {consents groups : List BackupElement} {messages : Nat → List BackupElement}
  {selections : List BackupElementSelection} {x : BackupElement} {i : Nat}

theorem mem_exportedFrom : x ∈ exportedFrom consents groups messages selections i ↔
    .consent ∈ selections ∧ x ∈ consents ∨
      ∃ j, selections[j]? = some .messages ∧ (x ∈ groups ∨ x ∈ messages (i + j)) := by
  induction selections generalizing i with
  | nil => simp [exportedFrom]
  | cons selection selections ih =>
    have hshift : (∃ j, (selection :: selections)[j]? = some .messages ∧ (x ∈ groups ∨ x ∈ messages (i + j))) ↔
        (selection = .messages ∧ (x ∈ groups ∨ x ∈ messages i)) ∨
        ∃ j, selections[j]? = some .messages ∧ (x ∈ groups ∨ x ∈ messages (i + 1 + j)) := by
      constructor
      · rintro ⟨_ | j, hj, hx⟩
        · exact .inl ⟨by simpa using hj, hx⟩
        · exact .inr ⟨j, by simpa using hj, by rwa [Nat.add_right_comm, Nat.add_assoc]⟩
      · rintro (⟨rfl, hx⟩ | ⟨j, hj, hx⟩)
        · exact ⟨0, rfl, hx⟩
        · exact ⟨j + 1, by simpa using hj, by rwa [← Nat.add_assoc, Nat.add_right_comm]⟩
    rw [hshift]
    cases selection <;> simp only [exportedFrom, List.mem_append, ih, List.mem_cons] <;> grind

theorem count_exportedFrom {c : Nat} (hconsents : x ∉ consents)
    (h : ∀ j, selections[j]? = some .messages → (groups ++ messages (i + j)).count x = c) :
    (exportedFrom consents groups messages selections i).count x = selections.count .messages * c := by
  induction selections generalizing i with
  | nil => simp [exportedFrom]
  | cons selection selections ih =>
    have hrest (j : Nat) (hj : selections[j]? = some .messages) :
        (groups ++ messages (i + 1 + j)).count x = c := by
      rw [Nat.add_assoc, Nat.add_comm 1 j]
      exact h (j + 1) (by simpa using hj)
    have hcount := ih hrest
    cases selection with
    | messages =>
      have hfirst := h 0 rfl
      rw [Nat.add_zero] at hfirst
      rw [exportedFrom, List.count_append, hfirst, hcount, List.count_cons_self, Nat.succ_mul, Nat.add_comm]
    | consent =>
      rw [exportedFrom, List.count_append, hcount, List.count_eq_zero.mpr hconsents, Nat.zero_add,
        List.count_cons_of_ne (by decide)]
    | event => rw [exportedFrom, hcount, List.count_cons_of_ne (by decide)]
    | unspecified => rw [exportedFrom, hcount, List.count_cons_of_ne (by decide)]

theorem preceded_append {front back : List BackupElement} (hfront : Preceded front)
    (hback : ∀ before m after, back = before ++ .groupMessage m :: after →
      ∃ g, BackupElement.group g ∈ front ++ before ∧ g.id = m.groupId) : Preceded (front ++ back) := by
  intro before m after heq
  rcases List.append_eq_append_iff.mp heq with ⟨middle, rfl, hmiddle⟩ | ⟨middle, rfl, hmiddle⟩
  · exact hback middle m after hmiddle
  · cases middle with
    | nil =>
      rw [List.nil_append] at hmiddle
      obtain ⟨g, hg, hid⟩ := hback [] m after (by rw [List.nil_append, hmiddle])
      exact ⟨g, by simpa using hg, hid⟩
    | cons element middle =>
      obtain ⟨rfl, -⟩ := List.cons.inj hmiddle
      exact hfront before m middle rfl

theorem Preceded.append {front back : List BackupElement} (hfront : Preceded front) (hback : Preceded back) :
    Preceded (front ++ back) := by
  refine preceded_append hfront fun before m after heq => ?_
  obtain ⟨g, hg, hid⟩ := hback before m after heq
  exact ⟨g, List.mem_append_right _ hg, hid⟩

theorem preceded_of_not_mem {elements : List BackupElement}
    (h : ∀ m, BackupElement.groupMessage m ∉ elements) : Preceded elements := by
  intro before m after heq
  exact absurd (heq ▸ List.mem_append_right _ List.mem_cons_self) (h m)

theorem preceded_exportedFrom (hconsents : ∀ m, BackupElement.groupMessage m ∉ consents)
    (hgroups : ∀ m, BackupElement.groupMessage m ∉ groups)
    (h : ∀ j, selections[j]? = some .messages → ∀ m, BackupElement.groupMessage m ∈ messages (i + j) →
      ∃ g, BackupElement.group g ∈ groups ∧ g.id = m.groupId) :
    Preceded (exportedFrom consents groups messages selections i) := by
  induction selections generalizing i with
  | nil => exact preceded_of_not_mem fun m => List.not_mem_nil
  | cons selection selections ih =>
    have hrest := @ih (i + 1) fun j hj m hm => by
      rw [Nat.add_assoc, Nat.add_comm 1 j] at hm
      exact h (j + 1) (by simpa using hj) m hm
    cases selection with
    | consent => exact (preceded_of_not_mem hconsents).append hrest
    | messages =>
      refine Preceded.append (preceded_append (preceded_of_not_mem hgroups) ?_) hrest
      intro before m after heq
      have hm : BackupElement.groupMessage m ∈ messages (i + 0) :=
        heq ▸ List.mem_append_right _ List.mem_cons_self
      obtain ⟨g, hg, hid⟩ := h 0 rfl m hm
      exact ⟨g, List.mem_append_left _ hg, hid⟩
    | event => exact hrest
    | unspecified => exact hrest

end Exported

section Streams

variable {db : ArchiveDb} {opts : ArchiveOptions} {clocks : Nat → Clock}
  {groups : List BackupElement} {messages : Nat → List StoredMessageRow}

abbrev groupPages (db : ArchiveDb) (opts : ArchiveOptions) (k : Nat) : List BackupElement :=
  (page batchSize k (db.groupsById opts)).filterMap db.groupSave

abbrev messagePages (db : ArchiveDb) (opts : ArchiveOptions) (clock : Clock) (k : Nat) :
    List StoredMessageRow :=
  page batchSize k ((db.messagesById opts).filter (ArchiveDb.keeps opts (clock.now (batchSize * k))))

theorem yields_consents (db : ArchiveDb) (opts : ArchiveOptions) (clock : Clock) :
    BackupRecordStreamer.Yields db opts { provider := .consentSave, clock }
      (db.consentRecords.map .consent) :=
  ⟨0, rfl, (reads_page (Nat.succ_pos 99) db.consentRecords 0).map BackupElement.consent⟩

theorem forall₂_streams (hgroups : Reads (groupPages db opts) 0 groups)
    (hmessages : ∀ i, Reads (messagePages db opts (clocks i)) 0 (messages i))
    (selections : List BackupElementSelection) (i : Nat) :
    ∃ outs, List.Forall₂ (BackupRecordStreamer.Yields db opts)
      ((selections.zipIdx i).flatMap fun (e, i) => BatchExportStream.streamsOf (clocks i) e) outs ∧
      outs.flatten = exportedFrom (db.consentRecords.map .consent) groups
        (fun i => (messages i).map .groupMessage) selections i := by
  induction selections generalizing i with
  | nil => exact ⟨[], .nil, rfl⟩
  | cons selection selections ih =>
    obtain ⟨outs, houts, hflat⟩ := ih (i + 1)
    rw [List.zipIdx_cons, List.flatMap_cons]
    cases selection with
    | consent =>
      refine ⟨_ :: outs, .cons (yields_consents db opts (clocks i)) houts, ?_⟩
      rw [List.flatten_cons, hflat, exportedFrom]
    | messages =>
      have hgroup : BackupRecordStreamer.Yields db opts { provider := .groupSave, clock := clocks i } groups :=
        ⟨0, rfl, hgroups⟩
      have hmessage : BackupRecordStreamer.Yields db opts { provider := .groupMessageSave, clock := clocks i }
          ((messages i).map .groupMessage) := ⟨0, rfl, (hmessages i).map BackupElement.groupMessage⟩
      refine ⟨_ :: _ :: outs, .cons hgroup (.cons hmessage houts), ?_⟩
      rw [List.flatten_cons, List.flatten_cons, hflat, exportedFrom, List.append_assoc]
    | event => exact ⟨outs, houts, hflat⟩
    | unspecified => exact ⟨outs, houts, hflat⟩

theorem exports_exportedFrom (hgroups : Reads (groupPages db opts) 0 groups)
    (hmessages : ∀ i, Reads (messagePages db opts (clocks i)) 0 (messages i)) :
    BatchExportStream.Exports db opts clocks (exportedFrom (db.consentRecords.map .consent) groups
      (fun i => (messages i).map .groupMessage) opts.elements 0) := by
  obtain ⟨outs, houts, hflat⟩ := forall₂_streams hgroups hmessages opts.elements 0
  rw [← hflat]
  exact returns_streams houts []

theorem exists_group_of_mem (hgroups : Reads (groupPages db opts) 0 groups) {x : BackupElement}
    (hx : x ∈ groups) : ∃ g, x = .group g ∧ Exportable db opts g := by
  obtain ⟨g, hg, hsave⟩ := mem_of_reads_filterMap hgroups hx
  obtain ⟨-, -, rfl⟩ := groupSave_eq_some_iff.mp hsave
  exact ⟨g, rfl, exportable_iff.mpr ⟨hg, hsave⟩⟩

theorem groupMessage_not_mem_groups (hgroups : Reads (groupPages db opts) 0 groups)
    (m : StoredMessageRow) : BackupElement.groupMessage m ∉ groups := by
  intro hm
  obtain ⟨g, hg, -⟩ := exists_group_of_mem hgroups hm
  cases hg

/-- What an export yields of groups and of messages comes from the streams of them. -/
abbrev exported (db : ArchiveDb) (opts : ArchiveOptions) (groups : List BackupElement)
    (messages : Nat → List StoredMessageRow) : List BackupElement :=
  exportedFrom (db.consentRecords.map .consent) groups (fun i => (messages i).map .groupMessage)
    opts.elements 0

theorem group_mem_exported {g : StoredGroup} (h : .group g ∈ exported db opts groups messages) :
    .group g ∈ groups := by
  rcases mem_exportedFrom.mp h with ⟨-, hconsent⟩ | ⟨j, -, hg | hmessage⟩
  · obtain ⟨r, -, hr⟩ := List.mem_map.mp hconsent
    cases hr
  · exact hg
  · obtain ⟨m, -, hm⟩ := List.mem_map.mp hmessage
    cases hm

theorem groupMessage_mem_exported (hgroups : Reads (groupPages db opts) 0 groups) {m : StoredMessageRow}
    (h : .groupMessage m ∈ exported db opts groups messages) :
    ∃ j, opts.elements[j]? = some .messages ∧ m ∈ messages j := by
  rcases mem_exportedFrom.mp h with ⟨-, hconsent⟩ | ⟨j, hj, hgroup | hmessage⟩
  · obtain ⟨r, -, hr⟩ := List.mem_map.mp hconsent
    cases hr
  · exact absurd hgroup (groupMessage_not_mem_groups hgroups m)
  · obtain ⟨m', hm', heq⟩ := List.mem_map.mp hmessage
    cases heq
    exact ⟨j, hj, by rwa [Nat.zero_add] at hm'⟩

theorem groupPages_eq_nil_iff {k : Nat} : groupPages db opts k = [] ↔
    ∀ g ∈ page batchSize k (db.groupsById opts), db.readable g.id = false := by
  rw [groupPages, List.filterMap_eq_nil_iff]
  refine forall₂_congr fun g hg => ?_
  obtain ⟨-, hvirtual, -⟩ := mem_groupsById.mp (List.mem_of_mem_drop (List.mem_of_mem_take hg))
  simp [ArchiveDb.groupSave, hvirtual]

theorem gapless_iff : Gapless (groupPages db opts) ↔
    ∀ k, (∀ g ∈ page batchSize k (db.groupsById opts), db.readable g.id = false) →
      ∀ g ∈ (db.groupsById opts).drop (batchSize * k), db.readable g.id = false := by
  refine forall_congr' fun k => imp_congr groupPages_eq_nil_iff ⟨fun h g hg => ?_, fun h j hkj => ?_⟩
  · obtain ⟨j, hkj, hg⟩ := (mem_drop_iff (Nat.succ_pos 99)).mp hg
    exact groupPages_eq_nil_iff.mp (h j hkj) g hg
  · exact groupPages_eq_nil_iff.mpr fun g hg => h g ((mem_drop_iff (Nat.succ_pos 99)).mpr ⟨j, hkj, hg⟩)

theorem kept_iff {clock : Clock} : KeptThroughout batchSize (db.messagesById opts)
      (fun k => ArchiveDb.keeps opts (clock.now (batchSize * k))) ↔
    ∀ k, batchSize * k < (db.messagesById opts).length →
      ∀ m, Wanted db opts m → ArchiveDb.keeps opts (clock.now (batchSize * k)) m = true := by
  simp only [KeptThroughout, wanted_iff]

theorem keeps_antitone (clock : Clock) (opts : ArchiveOptions) (i j : Nat) (m : StoredMessageRow)
    (hij : i ≤ j) (h : ArchiveDb.keeps opts (clock.now (batchSize * j)) m = true) :
    ArchiveDb.keeps opts (clock.now (batchSize * i)) m = true :=
  keeps_of_le (clock.mono _ _ (Nat.mul_le_mul_left batchSize hij)) h

theorem groupSave_injective {g g' : StoredGroup} {x : BackupElement} (h : db.groupSave g = some x)
    (h' : db.groupSave g' = some x) : g = g' := by
  obtain ⟨-, -, rfl⟩ := groupSave_eq_some_iff.mp h
  obtain ⟨-, -, heq⟩ := groupSave_eq_some_iff.mp h'
  cases heq
  rfl

theorem nodup_groupSaves (db : ArchiveDb) (opts : ArchiveOptions) :
    ((db.groupsById opts).filterMap db.groupSave).Nodup :=
  (nodup_groupsById db opts).filterMap fun _ _ _ h h' => groupSave_injective h h'

end Streams

section Selections

theorem eq_of_count_eq_one {α : Type} [DecidableEq α] {a : α} {as : List α} {i j : Nat}
    (h : as.count a = 1) (hi : as[i]? = some a) (hj : as[j]? = some a) : i = j := by
  induction as generalizing i j with
  | nil => cases hi
  | cons b as ih =>
    rcases eq_or_ne b a with rfl | hne
    · rw [List.count_cons_self] at h
      have hnone : b ∉ as := List.count_eq_zero.mp (Nat.succ.inj h)
      have hzero (k : Nat) (hk : (b :: as)[k]? = some b) : k = 0 := by
        cases k with
        | zero => rfl
        | succ k =>
          rw [List.getElem?_cons_succ] at hk
          exact absurd (List.mem_of_getElem? hk) hnone
      rw [hzero i hi, hzero j hj]
    · rw [List.count_cons_of_ne hne] at h
      cases i with
      | zero => exact absurd (Option.some.inj hi) hne
      | succ i =>
        cases j with
        | zero => exact absurd (Option.some.inj hj) hne
        | succ j => rw [ih h hi hj]

end Selections

section Main

variable {db : ArchiveDb} {opts : ArchiveOptions} {clocks : Nat → Clock} {groups : List BackupElement}
  {messages : Nat → List StoredMessageRow}

theorem consent_not_group (db : ArchiveDb) (g : StoredGroup) :
    BackupElement.group g ∉ db.consentRecords.map BackupElement.consent := by
  simp

theorem consent_not_groupMessage (db : ArchiveDb) (m : StoredMessageRow) :
    BackupElement.groupMessage m ∉ db.consentRecords.map BackupElement.consent := by
  simp

theorem count_group (g : StoredGroup) : (exported db opts groups messages).count (.group g) =
    opts.elements.count .messages * groups.count (.group g) := by
  refine count_exportedFrom (consent_not_group db g) fun j _ => ?_
  have hnone : BackupElement.group g ∉ (messages (0 + j)).map BackupElement.groupMessage := by simp
  rw [List.count_append, List.count_eq_zero.mpr hnone, Nat.add_zero]

theorem exportsAll_of_complete (hgroups : Reads (groupPages db opts) 0 groups)
    (hmessages : ∀ i, Reads (messagePages db opts (clocks i)) 0 (messages i))
    (hselected : .messages ∈ opts.elements) (h : Complete db opts (exported db opts groups messages)) :
    ExportsAll db opts clocks := by
  have hgroup (g : StoredGroup) (hg : Exportable db opts g) : .group g ∈ groups :=
    group_mem_exported (List.count_pos_iff.mp (h.groups hselected g hg ▸ Nat.zero_lt_one))
  have hmessage (m : StoredMessageRow) (hm : Wanted db opts m) :
      .groupMessage m ∈ exported db opts groups messages :=
    List.count_pos_iff.mp (h.messages hselected m hm ▸ Nat.zero_lt_one)
  have howned (m : StoredMessageRow) (hm : Wanted db opts m) :
      ∃ g, Exportable db opts g ∧ g.id = m.groupId := by
    obtain ⟨before, after, hsplit⟩ := List.append_of_mem (hmessage m hm)
    obtain ⟨g, hg, hid⟩ := h.preceded before m after hsplit
    have hexported : .group g ∈ exported db opts groups messages := hsplit ▸ List.mem_append_left _ hg
    obtain ⟨g', heq, hexportable⟩ := exists_group_of_mem hgroups (group_mem_exported hexported)
    cases heq
    exact ⟨g, hexportable, hid⟩
  have honce : opts.elements.count .messages = 1 ∨
      (∀ g, ¬Exportable db opts g) ∧ ∀ m, ¬Wanted db opts m := by
    by_cases hone : opts.elements.count .messages = 1
    · exact .inl hone
    · have hnone (g : StoredGroup) : ¬Exportable db opts g := by
        intro hg
        have hcount := h.groups hselected g hg
        rw [count_group] at hcount
        exact hone (Nat.eq_one_of_mul_eq_one_right hcount)
      refine .inr ⟨hnone, fun m hm => ?_⟩
      obtain ⟨g, hg, -⟩ := howned m hm
      exact hnone g hg
  refine ⟨honce, gapless_iff.mp ?_, howned, fun i hi => kept_iff.mp ?_⟩
  · refine gapless_of_complete (nodup_groupsById db opts) (fun g _ g' _ x => groupSave_injective) hgroups ?_
    intro g hg x hx
    obtain ⟨-, -, rfl⟩ := groupSave_eq_some_iff.mp hx
    exact hgroup g (exportable_iff.mpr ⟨hg, hx⟩)
  · refine kept_of_complete (Nat.succ_pos 99) (nodup_messagesById db opts)
      (fun i' j m hij => keeps_antitone (clocks i) opts i' j m hij) (hmessages i) ?_
    intro m hm
    obtain ⟨j, hj, hmj⟩ := groupMessage_mem_exported hgroups (hmessage m (wanted_iff.mpr hm))
    rcases honce with hone | ⟨-, hnone⟩
    · exact eq_of_count_eq_one hone hj hi ▸ hmj
    · exact absurd (wanted_iff.mpr hm) (hnone m)

theorem complete_of_exportsAll (hgroups : Reads (groupPages db opts) 0 groups)
    (hmessages : ∀ i, Reads (messagePages db opts (clocks i)) 0 (messages i))
    (h : .messages ∈ opts.elements → ExportsAll db opts clocks) :
    Complete db opts (exported db opts groups messages) := by
  have hgroup (hselected : .messages ∈ opts.elements) :
      groups = (db.groupsById opts).filterMap db.groupSave := by
    have hgapless := gapless_iff.mpr (h hselected).gapless
    exact hgroups.eq_filterMap (Nat.succ_pos 99) hgapless
  have hmessage (i : Nat) (hi : opts.elements[i]? = some .messages) : messages i = db.messagesById opts := by
    have hkept := kept_iff.mpr ((h (List.mem_of_getElem? hi)).kept i hi)
    exact (hmessages i).eq_of_kept (Nat.succ_pos 99) hkept
  have hpreceded : Preceded (exported db opts groups messages) := by
    refine preceded_exportedFrom (consent_not_groupMessage db) (groupMessage_not_mem_groups hgroups) ?_
    intro j hj m hm
    have hselected := List.mem_of_getElem? hj
    rw [Nat.zero_add, hmessage j hj] at hm
    obtain ⟨m', hm', heq⟩ := List.mem_map.mp hm
    cases heq
    obtain ⟨g, hg, hid⟩ := (h hselected).owned m (wanted_iff.mpr hm')
    obtain ⟨hstored, hsave⟩ := exportable_iff.mp hg
    refine ⟨g, ?_, hid⟩
    rw [hgroup hselected]
    exact List.mem_filterMap.mpr ⟨g, hstored, hsave⟩
  refine ⟨fun hselected r hr => ?_, fun hselected g hg => ?_, fun hselected m hm => ?_, hpreceded,
    hpreceded.restorable⟩
  · refine mem_exportedFrom.mpr (.inl ⟨hselected, List.mem_map.mpr ⟨r, ?_, rfl⟩⟩)
    exact (perm_orderByBytes _ _).mem_iff.mpr hr
  · have hone := (h hselected).once.resolve_right fun hnone => hnone.1 g hg
    obtain ⟨hstored, hsave⟩ := exportable_iff.mp hg
    rw [count_group, hone, Nat.one_mul, hgroup hselected]
    exact List.count_eq_one_of_mem (nodup_groupSaves db opts) (List.mem_filterMap.mpr ⟨g, hstored, hsave⟩)
  · have hone := (h hselected).once.resolve_right fun hnone => hnone.2 m hm
    have hcount : (exported db opts groups messages).count (.groupMessage m) =
        opts.elements.count .messages * 1 := by
      refine count_exportedFrom (consent_not_groupMessage db m) fun j hj => ?_
      have hnodup := (nodup_messagesById db opts).map fun _ _ h => BackupElement.groupMessage.inj h
      rw [Nat.zero_add, List.count_append,
        List.count_eq_zero.mpr (groupMessage_not_mem_groups hgroups m), Nat.zero_add, hmessage j hj]
      exact List.count_eq_one_of_mem hnodup (List.mem_map.mpr ⟨m, wanted_iff.mp hm, rfl⟩)
    rw [hcount, hone]

end Main

/-- An export comes to an end, and its archive is complete exactly under the conditions of
`ExportsAll`, where messages are selected. -/
theorem archive_complete_iff (db : ArchiveDb) (opts : ArchiveOptions) (clocks : Nat → Clock) :
    ∃ elements, BatchExportStream.Exports db opts clocks elements ∧
      (Complete db opts elements ↔ (.messages ∈ opts.elements → ExportsAll db opts clocks)) := by
  obtain ⟨groups, hgroups⟩ :=
    exists_reads_filterMap (Nat.succ_pos 99) (db.groupsById opts) db.groupSave
  have hexists (i : Nat) := exists_reads_filter (Nat.succ_pos 99) (db.messagesById opts)
    fun k => ArchiveDb.keeps opts ((clocks i).now (batchSize * k))
  choose messages hmessages using hexists
  exact ⟨_, exports_exportedFrom hgroups hmessages,
    fun h hselected => exportsAll_of_complete hgroups hmessages hselected h,
    complete_of_exportsAll hgroups hmessages⟩

namespace ArchiveSample

def group : StoredGroup where
  id := [1]
  createdAtNs := 1
  membershipState := .allowed
  conversationType := .group

def message : StoredMessageRow where
  id := [2]
  groupId := [1]
  decryptedMessageBytes := []
  sentAtNs := 5
  kind := .application
  senderInboxId := "alice"
  contentType := .text

def db : ArchiveDb where
  groups := ⟨[group], List.nodup_singleton _⟩
  messages := ⟨[message], List.nodup_singleton _⟩
  consents := .empty
  readable _ := true
  foreignKey m hm := ⟨group, List.mem_singleton_self _, by rw [List.mem_singleton.mp hm]; rfl⟩

def clock : Clock := ⟨fun _ => 10, fun _ _ _ => Int.le_refl 10⟩

def lately : ArchiveOptions := { elements := [.messages], startNs := some 2 }

end ArchiveSample

open ArchiveSample in
/-- The message is exported without its group. -/
theorem archive_without_group : ¬ ∀ (db : ArchiveDb) (opts : ArchiveOptions) (clocks : Nat → Clock)
    (elements : List BackupElement), BatchExportStream.Exports db opts clocks elements →
      Complete db opts elements := by
  intro h
  have hrun : Loop.run (BatchExportStream.collect db lately)
      2 (BatchExportStream.new lately fun _ => clock, []) = some [.groupMessage message] := by
    decide +kernel
  have hcomplete := h db lately (fun _ => clock) [.groupMessage message] (Loop.returns_of_run hrun)
  obtain ⟨g, hg, -⟩ := hcomplete.preceded [] message [] rfl
  cases hg

end LibXmtp.Archive
