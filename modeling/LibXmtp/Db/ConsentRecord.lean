import LibXmtp.Data.Table
import Mathlib.Data.List.Induction

namespace LibXmtp.Db

open LibXmtp.Data

inductive ConsentType
  | conversationId
  | inboxId
  deriving DecidableEq

inductive ConsentState
  | unknown
  | allowed
  | denied
  deriving DecidableEq

structure StoredConsentRecord where
  entityType : ConsentType
  state : ConsentState
  entity : String
  consentedAtNs : Int64
  deriving DecidableEq

namespace StoredConsentRecord

def eq (a b : StoredConsentRecord) : Bool :=
  a.entity = b.entity && a.entityType = b.entityType && a.state = b.state

def key (r : StoredConsentRecord) : ConsentType × String := (r.entityType, r.entity)

def setState (state : ConsentState) (r : StoredConsentRecord) : StoredConsentRecord :=
  { r with state }

@[simp] theorem key_setState (state : ConsentState) (r : StoredConsentRecord) :
    (r.setState state).key = r.key := rfl

theorem setState_of_eq {a b : StoredConsentRecord} (h : a.eq b = true) :
    a.setState b.state = a := by
  simp only [eq, Bool.and_eq_true, decide_eq_true_eq] at h
  rw [setState, ← h.2]

end StoredConsentRecord

abbrev ConsentTable := Table StoredConsentRecord.key

namespace ConsentTable

variable (table : ConsentTable)

def getConsentRecord (entity : String) (entityType : ConsentType) : Option StoredConsentRecord :=
  table.fetch (entityType, entity)

def upsertState (record : StoredConsentRecord) : ConsentTable :=
  if (table.fetch record.key).isSome then
    table.updateWhere (fun r => r.key = record.key) (StoredConsentRecord.key_setState record.state)
  else table.insertOrIgnore record

def insertNewerConsentRecord (record : StoredConsentRecord) : Bool × ConsentTable :=
  match table.fetch record.key with
  | none => (true, table.insertOrIgnore record)
  | some oldRecord =>
    if oldRecord.eq record then (false, table)
    else if oldRecord.consentedAtNs < record.consentedAtNs then (true, table.upsertState record)
    else (false, table)

def insertOrReplaceConsentRecords (records : List StoredConsentRecord) :
    List StoredConsentRecord × ConsentTable :=
  let existing := table.rows.filter fun r => records.any fun record => record.key = r.key
  (records.filter fun r => !existing.any fun old => old.eq r, records.foldl upsertState table)

theorem fetch_upsertState (record : StoredConsentRecord) (key : ConsentType × String) :
    (table.upsertState record).fetch key =
      if record.key = key then some ((table.fetch key).elim record (·.setState record.state))
      else table.fetch key := by
  unfold upsertState
  split
  · rename_i hsome
    rw [Table.fetch_updateWhere]
    cases hold : table.fetch key with
    | none =>
      split
      · rename_i hkey
        rw [hkey, hold] at hsome
        cases hsome
      · rfl
    | some old =>
      have hkey := (Table.fetch_eq_some_iff.mp hold).2
      by_cases h : record.key = key
      · simp [h, hkey]
      · simp [h, hkey, Ne.symm h]
  · rename_i hnone
    rw [Option.not_isSome_iff_eq_none] at hnone
    rw [Table.fetch_insertOrIgnore_of_none hnone]
    split
    · rename_i hkey
      rw [← hkey, hnone]
      rfl
    · rfl

theorem fetch_insertNewerConsentRecord (record : StoredConsentRecord)
    (key : ConsentType × String) :
    (table.insertNewerConsentRecord record).2.fetch key =
      if record.key = key then
        some ((table.fetch key).elim record fun old =>
          if old.consentedAtNs < record.consentedAtNs then old.setState record.state else old)
      else table.fetch key := by
  unfold insertNewerConsentRecord
  split
  · rename_i hnone
    rw [Table.fetch_insertOrIgnore_of_none hnone]
    split
    · rename_i hkey
      rw [← hkey, hnone]
      rfl
    · rfl
  · rename_i old hold
    by_cases hkey : record.key = key
    · subst hkey
      split
      · rename_i heq
        simp [hold, StoredConsentRecord.setState_of_eq heq]
      · split
        · rename_i hlt
          rw [fetch_upsertState]
          simp [hold, hlt]
        · rename_i hlt
          simp [hold, hlt]
    · rw [if_neg hkey]
      split
      · rfl
      · split
        · rw [fetch_upsertState, if_neg hkey]
        · rfl

end ConsentTable

/-- A record of another device, or records that the user's client makes. -/
inductive ConsentWrite
  | received (record : StoredConsentRecord)
  | saved (records : List StoredConsentRecord)

namespace ConsentWrite

def apply (table : ConsentTable) : ConsentWrite → ConsentTable
  | received record => (table.insertNewerConsentRecord record).2
  | saved records => (table.insertOrReplaceConsentRecords records).2

def parts : ConsentWrite → List (Bool × StoredConsentRecord)
  | received record => [(false, record)]
  | saved records => records.map (Prod.mk true)

def applyAll (table : ConsentTable) (writes : List ConsentWrite) : ConsentTable :=
  writes.foldl apply table

end ConsentWrite

def partsOf (writes : List ConsentWrite) : List (Bool × StoredConsentRecord) :=
  writes.flatMap ConsentWrite.parts

section Run

variable {table : ConsentTable} {key : ConsentType × String}

def applyPart (table : ConsentTable) (part : Bool × StoredConsentRecord) : ConsentTable :=
  if part.1 then table.upsertState part.2 else (table.insertNewerConsentRecord part.2).2

theorem applyAll_eq (table : ConsentTable) (writes : List ConsentWrite) :
    ConsentWrite.applyAll table writes = (partsOf writes).foldl applyPart table := by
  induction writes generalizing table with
  | nil => rfl
  | cons write writes ih =>
    have hone : ConsentWrite.apply table write = write.parts.foldl applyPart table := by
      cases write with
      | received record => rfl
      | saved records =>
        rw [ConsentWrite.parts, List.foldl_map]
        rfl
    rw [partsOf, List.flatMap_cons, List.foldl_append, ← hone]
    exact ih (ConsentWrite.apply table write)

def Takes (first : Int64) (part : Bool × StoredConsentRecord) : Bool :=
  part.1 || first < part.2.consentedAtNs

theorem fetch_applyPart (table : ConsentTable) (part : Bool × StoredConsentRecord)
    (key : ConsentType × String) : (applyPart table part).fetch key =
      if part.2.key = key then
        some ((table.fetch key).elim part.2 fun old =>
          if Takes old.consentedAtNs part then old.setState part.2.state else old)
      else table.fetch key := by
  obtain ⟨isLocal, record⟩ := part
  cases isLocal with
  | true =>
    rw [applyPart, if_pos rfl, ConsentTable.fetch_upsertState]
    simp [Takes]
  | false =>
    rw [applyPart, if_neg Bool.false_ne_true, ConsentTable.fetch_insertNewerConsentRecord]
    simp [Takes]

def lastTaken (first : Int64) (key : ConsentType × String)
    (parts : List (Bool × StoredConsentRecord)) : Option StoredConsentRecord :=
  ((parts.filter fun part => part.2.key = key && Takes first part).map Prod.snd).getLast?

theorem lastTaken_concat (first : Int64) (key : ConsentType × String)
    (parts : List (Bool × StoredConsentRecord)) (part : Bool × StoredConsentRecord) :
    lastTaken first key (parts ++ [part]) =
      if part.2.key = key ∧ Takes first part then some part.2 else lastTaken first key parts := by
  rw [lastTaken, List.filter_append, List.map_append]
  by_cases h : part.2.key = key ∧ Takes first part = true
  · have hpart : [part].filter (fun part => part.2.key = key && Takes first part) = [part] := by
      simp [h]
    rw [if_pos h, hpart, List.map_singleton, List.getLast?_concat]
  · have hpart : [part].filter (fun part => part.2.key = key && Takes first part) = [] := by
      simpa using h
    rw [if_neg h, hpart, List.map_nil, List.append_nil]
    rfl

theorem fetch_foldl_of_some {old : StoredConsentRecord} (h : table.fetch key = some old)
    (parts : List (Bool × StoredConsentRecord)) : (parts.foldl applyPart table).fetch key =
      some (old.setState ((lastTaken old.consentedAtNs key parts).getD old).state) := by
  induction parts using List.reverseRecOn with
  | nil => exact h
  | append_singleton parts part ih =>
    rw [List.foldl_append, List.foldl_cons, List.foldl_nil, fetch_applyPart, ih,
      lastTaken_concat]
    by_cases hkey : part.2.key = key
    · by_cases htakes : Takes old.consentedAtNs part = true
      · simp [hkey, htakes, StoredConsentRecord.setState]
      · simp [hkey, htakes, StoredConsentRecord.setState]
    · simp [hkey]

def firstRecord (table : ConsentTable) (key : ConsentType × String)
    (parts : List (Bool × StoredConsentRecord)) : Option StoredConsentRecord :=
  (table.fetch key).or ((parts.map Prod.snd).find? fun r => r.key = key)

theorem getD_lastTaken_cons (first : Int64) (key : ConsentType × String)
    (part : Bool × StoredConsentRecord) (parts : List (Bool × StoredConsentRecord)) :
    (lastTaken first key (part :: parts)).getD part.2 = (lastTaken first key parts).getD part.2 := by
  rw [lastTaken, List.filter_cons]
  split
  · rw [List.map_cons, List.getLast?_cons, Option.getD_some, lastTaken]
  · rfl

theorem fetch_foldl (table : ConsentTable) (key : ConsentType × String)
    (parts : List (Bool × StoredConsentRecord)) : (parts.foldl applyPart table).fetch key =
      (firstRecord table key parts).map fun first =>
        first.setState ((lastTaken first.consentedAtNs key parts).getD first).state := by
  induction parts generalizing table with
  | nil => cases h : table.fetch key <;> simp [firstRecord, h, lastTaken, StoredConsentRecord.setState]
  | cons part parts ih =>
    cases hold : table.fetch key with
    | some old =>
      rw [fetch_foldl_of_some hold]
      simp [firstRecord, hold]
    | none =>
      by_cases hkey : part.2.key = key
      · have hpart : (applyPart table part).fetch key = some part.2 := by
          rw [fetch_applyPart, if_pos hkey, hold]
          rfl
        rw [List.foldl_cons, fetch_foldl_of_some hpart]
        simp [firstRecord, hold, hkey, getD_lastTaken_cons]
      · have hpart : (applyPart table part).fetch key = none := by
          rw [fetch_applyPart, if_neg hkey, hold]
        have hlast : ∀ first, lastTaken first key (part :: parts) = lastTaken first key parts := by
          intro first
          simp [lastTaken, hkey]
        rw [List.foldl_cons, ih]
        simp [firstRecord, hold, hpart, hkey, hlast]

end Run

/-- Of the records of an entity that are stored or written, none has a greater time. -/
def Newest (table : ConsentTable) (writes : List ConsentWrite) (record : StoredConsentRecord) :
    Prop :=
  record ∈ table.rows ++ (partsOf writes).map Prod.snd ∧
    ∀ other ∈ table.rows ++ (partsOf writes).map Prod.snd, other.key = record.key →
      other.consentedAtNs ≤ record.consentedAtNs

def LastWriterWins (table : ConsentTable) (writes : List ConsentWrite) : Prop :=
  ∀ key ∈ (table.rows ++ (partsOf writes).map Prod.snd).map StoredConsentRecord.key,
    ∃ newest, newest.key = key ∧ Newest table writes newest ∧
      ((ConsentWrite.applyAll table writes).fetch key).map (·.state) = some newest.state

/-- The records of an entity have different times, and the ones of the client are later than all
that was there when it made them. -/
structure Timed (table : ConsentTable) (writes : List ConsentWrite) : Prop where
  distinct : ∀ a ∈ (partsOf writes).map Prod.snd, ∀ b ∈ (partsOf writes).map Prod.snd,
    a.key = b.key → a.consentedAtNs = b.consentedAtNs → a = b
  later : ∀ before after record, partsOf writes = before ++ (true, record) :: after →
    ∀ other ∈ table.rows ++ before.map Prod.snd, other.consentedAtNs < record.consentedAtNs

/-- The last of the records that are newer than the first one of their entity has the state of the
newest. -/
def NewestArrivesLast (table : ConsentTable) (writes : List ConsentWrite) : Prop :=
  ∀ key first, firstRecord table key (partsOf writes) = some first →
    ∃ newest, newest.key = key ∧ Newest table writes newest ∧
      ((lastTaken first.consentedAtNs key (partsOf writes)).getD first).state = newest.state

theorem firstRecord_isSome_iff {table : ConsentTable} {key : ConsentType × String}
    {parts : List (Bool × StoredConsentRecord)} : (firstRecord table key parts).isSome ↔
      key ∈ (table.rows ++ parts.map Prod.snd).map StoredConsentRecord.key := by
  have hrow : (table.fetch key).isSome ↔ ∃ r ∈ table.rows, r.key = key := by
    rw [Table.fetch, List.find?_isSome]
    simp
  have hpart : ((parts.map Prod.snd).find? fun r => r.key = key).isSome ↔
      ∃ r ∈ parts.map Prod.snd, r.key = key := by
    rw [List.find?_isSome]
    simp
  rw [firstRecord, Option.isSome_or, Bool.or_eq_true, hrow, hpart, List.map_append, List.mem_append,
    List.mem_map, List.mem_map]

/-- A row keeps the time it was first written with, so an old record that arrives late can undo a
new one. -/
theorem lastWriterWins_iff (table : ConsentTable) (writes : List ConsentWrite) :
    LastWriterWins table writes ↔ NewestArrivesLast table writes := by
  simp only [LastWriterWins, applyAll_eq, fetch_foldl, ← firstRecord_isSome_iff]
  constructor
  · intro h key first hfirst
    obtain ⟨newest, hkey, hnewest, hstate⟩ := h key (by rw [hfirst]; rfl)
    rw [hfirst] at hstate
    exact ⟨newest, hkey, hnewest, Option.some.inj hstate⟩
  · intro h key hsome
    obtain ⟨first, hfirst⟩ := Option.isSome_iff_exists.mp hsome
    obtain ⟨newest, hkey, hnewest, hstate⟩ := h key first hfirst
    refine ⟨newest, hkey, hnewest, ?_⟩
    rw [hfirst]
    exact congrArg some hstate

namespace Sample

def consent (state : ConsentState) (consentedAtNs : Int64) : StoredConsentRecord :=
  ⟨.inboxId, state, "inbox", consentedAtNs⟩

def lateAllowance : List ConsentWrite :=
  [.received (consent .allowed 1), .received (consent .denied 3), .received (consent .allowed 2)]

end Sample

theorem lastWriterWins_late_arrival : ¬∀ table writes, Timed table writes →
    LastWriterWins table writes := by
  intro h
  have htimed : Timed .empty Sample.lateAllowance := by
    constructor
    · decide
    · intro before after record hsplit
      have hmem : (true, record) ∈ partsOf Sample.lateAllowance := by
        rw [hsplit]
        simp
      simp [Sample.lateAllowance, partsOf, ConsentWrite.parts] at hmem
  obtain ⟨newest, _, ⟨hmem, hnewest⟩, hstate⟩ :=
    h .empty Sample.lateAllowance htimed (.inboxId, "inbox") (by decide)
  have hallowed : newest.state = .allowed :=
    Option.some.inj (hstate.symm.trans (by decide : _ = some ConsentState.allowed))
  have hwritten : newest ∈ [Sample.consent .allowed 1, Sample.consent .denied 3,
    Sample.consent .allowed 2] := hmem
  have hlate := hnewest (Sample.consent .denied 3) (by decide)
  simp only [List.mem_cons, List.not_mem_nil, or_false] at hwritten
  rcases hwritten with rfl | rfl | rfl
  · exact absurd (hlate rfl) (by decide)
  · cases hallowed
  · exact absurd (hlate rfl) (by decide)

end LibXmtp.Db
