import LibXmtp.Data.Session
import LibXmtp.Data.Table
import LibXmtp.Associations.StateSerialization

namespace LibXmtp.Db

open LibXmtp.Data LibXmtp.Associations

structure StoredIdentityUpdate where
  inboxId : String
  sequenceId : Int
  payload : Bytes
  deriving DecidableEq

def StoredIdentityUpdate.key (u : StoredIdentityUpdate) : String × Int := (u.inboxId, u.sequenceId)

structure StoredAssociationState where
  inboxId : String
  sequenceId : Int
  state : Bytes

def StoredAssociationState.key (c : StoredAssociationState) : String × Int :=
  (c.inboxId, c.sequenceId)

abbrev IdentityUpdates := Table StoredIdentityUpdate.key

structure Database where
  identityUpdates : IdentityUpdates
  associationState : Table StoredAssociationState.key

inductive StorageError
  | prost
  | conversion (error : Proto.ConversionError)

structure Codec where
  decodeUpdate : Bytes → Option Proto.IdentityUpdate
  encodeState : Proto.AssociationState → Bytes
  decodeState : Bytes → Option Proto.AssociationState
  decodeState_encodeState : ∀ proto, decodeState (encodeState proto) = some proto

/-- The updates of an inbox greater than `fromSequenceId` and less than or equal to
`toSequenceId`, in the order of their sequence ids. -/
def getIdentityUpdates (updates : IdentityUpdates) (inboxId : String)
    (fromSequenceId toSequenceId : Option Int) : List StoredIdentityUpdate :=
  updates.select StoredIdentityUpdate.sequenceId fun u =>
    u.inboxId == inboxId && fromSequenceId.all (· < u.sequenceId) &&
      toSequenceId.all (u.sequenceId ≤ ·)

namespace Database

def insertOrIgnoreIdentityUpdates (updates : List StoredIdentityUpdate) (db : Database) : Database :=
  { db with identityUpdates := db.identityUpdates.insertAllOrIgnore updates }

def writeToCache (codec : Codec) (inboxId : String) (sequenceId : Int)
    (state : Proto.AssociationState) (db : Database) : Database :=
  { db with
    associationState :=
      db.associationState.insertOrIgnore ⟨inboxId, sequenceId, codec.encodeState state⟩ }

def readFromCache (codec : Codec) (inboxId : String) (sequenceId : Int) (db : Database) :
    Except StorageError (Option Proto.AssociationState) :=
  match db.associationState.fetch (inboxId, sequenceId) with
  | some stored => some <$> okOr (codec.decodeState stored.state) .prost
  | none => .ok none

end Database

section Query

variable {updates : IdentityUpdates} {inboxId : String} {fromId toId : Option Int}

theorem mem_getIdentityUpdates {u : StoredIdentityUpdate} :
    u ∈ getIdentityUpdates updates inboxId fromId toId ↔
      u ∈ updates.rows ∧ u.inboxId = inboxId ∧ (∀ k, fromId = some k → k < u.sequenceId) ∧
        ∀ k, toId = some k → u.sequenceId ≤ k := by
  simp [getIdentityUpdates, Table.mem_select, and_assoc, Option.all_eq_true]

theorem pairwise_getIdentityUpdates :
    (getIdentityUpdates updates inboxId fromId toId).Pairwise fun u v =>
      u.sequenceId < v.sequenceId := by
  apply Table.pairwise_select
  intro u _ v _ hu hv hid
  simp only [Bool.and_eq_true, beq_iff_eq] at hu hv
  exact Prod.ext (hu.1.1.trans hv.1.1.symm) hid

theorem getIdentityUpdates_append {j k : Int} (h : j ≤ k) :
    getIdentityUpdates updates inboxId none (some k) =
      getIdentityUpdates updates inboxId none (some j) ++
        getIdentityUpdates updates inboxId (some j) (some k) := by
  apply eq_of_pairwise_lt pairwise_getIdentityUpdates
  · refine List.pairwise_append.mpr ⟨pairwise_getIdentityUpdates, pairwise_getIdentityUpdates, ?_⟩
    intro u hu v hv
    have huj := (mem_getIdentityUpdates.mp hu).2.2.2 j rfl
    have hvj := (mem_getIdentityUpdates.mp hv).2.2.1 j rfl
    omega
  · intro u
    simp only [List.mem_append, mem_getIdentityUpdates, Option.some.injEq, forall_eq', reduceCtorEq,
      false_implies, implies_true, true_and]
    constructor
    · rintro ⟨hmem, hid, hk⟩
      by_cases hj : u.sequenceId ≤ j
      · exact .inl ⟨hmem, hid, hj⟩
      · exact .inr ⟨hmem, hid, by omega, hk⟩
    · rintro (⟨hmem, hid, hj⟩ | ⟨hmem, hid, _, hk⟩)
      · exact ⟨hmem, hid, hj.trans h⟩
      · exact ⟨hmem, hid, hk⟩

theorem getIdentityUpdates_to_last {last : StoredIdentityUpdate}
    (h : (getIdentityUpdates updates inboxId fromId toId).getLast? = some last) :
    getIdentityUpdates updates inboxId fromId (some last.sequenceId) =
      getIdentityUpdates updates inboxId fromId toId := by
  apply eq_of_pairwise_lt pairwise_getIdentityUpdates pairwise_getIdentityUpdates
  intro u
  have hto := (mem_getIdentityUpdates.mp (List.mem_of_getLast? h)).2.2.2
  constructor
  · intro hu
    obtain ⟨hmem, hid, hfrom, hlast⟩ := mem_getIdentityUpdates.mp hu
    refine mem_getIdentityUpdates.mpr ⟨hmem, hid, hfrom, fun k hk => ?_⟩
    exact (hlast _ rfl).trans (hto k hk)
  · intro hu
    obtain ⟨hmem, hid, hfrom, _⟩ := mem_getIdentityUpdates.mp hu
    refine mem_getIdentityUpdates.mpr ⟨hmem, hid, hfrom, ?_⟩
    rintro _ ⟨⟩
    exact le_getLast_of_pairwise_lt pairwise_getIdentityUpdates h hu

theorem getLast?_getIdentityUpdates {k : Int} {u : StoredIdentityUpdate} (hmem : u ∈ updates.rows)
    (hid : u.inboxId = inboxId) (hk : u.sequenceId = k) (hfrom : ∀ j, fromId = some j → j < k) :
    (getIdentityUpdates updates inboxId fromId (some k)).getLast? = some u := by
  have hu : u ∈ getIdentityUpdates updates inboxId fromId (some k) := by
    refine mem_getIdentityUpdates.mpr ⟨hmem, hid, hk ▸ hfrom, ?_⟩
    rintro _ ⟨⟩
    exact le_of_eq hk
  have hne := List.ne_nil_of_mem hu
  have hlast := List.getLast?_eq_some_getLast hne
  have hmost := (mem_getIdentityUpdates.mp (List.getLast_mem hne)).2.2.2 k rfl
  have hleast := le_getLast_of_pairwise_lt pairwise_getIdentityUpdates hlast hu
  obtain ⟨hmem', hid', _⟩ := mem_getIdentityUpdates.mp (List.getLast_mem hne)
  have hseq := le_antisymm (hmost.trans_eq hk.symm) hleast
  rw [hlast, updates.eq_of_key_eq hmem' hmem (Prod.ext (hid'.trans hid.symm) hseq)]

theorem getIdentityUpdates_insert {batch : List StoredIdentityUpdate} {k : Int}
    (h : ∀ u ∈ batch, u.key ∉ updates.rows.map StoredIdentityUpdate.key → u.inboxId = inboxId →
      k < u.sequenceId) :
    getIdentityUpdates (updates.insertAllOrIgnore batch) inboxId fromId (some k) =
      getIdentityUpdates updates inboxId fromId (some k) := by
  apply eq_of_pairwise_lt pairwise_getIdentityUpdates pairwise_getIdentityUpdates
  intro u
  simp only [mem_getIdentityUpdates, Option.some.injEq, forall_eq']
  constructor
  · rintro ⟨hmem, hid, hfrom, hk⟩
    rcases Table.mem_of_mem_insertAllOrIgnore hmem with hmem | ⟨hmem, hkey⟩
    · exact ⟨hmem, hid, hfrom, hk⟩
    · have := h u hmem hkey hid
      omega
  · rintro ⟨hmem, hid, hfrom, hk⟩
    exact ⟨Table.mem_insertAllOrIgnore_of_mem hmem, hid, hfrom, hk⟩

end Query

end LibXmtp.Db
