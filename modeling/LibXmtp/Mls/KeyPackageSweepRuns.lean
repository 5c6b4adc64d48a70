import LibXmtp.Mls.KeyPackageSweep

namespace LibXmtp.Mls.KeyPackageSweep

open LibXmtp.Data LibXmtp.Db

variable {Ref : Type}

inductive Op (Ref : Type)
  | write (key : MaterialKey Ref)
  | store (hashRef : Bytes) (pqPubKey : Option Bytes) (now : Int64)
  | mark (id : Nat) (now : Int64)
  | sweep (now : Int64) (failsAfter : Option Nat)

namespace Op

def stored : Op Ref → Option (Bytes × Option Bytes)
  | store hashRef pqPubKey _ => some (hashRef, pqPubKey)
  | _ => none

def markedAt : Op Ref → Option Int64
  | mark _ now => some now
  | _ => none

def sweptAt : Op Ref → Option Int64
  | sweep now _ => some now
  | _ => none

end Op

def Store.start (material : List (MaterialKey Ref)) : Store Ref := ⟨.empty, material, none⟩

section Run

variable [DecidableEq Ref] (codec : KeyCodec Ref)

def sweepOutcome (s : Store Ref) (now : Int64) (failsAfter : Option Nat) :
    Except KeyPackageMaintenanceError PUnit × Store Ref :=
  (sweepExpired codec now).outcome { s with failsAfter }

def perform (s : Store Ref) : Op Ref → Store Ref
  | .write key => { s with material := key :: s.material }
  | .store hashRef pqPubKey now =>
    { s with history := (s.history.storeKeyPackageHistoryEntry hashRef pqPubKey now).1 }
  | .mark id now => { s with history := s.history.markKeyPackageBeforeIdToBeDeleted id now }
  | .sweep now failsAfter => (sweepOutcome codec s now failsAfter).2

/-- It holds of every call of a run, in the state in which it is made. -/
def Along (P : Store Ref → Op Ref → Prop) : Store Ref → List (Op Ref) → Prop
  | _, [] => True
  | s, op :: ops => P s op ∧ Along P (perform codec s op) ops

def Completes (s : Store Ref) : Op Ref → Prop
  | .sweep now failsAfter => (sweepOutcome codec s now failsAfter).1 = .ok ⟨⟩
  | _ => True

/-- An entry is removed only when it is due and with all its material, and the material of an entry
that is not due stays. -/
structure Exact (s : Store Ref) (op : Op Ref) : Prop where
  removed : ∀ kp ∈ s.history.rows, (∀ kp' ∈ (perform codec s op).history.rows, kp'.id ≠ kp.id) →
    op.sweptAt.any kp.isExpired = true ∧
      ∀ key ∈ codec.material kp.keyPackageHashRef kp.postQuantumPublicKey,
        key ∉ (perform codec s op).material
  kept : ∀ kp ∈ s.history.rows, op.sweptAt.any kp.isExpired = false →
    ∀ key ∈ codec.material kp.keyPackageHashRef kp.postQuantumPublicKey, key ∈ s.material →
      key ∈ (perform codec s op).material

end Run

/-- The entries that are due come before those that are not and have no material in common with
them. -/
structure Separated (codec : KeyCodec Ref) (s : Store Ref) (op : Op Ref) : Prop where
  below : ∀ kp ∈ s.history.rows, ∀ kp' ∈ s.history.rows, kp.id ≤ kp'.id →
    op.sweptAt.any kp'.isExpired = true → op.sweptAt.any kp.isExpired = true
  apart : ∀ kp ∈ s.history.rows, ∀ kp' ∈ s.history.rows, op.sweptAt.any kp.isExpired = false →
    op.sweptAt.any kp'.isExpired = true →
    ∀ key ∈ codec.material kp.keyPackageHashRef kp.postQuantumPublicKey, key ∈ s.material →
      key ∉ codec.material kp'.keyPackageHashRef kp'.postQuantumPublicKey

theorem Separated.of_sweptAt {codec : KeyCodec Ref} {s : Store Ref} {op : Op Ref}
    (h : op.sweptAt = none) : Separated codec s op where
  below _ _ _ _ _ hexpired := by
    rw [h] at hexpired
    cases hexpired
  apart _ _ _ _ _ hexpired := by
    rw [h] at hexpired
    cases hexpired

/-- The clock that marks read does not go back, and is not about to end. -/
structure Timely (ops : List (Op Ref)) : Prop where
  nondecreasing : (ops.filterMap Op.markedAt).Pairwise (· ≤ ·)
  room : ∀ now ∈ ops.filterMap Op.markedAt,
    now.toInt + keysExpirationIntervalNs.toInt ≤ Int64.maxValue.toInt

def Unshared (codec : KeyCodec Ref) (ops : List (Op Ref)) : Prop :=
  (ops.filterMap Op.stored).Pairwise fun e e' => e.1 ≠ e'.1 →
    (codec.material e.1 e.2).Disjoint (codec.material e'.1 e'.2)

section Along

variable [DecidableEq Ref] {codec : KeyCodec Ref} {P Q : Store Ref → Op Ref → Prop}
  {s : Store Ref} {op : Op Ref} {ops : List (Op Ref)}

theorem Along.imp (hPQ : ∀ s op, P s op → Q s op) (h : Along codec P s ops) :
    Along codec Q s ops := by
  induction ops generalizing s with
  | nil => exact trivial
  | cons op ops ih => exact ⟨hPQ s op h.1, ih h.2⟩

theorem Along.and (hP : Along codec P s ops) (hQ : Along codec Q s ops) :
    Along codec (fun s op => P s op ∧ Q s op) s ops := by
  induction ops generalizing s with
  | nil => exact trivial
  | cons op ops ih => exact ⟨⟨hP.1, hQ.1⟩, ih hP.2 hQ.2⟩

theorem swept_sweepOutcome (codec : KeyCodec Ref) (s : Store Ref) (now : Int64)
    (failsAfter : Option Nat) : Swept codec s now (sweepOutcome codec s now failsAfter).1
      (sweepOutcome codec s now failsAfter).2 := by
  have hswept := (swept_sweepExpired codec now { s with failsAfter }).run _ rfl
  exact ⟨hswept.subset, hswept.kept, hswept.rows, hswept.ok⟩

theorem Separated.exact (h : Separated codec s op) : Exact codec s op := by
  cases op with
  | write key =>
    exact
      { removed := fun kp hkp hnot => absurd rfl (hnot kp hkp)
        kept := fun _ _ _ key _ hmem => List.mem_cons_of_mem _ hmem }
  | store hashRef pqPubKey now =>
    exact
      { removed := fun kp hkp hnot =>
          absurd rfl (hnot kp (KeyPackageHistory.mem_rows_storeOrIgnore.mpr (.inl hkp)))
        kept := fun _ _ _ key _ hmem => hmem }
  | mark id now =>
    refine ⟨fun kp hkp hnot => ?_, fun _ _ _ key _ hmem => hmem⟩
    have hmarked := hnot _ (KeyPackageHistory.mem_rows_mark.mpr ⟨kp, hkp, rfl⟩)
    split at hmarked
    · exact absurd rfl hmarked
    · exact absurd rfl hmarked
  | sweep now failsAfter =>
    have hswept := swept_sweepOutcome codec s now failsAfter
    refine ⟨fun kp hkp hnot => ?_, fun kp hkp hlive key hkey hmem => ?_⟩
    · rcases hswept.rows with hsame | ⟨maxId, hmax, hhistory, hgone⟩
      · rw [perform, hsame] at hnot
        exact absurd rfl (hnot kp hkp)
      · have hle : kp.id ≤ maxId := by
          by_contra hlt
          have hkp' : kp ∈ (perform codec s (.sweep now failsAfter)).history.rows := by
            rw [perform, hhistory, KeyPackageHistory.mem_rows_delete]
            exact ⟨hkp, Nat.lt_of_not_le hlt⟩
          exact absurd rfl (hnot kp hkp')
        obtain ⟨kp', hkp', hid⟩ := List.mem_map.mp (List.max?_mem hmax)
        obtain ⟨hmem', hexpired⟩ := KeyPackageHistory.mem_getExpiredKeyPackages.mp hkp'
        have hdue := h.below kp hkp kp' hmem' (hid ▸ hle) hexpired
        exact ⟨hdue, hgone kp (KeyPackageHistory.mem_getExpiredKeyPackages.mpr ⟨hkp, hdue⟩)⟩
    · apply hswept.kept key hmem
      intro kp' hkp'
      obtain ⟨hmem', hexpired⟩ := KeyPackageHistory.mem_getExpiredKeyPackages.mp hkp'
      exact h.apart kp hkp kp' hmem' hlive hexpired key hkey hmem

theorem Exact.separated (h : Exact codec s op) (hcompletes : Completes codec s op) :
    Separated codec s op := by
  cases op with
  | write key => exact .of_sweptAt rfl
  | store hashRef pqPubKey now => exact .of_sweptAt rfl
  | mark id now => exact .of_sweptAt rfl
  | sweep now failsAfter =>
    have hswept := swept_sweepOutcome codec s now failsAfter
    have hdue {kp : StoredKeyPackageHistoryEntry} (hkp : kp ∈ s.history.rows)
        (hexpired : kp.isExpired now = true) : kp ∈ s.history.getExpiredKeyPackages now :=
      KeyPackageHistory.mem_getExpiredKeyPackages.mpr ⟨hkp, hexpired⟩
    rcases hswept.ok hcompletes with hnone | ⟨maxId, hmax, hhistory, hgone⟩
    · rw [hnone] at hdue
      exact
        { below := fun _ _ kp' hkp' _ hexpired => absurd (hdue hkp' hexpired) List.not_mem_nil
          apart := fun _ _ kp' hkp' _ hexpired => absurd (hdue hkp' hexpired) List.not_mem_nil }
    · refine ⟨fun kp hkp kp' hkp' hle hexpired => ?_,
        fun kp hkp kp' hkp' hlive hexpired key hkey hmem => ?_⟩
      · have hmaxId : kp'.id ≤ maxId :=
          (List.max?_eq_some_iff.mp hmax).2 _ (List.mem_map_of_mem (hdue hkp' hexpired))
        have hremoved : ∀ old ∈ (perform codec s (.sweep now failsAfter)).history.rows,
            old.id ≠ kp.id := by
          rw [perform, hhistory]
          intro old hold heq
          have hlt := (KeyPackageHistory.mem_rows_delete.mp hold).2
          omega
        exact (h.removed kp hkp hremoved).1
      · have hkept := h.kept kp hkp hlive key hkey hmem
        intro hshared
        exact hgone kp' (hdue hkp' hexpired) key hshared hkept

end Along

section Timely

variable {codec : KeyCodec Ref} {rows rows' : List StoredKeyPackageHistoryEntry} {op : Op Ref}
  {ops : List (Op Ref)}

theorem deleteAt_le {now now' : Int64} (hle : now ≤ now')
    (hroom : now'.toInt + keysExpirationIntervalNs.toInt ≤ Int64.maxValue.toInt) :
    now + keysExpirationIntervalNs ≤ now' + keysExpirationIntervalNs := by
  have hinterval : keysExpirationIntervalNs.toInt = 86400000000000 := rfl
  rw [Int64.le_iff_toInt_le] at hle
  have hmin : -9223372036854775808 ≤ now.toInt := now.le_toInt
  have hmax : Int64.maxValue.toInt = 9223372036854775807 := rfl
  rw [hinterval, hmax] at hroom
  rw [Int64.le_iff_toInt_le, Int64.toInt_add, Int64.toInt_add, hinterval,
    Int.bmod_eq_of_le_mul_two (by omega) (by omega), Int.bmod_eq_of_le_mul_two (by omega) (by omega)]
  omega

/-- The deadlines are ordered like the ids and are no later than those still to come, and no two
key packages have a key in common. -/
structure Dated (codec : KeyCodec Ref) (rows : List StoredKeyPackageHistoryEntry)
    (ops : List (Op Ref)) : Prop where
  ordered : ∀ kp ∈ rows, ∀ kp' ∈ rows, kp.id ≤ kp'.id → ∀ deleteAt', kp'.deleteAtNs = some deleteAt' →
    ∃ deleteAt, kp.deleteAtNs = some deleteAt ∧ deleteAt ≤ deleteAt'
  ahead : ∀ kp ∈ rows, ∀ deleteAt, kp.deleteAtNs = some deleteAt →
    ∀ now ∈ ops.filterMap Op.markedAt, deleteAt ≤ now + keysExpirationIntervalNs
  apart : ∀ kp ∈ rows, ∀ kp' ∈ rows, kp.hashRef ≠ kp'.hashRef →
    (codec.material kp.keyPackageHashRef kp.postQuantumPublicKey).Disjoint
      (codec.material kp'.keyPackageHashRef kp'.postQuantumPublicKey)
  unshared : ∀ kp ∈ rows, ∀ e ∈ ops.filterMap Op.stored, kp.keyPackageHashRef ≠ e.1 →
    (codec.material kp.keyPackageHashRef kp.postQuantumPublicKey).Disjoint
      (codec.material e.1 e.2)

theorem Dated.subset (h : Dated codec rows ops) (hsub : rows' ⊆ rows) : Dated codec rows' ops where
  ordered kp hkp kp' hkp' := h.ordered kp (hsub hkp) kp' (hsub hkp')
  ahead kp hkp := h.ahead kp (hsub hkp)
  apart kp hkp kp' hkp' := h.apart kp (hsub hkp) kp' (hsub hkp')
  unshared kp hkp := h.unshared kp (hsub hkp)

theorem Dated.tail (h : Dated codec rows (op :: ops)) : Dated codec rows ops where
  ordered := h.ordered
  ahead kp hkp deleteAt hdeleteAt now hnow := by
    apply h.ahead kp hkp deleteAt hdeleteAt now
    rw [List.filterMap_cons]
    split
    · exact hnow
    · exact List.mem_cons_of_mem _ hnow
  apart := h.apart
  unshared kp hkp e he := by
    apply h.unshared kp hkp e
    rw [List.filterMap_cons]
    split
    · exact he
    · exact List.mem_cons_of_mem _ he

theorem Dated.store {history : KeyPackageHistory} {hashRef : Bytes} {pqPubKey : Option Bytes}
    {now : Int64} (h : Dated codec history.rows (.store hashRef pqPubKey now :: ops))
    (hunshared : Unshared codec (.store hashRef pqPubKey now :: ops)) :
    Dated codec (history.storeOrIgnore ⟨hashRef, pqPubKey, now⟩).rows ops := by
  have hstored : (hashRef, pqPubKey) ∈
      (.store hashRef pqPubKey now :: ops : List (Op Ref)).filterMap Op.stored :=
    List.mem_cons_self
  refine ⟨fun kp hkp kp' hkp' hle deleteAt' hdeleteAt => ?_, fun kp hkp deleteAt hdeleteAt => ?_,
    fun kp hkp kp' hkp' hne => ?_, fun kp hkp e he hne => ?_⟩
  · rcases KeyPackageHistory.mem_rows_storeOrIgnore.mp hkp' with hkp' | ⟨rfl, -⟩
    · rcases KeyPackageHistory.mem_rows_storeOrIgnore.mp hkp with hkp | ⟨rfl, -⟩
      · exact h.ordered kp hkp kp' hkp' hle deleteAt' hdeleteAt
      · exact absurd (history.fresh kp' hkp') (Nat.not_lt_of_le hle)
    · cases hdeleteAt
  · rcases KeyPackageHistory.mem_rows_storeOrIgnore.mp hkp with hkp | ⟨rfl, -⟩
    · exact h.tail.ahead kp hkp deleteAt hdeleteAt
    · cases hdeleteAt
  · rcases KeyPackageHistory.mem_rows_storeOrIgnore.mp hkp with hkp | ⟨rfl, -⟩
    · rcases KeyPackageHistory.mem_rows_storeOrIgnore.mp hkp' with hkp' | ⟨rfl, -⟩
      · exact h.apart kp hkp kp' hkp' hne
      · exact h.unshared kp hkp _ hstored hne
    · rcases KeyPackageHistory.mem_rows_storeOrIgnore.mp hkp' with hkp' | ⟨rfl, -⟩
      · exact (h.unshared kp' hkp' _ hstored hne.symm).symm
      · exact absurd rfl hne
  · rcases KeyPackageHistory.mem_rows_storeOrIgnore.mp hkp with hkp | ⟨rfl, -⟩
    · exact h.tail.unshared kp hkp e he hne
    · exact List.rel_of_pairwise_cons hunshared he hne

theorem Dated.mark {history : KeyPackageHistory} {id : Nat} {now : Int64}
    (h : Dated codec history.rows (.mark id now :: ops)) (htimely : Timely (.mark id now :: ops)) :
    Dated codec (history.markKeyPackageBeforeIdToBeDeleted id now).rows ops := by
  have hmarks : (.mark id now :: ops : List (Op Ref)).filterMap Op.markedAt =
      now :: ops.filterMap Op.markedAt := rfl
  have hnow {kp : StoredKeyPackageHistoryEntry} (hkp : kp ∈ history.rows) {deleteAt : Int64}
      (hdeleteAt : kp.deleteAtNs = some deleteAt) : deleteAt ≤ now + keysExpirationIntervalNs :=
    h.ahead kp hkp deleteAt hdeleteAt now List.mem_cons_self
  refine ⟨fun kp hkp kp' hkp' hle deleteAt' hdeleteAt => ?_, fun kp hkp deleteAt hdeleteAt => ?_,
    fun kp hkp kp' hkp' hne => ?_, fun kp hkp e he hne => ?_⟩
  · rcases KeyPackageHistory.mark_cases hkp' with ⟨hkp', -⟩ | ⟨old', hold', hbefore, -, rfl⟩
    · rcases KeyPackageHistory.mark_cases hkp with ⟨hkp, -⟩ | ⟨old, hold, -, hnone, rfl⟩
      · exact h.ordered kp hkp kp' hkp' hle deleteAt' hdeleteAt
      · obtain ⟨deleteAt, hsome, -⟩ := h.ordered old hold kp' hkp' hle deleteAt' hdeleteAt
        rw [hnone] at hsome
        cases hsome
    · rw [StoredKeyPackageHistoryEntry.deleteAtNs_marked, Option.some.injEq] at hdeleteAt
      subst hdeleteAt
      rcases KeyPackageHistory.mark_cases hkp with ⟨hkp, hset⟩ | ⟨old, -, -, -, rfl⟩
      · obtain ⟨deleteAt, hdeleteAt⟩ := hset (Nat.lt_of_le_of_lt hle hbefore)
        exact ⟨deleteAt, hdeleteAt, hnow hkp hdeleteAt⟩
      · exact ⟨_, rfl, Int64.le_refl _⟩
  · rcases KeyPackageHistory.mark_cases hkp with ⟨hkp, -⟩ | ⟨old, -, -, -, rfl⟩
    · exact h.tail.ahead kp hkp deleteAt hdeleteAt
    · rw [StoredKeyPackageHistoryEntry.deleteAtNs_marked, Option.some.injEq] at hdeleteAt
      subst hdeleteAt
      intro now' hnow'
      apply deleteAt_le
      · exact List.rel_of_pairwise_cons (hmarks ▸ htimely.nondecreasing) hnow'
      · exact htimely.room now' (hmarks ▸ List.mem_cons_of_mem _ hnow')
  · rcases KeyPackageHistory.mark_cases hkp with ⟨hkp, -⟩ | ⟨old, hold, -, -, rfl⟩
    · rcases KeyPackageHistory.mark_cases hkp' with ⟨hkp', -⟩ | ⟨old', hold', -, -, rfl⟩
      · exact h.apart kp hkp kp' hkp' hne
      · exact h.apart kp hkp old' hold' hne
    · rcases KeyPackageHistory.mark_cases hkp' with ⟨hkp', -⟩ | ⟨old', hold', -, -, rfl⟩
      · exact h.apart old hold kp' hkp' hne
      · exact h.apart old hold old' hold' hne
  · rcases KeyPackageHistory.mark_cases hkp with ⟨hkp, -⟩ | ⟨old, hold, -, -, rfl⟩
    · exact h.tail.unshared kp hkp e he hne
    · exact h.tail.unshared old hold e he hne

theorem Dated.perform [DecidableEq Ref] {s : Store Ref} (h : Dated codec s.history.rows (op :: ops))
    (htimely : Timely (op :: ops)) (hunshared : Unshared codec (op :: ops)) :
    Dated codec (perform codec s op).history.rows ops := by
  cases op with
  | write key => exact h.tail
  | store hashRef pqPubKey now => exact h.store hunshared
  | mark id now => exact h.mark htimely
  | sweep now failsAfter =>
    apply h.tail.subset
    rcases (swept_sweepOutcome codec s now failsAfter).rows with hsame | ⟨maxId, -, hhistory, -⟩
    · rw [KeyPackageSweep.perform, hsame]
      exact List.Subset.refl _
    · rw [KeyPackageSweep.perform, hhistory]
      exact fun kp hkp => (KeyPackageHistory.mem_rows_delete.mp hkp).1

theorem Dated.separated {s : Store Ref} (h : Dated codec s.history.rows ops) (op : Op Ref) :
    Separated codec s op where
  below kp hkp kp' hkp' hle hexpired := by
    cases hswept : op.sweptAt with
    | none =>
      rw [hswept] at hexpired
      cases hexpired
    | some now =>
      rw [hswept, Option.any_some, StoredKeyPackageHistoryEntry.isExpired,
        Option.any_eq_true] at hexpired
      obtain ⟨deleteAt', hdeleteAt', hdue⟩ := hexpired
      obtain ⟨deleteAt, hdeleteAt, hle'⟩ := h.ordered kp hkp kp' hkp' hle deleteAt' hdeleteAt'
      rw [Option.any_some, StoredKeyPackageHistoryEntry.isExpired, hdeleteAt, Option.any_some]
      exact decide_eq_true (Int64.le_trans hle' (of_decide_eq_true hdue))
  apart kp hkp kp' hkp' hlive hexpired key hkey _ hshared := by
    have hne : kp.hashRef ≠ kp'.hashRef := by
      intro heq
      rw [s.history.entries.eq_of_key_eq hkp hkp' heq, hexpired] at hlive
      cases hlive
    exact h.apart kp hkp kp' hkp' hne hkey hshared

theorem Timely.tail (h : Timely (op :: ops)) : Timely ops where
  nondecreasing := h.nondecreasing.sublist (List.Sublist.filterMap _ (List.sublist_cons_self _ _))
  room now hnow := h.room now
    ((List.Sublist.filterMap _ (List.sublist_cons_self _ _)).subset hnow)

theorem Unshared.tail (h : Unshared codec (op :: ops)) : Unshared codec ops :=
  List.Pairwise.sublist (List.Sublist.filterMap _ (List.sublist_cons_self _ _)) h

theorem Dated.along [DecidableEq Ref] {s : Store Ref} (h : Dated codec s.history.rows ops)
    (htimely : Timely ops) (hunshared : Unshared codec ops) : Along codec (Separated codec) s ops := by
  induction ops generalizing s with
  | nil => exact trivial
  | cons op ops ih =>
    exact ⟨h.separated op, ih (h.perform htimely hunshared) htimely.tail hunshared.tail⟩

theorem dated_nil (codec : KeyCodec Ref) (ops : List (Op Ref)) : Dated codec [] ops where
  ordered _ h := absurd h List.not_mem_nil
  ahead _ h := absurd h List.not_mem_nil
  apart _ h := absurd h List.not_mem_nil
  unshared _ h := absurd h List.not_mem_nil

end Timely

theorem exact_iff_separated [DecidableEq Ref] (codec : KeyCodec Ref)
    (material : List (MaterialKey Ref)) (ops : List (Op Ref)) :
    (Along codec (Separated codec) (.start material) ops →
      Along codec (Exact codec) (.start material) ops) ∧
    (Along codec (Completes codec) (.start material) ops →
      (Along codec (Exact codec) (.start material) ops ↔
        Along codec (Separated codec) (.start material) ops)) ∧
    (Timely ops → Unshared codec ops → Along codec (Separated codec) (.start material) ops) := by
  have hexact : Along codec (Separated codec) (.start material) ops →
      Along codec (Exact codec) (.start material) ops :=
    Along.imp fun _ _ h => h.exact
  refine ⟨hexact, fun hcompletes => ⟨fun h => ?_, hexact⟩, (dated_nil codec ops).along⟩
  exact (h.and hcompletes).imp fun _ _ h => h.1.separated h.2

section Rotations

def plain : KeyCodec Bytes := ⟨some, some⟩

/-- Three key packages without post quantum keys, of which the first two are marked when the next
is made, and a sweep. -/
def rotations (first second swept : Int64) : List (Op Bytes) :=
  [.write (.keyPackage [1]), .store [1] none 0, .write (.keyPackage [2]), .store [2] none 0,
    .mark 2 first, .write (.keyPackage [3]), .store [3] none 0, .mark 3 second, .sweep swept none]

theorem exact_rotations :
    Along plain (Exact plain) (.start []) (rotations 0 1000 (keysExpirationIntervalNs + 500)) := by
  apply (exact_iff_separated plain [] (rotations 0 1000 (keysExpirationIntervalNs + 500))).1
  apply (exact_iff_separated plain [] (rotations 0 1000 (keysExpirationIntervalNs + 500))).2.2
  · have hmarked : (rotations 0 1000 (keysExpirationIntervalNs + 500)).filterMap Op.markedAt =
        [0, 1000] := rfl
    refine ⟨by decide +kernel, ?_⟩
    rw [hmarked, List.forall_mem_cons, List.forall_mem_singleton]
    exact ⟨by decide +kernel, by decide +kernel⟩
  · have hstored : (rotations 0 1000 (keysExpirationIntervalNs + 500)).filterMap Op.stored =
        [([1], none), ([2], none), ([3], none)] := rfl
    rw [Unshared, hstored]
    simp [plain, KeyCodec.material]

/-- The clock has gone back between the marks: the second key package is due before the first. -/
theorem not_exact_rotations : ¬Along plain (Exact plain) (.start [])
    (rotations 1000 0 (keysExpirationIntervalNs + 500)) := by
  intro h
  have hsweep := h.2.2.2.2.2.2.2.2.1
  have hexpired := (hsweep.removed
    ⟨⟨[1], none, 0⟩, 1, some (1000 + keysExpirationIntervalNs)⟩
    (by decide +kernel) (by decide +kernel)).1
  revert hexpired
  decide +kernel

end Rotations

end LibXmtp.Mls.KeyPackageSweep
