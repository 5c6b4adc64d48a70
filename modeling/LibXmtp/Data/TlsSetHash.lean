import LibXmtp.Data.TlsSetDelta
import Mathlib.Data.List.Forall2

namespace LibXmtp.Data.TlsSet

section Index

variable {K : Type} {hashing : KeyHashing K} {keys : List K} {index : HashMap TlsKeyHash K}

def Indexes (hashing : KeyHashing K) (keys : List K) (index : HashMap TlsKeyHash K) : Prop :=
  ∀ hash key, index.get hash = some key ↔ key ∈ keys ∧ hashing.of key = .ok hash

def Encodes (hashing : KeyHashing K) (key : K) : Prop := ∃ hash, hashing.of key = .ok hash

/-- The hashes of the keys are told apart from those of the others. -/
def HashesApart (hashing : KeyHashing K) (keys others : List K) : Prop :=
  ∀ key ∈ keys, ∀ other ∈ others, ∀ hash,
    hashing.of key = .ok hash → hashing.of other = .ok hash → key = other

theorem Indexes.insert {key : K} {hash : TlsKeyHash} (h : Indexes hashing keys index)
    (hkey : hashing.of key = .ok hash) (hnew : index.containsKey hash = false) :
    Indexes hashing (keys ++ [key]) (index.insert hash key) := by
  intro hash' key'
  rw [HashMap.get_insert, List.mem_append, List.mem_singleton]
  split
  · rename_i hsame
    cases eq_of_beq hsame
    constructor
    · intro hget
      cases hget
      exact ⟨.inr rfl, hkey⟩
    · rintro ⟨hold | rfl, hhash⟩
      · have hget := (h hash key').mpr ⟨hold, hhash⟩
        rw [HashMap.containsKey_eq_isSome_get, hget] at hnew
        cases hnew
      · rfl
  · rename_i hother
    rw [h hash' key']
    constructor
    · rintro ⟨hmem, hhash⟩
      exact ⟨.inl hmem, hhash⟩
    · rintro ⟨hmem | rfl, hhash⟩
      · exact ⟨hmem, hhash⟩
      · rw [hkey] at hhash
        cases hhash
        exact absurd (beq_self_eq_true hash) hother

def indexKey (hashing : KeyHashing K) (index : HashMap TlsKeyHash K) (key : K) :
    Except TlsSetError (HashMap TlsKeyHash K) := do
  let hash ← (hashing.of key).mapError .codec
  rejectIf (index.containsKey hash) .duplicateHash
  return index.insert hash key

theorem hashIndex_eq_ok : hashIndex hashing keys = .ok index ↔
    Steps (indexKey hashing) HashMap.empty keys index := Steps.foldlM_eq_ok

theorem indexKey_eq_ok {key : K} {index' : HashMap TlsKeyHash K} :
    indexKey hashing index key = .ok index' ↔ ∃ hash, hashing.of key = .ok hash ∧
      index.containsKey hash = false ∧ index.insert hash key = index' := by
  simp [indexKey]

theorem indexes_empty : Indexes hashing [] HashMap.empty := by
  intro hash key
  constructor
  · intro hget
    cases hget
  · rintro ⟨hmem, _⟩
    cases hmem

theorem indexes_hashIndex (h : hashIndex hashing keys = .ok index) :
    Indexes hashing keys index ∧ ∀ key ∈ keys, Encodes hashing key := by
  apply (hashIndex_eq_ok.mp h).history
    (P := fun done index => Indexes hashing done index ∧ ∀ key ∈ done, Encodes hashing key)
  · exact ⟨indexes_empty, fun key hmem => absurd hmem List.not_mem_nil⟩
  · intro done index key index' _ hindexes hstep
    obtain ⟨hash, hhash, hnew, hinsert⟩ := indexKey_eq_ok.mp hstep
    subst hinsert
    refine ⟨hindexes.1.insert hhash hnew, fun k hk => ?_⟩
    rcases List.mem_append.mp hk with hold | hk
    · exact hindexes.2 k hold
    · exact List.mem_singleton.mp hk ▸ ⟨hash, hhash⟩

theorem exists_hashIndex (hencodes : ∀ key ∈ keys, Encodes hashing key)
    (hapart : HashesApart hashing keys keys) (hnodup : keys.Nodup) :
    ∃ index, hashIndex hashing keys = .ok index := by
  suffices hfold : ∀ rest done index, done ++ rest = keys → Indexes hashing done index →
      ∃ index', Steps (indexKey hashing) index rest index' by
    obtain ⟨index, hindex⟩ := hfold keys [] HashMap.empty rfl indexes_empty
    exact ⟨index, hashIndex_eq_ok.mpr hindex⟩
  intro rest
  induction rest with
  | nil => exact fun done index _ _ => ⟨index, .nil⟩
  | cons key rest ih =>
    intro done index hkeys hindexes
    have hkey : key ∈ keys := hkeys ▸ List.mem_append_right _ List.mem_cons_self
    obtain ⟨hash, hhash⟩ := hencodes key hkey
    -- An earlier key of the same hash would be the key itself.
    have hnew : index.containsKey hash = false := by
      rw [HashMap.containsKey_eq_isSome_get, Option.isSome_eq_false_iff, Option.isNone_iff_eq_none,
        Option.eq_none_iff_forall_ne_some]
      intro old hget
      obtain ⟨hold, hsame⟩ := (hindexes hash old).mp hget
      have heq := hapart old (hkeys ▸ List.mem_append_left _ hold) key hkey hash hsame hhash
      rw [← hkeys, List.nodup_append] at hnodup
      exact hnodup.2.2 old hold key List.mem_cons_self heq
    obtain ⟨index', hrest⟩ := ih (done ++ [key]) (index.insert hash key)
      (by rw [List.append_assoc, List.singleton_append, hkeys]) (hindexes.insert hhash hnew)
    exact ⟨index', .cons (indexKey_eq_ok.mpr ⟨hash, hhash, hnew, rfl⟩) hrest⟩

end Index

variable {K : Type} [LinearOrder K]

def namedKey : TlsSetMutation K → Option K
  | .insert key => some key
  | .remove key => some key
  | .removeByHash _ => none

/-- The mutation, and the same with the key named in place of its hash. A hash that is of no key
stays. -/
inductive Names (hashing : KeyHashing K) : TlsSetMutation K → TlsSetMutation K → Prop
  | insert (key : K) : Names hashing (.insert key) (.insert key)
  | remove (key : K) : Names hashing (.remove key) (.remove key)
  | hashed {hash : TlsKeyHash} {key : K} (hkey : hashing.of key = .ok hash) :
    Names hashing (.removeByHash hash) (.remove key)
  | unknown {hash : TlsKeyHash} (hnone : ∀ key, hashing.of key ≠ .ok hash) :
    Names hashing (.removeByHash hash) (.removeByHash hash)

variable (hashing : KeyHashing K)

def applyDeltaMut (s : TlsSet K) (delta : TlsSetDelta K) : Except TlsSetError Unit × TlsSet K :=
  match deltaIndex hashing s delta with
  | .error e => (.error e, s)
  | .ok index =>
    match delta.mutations.mapM (resolve index) with
    | .error e => (.error e, s)
    | .ok resolved =>
      let (result, inner) := s.inner.applyDelta ⟨resolved⟩
      (result.mapError .map, ⟨inner⟩)

/-- Every hash that the batch removes is of a key that the set holds, and can be looked up. -/
def Resolvable (s : TlsSet K) (delta : TlsSetDelta K) : Prop :=
  ∀ hash, .removeByHash hash ∈ delta.mutations →
    (∀ key ∈ s.iter, Encodes hashing key) ∧ ∃ key ∈ s.iter, hashing.of key = .ok hash

variable {hashing} {s : TlsSet K} {d d' : TlsSetDelta K}

theorem applyDelta_eq_ok {t : TlsSet K} :
    s.applyDelta hashing d = .ok t ↔ s.applyDeltaMut hashing d = (.ok (), t) := by
  rw [applyDelta, applyDeltaMut]
  cases deltaIndex hashing s d with
  | error e => simp
  | ok index =>
    simp only [ok_bind]
    cases d.mutations.mapM (resolve index) with
    | error e => simp
    | ok resolved =>
      simp only [ok_bind]
      split
      · rename_i u inner happly
        simp [happly, Except.mapError]
      · rename_i e inner happly
        simp [happly, Except.mapError]

theorem eq_of_applyDeltaMut_error {e : TlsSetError} {t : TlsSet K}
    (h : s.applyDeltaMut hashing d = (.error e, t)) : t = s := by
  rw [applyDeltaMut] at h
  cases hindex : deltaIndex hashing s d with
  | error e =>
    rw [hindex] at h
    cases h
    rfl
  | ok index =>
    rw [hindex] at h
    dsimp only at h
    cases hresolve : d.mutations.mapM (resolve index) with
    | error e =>
      rw [hresolve] at h
      cases h
      rfl
    | ok resolved =>
      rw [hresolve] at h
      dsimp only at h
      rw [TlsMap.applyDelta_eq] at h
      cases hfold : resolved.foldlM TlsMap.mutate s.inner with
      | ok m =>
        rw [hfold] at h
        cases h
      | error e =>
        rw [hfold] at h
        cases h
        rfl

theorem nodup_iter (s : TlsSet K) : s.iter.Nodup := TlsMap.nodup_keys s.inner

theorem resolve_of_names {index index' : HashMap TlsKeyHash K} {mutation mutation' : TlsSetMutation K}
    (hnames : Names hashing mutation mutation') (hindexes : Indexes hashing s.iter index)
    (hresolvable : ∀ hash, mutation = .removeByHash hash →
      ∃ key ∈ s.iter, hashing.of key = .ok hash)
    (hapart : HashesApart hashing s.iter (namedKey mutation').toList) :
    resolve index mutation = resolve index' mutation' := by
  cases hnames with
  | insert key => rfl
  | remove key => rfl
  | @hashed hash key hkey =>
    obtain ⟨held, hheld, hhash⟩ := hresolvable hash rfl
    have heq := hapart held hheld key List.mem_cons_self hash hhash hkey
    subst heq
    simp only [resolve, (hindexes hash held).mpr ⟨hheld, hhash⟩, okOr_some, ok_bind]
    rfl
  | @unknown hash hnone =>
    obtain ⟨held, _, hhash⟩ := hresolvable hash rfl
    exact absurd hhash (hnone held)

theorem mapM_resolve_of_names {index index' : HashMap TlsKeyHash K}
    {mutations mutations' : List (TlsSetMutation K)}
    (hnames : List.Forall₂ (Names hashing) mutations mutations')
    (hindexes : Indexes hashing s.iter index)
    (hresolvable : ∀ hash, .removeByHash hash ∈ mutations →
      ∃ key ∈ s.iter, hashing.of key = .ok hash)
    (hapart : HashesApart hashing s.iter (mutations'.filterMap namedKey)) :
    mutations.mapM (resolve index) = mutations'.mapM (resolve index') := by
  induction hnames with
  | nil => rfl
  | @cons mutation mutation' mutations mutations' hfirst hrest ih =>
    have hhead : resolve index mutation = resolve index' mutation' := by
      refine resolve_of_names hfirst hindexes (fun hash heq => ?_) fun key hkey other hother => ?_
      · exact hresolvable hash (heq ▸ List.mem_cons_self)
      · rw [Option.mem_toList] at hother
        exact hapart key hkey other (List.mem_filterMap.mpr ⟨mutation', List.mem_cons_self, hother⟩)
    have htail := ih (fun hash hmem => hresolvable hash (List.mem_cons_of_mem _ hmem))
      fun key hkey other hother => by
        obtain ⟨named, hmem, hnamed⟩ := List.mem_filterMap.mp hother
        exact hapart key hkey other (List.mem_filterMap.mpr ⟨named, List.mem_cons_of_mem _ hmem, hnamed⟩)
    rw [List.mapM_cons, List.mapM_cons, hhead, htail]

omit [LinearOrder K] in
theorem eq_of_names_of_unhashed {mutations mutations' : List (TlsSetMutation K)}
    (hnames : List.Forall₂ (Names hashing) mutations mutations')
    (hunhashed : ∀ hash, .removeByHash hash ∉ mutations) : mutations = mutations' := by
  induction hnames with
  | nil => rfl
  | @cons mutation mutation' mutations mutations' hfirst hrest ih =>
    rw [ih fun hash hmem => hunhashed hash (List.mem_cons_of_mem _ hmem)]
    cases hfirst with
    | insert key => rfl
    | remove key => rfl
    | hashed hkey => exact absurd List.mem_cons_self (hunhashed _)
    | unknown hnone => rfl

omit [LinearOrder K] in
theorem any_isRemoveByHash {mutations : List (TlsSetMutation K)} :
    mutations.any TlsSetMutation.isRemoveByHash = true ↔ ∃ hash, .removeByHash hash ∈ mutations := by
  rw [List.any_eq_true]
  constructor
  · rintro ⟨mutation, hmem, hhash⟩
    cases mutation with
    | insert key => cases hhash
    | remove key => cases hhash
    | removeByHash hash => exact ⟨hash, hmem⟩
  · rintro ⟨hash, hmem⟩
    exact ⟨_, hmem, rfl⟩

omit [LinearOrder K] in
theorem unknown_of_names {mutations mutations' : List (TlsSetMutation K)} {hash : TlsKeyHash}
    (hnames : List.Forall₂ (Names hashing) mutations mutations')
    (hmem : .removeByHash hash ∈ mutations') :
    .removeByHash hash ∈ mutations ∧ ∀ key, hashing.of key ≠ .ok hash := by
  induction hnames with
  | nil => cases hmem
  | @cons mutation mutation' mutations mutations' hfirst hrest ih =>
    rcases List.mem_cons.mp hmem with heq | hmem
    · subst heq
      cases hfirst with
      | unknown hnone => exact ⟨List.mem_cons_self, hnone⟩
    · obtain ⟨hold, hnone⟩ := ih hmem
      exact ⟨List.mem_cons_of_mem _ hold, hnone⟩

theorem applyDeltaMut_eq_of_resolvable
    (hnames : List.Forall₂ (Names hashing) d.mutations d'.mutations)
    (hapart : HashesApart hashing s.iter (s.iter ++ d'.mutations.filterMap namedKey))
    (hresolvable : Resolvable hashing s d) :
    s.applyDeltaMut hashing d = s.applyDeltaMut hashing d' := by
  have hheld : HashesApart hashing s.iter s.iter := fun key hkey other hother =>
    hapart key hkey other (List.mem_append_left _ hother)
  have hnamed : HashesApart hashing s.iter (d'.mutations.filterMap namedKey) :=
    fun key hkey other hother => hapart key hkey other (List.mem_append_right _ hother)
  by_cases hhashed : ∃ hash, .removeByHash hash ∈ d.mutations
  · obtain ⟨hash, hmem⟩ := hhashed
    obtain ⟨index, hindex⟩ := exists_hashIndex (hresolvable hash hmem).1 hheld (nodup_iter s)
    -- A hash that is left in the other batch would be of no key.
    have hleft : ∀ hash, .removeByHash hash ∉ d'.mutations := by
      intro hash' hmem'
      obtain ⟨hold, hnone⟩ := unknown_of_names hnames hmem'
      obtain ⟨key, _, hkey⟩ := (hresolvable hash' hold).2
      exact hnone key hkey
    have hd : deltaIndex hashing s d = .ok index := by
      rw [deltaIndex, if_pos (any_isRemoveByHash.mpr ⟨hash, hmem⟩), hindex]
    have hd' : deltaIndex hashing s d' = .ok HashMap.empty := by
      rw [deltaIndex, if_neg fun hany => (any_isRemoveByHash.mp hany).elim hleft]
    have hresolve : d.mutations.mapM (resolve index) = d'.mutations.mapM (resolve HashMap.empty) :=
      mapM_resolve_of_names hnames (indexes_hashIndex hindex).1
        (fun hash hmem => (hresolvable hash hmem).2) hnamed
    rw [applyDeltaMut, applyDeltaMut, hd, hd']
    dsimp only
    rw [hresolve]
  · have hsame := eq_of_names_of_unhashed hnames fun hash hmem => hhashed ⟨hash, hmem⟩
    cases d
    cases d'
    cases hsame
    rfl

theorem resolvable_of_applyDeltaMut {t : TlsSet K}
    (h : s.applyDeltaMut hashing d = (.ok (), t)) : Resolvable hashing s d := by
  intro hash hmem
  rw [← applyDelta_eq_ok] at h
  simp only [applyDelta, bind_eq_ok] at h
  obtain ⟨index, hindex, resolved, hresolved, _⟩ := h
  rw [deltaIndex, if_pos (any_isRemoveByHash.mpr ⟨hash, hmem⟩)] at hindex
  obtain ⟨hindexes, hencodes⟩ := indexes_hashIndex hindex
  obtain ⟨_, _, hresolve⟩ := exists_of_mapM_mem hresolved hmem
  simp only [resolve, bind_eq_ok, okOr_eq_ok] at hresolve
  obtain ⟨key, hget, _⟩ := hresolve
  exact ⟨hencodes, key, (hindexes hash key).mp hget⟩

/-- A batch with hashes does what the batch that names the keys does, as long as the set has the
keys from the start. -/
theorem applyDeltaMut_named (s : TlsSet K) (d d' : TlsSetDelta K)
    (hnames : List.Forall₂ (Names hashing) d.mutations d'.mutations)
    (hapart : HashesApart hashing s.iter (s.iter ++ d'.mutations.filterMap namedKey)) :
    (Resolvable hashing s d → s.applyDeltaMut hashing d = s.applyDeltaMut hashing d') ∧
      (¬Resolvable hashing s d → ∃ e, s.applyDeltaMut hashing d = (.error e, s)) ∧
      (∀ e t, s.applyDeltaMut hashing d = (.error e, t) → t = s) ∧
      ∀ e t, s.applyDeltaMut hashing d' = (.error e, t) → t = s := by
  refine ⟨applyDeltaMut_eq_of_resolvable hnames hapart, fun hresolvable => ?_,
    fun e t => eq_of_applyDeltaMut_error, fun e t => eq_of_applyDeltaMut_error⟩
  cases h : s.applyDeltaMut hashing d with
  | mk result t =>
    cases result with
    | ok u => exact absurd (resolvable_of_applyDeltaMut h) hresolvable
    | error e => exact ⟨e, by rw [eq_of_applyDeltaMut_error h]⟩

namespace HashSample

def byteHashing : KeyHashing Nat where
  sha256 bytes := bytes
  codec :=
    { serialize := fun key =>
        if key < 256 then .ok [UInt8.ofNat key] else .error (.encodingError "not a byte")
      deserialize := fun bytes =>
        match bytes with
        | [] => .error .endOfStream
        | byte :: rest => .ok (byte.toNat, rest) }

theorem byteHashing_apart (keys others : List Nat) : HashesApart byteHashing keys others := by
  intro key _ other _ hash hkey hother
  simp only [KeyHashing.of, byteHashing, bind_eq_ok, pure_eq_ok, ite_eq_iff, Except.ok.injEq,
    reduceCtorEq, and_false, or_false] at hkey hother
  obtain ⟨_, ⟨hlt, rfl⟩, rfl⟩ := hkey
  obtain ⟨_, ⟨hlt', rfl⟩, heq⟩ := hother
  simp only [TlsKeyHash.mk.injEq, List.cons.injEq, and_true] at heq
  have hbyte := congrArg UInt8.toNat heq
  rw [UInt8.toNat_ofNat', UInt8.toNat_ofNat'] at hbyte
  omega

def held : TlsSet Nat := ⟨⟨[⟨1, ()⟩, ⟨3, ()⟩], by decide⟩⟩

def byHash : TlsSetDelta Nat := ⟨[.insert 2, .removeByHash ⟨[1]⟩, .remove 3]⟩

def byKey : TlsSetDelta Nat := ⟨[.insert 2, .remove 1, .remove 3]⟩

theorem names_byHash : List.Forall₂ (Names byteHashing) byHash.mutations byKey.mutations :=
  .cons (.insert 2) (.cons (.hashed rfl) (.cons (.remove 3) .nil))

theorem resolvable_byHash : Resolvable byteHashing held byHash := by
  intro hash hmem
  have hhash : hash = ⟨[1]⟩ := by simpa [byHash] using hmem
  subst hhash
  have hencodes : ∀ key ∈ [1, 3], Encodes byteHashing key := by
    simp [Encodes, KeyHashing.of, byteHashing]
  exact ⟨hencodes, 1, List.mem_cons_self, rfl⟩

end HashSample

open HashSample in
theorem applyDeltaMut_named_byHash :
    held.applyDeltaMut byteHashing byHash = held.applyDeltaMut byteHashing byKey :=
  (applyDeltaMut_named held byHash byKey names_byHash (byteHashing_apart _ _)).1 resolvable_byHash

open HashSample in
/-- A key that the batch itself inserts can be removed by its name, and not by its hash. -/
theorem inserted_not_resolved :
    List.Forall₂ (Names byteHashing) [.insert 2, .removeByHash ⟨[2]⟩] [.insert 2, .remove 2] ∧
      HashesApart byteHashing held.iter (held.iter ++ [2, 2]) ∧
      held.applyDeltaMut byteHashing ⟨[.insert 2, .removeByHash ⟨[2]⟩]⟩ =
        (.error (.map .keyNotFound), held) ∧
      held.applyDeltaMut byteHashing ⟨[.insert 2, .remove 2]⟩ = (.ok (), held) :=
  ⟨.cons (.insert 2) (.cons (.hashed rfl) .nil), byteHashing_apart _ _, rfl, rfl⟩

end LibXmtp.Data.TlsSet
