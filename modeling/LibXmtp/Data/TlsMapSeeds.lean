import LibXmtp.Data.QuicVarint
import LibXmtp.Data.TlsSetDelta

namespace LibXmtp.Data

def Vlen.Downward (vlen : Vlen) : Prop :=
  ∀ ⦃m n : Nat⦄ ⦃bytes : Bytes⦄, m ≤ n → vlen.writeLength n = .ok bytes →
    ∃ bytes', vlen.writeLength m = .ok bytes'

theorem Vlen.quic_downward : Vlen.quic.Downward := by
  intro m n bytes hle h
  change QuicVarint.write n = .ok bytes at h
  change ∃ bytes', QuicVarint.write m = .ok bytes'
  have hn : n < 2 ^ 30 := by
    by_contra hbig
    rw [QuicVarint.write, if_neg (by omega), if_neg (by omega), if_neg hbig] at h
    cases h
  rw [QuicVarint.write]
  split
  · exact ⟨_, rfl⟩
  · split
    · exact ⟨_, rfl⟩
    · rw [if_pos (by omega)]
      exact ⟨_, rfl⟩

section Shrink

variable {α β : Type} {vlen : Vlen} {long : TlsCodec α} {short : TlsCodec β} {f : β → α}

theorem exists_mapM_shorter
    (h : ∀ b bytes, long.serialize (f b) = .ok bytes →
      ∃ bytes', short.serialize b = .ok bytes' ∧ bytes'.length ≤ bytes.length)
    {bs : List β} {contents : List Bytes} (hlong : (bs.map f).mapM long.serialize = .ok contents) :
    ∃ contents', bs.mapM short.serialize = .ok contents' ∧
      contents'.flatten.length ≤ contents.flatten.length := by
  induction bs generalizing contents with
  | nil => exact ⟨[], rfl, by simp⟩
  | cons b bs ih =>
    simp only [List.map_cons, List.mapM_cons, bind_eq_ok, pure_eq_ok] at hlong
    obtain ⟨bytes, hbytes, rest, hrest, rfl⟩ := hlong
    obtain ⟨bytes', hbytes', hle⟩ := h b bytes hbytes
    obtain ⟨rest', hrest', hle'⟩ := ih hrest
    refine ⟨bytes' :: rest', ?_, ?_⟩
    · simp only [List.mapM_cons, hbytes', ok_bind, hrest']
      rfl
    · simp only [List.flatten_cons, List.length_append]
      omega

theorem Vlen.exists_serialize_shorter (hvlen : vlen.Downward)
    (h : ∀ b bytes, long.serialize (f b) = .ok bytes →
      ∃ bytes', short.serialize b = .ok bytes' ∧ bytes'.length ≤ bytes.length)
    {bs : List β} {bytes : Bytes} (hlong : (vlen.vec long).serialize (bs.map f) = .ok bytes) :
    ∃ bytes', (vlen.vec short).serialize bs = .ok bytes' := by
  obtain ⟨contents, length, hcontents, hlength, _⟩ := vlen.writeVec_eq_ok.mp hlong
  obtain ⟨contents', hcontents', hle⟩ := exists_mapM_shorter h hcontents
  obtain ⟨length', hlength'⟩ := hvlen hle hlength
  exact ⟨_, vlen.writeVec_eq_ok.mpr ⟨contents', length', hcontents', hlength', rfl⟩⟩

end Shrink

namespace TlsMap

variable {K V W : Type} [LinearOrder K]

section Loops

universe u

variable {ε : Type u} {α : Type} {step : TlsMap K V → α → Except ε (TlsMap K V)} {f : α → K × V}

theorem exists_foldlM_set {as : List α} {m : TlsMap K V}
    (hstep : ∀ m, ∀ a ∈ as, m.get (f a).1 = none → step m a = .ok (m.set (f a).1 (f a).2))
    (hnodup : (as.map fun a => (f a).1).Nodup) (hfresh : ∀ a ∈ as, m.get (f a).1 = none) :
    ∃ n, as.foldlM step m = .ok n ∧
      ∀ key value, n.get key = some value ↔ m.get key = some value ∨ (key, value) ∈ as.map f := by
  induction as generalizing m with
  | nil => exact ⟨m, rfl, by simp⟩
  | cons a as ih =>
    simp only [List.map_cons, List.nodup_cons, List.mem_map, not_exists, not_and] at hnodup
    have hfresh' : ∀ b ∈ as, (m.set (f a).1 (f a).2).get (f b).1 = none := by
      intro b hb
      rw [get_set, if_neg (hnodup.1 b hb)]
      exact hfresh b (List.mem_cons_of_mem _ hb)
    obtain ⟨n, hfold, hget⟩ :=
      ih (fun m b hb => hstep m b (List.mem_cons_of_mem _ hb)) hnodup.2 hfresh'
    have ha := hfresh a List.mem_cons_self
    refine ⟨n, ?_, fun key value => ?_⟩
    · rw [List.foldlM_cons, hstep m a List.mem_cons_self ha, ok_bind, hfold]
    · rw [hget, get_set, List.map_cons, List.mem_cons]
      split
      · rename_i hkey
        subst hkey
        simp [ha, Prod.ext_iff, eq_comm]
      · rename_i hkey
        simp [hkey, Prod.ext_iff]

end Loops

def mapValues (f : V → W) (m : TlsMap K V) : TlsMap K W where
  entries := m.entries.map fun e => ⟨e.key, f e.value⟩
  sorted := by
    rw [List.pairwise_map]
    exact m.sorted

theorem get_mapValues (f : V → W) (m : TlsMap K V) (key : K) :
    (m.mapValues f).get key = (m.get key).map f := by
  apply Option.ext
  intro value
  simp only [get_eq_some_iff, mapValues, List.mem_map, TlsMapEntry.mk.injEq, Option.map_eq_some_iff]
  constructor
  · rintro ⟨⟨key', value'⟩, hmem, rfl, rfl⟩
    exact ⟨value', hmem, rfl⟩
  · rintro ⟨value', hmem, rfl⟩
    exact ⟨_, hmem, rfl, rfl⟩

def restrict (p : K → Bool) (m : TlsMap K V) : TlsMap K V :=
  ⟨m.entries.filter fun e => p e.key, m.sorted.sublist List.filter_sublist⟩

theorem get_restrict (p : K → Bool) (m : TlsMap K V) (key : K) :
    (m.restrict p).get key = if p key then m.get key else none := by
  apply Option.ext
  intro value
  rw [get_eq_some_iff, restrict, List.mem_filter]
  split
  · rename_i hkey
    simp [hkey, get_eq_some_iff]
  · rename_i hkey
    simp [hkey]

theorem iter_restrict (p : K → Bool) (m : TlsMap K V) :
    (m.restrict p).iter = m.iter.filter fun e => p e.1 := by
  rw [iter, iter, restrict, List.filter_map]
  rfl

def ofPairs (pairs : List (K × V)) : TlsMap K V := pairs.foldl (fun m p => m.set p.1 p.2) new

theorem get_ofPairs (pairs : List (K × V)) (key : K) :
    (ofPairs pairs).get key = contents pairs key := by
  have h (m : TlsMap K V) (c : K → Option V) (hm : ∀ k, m.get k = c k) :
      (pairs.foldl (fun m p => m.set p.1 p.2) m).get key =
        pairs.foldl (fun (c : K → Option V) p => Function.update c p.1 (some p.2)) c key := by
    induction pairs generalizing m c with
    | nil => exact hm key
    | cons p pairs ih =>
      apply ih
      intro k
      simp only [get_set, Function.update_apply, hm]
  exact h new _ fun _ => rfl

def seed (m : TlsMap K V) : TlsMapDelta K V := ⟨m.entries.map fun e => .insert e.key e.value⟩

theorem steps_seed (m : TlsMap K V) : Steps mutate new m.seed.mutations m := by
  have hstep : ∀ (n : TlsMap K V), ∀ e ∈ m.entries, n.get e.key = none →
      mutate n (.insert e.key e.value) = .ok (n.set e.key e.value) := fun n e _ hnone =>
    mutate_insert.mpr ⟨hnone, rfl⟩
  obtain ⟨n, hfold, hget⟩ := exists_foldlM_set (m := (new : TlsMap K V))
    (f := fun e : TlsMapEntry K V => (e.key, e.value)) hstep m.nodup_keys (fun _ _ => rfl)
  have hmap : n = m := by
    apply ext_get
    intro key
    apply Option.ext
    intro value
    rw [hget, ← mem_iter (m := m) (p := (key, value)), iter]
    simp
  rw [← Steps.foldlM_eq_ok, seed, List.foldlM_map, hfold, hmap]

variable {vlen : Vlen} {k : TlsCodec K} {v : TlsCodec V}

theorem exists_serialize_of_seed (hvlen : vlen.Downward) {m : TlsMap K V} {bytes : Bytes}
    (h : (TlsMapDelta.codec vlen k v).serialize m.seed = .ok bytes) :
    ∃ bytes', (TlsMap.codec vlen k v).serialize m = .ok bytes' := by
  refine Vlen.exists_serialize_shorter hvlen (fun e bytes hbytes => ?_) h
  simp only [TlsMapMutation.codec, bind_eq_ok, pure_eq_ok] at hbytes
  obtain ⟨key, hkey, value, hvalue, rfl⟩ := hbytes
  refine ⟨key ++ value, ?_, by simp⟩
  simp only [TlsMapEntry.codec, hkey, ok_bind, hvalue]
  rfl

end TlsMap

namespace TlsSet

variable {K : Type} [LinearOrder K]

def ofList (keys : List K) : TlsSet K := ⟨TlsMap.ofPairs (keys.map fun key => (key, ()))⟩

theorem mem_iter_ofList {keys : List K} {key : K} : key ∈ (ofList keys).iter ↔ key ∈ keys := by
  rw [mem_iter, ofList, TlsMap.get_ofPairs, Option.isSome_iff_exists]
  constructor
  · rintro ⟨value, h⟩
    have hmem := TlsMap.mem_of_contents h
    simp only [List.mem_map, Prod.mk.injEq, and_true, exists_eq_right] at hmem
    exact hmem
  · intro h
    exact TlsMap.exists_contents (List.mem_map_of_mem h)

def seed (s : TlsSet K) : TlsSetDelta K := ⟨s.iter.map .insert⟩

theorem applyDelta_seed (hashing : KeyHashing K) (s : TlsSet K) :
    new.applyDelta hashing s.seed = .ok s := by
  have hindex : deltaIndex hashing (new : TlsSet K) s.seed = .ok HashMap.empty := by
    rw [deltaIndex, if_neg]
    simp [seed, TlsSetMutation.isRemoveByHash]
  have hresolved : s.seed.mutations.mapM (resolve HashMap.empty) = .ok s.inner.seed.mutations := by
    simp only [seed, iter, TlsMap.keys, TlsMap.seed, List.map_map]
    induction s.inner.entries with
    | nil => rfl
    | cons e entries ih =>
      simp only [List.map_cons, List.mapM_cons, ih, Function.comp_apply, resolve, ok_bind]
      rfl
  have hsteps := Steps.foldlM_eq_ok.mpr s.inner.steps_seed
  rw [applyDelta, hindex, ok_bind, hresolved, ok_bind, TlsMap.applyDelta_eq]
  simp only [new, hsteps, TlsMap.atomically]
  rfl

variable {vlen : Vlen} {k : TlsCodec K}

omit [LinearOrder K] in
theorem restores_insert (hk : k.Lawful) (key : K) :
    (TlsSetMutation.codec k).Restores (.insert key) := by
  intro bytes h
  simp only [TlsSetMutation.codec, bind_eq_ok, pure_eq_ok] at h
  obtain ⟨keyBytes, hkey, rfl⟩ := h
  refine ⟨List.cons_ne_nil _ _, fun rest => ?_⟩
  simp only [TlsSetMutation.codec, List.cons_append, if_true, hk.deserialize_serialize hkey,
    ok_bind]
  rfl

theorem deserializeExact_seed (hk : k.Lawful) {s : TlsSet K} {bytes : Bytes}
    (h : (TlsSetDelta.codec vlen k).serialize s.seed = .ok bytes) :
    (TlsSetDelta.codec vlen k).deserializeExact bytes = .ok s.seed := by
  have hrestores : ∀ mutation ∈ s.seed.mutations, (TlsSetMutation.codec k).Restores mutation := by
    intro mutation hmem
    obtain ⟨key, _, rfl⟩ := List.mem_map.mp hmem
    exact restores_insert hk key
  have hread := vlen.readVec_writeVec hrestores h []
  rw [List.append_nil] at hread
  rw [TlsCodec.deserializeExact_eq_ok]
  simp only [TlsSetDelta.codec, Vlen.vec, hread, ok_bind]
  rfl

theorem exists_serialize_of_seed (hvlen : vlen.Downward) {s : TlsSet K} {bytes : Bytes}
    (h : (TlsSetDelta.codec vlen k).serialize s.seed = .ok bytes) :
    ∃ bytes', (TlsSet.codec vlen k).serialize s = .ok bytes' := by
  have hmutations : s.seed.mutations = s.inner.entries.map fun e => .insert e.key := by
    simp [seed, iter, TlsMap.keys]
  change (vlen.vec (TlsSetMutation.codec k)).serialize s.seed.mutations = .ok bytes at h
  rw [hmutations] at h
  refine Vlen.exists_serialize_shorter hvlen (fun e bytes hbytes => ?_) h
  simp only [TlsSetMutation.codec, bind_eq_ok, pure_eq_ok] at hbytes
  obtain ⟨keyBytes, hkey, rfl⟩ := hbytes
  refine ⟨keyBytes, ?_, by simp⟩
  simp only [TlsMapEntry.codec, TlsCodec.unit, hkey, ok_bind, pure_eq_ok]
  simp

end TlsSet

end LibXmtp.Data
