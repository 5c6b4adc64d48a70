import LibXmtp.Data.TlsMapSeeds
import Mathlib.Data.List.Flatten

namespace LibXmtp.Data

section Written

variable {α : Type} {c : TlsCodec α} {as : List α}

def TlsCodec.written (c : TlsCodec α) (as : List α) : Bytes :=
  as.flatMap fun a => (c.serialize a).toOption.getD []

def TlsCodec.Writes (c : TlsCodec α) (as : List α) : Prop :=
  ∀ a ∈ as, ∃ bytes, c.serialize a = .ok bytes

theorem TlsCodec.mapM_eq_ok {contents : List Bytes} (h : as.mapM c.serialize = .ok contents) :
    c.Writes as ∧ contents.flatten = c.written as := by
  induction as generalizing contents with
  | nil =>
    simp only [List.mapM_nil, pure_eq_ok] at h
    subst h
    exact ⟨by simp [Writes], rfl⟩
  | cons a as ih =>
    simp only [List.mapM_cons, bind_eq_ok, pure_eq_ok] at h
    obtain ⟨bytes, hbytes, rest, hrest, heq⟩ := h
    subst heq
    obtain ⟨hwrites, hflat⟩ := ih hrest
    constructor
    · intro b hb
      cases List.mem_cons.mp hb with
      | inl heq => exact ⟨bytes, by rw [heq, hbytes]⟩
      | inr hb => exact hwrites b hb
    · simp only [List.flatten_cons, hflat, written, List.flatMap_cons, hbytes, toOption_ok,
        Option.getD_some]

variable {vlen : Vlen} {bytes : Bytes}

theorem Vlen.exists_serialize_vec (hwrites : c.Writes as)
    (hlength : ∃ length, vlen.writeLength (c.written as).length = .ok length) :
    ∃ bytes, (vlen.vec c).serialize as = .ok bytes := by
  obtain ⟨contents, hcontents⟩ := exists_mapM hwrites
  obtain ⟨length, hlength⟩ := hlength
  rw [← (TlsCodec.mapM_eq_ok hcontents).2] at hlength
  exact ⟨_, vlen.writeVec_eq_ok.mpr ⟨contents, length, hcontents, hlength, rfl⟩⟩

theorem Vlen.written_of_serialize_vec (h : (vlen.vec c).serialize as = .ok bytes) :
    c.Writes as ∧ (c.written as).length ≤ bytes.length := by
  obtain ⟨contents, length, hcontents, _, heq⟩ := vlen.writeVec_eq_ok.mp h
  obtain ⟨hwrites, hflat⟩ := TlsCodec.mapM_eq_ok hcontents
  refine ⟨hwrites, ?_⟩
  rw [← heq, List.length_append, hflat]
  omega

theorem Vlen.written_of_deserialize_vec (hc : c.Lawful) {rest : Bytes}
    (h : (vlen.vec c).deserialize bytes = .ok (as, rest)) :
    c.Writes as ∧ (c.written as).length ≤ bytes.length := by
  obtain ⟨n, consumed, contents, hcontents, hread⟩ := Vlen.exists_of_deserialize_vec hc h
  obtain ⟨hwrites, hflat⟩ := TlsCodec.mapM_eq_ok hcontents
  obtain ⟨read, -, -, happ⟩ := vlen.write_read hread
  refine ⟨hwrites, ?_⟩
  rw [← happ, ← hflat]
  simp only [List.length_append]
  omega

end Written

namespace TlsMap

variable {K V : Type} [LinearOrder K] {k : TlsCodec K} {v : TlsCodec V}

def content (k : TlsCodec K) (v : TlsCodec V) (m : TlsMap K V) : Bytes :=
  (TlsMapEntry.codec k v).written m.entries

theorem nodup_entries (m : TlsMap K V) : m.entries.Nodup := m.nodup_keys.of_map _

theorem entries_set (m : TlsMap K V) (key : K) (value : V) :
    (m.set key value).entries.Perm (⟨key, value⟩ :: (m.erase key).entries) := by
  have herase : ⟨key, value⟩ ∉ (m.erase key).entries := by simp [erase]
  apply (List.perm_ext_iff_of_nodup (nodup_entries _)
    (List.nodup_cons.mpr ⟨herase, nodup_entries _⟩)).mpr
  intro e
  rw [mem_set, List.mem_cons, erase, List.mem_filter, decide_eq_true_eq]
  exact or_congr Iff.rfl and_comm

theorem length_content_erase (m : TlsMap K V) (key : K) :
    (content k v (m.erase key)).length ≤ (content k v m).length :=
  (List.filter_sublist.flatMap _).length_le

theorem length_content_set (m : TlsMap K V) (key : K) (value : V) :
    (content k v (m.set key value)).length ≤
      ((TlsMapEntry.codec k v).written [⟨key, value⟩]).length + (content k v m).length := by
  have hperm := (entries_set m key value).flatMap_right fun e =>
    ((TlsMapEntry.codec k v).serialize e).toOption.getD []
  have herase := length_content_erase (k := k) (v := v) m key
  rw [content, TlsCodec.written, hperm.length_eq, List.flatMap_cons, List.length_append]
  simp only [content, TlsCodec.written, List.flatMap_cons, List.flatMap_nil, List.append_nil]
    at herase ⊢
  omega

omit [LinearOrder K] in
theorem length_written_entry {mutation : TlsMapMutation K V} {key : K} {value : V}
    (hmutation : mutation = .insert key value ∨ mutation = .update key value)
    (h : (TlsMapMutation.codec k v).Writes [mutation]) :
    (TlsMapEntry.codec k v).Writes [⟨key, value⟩] ∧
      ((TlsMapEntry.codec k v).written [⟨key, value⟩]).length ≤
        ((TlsMapMutation.codec k v).written [mutation]).length := by
  obtain ⟨bytes, hbytes⟩ := h mutation List.mem_cons_self
  have hentry : ∃ keyBytes valueBytes tag, k.serialize key = .ok keyBytes ∧
      v.serialize value = .ok valueBytes ∧ bytes = tag :: keyBytes ++ valueBytes := by
    cases hmutation with
    | inl heq | inr heq =>
      subst heq
      simp only [TlsMapMutation.codec, bind_eq_ok, pure_eq_ok] at hbytes
      obtain ⟨keyBytes, hkey, valueBytes, hvalue, heq⟩ := hbytes
      exact ⟨keyBytes, valueBytes, _, hkey, hvalue, heq.symm⟩
  obtain ⟨keyBytes, valueBytes, tag, hkey, hvalue, heq⟩ := hentry
  have hserialize : (TlsMapEntry.codec k v).serialize ⟨key, value⟩ =
      .ok (keyBytes ++ valueBytes) := by
    simp only [TlsMapEntry.codec, hkey, ok_bind, hvalue]
    rfl
  constructor
  · intro e he
    cases List.mem_singleton.mp he
    exact ⟨_, hserialize⟩
  · simp only [TlsCodec.written, List.flatMap_cons, List.flatMap_nil, List.append_nil, hserialize,
      hbytes, toOption_ok, Option.getD_some, heq]
    simp

theorem grows_of_mutate {m n : TlsMap K V} {mutation : TlsMapMutation K V}
    (h : m.mutate mutation = .ok n) (hm : (TlsMapEntry.codec k v).Writes m.entries)
    (hmutation : (TlsMapMutation.codec k v).Writes [mutation]) :
    (TlsMapEntry.codec k v).Writes n.entries ∧ (content k v n).length ≤
      (content k v m).length + ((TlsMapMutation.codec k v).written [mutation]).length := by
  have hset (key : K) (value : V)
      (hwritten : mutation = .insert key value ∨ mutation = .update key value) :
      (TlsMapEntry.codec k v).Writes (m.set key value).entries ∧
        (content k v (m.set key value)).length ≤ (content k v m).length +
          ((TlsMapMutation.codec k v).written [mutation]).length := by
    obtain ⟨hentry, hle⟩ := length_written_entry hwritten hmutation
    have hgrow := length_content_set (k := k) (v := v) m key value
    refine ⟨fun e he => ?_, by omega⟩
    cases mem_set.mp he with
    | inl heq => exact hentry e (by simp [heq])
    | inr hmem => exact hm e hmem.2
  cases mutation with
  | insert key value =>
    obtain ⟨_, heq⟩ := mutate_insert.mp h
    rw [← heq]
    exact hset key value (.inl rfl)
  | update key value =>
    obtain ⟨_, heq⟩ := mutate_update.mp h
    rw [← heq]
    exact hset key value (.inr rfl)
  | delete key =>
    obtain ⟨_, heq⟩ := mutate_delete.mp h
    rw [← heq]
    have hle := length_content_erase (k := k) (v := v) m key
    exact ⟨fun e he => hm e (List.mem_of_mem_filter he), by omega⟩

theorem grows_of_steps {m n : TlsMap K V} {mutations : List (TlsMapMutation K V)}
    (h : Steps mutate m mutations n) (hm : (TlsMapEntry.codec k v).Writes m.entries)
    (hmutations : (TlsMapMutation.codec k v).Writes mutations) :
    (TlsMapEntry.codec k v).Writes n.entries ∧ (content k v n).length ≤
      (content k v m).length + ((TlsMapMutation.codec k v).written mutations).length := by
  induction h with
  | nil => exact ⟨hm, by simp⟩
  | cons hstep _ ih =>
    rename_i mutation mutations _ _ _
    obtain ⟨hnext, hle⟩ := grows_of_mutate hstep hm fun a ha =>
      hmutations a (by simp [List.mem_singleton.mp ha])
    obtain ⟨hwrites, hle'⟩ := ih hnext fun a ha => hmutations a (List.mem_cons_of_mem _ ha)
    refine ⟨hwrites, ?_⟩
    simp only [TlsCodec.written, List.flatMap_cons, List.flatMap_nil, List.append_nil,
      List.length_append] at hle hle' ⊢
    omega

variable {vlen : Vlen} {m n : TlsMap K V} {delta : TlsMapDelta K V} {bytes payload : Bytes}

theorem exists_serialize_of_steps (hvlen : vlen.Downward) (hk : k.Lawful) (hv : v.Lawful)
    (hm : (TlsMap.codec vlen k v).deserializeExact bytes = .ok m)
    (hdelta : (TlsMapDelta.codec vlen k v).serialize delta = .ok payload)
    (h : Steps mutate m delta.mutations n)
    (hlength : ∃ length, vlen.writeLength (bytes.length + payload.length) = .ok length) :
    ∃ bytes', (TlsMap.codec vlen k v).serialize n = .ok bytes' := by
  obtain ⟨hwrites, hle⟩ := Vlen.written_of_deserialize_vec (TlsMapEntry.codec_lawful hk hv)
    (deserialize_entries (TlsCodec.deserializeExact_eq_ok.mp hm))
  obtain ⟨hmutations, hle'⟩ := Vlen.written_of_serialize_vec hdelta
  obtain ⟨hwrites', hgrow⟩ := grows_of_steps h hwrites hmutations
  obtain ⟨length, hlength⟩ := hlength
  apply Vlen.exists_serialize_vec hwrites'
  refine hvlen ?_ hlength
  simp only [content] at hgrow
  omega

end TlsMap

end LibXmtp.Data
