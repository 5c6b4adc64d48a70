import LibXmtp.Data.TlsMapDelta

namespace LibXmtp.Data

section Codec

variable {K V : Type} (vlen : Vlen) (k : TlsCodec K) (v : TlsCodec V)

def TlsMapEntry.codec : TlsCodec (TlsMapEntry K V) where
  serialize e := return (← k.serialize e.key) ++ (← v.serialize e.value)
  deserialize bytes := do
    let (key, rest) ← k.deserialize bytes
    let (value, rest) ← v.deserialize rest
    return (⟨key, value⟩, rest)

section Lawful

variable {k : TlsCodec K} {v : TlsCodec V} (hk : k.Lawful) (hv : v.Lawful)

include hk hv in
theorem TlsMapEntry.codec_lawful : (TlsMapEntry.codec k v).Lawful where
  deserialize_serialize {e bytes} h rest := by
    simp only [codec, bind_eq_ok, pure_eq_ok] at h
    obtain ⟨key, hkey, value, hvalue, happ⟩ := h
    subst happ
    simp only [codec, List.append_assoc, hk.deserialize_serialize hkey, ok_bind,
      hv.deserialize_serialize hvalue]
    rfl
  serialize_deserialize {bytes rest e} h := by
    simp only [codec, bind_eq_ok, pure_eq_ok, Prod.exists, Prod.mk.injEq] at h
    obtain ⟨key, middle, hkey, value, rest', hvalue, he, hrest⟩ := h
    subst he hrest
    obtain ⟨keyBytes, hkeyBytes, hbytes⟩ := hk.serialize_deserialize hkey
    obtain ⟨valueBytes, hvalueBytes, hmiddle⟩ := hv.serialize_deserialize hvalue
    refine ⟨keyBytes ++ valueBytes, ?_, by rw [List.append_assoc, hmiddle, hbytes]⟩
    simp only [codec, hkeyBytes, ok_bind, hvalueBytes]
    rfl

theorem TlsMapEntry.codec_positive (hpos : k.Positive) (v : TlsCodec V) :
    (TlsMapEntry.codec k v).Positive := by
  intro e bytes h
  simp only [codec, bind_eq_ok, pure_eq_ok] at h
  obtain ⟨key, hkey, value, _, happ⟩ := h
  subst happ
  simp [hpos _ _ hkey]

end Lawful

section Sorted

variable [LinearOrder K] {entries : List (TlsMapEntry K V)}

def windowsSorted (entries : List (TlsMapEntry K V)) : Bool :=
  (entries.zip entries.tail).all fun w => !decide (w.1.key ≥ w.2.key)

theorem windowsSorted_cons {e f : TlsMapEntry K V} :
    windowsSorted (e :: f :: entries) = true ↔
      e.key < f.key ∧ windowsSorted (f :: entries) = true := by
  simp [windowsSorted]

theorem windowsSorted_iff :
    windowsSorted entries = true ↔ entries.Pairwise fun a b => a.key < b.key := by
  induction entries with
  | nil => simp [windowsSorted]
  | cons e entries ih =>
    cases entries with
    | nil => simp [windowsSorted]
    | cons f entries =>
      rw [windowsSorted_cons, ih, List.pairwise_cons (a := e)]
      constructor
      · intro ⟨hef, h⟩
        refine ⟨?_, h⟩
        intro g hg
        cases List.mem_cons.mp hg with
        | inl heq => exact heq ▸ hef
        | inr hg => exact hef.trans ((List.pairwise_cons.mp h).1 g hg)
      · intro ⟨he, h⟩
        exact ⟨he f List.mem_cons_self, h⟩

end Sorted

section TlsMap

variable [LinearOrder K]

def TlsMap.codec : TlsCodec (TlsMap K V) where
  serialize m := (vlen.vec (TlsMapEntry.codec k v)).serialize m.entries
  deserialize bytes := do
    let (entries, rest) ← (vlen.vec (TlsMapEntry.codec k v)).deserialize bytes
    if h : windowsSorted entries then .ok (⟨entries, windowsSorted_iff.mp h⟩, rest)
    else .error (.decodingError "TlsMap entries not sorted or contain duplicates")

variable {vlen} {k : TlsCodec K} {v : TlsCodec V}

theorem TlsMap.codec_roundTrips (hk : k.Lawful) (hpos : k.Positive) (hv : v.Lawful) :
    (TlsMap.codec vlen k v).RoundTrips where
  deserialize_serialize {m bytes} h rest := by
    have hvec : (vlen.vec (TlsMapEntry.codec k v)).RoundTrips :=
      Vlen.vec_roundTrips (TlsMapEntry.codec_lawful hk hv).toRoundTrips
        (TlsMapEntry.codec_positive hpos v)
    simp only [codec, hvec.deserialize_serialize h, ok_bind, windowsSorted_iff.mpr m.sorted,
      dite_true]

theorem TlsMap.deserialize_entries {bytes rest : Bytes} {m : TlsMap K V}
    (h : (TlsMap.codec vlen k v).deserialize bytes = .ok (m, rest)) :
    (vlen.vec (TlsMapEntry.codec k v)).deserialize bytes = .ok (m.entries, rest) := by
  simp only [codec, bind_eq_ok, Prod.exists] at h
  obtain ⟨entries, rest', hentries, hm⟩ := h
  split at hm
  · cases hm
    exact hentries
  · cases hm

theorem TlsMap.serialize_iff (hk : k.Lawful) (hv : v.Lawful) {bytes : Bytes} {m : TlsMap K V}
    (h : (TlsMap.codec vlen k v).deserializeExact bytes = .ok m) :
    (TlsMap.codec vlen k v).serialize m = .ok bytes ↔ vlen.StatesLength bytes :=
  Vlen.serialize_vec_iff (TlsMapEntry.codec_lawful hk hv)
    (TlsMap.deserialize_entries (TlsCodec.deserializeExact_eq_ok.mp h))

end TlsMap

def TlsMapMutation.codec : TlsCodec (TlsMapMutation K V) where
  serialize
    | .insert key value => return 0 :: (← k.serialize key) ++ (← v.serialize value)
    | .update key value => return 1 :: (← k.serialize key) ++ (← v.serialize value)
    | .delete key => return 2 :: (← k.serialize key)
  deserialize
    | [] => .error .endOfStream
    | tag :: bytes =>
      if tag = 0 then do
        let (key, rest) ← k.deserialize bytes
        let (value, rest) ← v.deserialize rest
        return (.insert key value, rest)
      else if tag = 1 then do
        let (key, rest) ← k.deserialize bytes
        let (value, rest) ← v.deserialize rest
        return (.update key value, rest)
      else if tag = 2 then do
        let (key, rest) ← k.deserialize bytes
        return (.delete key, rest)
      else .error (.decodingError s!"unknown TlsMapMutation tag: {tag}")

def TlsMapDelta.codec : TlsCodec (TlsMapDelta K V) where
  serialize delta := (vlen.vec (TlsMapMutation.codec k v)).serialize delta.mutations
  deserialize bytes := do
    let (mutations, rest) ← (vlen.vec (TlsMapMutation.codec k v)).deserialize bytes
    return (⟨mutations⟩, rest)

section Lawful

variable {vlen} {k : TlsCodec K} {v : TlsCodec V} (hk : k.Lawful) (hv : v.Lawful)

theorem TlsMapMutation.codec_positive (k : TlsCodec K) (v : TlsCodec V) :
    (TlsMapMutation.codec k v).Positive := by
  intro mutation bytes h hnil
  subst hnil
  cases mutation <;> simp [codec, bind_eq_ok] at h

include hk hv in
theorem TlsMapMutation.codec_roundTrips : (TlsMapMutation.codec k v).RoundTrips where
  deserialize_serialize {mutation bytes} h rest := by
    cases mutation with
    | insert key value =>
      simp only [codec, bind_eq_ok, pure_eq_ok] at h
      obtain ⟨keyBytes, hkey, valueBytes, hvalue, rfl⟩ := h
      simp only [codec, List.cons_append, List.append_assoc, if_true,
        hk.deserialize_serialize hkey, ok_bind, hv.deserialize_serialize hvalue]
      rfl
    | update key value =>
      simp only [codec, bind_eq_ok, pure_eq_ok] at h
      obtain ⟨keyBytes, hkey, valueBytes, hvalue, rfl⟩ := h
      have htag : ¬(1 : UInt8) = 0 := by decide
      simp only [codec, List.cons_append, List.append_assoc, if_neg htag, if_true,
        hk.deserialize_serialize hkey, ok_bind, hv.deserialize_serialize hvalue]
      rfl
    | delete key =>
      simp only [codec, bind_eq_ok, pure_eq_ok] at h
      obtain ⟨keyBytes, hkey, rfl⟩ := h
      have htag : ¬(2 : UInt8) = 0 ∧ ¬(2 : UInt8) = 1 := by decide
      simp only [codec, List.cons_append, if_neg htag.1, if_neg htag.2, if_true,
        hk.deserialize_serialize hkey, ok_bind]
      rfl

include hk hv in
theorem TlsMapDelta.codec_roundTrips : (TlsMapDelta.codec vlen k v).RoundTrips where
  deserialize_serialize {delta bytes} h rest := by
    have hvec : (vlen.vec (TlsMapMutation.codec k v)).RoundTrips :=
      Vlen.vec_roundTrips (TlsMapMutation.codec_roundTrips hk hv)
        (TlsMapMutation.codec_positive k v)
    simp only [codec, hvec.deserialize_serialize h, ok_bind]
    rfl

end Lawful

end Codec

end LibXmtp.Data
