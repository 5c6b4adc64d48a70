import LibXmtp.Data.HashMap

universe u v w

namespace LibXmtp.Data.HashMap

variable {κ : Type u} {ν : Type v} {β : Type w} [BEq κ]

def modifyOr (m : HashMap κ ν) (k : κ) (f : ν → ν) (v : ν) : HashMap κ ν :=
  m.insert k ((m.get k).elim v f)

/-- `iter_mut`: every value is replaced and the keys stay. -/
def mapValues (f : κ → ν → ν) (m : HashMap κ ν) : HashMap κ ν where
  entries := m.entries.map fun e => (e.1, f e.1 e.2)
  distinct := List.pairwise_map.mpr m.distinct

def retain (p : κ → ν → Bool) (m : HashMap κ ν) : HashMap κ ν :=
  ⟨m.entries.filter fun e => p e.1 e.2, m.distinct.filter _⟩

section Entry

variable {m : HashMap κ ν} {k : κ} {f : β → ν → ν} {g : β → ν}

theorem get_modifyOr [EquivBEq κ] (a : κ) (h : ν → ν) (v : ν) :
    (m.modifyOr k h v).get a = if k == a then some ((m.get k).elim v h) else m.get a := by
  rw [modifyOr, get_insert]

theorem get_foldl_modifyOr [LawfulBEq κ] (es : List (κ × β)) (m : HashMap κ ν) (k : κ) :
    (es.foldl (fun m e => m.modifyOr e.1 (f e.2) (g e.2)) m).get k =
      ((es.filter fun e => e.1 == k).map Prod.snd).foldl
        (fun o b => some (o.elim (g b) (f b))) (m.get k) := by
  induction es generalizing m with
  | nil => rfl
  | cons e es ih =>
    rw [List.foldl_cons, ih, get_modifyOr, List.filter_cons]
    by_cases hkey : (e.1 == k) = true
    · rw [if_pos hkey, if_pos hkey, eq_of_beq hkey]
      rfl
    · rw [if_neg hkey, if_neg hkey]

end Entry

theorem get_mapValues [LawfulBEq κ] (f : κ → ν → ν) (m : HashMap κ ν) (k : κ) :
    (m.mapValues f).get k = (m.get k).map (f k) := by
  apply Option.ext
  intro v
  rw [get_eq_some_iff, Option.map_eq_some_iff]
  constructor
  · intro h
    obtain ⟨e, he, heq⟩ := List.mem_map.mp h
    cases heq
    exact ⟨e.2, get_eq_some_iff.mpr he, rfl⟩
  · rintro ⟨w, hw, rfl⟩
    exact List.mem_map.mpr ⟨(k, w), get_eq_some_iff.mp hw, rfl⟩

theorem get_retain [LawfulBEq κ] (p : κ → ν → Bool) (m : HashMap κ ν) (k : κ) :
    (m.retain p).get k = (m.get k).filter (p k) := by
  apply Option.ext
  intro v
  rw [get_eq_some_iff, Option.filter_eq_some_iff, get_eq_some_iff, retain, List.mem_filter]

@[simp] theorem keys_mapValues (f : κ → ν → ν) (m : HashMap κ ν) : (m.mapValues f).keys = m.keys := by
  simp [keys, mapValues, Function.comp_def]

section Inserts

variable [LawfulBEq κ] (key : β → κ) (value : β → ν) {bs : List β}

theorem get_foldl_insert_of_notMem {k : κ} (h : k ∉ bs.map key) (m : HashMap κ ν) :
    (bs.foldl (fun m b => m.insert (key b) (value b)) m).get k = m.get k := by
  induction bs generalizing m with
  | nil => rfl
  | cons b bs ih =>
    rw [List.map_cons, List.mem_cons, not_or] at h
    have hne : ¬(key b == k) = true := fun heq => h.1 (eq_of_beq heq).symm
    rw [List.foldl_cons, ih h.2, get_insert, if_neg hne]

theorem get_foldl_insert_of_mem {b : β} (hkeys : (bs.map key).Nodup) (h : b ∈ bs)
    (m : HashMap κ ν) :
    (bs.foldl (fun m b => m.insert (key b) (value b)) m).get (key b) = some (value b) := by
  induction bs generalizing m with
  | nil => exact absurd h List.not_mem_nil
  | cons b' bs ih =>
    obtain ⟨hb, hkeys⟩ := List.nodup_cons.mp hkeys
    rw [List.foldl_cons]
    cases List.mem_cons.mp h with
    | inr hmem => exact ih hkeys hmem (m.insert (key b') (value b'))
    | inl heq =>
      subst heq
      rw [get_foldl_insert_of_notMem key value hb, get_insert, if_pos BEq.rfl]

end Inserts

section Count

variable [LawfulBEq κ] {k : κ} {v w : ν}

theorem countP_upsert (p : κ × ν → Bool) {es : List (κ × ν)}
    (hes : es.Pairwise fun a b => (a.1 == b.1) = false) (h : (k, v) ∈ es) :
    (upsert k w es).countP p + (if p (k, v) then 1 else 0) =
      es.countP p + (if p (k, w) then 1 else 0) := by
  induction es with
  | nil => exact absurd h List.not_mem_nil
  | cons e es ih =>
    obtain ⟨he, hes⟩ := List.pairwise_cons.mp hes
    rw [upsert]
    cases List.mem_cons.mp h with
    | inl heq =>
      subst heq
      rw [if_pos BEq.rfl, List.countP_cons, List.countP_cons]
      exact Nat.add_right_comm _ _ _
    | inr hmem =>
      have hne : ¬(e.1 == k) = true := by
        rw [he (k, v) hmem]
        exact Bool.false_ne_true
      have hrest := ih hes hmem
      rw [if_neg hne, List.countP_cons, List.countP_cons]
      omega

theorem countP_insert (p : κ × ν → Bool) {m : HashMap κ ν} (h : m.get k = some v) :
    (m.insert k w).entries.countP p + (if p (k, v) then 1 else 0) =
      m.entries.countP p + (if p (k, w) then 1 else 0) :=
  countP_upsert p m.distinct (get_eq_some_iff.mp h)

end Count

theorem countP_remove_le (p : κ × ν → Bool) (m : HashMap κ ν) (k : κ) :
    (m.remove k).entries.countP p ≤ m.entries.countP p :=
  List.filter_sublist.countP_le

theorem flatMap_entries [LawfulBEq κ] {m : HashMap κ ν} {k : κ} {f : κ × ν → List β}
    (h : ∀ e ∈ m.entries, e.1 ≠ k → f e = []) :
    m.entries.flatMap f = ((m.get k).map fun v => f (k, v)).getD [] := by
  cases hget : m.get k with
  | none =>
    refine List.flatMap_eq_nil_iff.mpr fun e he => h e he fun heq => ?_
    rw [← heq, get_eq_some_iff.mpr he] at hget
    cases hget
  | some v =>
    obtain ⟨es, es', hentries⟩ := List.append_of_mem (get_eq_some_iff.mp hget)
    have hdistinct := m.distinct
    rw [hentries, List.pairwise_append, List.pairwise_cons] at hdistinct
    obtain ⟨_, ⟨hafter, _⟩, hbefore⟩ := hdistinct
    have hother : ∀ e, e ∈ es ∨ e ∈ es' → f e = [] := by
      intro e he
      have hmem : e ∈ m.entries := by
        rw [hentries]
        exact List.mem_append.mpr (he.imp_right (List.mem_cons_of_mem _))
      refine h e hmem fun heq => ?_
      cases he with
      | inl he =>
        have hne := hbefore e he (k, v) List.mem_cons_self
        rw [heq, BEq.rfl] at hne
        cases hne
      | inr he =>
        have hne := hafter e he
        rw [heq, BEq.rfl] at hne
        cases hne
    rw [hentries, List.flatMap_append, List.flatMap_cons,
      List.flatMap_eq_nil_iff.mpr fun e he => hother e (.inl he),
      List.flatMap_eq_nil_iff.mpr fun e he => hother e (.inr he), List.append_nil]
    rfl

theorem isEmpty_entries_iff [LawfulBEq κ] {m : HashMap κ ν} :
    m.entries.isEmpty = true ↔ ∀ k, m.get k = none := by
  rw [List.isEmpty_iff]
  constructor
  · intro h k
    rw [get, getKeyValue, h]
    rfl
  · intro h
    cases hentries : m.entries with
    | nil => rfl
    | cons e es =>
      have hget : m.get e.1 = some e.2 := get_eq_some_iff.mpr (hentries ▸ List.mem_cons_self)
      rw [h e.1] at hget
      cases hget

end LibXmtp.Data.HashMap
