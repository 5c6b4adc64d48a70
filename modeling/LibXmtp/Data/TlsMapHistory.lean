import LibXmtp.Data.QuicVarint
import LibXmtp.Data.TlsMapCodec
import Mathlib.Data.List.Induction
import Mathlib.Data.Nat.Basic

namespace LibXmtp.Data.TlsMap

variable {K V : Type} [LinearOrder K]

inductive Op (K V : Type)
  | fromPairs (pairs : List (K × V))
  | insert (key : K) (value : V)
  | update (key : K) (value : V)
  | set (key : K) (value : V)
  | remove (key : K)
  | getMut (key : K) (write : V → V)
  | applyDelta (delta : TlsMapDelta K V)
  | deserialize (bytes : Bytes)

def Op.run (codec : TlsCodec (TlsMap K V)) (m : TlsMap K V) : Op K V → TlsMap K V
  | .fromPairs pairs => TlsMap.fromPairs pairs
  | .insert key value =>
    match m.insert key value with
    | .ok m => m
    | .error _ => m
  | .update key value =>
    match m.update key value with
    | .ok m => m
    | .error _ => m
  | .set key value => m.set key value
  | .remove key =>
    match m.remove key with
    | .ok (_, m) => m
    | .error _ => m
  | .getMut key write =>
    match m.getMut key with
    | some (old, put) => put (write old)
    | none => m
  | .applyDelta delta => (m.applyDelta delta).2
  | .deserialize bytes =>
    match codec.deserialize bytes with
    | .ok (m, _) => m
    | .error _ => m

def run (codec : TlsCodec (TlsMap K V)) (history : List (Op K V)) : TlsMap K V :=
  history.foldl (Op.run codec) new

/-! Finite maps are functions, and an operation on one says what it does to each key. -/

def replayMutation (c : K → Option V) : TlsMapMutation K V → Option (K → Option V)
  | .insert key value =>
    if (c key).isSome then none else some (Function.update c key (some value))
  | .update key value =>
    if (c key).isSome then some (Function.update c key (some value)) else none
  | .delete key => if (c key).isSome then some (Function.update c key none) else none

def Op.replay (codec : TlsCodec (TlsMap K V)) (c : K → Option V) : Op K V → K → Option V
  | .fromPairs pairs => contents pairs
  | .insert key value => if (c key).isSome then c else Function.update c key (some value)
  | .update key value => if (c key).isSome then Function.update c key (some value) else c
  | .set key value => Function.update c key (some value)
  | .remove key => Function.update c key none
  | .getMut key write => Function.update c key ((c key).map write)
  | .applyDelta delta => (delta.mutations.foldlM replayMutation c).getD c
  | .deserialize bytes =>
    match codec.deserialize bytes with
    | .ok (m, _) => contents m.iter
    | .error _ => c

def replay (codec : TlsCodec (TlsMap K V)) (history : List (Op K V)) : K → Option V :=
  history.foldl (Op.replay codec) fun _ => none

section

variable {m : TlsMap K V}

theorem get_set_eq (key : K) (value : V) :
    (m.set key value).get = Function.update m.get key (some value) := by
  funext k
  rw [get_set, Function.update_apply]

theorem get_erase_eq (key : K) : (m.erase key).get = Function.update m.get key none := by
  funext k
  rw [get_erase, Function.update_apply]

theorem get_mutate (m : TlsMap K V) (mutation : TlsMapMutation K V) :
    (m.mutate mutation).toOption.map get = replayMutation m.get mutation := by
  cases mutation with
  | insert key value =>
    rw [mutate, insert_eq, replayMutation]
    split <;> simp [Except.toOption, get_set_eq]
  | update key value =>
    rw [mutate, update_eq, replayMutation]
    split <;> simp [Except.toOption, get_set_eq]
  | delete key =>
    rw [mutate, remove_eq, replayMutation]
    cases h : m.get key <;> simp [Except.map, Except.toOption, get_erase_eq]

theorem get_foldlM_mutate (m : TlsMap K V) (mutations : List (TlsMapMutation K V)) :
    (mutations.foldlM mutate m).toOption.map get = mutations.foldlM replayMutation m.get := by
  induction mutations generalizing m with
  | nil => rfl
  | cons mutation mutations ih =>
    rw [List.foldlM_cons, List.foldlM_cons, ← get_mutate]
    cases m.mutate mutation with
    | ok m' => exact ih m'
    | error e => rfl

theorem get_applyDelta (m : TlsMap K V) (delta : TlsMapDelta K V) :
    (m.applyDelta delta).2.get = (delta.mutations.foldlM replayMutation m.get).getD m.get := by
  rw [applyDelta_eq, ← get_foldlM_mutate]
  cases delta.mutations.foldlM mutate m <;> rfl

theorem get_run_op (codec : TlsCodec (TlsMap K V)) (m : TlsMap K V) (op : Op K V) :
    (op.run codec m).get = op.replay codec m.get := by
  cases op with
  | fromPairs pairs =>
    funext key
    exact get_fromPairs pairs key
  | insert key value =>
    rw [Op.run, Op.replay, insert_eq]
    cases h : m.get key <;> simp [get_set_eq]
  | update key value =>
    rw [Op.run, Op.replay, update_eq]
    cases h : m.get key <;> simp [get_set_eq]
  | set key value => exact get_set_eq key value
  | remove key =>
    rw [Op.run, Op.replay, remove_eq]
    cases h : m.get key with
    | none =>
      have hself := Function.update_eq_self key m.get
      rw [h] at hself
      exact hself.symm
    | some value => exact get_erase_eq key
  | getMut key write =>
    rw [Op.run, Op.replay, getMut_eq]
    cases h : m.get key with
    | none =>
      have hself := Function.update_eq_self key m.get
      rw [h] at hself
      exact hself.symm
    | some value => exact get_set_eq key (write value)
  | applyDelta delta => exact get_applyDelta m delta
  | deserialize bytes =>
    rw [Op.run, Op.replay]
    split
    · simp [contents_iter]
    · rfl

end

theorem get_run (codec : TlsCodec (TlsMap K V)) (history : List (Op K V)) :
    (run codec history).get = replay codec history := by
  have h (m : TlsMap K V) :
      (history.foldl (Op.run codec) m).get = history.foldl (Op.replay codec) m.get := by
    induction history generalizing m with
    | nil => rfl
    | cons op history ih => rw [List.foldl_cons, List.foldl_cons, ih, get_run_op]
  exact h new

section

variable {vlen : Vlen} {k : TlsCodec K} {v : TlsCodec V}

/-- A map is sorted and holds what its history says, equal contents are written alike and read
back, and what is read is written again just if its bytes state their number. -/
theorem canonical_finite_map (hk : k.Lawful) (hpos : k.Positive) (hv : v.Lawful) :
    (∀ history, (run (codec vlen k v) history).entries.Pairwise fun a b => a.key < b.key) ∧
    (∀ history key,
      (run (codec vlen k v) history).get key = replay (codec vlen k v) history key ∧
      (run (codec vlen k v) history).containsKey key =
        (replay (codec vlen k v) history key).isSome ∧
      ∀ value, (key, value) ∈ (run (codec vlen k v) history).iter ↔
        replay (codec vlen k v) history key = some value) ∧
    (∀ m n : TlsMap K V, (∀ key, m.get key = n.get key) →
      (codec vlen k v).serialize m = (codec vlen k v).serialize n) ∧
    (∀ m bytes, (codec vlen k v).serialize m = .ok bytes →
      (codec vlen k v).deserializeExact bytes = .ok m) ∧
    ∀ bytes m, (codec vlen k v).deserializeExact bytes = .ok m →
      ((codec vlen k v).serialize m = .ok bytes ↔ vlen.StatesLength bytes) := by
  refine ⟨fun history => (run _ history).sorted, ?_, ?_, ?_, ?_⟩
  · intro history key
    rw [containsKey_eq, get_run]
    refine ⟨rfl, rfl, fun value => ?_⟩
    rw [mem_iter, get_run]
  · intro m n h
    rw [ext_get h]
  · intro m bytes h
    exact (codec_roundTrips hk hpos hv).deserializeExact_serialize h
  · intro bytes m h
    exact serialize_iff hk hv h

end

theorem canonical_finite_map_lengths :
    let entries := codec Vlen.quic Vlen.quic.number Vlen.quic.bytes
    entries.serialize (run entries [.deserialize [5, 1, 1, 7, 2, 0]]) = .ok [5, 1, 1, 7, 2, 0] ∧
      (entries.deserializeExact [1, 1, 1, 7]).isOk ∧
      entries.serialize (run entries [.deserialize [1, 1, 1, 7]]) ≠ .ok [1, 1, 1, 7] := by
  have h := (@canonical_finite_map Nat Bytes _ Vlen.quic Vlen.quic.number Vlen.quic.bytes
    Vlen.number_lawful Vlen.number_positive Vlen.bytes_lawful).2.2.2.2
  refine ⟨(h _ _ rfl).mpr ⟨5, 1, _, rfl, rfl⟩, rfl, fun hwrite => ?_⟩
  obtain ⟨n, consumed, rest, hread, hn⟩ := (h _ _ rfl).mp hwrite
  cases hread
  cases hn

end LibXmtp.Data.TlsMap
