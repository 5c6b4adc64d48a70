import Mathlib.Data.Finset.Basic
import Mathlib.Data.Finset.Dedup
import Mathlib.Data.List.Sort
import LibXmtp.Data.Loop
import LibXmtp.Data.Result
import LibXmtp.D14n.CausalSort
import LibXmtp.Db.Icebox

/-! Ordering a batch of envelopes: children that were put aside are recovered, what is still missing
is asked for, and what cannot be had is put aside. -/

universe u

namespace LibXmtp.D14n

open LibXmtp.Data LibXmtp.Types LibXmtp.Db

variable {E : Type u} [Envelope E]

inductive ResolutionError
  | envelope (error : EnvelopeError)
  | api

def timestampLe : Option Int → Option Int → Prop
  | none, _ => True
  | some _, none => False
  | some a, some b => a ≤ b

instance : DecidableRel timestampLe := fun a b => by
  cases a <;> cases b <;> simp only [timestampLe] <;> infer_instance

/-- What the code leaves open: the answers of the resolver, which may change from one call to the
next, the order in which an unstable sort leaves equal timestamps, and the order in which a hash map
gives its values back. -/
structure Environment (E : Type u) [Envelope E] where
  resolve : Nat → Finset RequiredDependency → Except ResolutionError (List E)
  sortByTimestamp : List E → List E
  sortByTimestamp_perm : ∀ es, (sortByTimestamp es).Perm es
  sortByTimestamp_sorted : ∀ es, (sortByTimestamp es).Pairwise fun a b =>
    timestampLe (timestamp a) (timestamp b)
  intoValues : Nat → List (IceboxRow E) → List (IceboxRow E)
  intoValues_perm : ∀ k rows, (intoValues k rows).Perm rows

def Requested (needed : Finset RequiredDependency) (e : E) : Prop :=
  ∃ d ∈ needed, d.topic = topic e ∧ d.cursor = cursor e

instance (needed : Finset RequiredDependency) (e : E) : Decidable (Requested needed e) :=
  inferInstanceAs (Decidable (∃ d ∈ needed, d.topic = topic e ∧ d.cursor = cursor e))

theorem timestampLe_total (a b : Option Int) : timestampLe a b ∨ timestampLe b a := by
  cases a <;> cases b <;> simp [timestampLe, Int.le_total]

theorem timestampLe_trans {a b c : Option Int} (h : timestampLe a b) (h' : timestampLe b c) :
    timestampLe a c := by
  cases a <;> cases b <;> cases c <;> simp_all [timestampLe]
  omega

/-- A stable sort, hash maps that keep their order, and a resolver that hands out the envelopes of
`network`. -/
def Environment.serving (network : List E) : Environment E where
  resolve _ needed := .ok (network.filter fun e => Requested needed e)
  sortByTimestamp es := es.insertionSort fun a b => timestampLe (timestamp a) (timestamp b)
  sortByTimestamp_perm es := List.perm_insertionSort _ es
  sortByTimestamp_sorted es := by
    have : Std.Total fun a b : E => timestampLe (timestamp a) (timestamp b) :=
      ⟨fun a b => timestampLe_total _ _⟩
    have : IsTrans E fun a b => timestampLe (timestamp a) (timestamp b) :=
      ⟨fun _ _ _ => timestampLe_trans⟩
    exact List.pairwise_insertionSort _ es
  intoValues _ rows := rows
  intoValues_perm _ rows := .refl rows

/-- The ordering under way, with the number of times the resolver has answered. -/
structure Ordered (E : Type u) [Envelope E] where
  envelopes : List E
  calls : Nat
  topicCursor : TopicCursor
  store : Icebox E

namespace Ordered

/-- What `missing` depends on and the clocks have not seen. -/
def requiredDependencies (topicCursor : TopicCursor) (missing : List E) :
    Finset RequiredDependency × TopicCursor :=
  ((missing.flatMap fun e =>
      ((topicCursor.clock (topic e)).missing (dependencies e)).map fun c =>
        { neededBy := cursor e, topic := topic e, cursor := c }).toFinset,
    CausalSort.lookAt topicCursor missing)

/-- The children of the envelopes are appended to them, except for those that are there already.
There is no outcome if looking for them never ends. -/
def recoverLostChildren (env : Environment E) (o : Ordered E) : Option (Ordered E) :=
  let cursors := o.envelopes.map cursor
  (o.store.futureDependents cursors).map fun children =>
    { o with
      envelopes := o.envelopes ++ ((env.intoValues o.calls children).filter fun child =>
        !cursors.contains child.cursor).map IceboxRow.envelopePayload }

/-- One round of the loop: a causal sort, and a call of the resolver if envelopes are missing. -/
def round (env : Environment E) (o : Ordered E) :
    Option (Next (Ordered E) (Except ResolutionError (Ordered E))) :=
  let (envelopes, topicCursor, missing) := causalSort o.envelopes o.topicCursor
  match missing with
  | none => some (.done (.ok { o with envelopes, topicCursor }))
  | some missing =>
    let (needed, topicCursor) := requiredDependencies topicCursor missing
    match env.resolve o.calls needed with
    | .error e => some (.done (.error e))
    | .ok resolved =>
      if resolved.isEmpty then
        some (.done (match missing.mapM orphan with
          | .ok orphans => .ok { o with envelopes, topicCursor, store := o.store.ice orphans }
          | .error e => .error (.envelope e)))
      else
        (recoverLostChildren env
          { o with
            envelopes := envelopes ++ resolved ++ missing
            calls := o.calls + 1
            topicCursor }).map .again

def start (env : Environment E) (o : Ordered E) : Option (Ordered E) :=
  (recoverLostChildren env o).map fun o =>
    { o with envelopes := env.sortByTimestamp o.envelopes }

def Orders (env : Environment E) (o : Ordered E) (r : Except ResolutionError (Ordered E)) : Prop :=
  ∃ s, start env o = some s ∧ Loop.Returns (round env) s r

def sorted (o : Ordered E) : List E := (causalSort o.envelopes o.topicCursor).1

def clock (o : Ordered E) : TopicCursor := (causalSort o.envelopes o.topicCursor).2.1

def missing (o : Ordered E) : List E := (causalSort o.envelopes o.topicCursor).2.2.getD []

def needed (o : Ordered E) : Finset RequiredDependency :=
  (requiredDependencies o.clock o.missing).1

def merge (o : Ordered E) (resolved : List E) : Ordered E :=
  { o with
    envelopes := o.sorted ++ resolved ++ o.missing
    calls := o.calls + 1
    topicCursor := CausalSort.lookAt o.clock o.missing }

theorem causallySorted (o : Ordered E) :
    CausallySorted o.envelopes o.topicCursor o.sorted o.clock o.missing :=
  causallySorted_causalSort o.envelopes o.topicCursor

theorem mem_needed {o : Ordered E} {d : RequiredDependency} :
    d ∈ o.needed ↔ ∃ e ∈ o.missing, d.neededBy = cursor e ∧ d.topic = topic e ∧
      (dependencies e).get d.cursor.originatorId = d.cursor.sequenceId ∧
        o.clock.seen (topic e) d.cursor.originatorId < d.cursor.sequenceId := by
  simp only [needed, requiredDependencies, List.mem_toFinset, List.mem_flatMap, List.mem_map,
    TopicCursor.mem_missing_clock]
  constructor
  · rintro ⟨e, he, a, ha, rfl⟩
    exact ⟨e, he, rfl, rfl, ha⟩
  · rintro ⟨e, he, hby, htopic, ha⟩
    exact ⟨e, he, d.cursor, ha, by cases d; simp_all⟩

inductive RoundCase (env : Environment E) (o : Ordered E) :
    Next (Ordered E) (Except ResolutionError (Ordered E)) → Prop
  | complete : o.missing = [] →
      RoundCase env o (.done (.ok { o with envelopes := o.sorted, topicCursor := o.clock }))
  | unresolved : o.missing ≠ [] → env.resolve o.calls o.needed = .error e →
      RoundCase env o (.done (.error e))
  | iced : o.missing ≠ [] → env.resolve o.calls o.needed = .ok [] →
      o.missing.mapM orphan = .ok orphans →
      RoundCase env o (.done (.ok { o with
        envelopes := o.sorted
        topicCursor := CausalSort.lookAt o.clock o.missing
        store := o.store.ice orphans }))
  | unreadable : o.missing ≠ [] → env.resolve o.calls o.needed = .ok [] →
      o.missing.mapM orphan = .error e → RoundCase env o (.done (.error (.envelope e)))
  | again : o.missing ≠ [] → env.resolve o.calls o.needed = .ok resolved → resolved ≠ [] →
      recoverLostChildren env (o.merge resolved) = some t → RoundCase env o (.again t)

theorem round_of_missing_nil {env : Environment E} {o : Ordered E} (h : o.missing = []) :
    round env o = some (.done (.ok { o with envelopes := o.sorted, topicCursor := o.clock })) := by
  rcases hsort : causalSort o.envelopes o.topicCursor with ⟨sorted, final, missing⟩
  cases missing with
  | none => simp only [round, Ordered.sorted, clock, hsort]
  | some missing =>
    have hne := causalSort_missing_ne_nil (congrArg (fun x => x.2.2) hsort)
    simp only [Ordered.missing, hsort, Option.getD_some] at h
    exact absurd h hne

theorem round_of_missing_ne_nil {env : Environment E} {o : Ordered E} (h : o.missing ≠ []) :
    round env o = match env.resolve o.calls o.needed with
      | .error e => some (.done (.error e))
      | .ok resolved =>
        if resolved.isEmpty then
          some (.done (match o.missing.mapM orphan with
            | .ok orphans => .ok { o with
                envelopes := o.sorted
                topicCursor := CausalSort.lookAt o.clock o.missing
                store := o.store.ice orphans }
            | .error e => .error (.envelope e)))
        else (recoverLostChildren env (o.merge resolved)).map .again := by
  rcases hsort : causalSort o.envelopes o.topicCursor with ⟨sorted, final, missing⟩
  cases missing with
  | none => simp [Ordered.missing, hsort] at h
  | some missing =>
    simp only [round, Ordered.sorted, clock, Ordered.missing, needed, merge, hsort,
      Option.getD_some, requiredDependencies]

theorem round_cases {env : Environment E} {o : Ordered E} {next}
    (h : round env o = some next) : RoundCase env o next := by
  by_cases hmissing : o.missing = []
  · rw [round_of_missing_nil hmissing, Option.some.injEq] at h
    exact h ▸ .complete hmissing
  · rw [round_of_missing_ne_nil hmissing] at h
    split at h
    · rename_i e hresolve
      cases h
      exact .unresolved hmissing hresolve
    · rename_i resolved hresolve
      split at h
      · rename_i hnil
        rw [List.isEmpty_iff] at hnil
        subst hnil
        cases h
        split
        · rename_i orphans horphans
          exact .iced hmissing hresolve horphans
        · rename_i e horphans
          exact .unreadable hmissing hresolve horphans
      · rename_i hnil
        obtain ⟨t, ht, rfl⟩ := Option.map_eq_some_iff.mp h
        exact .again hmissing hresolve (by simpa using hnil) ht

structure Recovered (o t : Ordered E) (children : List E) : Prop where
  eq : t = { o with envelopes := o.envelopes ++ children }
  child : ∀ e ∈ children, cursor e ∉ o.envelopes.map cursor ∧ ∃ r, r.envelopePayload = e ∧
    ∃ d ∈ o.envelopes, Icebox.isInteger (cursor d) ∧ o.store.WaitsFor (cursor d) r
  nodup : (children.map cursor).Nodup
  all : ∀ d ∈ o.envelopes, Icebox.isInteger (cursor d) → ∀ r, o.store.WaitsFor (cursor d) r →
    r.cursor ∈ t.envelopes.map cursor

theorem recovered_of_eq_some {env : Environment E} {o t : Ordered E}
    (h : recoverLostChildren env o = some t) : ∃ children, Recovered o t children := by
  obtain ⟨rows, hrows, rfl⟩ := Option.map_eq_some_iff.mp h
  have hmem : ∀ r, r ∈ env.intoValues o.calls rows ↔
      ∃ c ∈ o.envelopes.map cursor, Icebox.isInteger c ∧ o.store.WaitsFor c r := fun r =>
    (env.intoValues_perm o.calls rows).mem_iff.trans (Icebox.mem_futureDependents hrows)
  refine ⟨_, rfl, ?_, ?_, ?_⟩
  · intro e he
    obtain ⟨r, hr, rfl⟩ := List.mem_map.mp he
    obtain ⟨hr, hnot⟩ := List.mem_filter.mp hr
    obtain ⟨c, hc, hinteger, hwaits⟩ := (hmem r).mp hr
    obtain ⟨d, hd, rfl⟩ := List.mem_map.mp hc
    refine ⟨?_, r, rfl, d, hd, hinteger, hwaits⟩
    rw [r.cursor_eq]
    simpa using hnot
  · have hcursor : (cursor ∘ IceboxRow.envelopePayload : IceboxRow E → Cursor) =
        IceboxRow.cursor := funext fun r => r.cursor_eq
    rw [List.map_map, hcursor]
    refine List.Nodup.sublist (List.filter_sublist.map IceboxRow.cursor) ?_
    rw [((env.intoValues_perm o.calls rows).map IceboxRow.cursor).nodup_iff]
    exact Icebox.nodup_futureDependents hrows
  · intro d hd hinteger r hwaits
    have hr := (hmem r).mpr ⟨cursor d, List.mem_map_of_mem hd, hinteger, hwaits⟩
    by_cases hin : r.cursor ∈ o.envelopes.map cursor
    · simp [List.map_append, hin]
    · rw [List.map_append, List.mem_append]
      right
      rw [← r.cursor_eq]
      exact List.mem_map_of_mem (List.mem_map_of_mem (List.mem_filter.mpr ⟨hr, by simpa using hin⟩))

def Closed (o : Ordered E) : Prop :=
  ∀ d ∈ o.envelopes, Icebox.isInteger (cursor d) → ∀ r, o.store.WaitsFor (cursor d) r →
    r.cursor ∈ o.envelopes.map cursor

theorem Recovered.closed {o t : Ordered E} {children : List E} (h : Recovered o t children) :
    t.Closed := by
  have heq := h.eq
  subst heq
  intro d hd hinteger r hwaits
  rcases List.mem_append.mp hd with hd | hd
  · exact h.all d hd hinteger r hwaits
  · obtain ⟨-, r', rfl, d', hd', hinteger', hwaits'⟩ := h.child d hd
    rw [r'.cursor_eq] at hwaits
    exact h.all d' hd' hinteger' r (hwaits'.trans hwaits)

theorem recoverLostChildren_eq_none_iff {env : Environment E} {o : Ordered E} :
    recoverLostChildren env o = none ↔
      ∃ e ∈ o.envelopes, Icebox.isInteger (cursor e) ∧
        ∃ r, o.store.WaitsFor (cursor e) r ∧ o.store.WaitsFor r.cursor r := by
  rw [recoverLostChildren, Option.map_eq_none_iff, Icebox.futureDependents_eq_none_iff]
  simp

section Rounds

variable {env : Environment E} {o s t : Ordered E}

theorem needed_eq_empty (h : o.missing = []) : o.needed = ∅ := by
  ext d
  simp [mem_needed, h]

theorem not_mem_sorted_of_requested {e : E} (h : Requested o.needed e) : e ∉ o.sorted := by
  obtain ⟨d, hd, htopic, hcursor⟩ := h
  obtain ⟨m, -, -, hm, -, hlt⟩ := mem_needed.mp hd
  intro he
  have hcovered := o.causallySorted.covered he
  rw [CausalSort.Covered, ← htopic, hm, ← hcursor] at hcovered
  omega

theorem mem_merge {resolved : List E} {e : E} :
    e ∈ (o.merge resolved).envelopes ↔ e ∈ o.envelopes ∨ e ∈ resolved := by
  rw [o.causallySorted.mem_sorted_or_missing]
  simp only [merge, List.mem_append]
  tauto

theorem seen_merge (resolved : List E) (t : Topic) (n : Nat) :
    (o.merge resolved).topicCursor.seen t n = o.clock.seen t n := by
  simp [merge, TopicCursor.seen]

theorem start_cases (h : start env o = some s) : ∃ t children, Recovered o t children ∧
    s = { t with envelopes := env.sortByTimestamp t.envelopes } := by
  obtain ⟨t, ht, rfl⟩ := Option.map_eq_some_iff.mp h
  obtain ⟨children, hrec⟩ := recovered_of_eq_some ht
  exact ⟨t, children, hrec, rfl⟩

theorem round_again_cases (h : round env o = some (.again t)) : ∃ resolved children,
    env.resolve o.calls o.needed = .ok resolved ∧ resolved ≠ [] ∧ o.missing ≠ [] ∧
      Recovered (o.merge resolved) t children := by
  cases round_cases h with
  | again hmissing hresolve hne hrec =>
    obtain ⟨children, hrecovered⟩ := recovered_of_eq_some hrec
    exact ⟨_, children, hresolve, hne, hmissing, hrecovered⟩

theorem closed_start (h : start env o = some s) : s.Closed := by
  obtain ⟨t, children, hrec, rfl⟩ := start_cases h
  have hperm := env.sortByTimestamp_perm t.envelopes
  intro d hd hinteger r hwaits
  exact (hperm.map cursor).mem_iff.mpr (hrec.closed d (hperm.mem_iff.mp hd) hinteger r hwaits)

theorem closed_of_reaches (hs : s.Closed) (h : Loop.Reaches (round env) s t) : t.Closed := by
  refine Loop.Reaches.invariant h (fun o t _ hround => ?_) hs
  obtain ⟨resolved, children, -, -, -, hrec⟩ := round_again_cases hround
  exact hrec.closed

/-- What a call that returns leaves in the icebox: what was there, and what it was missing. -/
structure Leaves (u r : Ordered E) : Prop where
  envelopes : r.envelopes = u.sorted
  seen : ∀ t o, r.topicCursor.seen t o = u.clock.seen t o
  kept : ∀ row ∈ u.store.icebox.rows, row ∈ r.store.icebox.rows
  recorded : ∀ e ∈ u.missing, ∃ row ∈ r.store.icebox.rows, row.cursor = cursor e
  only : ∀ row ∈ r.store.icebox.rows,
    row ∈ u.store.icebox.rows ∨ row.envelopePayload ∈ u.missing

theorem leaves_of_done {u r : Ordered E} (h : round env u = some (.done (.ok r))) :
    Leaves u r := by
  cases round_cases h with
  | complete hmissing =>
    exact ⟨rfl, fun _ _ => rfl, fun _ hrow => hrow, by simp [hmissing], fun _ hrow => .inl hrow⟩
  | iced _ _ horphans =>
    refine ⟨rfl, fun t o => by simp [TopicCursor.seen], fun _ => Icebox.mem_ice_of_mem, ?_, ?_⟩
    · intro e he
      obtain ⟨orphan, hmem, horphan⟩ := exists_of_mapM_mem horphans he
      obtain ⟨row, hrow, hcursor⟩ := u.store.exists_row_ice hmem
      refine ⟨row, hrow, ?_⟩
      rw [hcursor, ← orphan.cursor_eq, payload_of_orphan horphan]
    · intro row hrow
      refine (Icebox.mem_of_mem_ice hrow).imp id ?_
      rintro ⟨orphan, hmem, rfl⟩
      obtain ⟨e, he, horphan⟩ := exists_of_mem_mapM horphans hmem
      have hpayload : (Icebox.rowOf orphan).envelopePayload = e := payload_of_orphan horphan
      rwa [hpayload]

theorem store_start (h : start env o = some s) : s.store = o.store := by
  obtain ⟨t, children, hrec, rfl⟩ := start_cases h
  rw [hrec.eq]

theorem store_again (h : round env o = some (.again t)) : t.store = o.store := by
  obtain ⟨resolved, children, -, -, -, hrec⟩ := round_again_cases h
  rw [hrec.eq]
  rfl

theorem store_of_reaches (h : Loop.Reaches (round env) s t) : t.store = s.store := by
  induction h with
  | refl => rfl
  | tail _ hround ih => rw [store_again hround, ih]

theorem exists_orders_of_run (fuel : Nat) {es : List E} (hs : start env o = some s)
    (h : ((Loop.run (round env) fuel s).bind Except.toOption).map (fun r => r.envelopes) = some es) :
    ∃ r, Orders env o (.ok r) ∧ r.envelopes = es := by
  obtain ⟨r, hr, henvelopes⟩ := Option.map_eq_some_iff.mp h
  obtain ⟨result, hresult, hok⟩ := Option.bind_eq_some_iff.mp hr
  cases result with
  | error e => cases hok
  | ok r' =>
    cases hok
    exact ⟨r, ⟨s, hs, Loop.returns_of_run hresult⟩, henvelopes⟩

end Rounds

end Ordered

end LibXmtp.D14n
