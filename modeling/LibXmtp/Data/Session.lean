import Mathlib.Data.List.Forall2

universe u

namespace LibXmtp.Data

/-- A computation that reads and writes a store and may fail: what it wrote before failing stays
written. -/
abbrev Session (σ ε α : Type u) := ExceptT ε (StateM σ) α

namespace Session

variable {σ ε α β : Type u}

def outcome (x : Session σ ε α) (s : σ) : Except ε α × σ := StateT.run (ExceptT.run x) s

/-- A savepoint: nothing is written if it fails, and what it failed with is handed on. -/
def savepoint (x : Session σ ε α) : Session σ ε (Except ε α) := ExceptT.mk fun s =>
  match x.outcome s with
  | (.ok a, s') => (.ok (.ok a), s')
  | (.error e, _) => (.ok (.error e), s)

def ofExcept (r : Except ε α) : Session σ ε α := ExceptT.mk (pure r)

def transaction (x : Session σ ε α) : Session σ ε α := ExceptT.mk fun s =>
  match x.outcome s with
  | (.ok a, s') => (.ok a, s')
  | (.error e, _) => (.error e, s)

theorem outcome_bind (x : Session σ ε α) (f : α → Session σ ε β) (s : σ) :
    (x >>= f).outcome s =
      match x.outcome s with
      | (.ok a, s') => (f a).outcome s'
      | (.error e, s') => (.error e, s') := by
  simp only [outcome, ExceptT.run_bind, StateT.run_bind]
  rcases StateT.run (ExceptT.run x) s with ⟨r, s'⟩
  cases r <;> rfl

def mapError {δ : Type u} (f : ε → δ) (x : Session σ ε α) : Session σ δ α :=
  ExceptT.mk fun s => ((x.outcome s).1.mapError f, (x.outcome s).2)

theorem outcome_ofExcept (r : Except ε α) (s : σ) : (ofExcept r).outcome s = (r, s) := rfl

theorem outcome_get (s : σ) : (get : Session σ ε σ).outcome s = (.ok s, s) := rfl

theorem outcome_modify (f : σ → σ) (s : σ) :
    (modify f : Session σ ε PUnit).outcome s = (.ok ⟨⟩, f s) := rfl

theorem outcome_set (t s : σ) : (set t : Session σ ε PUnit).outcome s = (.ok ⟨⟩, t) := rfl

theorem outcome_pure (a : α) (s : σ) : (pure a : Session σ ε α).outcome s = (.ok a, s) := rfl

theorem outcome_transaction (x : Session σ ε α) (s : σ) :
    x.transaction.outcome s =
      match x.outcome s with
      | (.ok a, s') => (.ok a, s')
      | (.error e, _) => (.error e, s) := rfl

theorem outcome_savepoint (x : Session σ ε α) (s : σ) :
    x.savepoint.outcome s =
      match x.outcome s with
      | (.ok a, s') => (.ok (.ok a), s')
      | (.error e, _) => (.ok (.error e), s) := rfl

theorem outcome_savepoint_eq_ok {x : Session σ ε α} {s s' : σ} {r : Except ε α} :
    x.savepoint.outcome s = (.ok r, s') ↔
      (∃ a, r = .ok a ∧ x.outcome s = (.ok a, s')) ∨
        ∃ e m, r = .error e ∧ x.outcome s = (.error e, m) ∧ s = s' := by
  rw [outcome_savepoint]
  rcases x.outcome s with ⟨r', m⟩
  cases r' with
  | ok a =>
    constructor
    · rintro ⟨⟩
      exact .inl ⟨a, rfl, rfl⟩
    · rintro (⟨_, rfl, ⟨⟩⟩ | ⟨_, _, _, ⟨⟩, _⟩)
      rfl
  | error e =>
    constructor
    · rintro ⟨⟩
      exact .inr ⟨e, m, rfl, rfl, rfl⟩
    · rintro (⟨_, _, ⟨⟩⟩ | ⟨_, _, rfl, ⟨⟩, rfl⟩)
      rfl

theorem outcome_bind_eq_ok {x : Session σ ε α} {f : α → Session σ ε β} {s s' : σ} {b : β} :
    (x >>= f).outcome s = (.ok b, s') ↔
      ∃ a m, x.outcome s = (.ok a, m) ∧ (f a).outcome m = (.ok b, s') := by
  rw [outcome_bind]
  rcases x.outcome s with ⟨r, m⟩
  cases r with
  | ok a =>
    constructor
    · intro h
      exact ⟨a, m, rfl, h⟩
    · rintro ⟨_, _, ⟨⟩, h⟩
      exact h
  | error e => simp

theorem outcome_ofExcept_bind_eq_ok {r : Except ε α} {f : α → Session σ ε β} {s s' : σ} {b : β} :
    (ofExcept r >>= f).outcome s = (.ok b, s') ↔ ∃ a, r = .ok a ∧ (f a).outcome s = (.ok b, s') := by
  rw [outcome_bind, outcome_ofExcept]
  cases r <;> simp

theorem outcome_get_bind (f : σ → Session σ ε β) (s : σ) :
    (get >>= f).outcome s = (f s).outcome s := by
  rw [outcome_bind, outcome_get]

theorem outcome_set_bind (t : σ) (f : PUnit → Session σ ε β) (s : σ) :
    (set t >>= f).outcome s = (f ⟨⟩).outcome t := by
  rw [outcome_bind, outcome_set]

theorem outcome_modify_bind (g : σ → σ) (f : PUnit → Session σ ε β) (s : σ) :
    (modify g >>= f).outcome s = (f ⟨⟩).outcome (g s) := by
  rw [outcome_bind, outcome_modify]

theorem outcome_throw_eq_ok {e : ε} {b : β} {s s' : σ} :
    (throw e : Session σ ε β).outcome s ≠ (.ok b, s') := by
  rintro ⟨⟩

theorem outcome_pure_eq_ok {a b : α} {s s' : σ} :
    (pure a : Session σ ε α).outcome s = (.ok b, s') ↔ a = b ∧ s = s' := by
  rw [outcome_pure, Prod.mk.injEq, Except.ok.injEq]

theorem outcome_mapError_eq_ok {δ : Type u} {f : ε → δ} {x : Session σ ε α} {s s' : σ} {a : α} :
    (x.mapError f).outcome s = (.ok a, s') ↔ x.outcome s = (.ok a, s') := by
  show (((x.outcome s).1.mapError f, (x.outcome s).2) : Except δ α × σ) = _ ↔ _
  rcases x.outcome s with ⟨r, m⟩
  cases r <;> simp [Except.mapError]

/-- Started in a store that satisfies `P`, the session ends with a result and a store that
satisfy `Q`. -/
structure Triple (P : σ → Prop) (x : Session σ ε α) (Q : Except ε α → σ → Prop) : Prop where
  run : ∀ s, P s → Q (x.outcome s).1 (x.outcome s).2

/-- A postcondition for the results that are not errors; errors keep to `Q`. -/
def onOk (R : α → σ → Prop) (Q : Except ε β → σ → Prop) : Except ε α → σ → Prop
  | .ok a, s => R a s
  | .error e, s => Q (.error e) s

theorem onOk_const {I : σ → Prop} {r : Except ε α} {s : σ} (h : I s) :
    onOk (fun _ => I) (fun (_ : Except ε β) => I) r s := by
  cases r <;> exact h

namespace Triple

variable {P P' : σ → Prop} {Q Q' : Except ε β → σ → Prop} {R : α → σ → Prop}

theorem of_outcome {x : Session σ ε β} {s s' : σ} {r : Except ε β} (h : Triple P x Q) (hs : P s)
    (hx : x.outcome s = (r, s')) : Q r s' := by
  have hrun := h.run s hs
  rw [hx] at hrun
  exact hrun

theorem consequence {x : Session σ ε β} (h : Triple P x Q) (hP : ∀ s, P' s → P s)
    (hQ : ∀ r s, Q r s → Q' r s) : Triple P' x Q' where
  run s hs := hQ _ _ (h.run s (hP s hs))

theorem pure {b : β} (h : ∀ s, P s → Q (.ok b) s) : Triple P (pure b) Q := ⟨h⟩

theorem bind {x : Session σ ε α} {f : α → Session σ ε β} (hx : Triple P x (onOk R Q))
    (hf : ∀ a, Triple (R a) (f a) Q) : Triple P (x >>= f) Q where
  run s hs := by
    have h := hx.run s hs
    rw [outcome_bind]
    rcases hr : x.outcome s with ⟨r, s'⟩
    rw [hr] at h
    cases r with
    | ok a => exact (hf a).run s' h
    | error e => exact h

theorem bind_const {I : σ → Prop} {x : Session σ ε α} {f : α → Session σ ε β}
    (hx : Triple P x fun _ => I) (hf : ∀ a, Triple I (f a) fun _ => I) :
    Triple P (x >>= f) fun _ => I :=
  bind (hx.consequence (fun _ h => h) fun _ _ h => onOk_const h) hf

theorem transaction {x : Session σ ε β} (h : Triple P x fun r s => ∀ b, r = .ok b → Q r s)
    (herror : ∀ e s, P s → Q (.error e) s) : Triple P x.transaction Q where
  run s hs := by
    have hx := h.run s hs
    rw [outcome_transaction]
    rcases hout : x.outcome s with ⟨r, s'⟩
    rw [hout] at hx
    cases r with
    | ok a => exact hx a rfl
    | error e => exact herror e s hs

theorem assume {φ : Prop} {x : Session σ ε β} (h : φ → Triple P x Q) :
    Triple (fun s => P s ∧ φ) x Q where
  run s hs := (h hs.2).run s hs.1

theorem ofExcept_bind {r : Except ε α} {f : α → Session σ ε β}
    (herror : ∀ e s, P s → Q (.error e) s) (hok : ∀ a, r = .ok a → Triple P (f a) Q) :
    Triple P (ofExcept r >>= f) Q where
  run s hs := by
    rw [outcome_bind, outcome_ofExcept]
    cases r with
    | ok a => exact (hok a rfl).run s hs
    | error e => exact herror e s hs

theorem read_bind {f : σ → Session σ ε β} (h : ∀ s, P s → Triple P (f s) Q) :
    Triple P (get >>= f) Q where
  run s hs := (h s hs).run s hs

theorem onOk_of_and {I : σ → Prop} {S : α → Prop} {x : Session σ ε α}
    (h : Triple P x fun r s => I s ∧ ∀ a, r = .ok a → S a) (hQ : ∀ e s, I s → Q (.error e) s) :
    Triple P x (onOk (fun a s => I s ∧ S a) Q) where
  run s hs := by
    have hx := h.run s hs
    generalize (x.outcome s).1 = r at hx ⊢
    cases r with
    | ok a => exact ⟨hx.1, hx.2 a rfl⟩
    | error e => exact hQ e _ hx.1

theorem mapM {S : α → β → Prop} {f : α → Session σ ε β} {as : List α}
    (h : ∀ a ∈ as, Triple P (f a) fun r s => P s ∧ ∀ b, r = .ok b → S a b) :
    Triple P (as.mapM f) fun r s => P s ∧ ∀ bs, r = .ok bs → List.Forall₂ S as bs := by
  induction as with
  | nil =>
    apply pure
    intro s hs
    exact ⟨hs, by simp⟩
  | cons a as ih =>
    have ha := h a List.mem_cons_self
    have has := ih fun c hc => h c (List.mem_cons_of_mem _ hc)
    rw [List.mapM_cons]
    apply bind (ha.onOk_of_and fun e s hs => ⟨hs, nofun⟩)
    intro b
    apply assume
    intro hb
    apply bind (has.onOk_of_and fun e s hs => ⟨hs, nofun⟩)
    intro bs
    apply assume
    intro hbs
    apply pure
    intro s hs
    exact ⟨hs, by simp [hb, hbs]⟩

theorem foldlM {J : β → σ → Prop} {f : β → α → Session σ ε β} {as : List α}
    (h : ∀ a ∈ as, ∀ b, Triple (J b) (f b a) (onOk J Q)) (b : β) :
    Triple (J b) (as.foldlM f b) (onOk J Q) := by
  induction as generalizing b with
  | nil =>
    rw [List.foldlM_nil]
    apply pure
    intro s hs
    exact hs
  | cons a as ih =>
    rw [List.foldlM_cons]
    apply bind ((h a List.mem_cons_self b).consequence (fun _ hs => hs) fun r s hs => ?_)
    · intro b
      exact ih (fun c hc => h c (List.mem_cons_of_mem _ hc)) b
    · cases r <;> exact hs

theorem foldlM_const {I : σ → Prop} {f : β → α → Session σ ε β} {as : List α}
    (h : ∀ a ∈ as, ∀ b, Triple I (f b a) fun _ => I) (b : β) :
    Triple I (as.foldlM f b) fun _ => I := by
  induction as generalizing b with
  | nil => exact pure fun _ hs => hs
  | cons a as ih =>
    rw [List.foldlM_cons]
    exact (h a List.mem_cons_self b).bind_const (ih fun c hc => h c (List.mem_cons_of_mem _ hc))

theorem forM {f : α → Session σ ε PUnit} {as : List α}
    (h : ∀ a ∈ as, Triple P (f a) fun _ s => P s) : Triple P (as.forM f) fun _ s => P s := by
  induction as with
  | nil =>
    apply pure
    intro s hs
    exact hs
  | cons a as ih =>
    show Triple P (f a >>= fun _ => as.forM f) _
    apply bind (R := fun _ => P)
    · apply (h a List.mem_cons_self).consequence
      · intro s hs
        exact hs
      · intro r s hs
        cases r <;> exact hs
    · intro _
      exact ih fun c hc => h c (List.mem_cons_of_mem _ hc)

end Triple

abbrev At (s : σ) (x : Session σ ε β) (Q : Except ε β → σ → Prop) : Prop :=
  Triple (fun t => t = s) x Q

theorem Triple.get_bind {P : σ → Prop} {Q : Except ε β → σ → Prop} {f : σ → Session σ ε β}
    (h : ∀ s, P s → At s (f s) Q) : Triple P (get >>= f) Q where
  run s hs := (h s hs).run s rfl

namespace At

variable {Q : Except ε β → σ → Prop} {s : σ}

theorem ofExcept {r : Except ε β} (h : Q r s) : At s (ofExcept r) Q where
  run t ht := by
    subst ht
    exact h

theorem pure {b : β} (h : Q (.ok b) s) : At s (pure b) Q := ofExcept h

theorem modify_bind {g : σ → σ} {f : PUnit → Session σ ε β} (h : At (g s) (f ⟨⟩) Q) :
    At s (modify g >>= f) Q where
  run t ht := by
    subst ht
    exact h.run _ rfl

theorem modify {g : σ → σ} {Q : Except ε PUnit → σ → Prop} (h : Q (.ok ⟨⟩) (g s)) :
    At s (modify g) Q where
  run t ht := by
    subst ht
    exact h

theorem ofExcept_bind {r : Except ε α} {f : α → Session σ ε β}
    (herror : ∀ e, r = .error e → Q (.error e) s) (hok : ∀ a, r = .ok a → At s (f a) Q) :
    At s (Session.ofExcept r >>= f) Q where
  run t ht := by
    subst ht
    cases r with
    | ok a => exact (hok a rfl).run t rfl
    | error e => exact herror e rfl

end At

end Session

theorem exists_mem_of_forall₂ {α β : Type u} {R : α → β → Prop} {as : List α} {bs : List β}
    (h : List.Forall₂ R as bs) {a : α} (ha : a ∈ as) : ∃ b ∈ bs, R a b := by
  induction h with
  | nil => cases ha
  | cons hab _ ih =>
    rcases List.mem_cons.mp ha with rfl | ha
    · exact ⟨_, List.mem_cons_self, hab⟩
    · obtain ⟨b, hb, hR⟩ := ih ha
      exact ⟨b, List.mem_cons_of_mem _ hb, hR⟩

end LibXmtp.Data
