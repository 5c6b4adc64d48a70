import Mathlib.Data.List.Basic

universe u v w

namespace LibXmtp.Data

variable {ε : Type u} {α β σ : Type v}

def okOr (o : Option α) (e : ε) : Except ε α :=
  match o with
  | some a => .ok a
  | none => .error e

def rejectIf (c : Bool) (e : ε) : Except ε PUnit.{v + 1} := if c then .error e else .ok ⟨⟩

@[simp] theorem bind_eq_ok {x : Except ε α} {f : α → Except ε β} {b : β} :
    (x >>= f) = .ok b ↔ ∃ a, x = .ok a ∧ f a = .ok b := by
  cases x <;> simp [bind, Except.bind]

theorem bind_eq_error {x : Except ε α} {f : α → Except ε β} {e : ε} :
    (x >>= f) = .error e ↔ x = .error e ∨ ∃ a, x = .ok a ∧ f a = .error e := by
  cases x <;> simp [bind, Except.bind]

@[simp] theorem ok_bind (a : α) (f : α → Except ε β) : (Except.ok a >>= f) = f a := rfl

@[simp] theorem error_bind (e : ε) (f : α → Except ε β) :
    (Except.error e >>= f) = .error e := rfl

@[simp] theorem map_eq_ok {x : Except ε α} {f : α → β} {b : β} :
    (f <$> x) = .ok b ↔ ∃ a, x = .ok a ∧ f a = b := by
  cases x <;> simp [Functor.map, Except.map]

@[simp] theorem map_eq_error {x : Except ε α} {f : α → β} {e : ε} :
    (f <$> x) = .error e ↔ x = .error e := by
  cases x <;> simp [Functor.map, Except.map]

@[simp] theorem map_ok (f : α → β) (a : α) : f <$> (Except.ok a : Except ε α) = .ok (f a) := rfl

@[simp] theorem pure_eq_ok {a b : α} : (pure a : Except ε α) = .ok b ↔ a = b := by
  simp [pure, Except.pure]

@[simp] theorem pure_ne_error (a : α) (e : ε) : (pure a : Except ε α) ≠ .error e := nofun

@[simp] theorem okOr_eq_ok {o : Option α} {e : ε} {a : α} :
    okOr o e = .ok a ↔ o = some a := by cases o <;> simp [okOr]

@[simp] theorem okOr_some (a : α) (e : ε) : okOr (some a) e = .ok a := rfl

@[simp] theorem okOr_none (e : ε) : okOr (none : Option α) e = .error e := rfl

theorem okOr_eq_error {o : Option α} {e e' : ε} :
    okOr o e = .error e' ↔ o = none ∧ e = e' := by cases o <;> simp [okOr]

@[simp] theorem rejectIf_eq_ok {c : Bool} {e : ε} {x : PUnit} :
    rejectIf c e = .ok x ↔ c = false := by cases c <;> simp [rejectIf]

theorem rejectIf_eq_error {c : Bool} {e e' : ε} :
    rejectIf c e = .error e' ↔ c = true ∧ e = e' := by cases c <;> simp [rejectIf]

@[simp] theorem rejectIf_false (e : ε) : rejectIf false e = .ok ⟨⟩ := rfl

@[simp] theorem rejectIf_true (e : ε) : rejectIf true e = .error e := rfl

theorem not_exists_ok {x : Except ε α} : (¬∃ a, x = .ok a) ↔ ∃ e, x = .error e := by
  cases x <;> simp

theorem exists_unit_eq_ok {x : Except ε PUnit.{v + 1}} : (∃ u, x = .ok u) ↔ x = .ok ⟨⟩ :=
  ⟨fun ⟨_, h⟩ => h, fun h => ⟨_, h⟩⟩

theorem isOk_ok (a : α) : (Except.ok a : Except ε α).isOk = true := rfl

theorem isOk_error (e : ε) : (Except.error e : Except ε α).isOk = false := rfl

theorem toOption_ok (a : α) : (Except.ok a : Except ε α).toOption = some a := rfl

theorem toOption_error (e : ε) : (Except.error e : Except ε α).toOption = none := rfl

theorem exists_of_isOk {x : Except ε α} (h : x.isOk = true) : ∃ a, x = .ok a := by
  cases x with
  | ok a => exact ⟨a, rfl⟩
  | error e => cases h

theorem eq_ok_of_isOk {x : Except ε α} {a : α} (h : x.isOk = true) :
    x = .ok (x.toOption.getD a) := by
  cases x with
  | ok b => rfl
  | error e => cases h

theorem exists_of_any {x : Except ε α} {check : α → Bool} (h : x.toOption.any check = true) :
    ∃ a, x = .ok a ∧ check a = true := by
  cases x with
  | ok a => exact ⟨a, rfl, by simpa [Except.toOption] using h⟩
  | error e => cases h

theorem mapM_map_of_forall {f : β → Except ε α} {g : α → β} {as : List α}
    (h : ∀ a ∈ as, f (g a) = .ok a) : (as.map g).mapM f = .ok as := by
  induction as with
  | nil => rfl
  | cons a as ih =>
    simp only [List.map_cons, List.mapM_cons, h a List.mem_cons_self, ok_bind,
      ih fun b hb => h b (List.mem_cons_of_mem _ hb)]
    rfl

theorem exists_of_mem_mapM {f : β → Except ε α} {bs : List β} {as : List α}
    (h : bs.mapM f = .ok as) {a : α} (ha : a ∈ as) : ∃ b ∈ bs, f b = .ok a := by
  induction bs generalizing as with
  | nil =>
    simp only [List.mapM_nil, pure_eq_ok] at h
    subst h
    cases ha
  | cons b bs ih =>
    simp only [List.mapM_cons, bind_eq_ok, pure_eq_ok] at h
    obtain ⟨a', hb, as', has, rfl⟩ := h
    rcases List.mem_cons.mp ha with rfl | ha
    · exact ⟨b, List.mem_cons_self, hb⟩
    · obtain ⟨c, hc, hca⟩ := ih has ha
      exact ⟨c, List.mem_cons_of_mem _ hc, hca⟩

theorem exists_of_mapM_mem {f : β → Except ε α} {bs : List β} {as : List α}
    (h : bs.mapM f = .ok as) {b : β} (hb : b ∈ bs) : ∃ a ∈ as, f b = .ok a := by
  induction bs generalizing as with
  | nil => cases hb
  | cons c bs ih =>
    simp only [List.mapM_cons, bind_eq_ok, pure_eq_ok] at h
    have ⟨a', hc, as', has, heq⟩ := h
    subst heq
    cases List.mem_cons.mp hb with
    | inl hbc =>
      subst hbc
      exact ⟨a', List.mem_cons_self, hc⟩
    | inr hb =>
      have ⟨a, ha, hba⟩ := ih has hb
      exact ⟨a, List.mem_cons_of_mem _ ha, hba⟩

theorem exists_mapM {f : β → Except ε α} {bs : List β} (h : ∀ b ∈ bs, ∃ a, f b = .ok a) :
    ∃ as, bs.mapM f = .ok as := by
  induction bs with
  | nil => exact ⟨[], rfl⟩
  | cons b bs ih =>
    obtain ⟨a, ha⟩ := h b List.mem_cons_self
    obtain ⟨as, has⟩ := ih fun b hb => h b (List.mem_cons_of_mem _ hb)
    refine ⟨a :: as, ?_⟩
    simp only [List.mapM_cons, ha, ok_bind, has]
    rfl

theorem exists_mapM_of_perm {f : β → Except ε α} {bs bs' : List β} (hperm : bs.Perm bs')
    {as : List α} (h : bs.mapM f = .ok as) : ∃ as', bs'.mapM f = .ok as' ∧ as.Perm as' := by
  induction hperm generalizing as with
  | nil => exact ⟨as, h, .refl as⟩
  | cons b _ ih =>
    simp only [List.mapM_cons, bind_eq_ok, pure_eq_ok] at h
    obtain ⟨a, ha, rest, hrest, rfl⟩ := h
    obtain ⟨rest', hrest', hperm'⟩ := ih hrest
    refine ⟨a :: rest', ?_, hperm'.cons a⟩
    simp only [List.mapM_cons, ha, ok_bind, hrest']
    rfl
  | swap b c bs =>
    simp only [List.mapM_cons, bind_eq_ok, pure_eq_ok] at h
    obtain ⟨a, ha, _, ⟨a', ha', rest, hrest, rfl⟩, rfl⟩ := h
    refine ⟨a' :: a :: rest, ?_, .swap _ _ _⟩
    simp only [List.mapM_cons, ha, ha', ok_bind, hrest]
    rfl
  | trans _ _ ih ih' =>
    obtain ⟨as', has', hperm'⟩ := ih h
    obtain ⟨as'', has'', hperm''⟩ := ih' has'
    exact ⟨as'', has'', hperm'.trans hperm''⟩

theorem mapM_append_eq_ok {f : β → Except ε α} {as bs : List β} {cs : List α} :
    (as ++ bs).mapM f = .ok cs ↔
      ∃ ds es, as.mapM f = .ok ds ∧ bs.mapM f = .ok es ∧ cs = ds ++ es := by
  simp only [List.mapM_append, bind_eq_ok, pure_eq_ok]
  constructor
  · rintro ⟨ds, hds, es, hes, rfl⟩
    exact ⟨ds, es, hds, hes, rfl⟩
  · rintro ⟨ds, es, hds, hes, rfl⟩
    exact ⟨ds, hds, es, hes, rfl⟩

theorem mapM_ne_error {f : β → Except ε α} {e : ε} (h : ∀ b, f b ≠ .error e) (bs : List β) :
    bs.mapM f ≠ .error e := by
  induction bs with
  | nil => simp
  | cons b bs ih => simp [List.mapM_cons, bind_eq_error, h, ih]

theorem exists_of_mapM_eq_error {f : β → Except ε α} {bs : List β} {e : ε}
    (h : bs.mapM f = .error e) : ∃ b ∈ bs, f b = .error e := by
  induction bs with
  | nil => cases h
  | cons b bs ih =>
    rw [List.mapM_cons] at h
    rcases bind_eq_error.mp h with hb | ⟨a, -, h⟩
    · exact ⟨b, List.mem_cons_self, hb⟩
    · rcases bind_eq_error.mp h with hbs | ⟨as, -, h⟩
      · obtain ⟨b', hmem, hb'⟩ := ih hbs
        exact ⟨b', List.mem_cons_of_mem _ hmem, hb'⟩
      · cases h

theorem forM_eq_ok {f : α → Except ε PUnit.{v + 1}} {as : List α} :
    as.forM f = .ok ⟨⟩ ↔ ∀ a ∈ as, f a = .ok ⟨⟩ := by
  rw [List.forM_eq_forM]
  induction as with
  | nil => simp
  | cons a as ih =>
    rw [List.forM_cons, bind_eq_ok, List.forall_mem_cons, ← ih]
    exact ⟨fun ⟨_, ha, has⟩ => ⟨ha, has⟩, fun ⟨ha, has⟩ => ⟨⟨⟩, ha, has⟩⟩

theorem foldlM_ne_error {f : σ → α → Except ε σ} {e : ε} (h : ∀ s a, f s a ≠ .error e)
    (as : List α) (s : σ) : as.foldlM f s ≠ .error e := by
  induction as generalizing s with
  | nil => simp
  | cons a as ih => simp [List.foldlM_cons, bind_eq_error, h, ih]

section MapError

variable {δ : Type u} {f : ε → δ} {x : Except ε α}

@[simp] theorem mapError_eq_ok {a : α} : x.mapError f = .ok a ↔ x = .ok a := by
  cases x <;> simp [Except.mapError]

theorem mapError_eq_error {e : δ} :
    x.mapError f = .error e ↔ ∃ e', x = .error e' ∧ f e' = e := by
  cases x <;> simp [Except.mapError]

end MapError

inductive Agree {α : Type v} {β : Type w} (R : α → β → Prop) : Except ε α → Except ε β → Prop
  | ok : R a b → Agree R (.ok a) (.ok b)
  | error : Agree R (.error e) (.error e)

namespace Agree

variable {α : Type v} {R : α → α → Prop}

theorem exists_of_ok {β : Type w} {R : α → β → Prop} {a : α} {y : Except ε β}
    (h : Agree R (.ok a) y) : ∃ b, y = .ok b ∧ R a b := by
  cases h with
  | ok hab => exact ⟨_, rfl, hab⟩

theorem eq_of_error {β : Type w} {R : α → β → Prop} {e : ε} {y : Except ε β}
    (h : Agree R (.error e) y) : y = .error e := by
  cases h
  rfl

end Agree

/-- `s` runs to `t` through the inputs `as`, every step being accepted. -/
inductive Steps (step : σ → α → Except ε σ) : σ → List α → σ → Prop
  | nil : Steps step s [] s
  | cons : step s a = .ok t → Steps step t as u → Steps step s (a :: as) u

namespace Steps

variable {step : σ → α → Except ε σ} {s t u : σ} {as bs : List α}

theorem foldlM_eq_ok : as.foldlM step s = .ok t ↔ Steps step s as t := by
  induction as generalizing s with
  | nil =>
    simp only [List.foldlM_nil, pure_eq_ok]
    constructor
    · rintro rfl
      exact .nil
    · rintro ⟨⟩
      rfl
  | cons a as ih =>
    simp only [List.foldlM_cons, bind_eq_ok]
    constructor
    · rintro ⟨s', hs, hrest⟩
      exact .cons hs (ih.mp hrest)
    · intro h
      cases h with
      | cons hs hrest => exact ⟨_, hs, ih.mpr hrest⟩

@[simp] theorem nil_iff : Steps step s [] t ↔ s = t := by
  constructor
  · rintro ⟨⟩
    rfl
  · rintro rfl
    exact .nil

theorem cons_iff : Steps step s (a :: as) t ↔ ∃ m, step s a = .ok m ∧ Steps step m as t := by
  constructor
  · intro h
    cases h with
    | cons hs hrest => exact ⟨_, hs, hrest⟩
  · rintro ⟨m, hs, hrest⟩
    exact .cons hs hrest

theorem append_iff :
    Steps step s (as ++ bs) t ↔ ∃ m, Steps step s as m ∧ Steps step m bs t := by
  induction as generalizing s with
  | nil => simp
  | cons a as ih =>
    simp only [List.cons_append, cons_iff, ih]
    constructor
    · rintro ⟨m, hs, n, hm, hn⟩
      exact ⟨n, ⟨m, hs, hm⟩, hn⟩
    · rintro ⟨n, ⟨m, hs, hm⟩, hn⟩
      exact ⟨m, hs, n, hm, hn⟩

theorem append (h : Steps step s as t) (h' : Steps step t bs u) : Steps step s (as ++ bs) u :=
  append_iff.mpr ⟨t, h, h'⟩

theorem single (h : step s a = .ok t) : Steps step s [a] t := .cons h .nil

theorem unique (h : Steps step s as t) (h' : Steps step s as u) : t = u := by
  rw [← foldlM_eq_ok] at h h'
  exact Except.ok.inj (h.symm.trans h')

theorem invariant {P : σ → Prop} (h : Steps step s as t) (hs : P s)
    (keep : ∀ m a n, a ∈ as → P m → step m a = .ok n → P n) : P t := by
  induction h with
  | nil => exact hs
  | cons hstep hrest ih =>
    apply ih
    · exact keep _ _ _ List.mem_cons_self hs hstep
    · intro m a n ha
      exact keep m a n (List.mem_cons_of_mem _ ha)

theorem history {P : List α → σ → Prop} (h : Steps step s as t) (hs : P [] s)
    (keep : ∀ pre m a n, Steps step s pre m → P pre m → step m a = .ok n → P (pre ++ [a]) n) :
    P as t := by
  suffices gen : ∀ pre m, Steps step s pre m → P pre m → Steps step m as t → P (pre ++ as) t by
    simpa using gen [] s .nil hs h
  clear h
  induction as with
  | nil =>
    intro pre m _ hP hrest
    simp only [nil_iff] at hrest
    subst hrest
    simpa using hP
  | cons a as ih =>
    intro pre m hpre hP hrest
    obtain ⟨n, hstep, hrest⟩ := cons_iff.mp hrest
    have hnext :=
      ih (pre ++ [a]) n (hpre.append (single hstep)) (keep pre m a n hpre hP hstep) hrest
    simpa using hnext

theorem split (h : Steps step s (as ++ a :: bs) u) :
    ∃ m n, Steps step s as m ∧ step m a = .ok n ∧ Steps step n bs u := by
  obtain ⟨m, hm, hrest⟩ := append_iff.mp h
  obtain ⟨n, hn, hrest⟩ := cons_iff.mp hrest
  exact ⟨m, n, hm, hn, hrest⟩

theorem paired {δ : Type u} {τ : Type v} {other : τ → α → Except δ τ} {R : σ → τ → Prop} {x y : τ}
    (h : Steps step s as t) (h' : Steps other x as y) (hR : R s x)
    (keep : ∀ m n a m' n', R m n → step m a = .ok m' → other n a = .ok n' → R m' n') : R t y := by
  induction h generalizing x with
  | nil =>
    cases h'
    exact hR
  | cons hstep _ ih =>
    obtain ⟨n, hn, hrest⟩ := cons_iff.mp h'
    exact ih hrest (keep _ _ _ _ _ hR hstep hn)

theorem related {R : σ → σ → Prop} (hst : R s t)
    (keep : ∀ m n a m', R m n → step m a = .ok m' → ∃ n', step n a = .ok n' ∧ R m' n')
    (h : Steps step s as u) : ∃ v, Steps step t as v ∧ R u v := by
  induction h generalizing t with
  | nil => exact ⟨t, .nil, hst⟩
  | cons hstep _ ih =>
    obtain ⟨n', hn', hR⟩ := keep _ _ _ _ hst hstep
    obtain ⟨v, hv, hRv⟩ := ih hR
    exact ⟨v, .cons hn' hv, hRv⟩

end Steps

/-- `s` goes to `t` by a step of the relation for each of the labels. -/
inductive Runs (R : σ → α → σ → Prop) : σ → List α → σ → Prop
  | nil : Runs R s [] s
  | cons : R s a t → Runs R t as u → Runs R s (a :: as) u

namespace Runs

variable {R : σ → α → σ → Prop} {s t : σ} {as : List α}

theorem invariant {P : σ → Prop} (h : Runs R s as t) (hs : P s)
    (keep : ∀ m a n, a ∈ as → P m → R m a n → P n) : P t := by
  induction h with
  | nil => exact hs
  | cons hstep hrest ih =>
    apply ih
    · exact keep _ _ _ List.mem_cons_self hs hstep
    · intro m a n ha
      exact keep m a n (List.mem_cons_of_mem _ ha)

theorem append {bs : List α} {u : σ} (h : Runs R s as t) (h' : Runs R t bs u) :
    Runs R s (as ++ bs) u := by
  induction h with
  | nil => exact h'
  | cons hstep _ ih => exact .cons hstep (ih h')

theorem refines {S : σ → α → σ → Prop} {P : σ → Prop} (h : Runs R s as t) (hs : P s)
    (keep : ∀ m a n, P m → R m a n → S m a n ∧ P n) : Runs S s as t ∧ P t := by
  induction h with
  | nil => exact ⟨.nil, hs⟩
  | cons hstep hrest ih =>
    have ⟨hS, hnext⟩ := keep _ _ _ hs hstep
    have ⟨hruns, hlast⟩ := ih hnext
    exact ⟨.cons hS hruns, hlast⟩

end Runs

end LibXmtp.Data
