import LibXmtp.Data.Session

/-! Loops that do not fail, and computations of several parties, each over a store of its own, that
come to one result. -/

universe u v

namespace LibXmtp.Data.Session

variable {ι : Type v} {σ ε δ α β : Type u}

theorem ofExcept_bind_congr {r : Except ε α} {f g : α → Session σ ε β}
    (h : ∀ a, r = .ok a → f a = g a) : ofExcept r >>= f = ofExcept r >>= g := by
  cases r with
  | error e => rfl
  | ok a => exact h a rfl

namespace Triple

variable {P : σ → Prop}

end Triple

/-- The parties come to one result from any of their stores, which are as `Q` says then. -/
def Agree (P : ι → σ → Prop) (f : ι → Session σ ε α) (Q : Except ε α → ι → σ → Prop) : Prop :=
  ∃ r, ∀ i s, P i s → ∃ s', (f i).outcome s = (r, s') ∧ Q r i s'

namespace Agree

variable {P : ι → σ → Prop} {Q : Except ε α → ι → σ → Prop} {f : ι → Session σ ε α}

theorem consequence {P' : ι → σ → Prop} {R : Except ε α → ι → σ → Prop} (hf : Agree P f R)
    (hP : ∀ i s, P' i s → P i s) (hQ : ∀ r i s, R r i s → Q r i s) : Agree P' f Q := by
  obtain ⟨r, hr⟩ := hf
  refine ⟨r, fun i s hs => ?_⟩
  obtain ⟨s', hrun, hs'⟩ := hr i s (hP i s hs)
  exact ⟨s', hrun, hQ r i s' hs'⟩

theorem assume [Nonempty ε] {A : Prop} (hA : ∀ i s, P i s → A) (h : A → Agree P f Q) :
    Agree P f Q := by
  by_cases ha : A
  · exact h ha
  · have e : ε := Classical.choice ‹Nonempty ε›
    exact ⟨.error e, fun i s hs => absurd (hA i s hs) ha⟩

theorem pure {a : α} (h : ∀ i s, P i s → Q (.ok a) i s) :
    Agree P (fun _ => Pure.pure a) Q :=
  ⟨.ok a, fun i s hs => ⟨s, outcome_pure a s, h i s hs⟩⟩

theorem ofExcept {r : Except ε α} {g : ι → Except ε α} (hg : ∀ i, g i = r)
    (h : ∀ i s, P i s → Q r i s) : Agree P (fun i => Session.ofExcept (g i)) Q := by
  refine ⟨r, fun i s hs => ⟨s, ?_, h i s hs⟩⟩
  rw [outcome_ofExcept, hg]

theorem bind {R : Except ε α → ι → σ → Prop} {Q : Except ε β → ι → σ → Prop}
    {g : ι → α → Session σ ε β} (hf : Agree P f R)
    (hg : ∀ a, Agree (R (.ok a)) (fun i => g i a) Q)
    (herror : ∀ e i s, R (.error e) i s → Q (.error e) i s) :
    Agree P (fun i => f i >>= g i) Q := by
  obtain ⟨r, hr⟩ := hf
  cases r with
  | error e =>
    refine ⟨.error e, fun i s hs => ?_⟩
    obtain ⟨s', hrun, hs'⟩ := hr i s hs
    refine ⟨s', ?_, herror e i s' hs'⟩
    rw [outcome_bind, hrun]
  | ok a =>
    obtain ⟨r, hr'⟩ := hg a
    refine ⟨r, fun i s hs => ?_⟩
    obtain ⟨s', hrun, hs'⟩ := hr i s hs
    obtain ⟨s'', hrun', hs''⟩ := hr' i s' hs'
    refine ⟨s'', ?_, hs''⟩
    rw [outcome_bind, hrun]
    exact hrun'

theorem ofExcept_bind {Q : Except ε β → ι → σ → Prop} {g : ι → α → Session σ ε β}
    {h : ι → Except ε α} {r : Except ε α} (hr : ∀ i, h i = r)
    (hok : ∀ a, r = .ok a → Agree P (fun i => g i a) Q)
    (herror : ∀ e i s, P i s → Q (.error e) i s) :
    Agree P (fun i => Session.ofExcept (h i) >>= g i) Q := by
  cases r with
  | error e =>
    refine ⟨.error e, fun i s hs => ⟨s, ?_, herror e i s hs⟩⟩
    rw [outcome_bind, outcome_ofExcept, hr]
  | ok a =>
    obtain ⟨r, hr'⟩ := hok a rfl
    refine ⟨r, fun i s hs => ?_⟩
    obtain ⟨s', hrun, hs'⟩ := hr' i s hs
    refine ⟨s', ?_, hs'⟩
    rw [outcome_bind, outcome_ofExcept, hr]
    exact hrun

theorem mapError {g : ε → δ} {Q : Except δ α → ι → σ → Prop}
    (hf : Agree P f fun r => Q (r.mapError g)) : Agree P (fun i => (f i).mapError g) Q := by
  obtain ⟨r, hr⟩ := hf
  refine ⟨r.mapError g, fun i s hs => ?_⟩
  obtain ⟨s', hrun, hs'⟩ := hr i s hs
  refine ⟨s', ?_, hs'⟩
  show (((f i).outcome s).1.mapError g, ((f i).outcome s).2) = _
  rw [hrun]

theorem forM {J : ι → σ → Prop} {f : ι → α → Session σ ε PUnit} {as : List α}
    (h : ∀ a ∈ as, Agree J (fun i => f i a) fun _ => J) :
    Agree J (fun i => as.forM (f i)) fun _ => J := by
  induction as with
  | nil => exact pure fun _ _ hs => hs
  | cons a as ih =>
    apply bind (h a List.mem_cons_self) _ fun _ _ _ hs => hs
    intro _
    exact ih fun b hb => h b (List.mem_cons_of_mem _ hb)

end Agree

end LibXmtp.Data.Session
