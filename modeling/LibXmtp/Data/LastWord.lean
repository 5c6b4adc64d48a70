import LibXmtp.Data.Result

universe u v

namespace LibXmtp.Data

variable {ε : Type u} {α σ : Type v}

/-- What holds after the elements of a list, where some of them bring it about and others only
leave it as it is: it is brought about last, or holds from the start and is left throughout. -/
def LastWord (brings leaves : α → Prop) (holds : Prop) (as : List α) : Prop :=
  (holds ∧ ∀ a ∈ as, leaves a) ∨ ∃ l a r, as = l ++ a :: r ∧ brings a ∧ ∀ b ∈ r, leaves b

namespace LastWord

variable {brings leaves : α → Prop} {a : α} {as : List α}

@[simp] theorem nil_iff {holds : Prop} : LastWord brings leaves holds [] ↔ holds := by
  simp [LastWord]

theorem cons_iff {holds : Prop} : LastWord brings leaves holds (a :: as) ↔
    LastWord brings leaves (brings a ∨ holds ∧ leaves a) as := by
  constructor
  · rintro (⟨hs, hall⟩ | ⟨l, b, r, hsplit, hb, hr⟩)
    · have ⟨ha, has⟩ := List.forall_mem_cons.mp hall
      exact .inl ⟨.inr ⟨hs, ha⟩, has⟩
    · cases l with
      | nil =>
        cases hsplit
        exact .inl ⟨.inl hb, hr⟩
      | cons c l =>
        cases hsplit
        exact .inr ⟨l, b, r, rfl, hb, hr⟩
  · rintro (⟨hb | ⟨hs, ha⟩, has⟩ | ⟨l, b, r, hsplit, hb, hr⟩)
    · exact .inr ⟨[], a, as, rfl, hb, has⟩
    · exact .inl ⟨hs, List.forall_mem_cons.mpr ⟨ha, has⟩⟩
    · exact .inr ⟨a :: l, b, r, by rw [hsplit]; rfl, hb, hr⟩

theorem mono {p q : Prop} (h : LastWord brings leaves p as) (hpq : p → q) :
    LastWord brings leaves q as :=
  h.imp_left (And.imp_left hpq)

variable {step : σ → α → Except ε σ} {P : σ → Prop} {s t : σ}

theorem of_steps (h : Steps step s as t)
    (hstep : ∀ s a t, a ∈ as → step s a = .ok t → P t → brings a ∨ P s ∧ leaves a) (ht : P t) :
    LastWord brings leaves (P s) as := by
  induction h with
  | nil => exact nil_iff.mpr ht
  | cons hone _ ih =>
    rw [cons_iff]
    exact (ih (fun s a t ha => hstep s a t (List.mem_cons_of_mem _ ha)) ht).mono
      (hstep _ _ _ List.mem_cons_self hone)

theorem steps (h : Steps step s as t)
    (hstep : ∀ s a t, a ∈ as → step s a = .ok t → brings a ∨ P s ∧ leaves a → P t)
    (hlast : LastWord brings leaves (P s) as) : P t := by
  induction h with
  | nil => exact nil_iff.mp hlast
  | cons hone _ ih =>
    rw [cons_iff] at hlast
    exact ih (fun s a t ha => hstep s a t (List.mem_cons_of_mem _ ha))
      (hlast.mono (hstep _ _ _ List.mem_cons_self hone))

end LastWord

end LibXmtp.Data
