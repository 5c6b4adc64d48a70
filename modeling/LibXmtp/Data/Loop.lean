import Mathlib.Logic.Relation
import Mathlib.Order.RelClasses

universe u v w

namespace LibXmtp.Data

inductive Next (σ : Type u) (ρ : Type v)
  | done (r : ρ)
  | again (s : σ)

namespace Loop

variable {σ : Type u} {ρ : Type v} (step : σ → Option (Next σ ρ))

/-- The loop returns `r` from the state. A step without an outcome is one that never ends. -/
inductive Returns : σ → ρ → Prop
  | done : step s = some (.done r) → Returns s r
  | again : step s = some (.again t) → Returns t r → Returns s r

def run : Nat → σ → Option ρ
  | 0, _ => none
  | fuel + 1, s =>
    match step s with
    | some (.done r) => some r
    | some (.again t) => run fuel t
    | none => none

abbrev Reaches : σ → σ → Prop := Relation.ReflTransGen fun s t => step s = some (.again t)

variable {step} {s t : σ} {r r' : ρ}

theorem returns_of_run {fuel : Nat} (h : run step fuel s = some r) : Returns step s r := by
  induction fuel generalizing s with
  | zero => cases h
  | succ fuel ih =>
    simp only [run] at h
    split at h
    · rename_i hs
      cases h
      exact .done hs
    · rename_i hs
      exact .again hs (ih h)
    · cases h

theorem Returns.functional (h : Returns step s r) (h' : Returns step s r') : r = r' := by
  induction h with
  | done hs =>
    cases h' with
    | done hs' =>
      rw [hs] at hs'
      cases hs'
      rfl
    | again hs' _ =>
      rw [hs] at hs'
      cases hs'
  | again hs _ ih =>
    cases h' with
    | done hs' =>
      rw [hs] at hs'
      cases hs'
    | again hs' h' =>
      rw [hs] at hs'
      cases hs'
      exact ih h'

theorem Returns.of_reached (h : Reaches step s t) (hs : Returns step s r) : Returns step t r := by
  induction h with
  | refl => exact hs
  | tail _ hst ih =>
    cases ih with
    | done hs' =>
      rw [hst] at hs'
      cases hs'
    | again hs' h' =>
      rw [hst] at hs'
      cases hs'
      exact h'

theorem Returns.exists_next (h : Returns step s r) : ∃ next, step s = some next := by
  cases h with
  | done hs => exact ⟨_, hs⟩
  | again hs _ => exact ⟨_, hs⟩

theorem Returns.exists_last (h : Returns step s r) :
    ∃ t, Reaches step s t ∧ step t = some (.done r) := by
  induction h with
  | done hs => exact ⟨_, .refl, hs⟩
  | again hs _ ih =>
    obtain ⟨t, hreach, hlast⟩ := ih
    exact ⟨t, .head hs hreach, hlast⟩

theorem Reaches.last {u : σ} (h : Reaches step s t) (hu : Reaches step s u)
    (hlast : step u = some (.done r)) : Reaches step t u := by
  have hunique : Relator.RightUnique fun s t => step s = some (.again t) := by
    intro a b c hab hac
    rw [hab] at hac
    cases hac
    rfl
  rcases Relation.ReflTransGen.total_of_right_unique hunique h hu with htu | hut
  · exact htu
  · rcases Relation.ReflTransGen.cases_head hut with rfl | ⟨v, hv, -⟩
    · exact .refl
    · rw [hlast] at hv
      cases hv

theorem Reaches.invariant {P : σ → Prop} (h : Reaches step s t)
    (hstep : ∀ s t, P s → step s = some (.again t) → P t) (hs : P s) : P t := by
  induction h with
  | refl => exact hs
  | tail _ hst ih => exact hstep _ _ ih hst

variable (step) in
/-- The loop ends within `fuel` steps, and every state it goes through passes the check. -/
def allReached (check : σ → Bool) : Nat → σ → Bool
  | 0, _ => false
  | fuel + 1, s =>
    check s && match step s with
      | some (.again t) => allReached check fuel t
      | _ => true

theorem Reaches.check {check : σ → Bool} {fuel : Nat} (h : Reaches step s t)
    (hall : allReached step check fuel s = true) : check t = true := by
  induction fuel generalizing s with
  | zero => cases hall
  | succ fuel ih =>
    rw [allReached, Bool.and_eq_true] at hall
    rcases Relation.ReflTransGen.cases_head h with rfl | ⟨u, hu, hut⟩
    · exact hall.1
    · rw [hu] at hall
      exact ih hut hall.2

theorem not_returns_of_stuck {P : σ → Prop}
    (hstep : ∀ s next, P s → step s = some next → ∃ t, next = .again t ∧ P t) (hs : P s) :
    ¬Returns step s r := by
  intro h
  induction h with
  | done hs' =>
    obtain ⟨t, ht, _⟩ := hstep _ _ hs hs'
    cases ht
  | again hs' _ ih =>
    obtain ⟨t, ht, hP⟩ := hstep _ _ hs hs'
    cases ht
    exact ih hP

theorem exists_returns {P : σ → Prop} (size : σ → Nat)
    (hstep : ∀ s, P s → (∃ r, step s = some (.done r)) ∨
      ∃ t, step s = some (.again t) ∧ P t ∧ size t < size s) (hs : P s) :
    ∃ r, Returns step s r := by
  induction hn : size s using Nat.strongRecOn generalizing s with
  | _ n ih =>
    rcases hstep s hs with ⟨r, hr⟩ | ⟨t, ht, hP, hlt⟩
    · exact ⟨r, .done hr⟩
    · obtain ⟨r, hr⟩ := ih (size t) (hn ▸ hlt) hP rfl
      exact ⟨r, .again ht hr⟩

def Fair (ready : Nat → Prop) : Prop := ∀ i, ∃ j, i ≤ j ∧ ready j

/-- A loop returns if each of its rounds that goes on makes progress or waits for what is fair, and
what it returns is what the last round gives. -/
theorem exists_returns_of_fair {α : Type w} [LT α] [WellFoundedLT α] {ready : Nat → Prop}
    (hfair : Fair ready) {P : σ → Prop} {Q : ρ → Prop} (size : σ → α) (time : σ → Nat)
    (hstep : ∀ s, P s → (∃ r, step s = some (.done r) ∧ Q r) ∨
      ∃ t, step s = some (.again t) ∧ P t ∧
        (size t < size s ∨ size t = size s ∧ ¬ready (time s) ∧ time t = time s + 1)) (hs : P s) :
    ∃ r, Returns step s r ∧ Q r := by
  induction hn : size s using WellFoundedLT.induction generalizing s with
  | ind n ih =>
    obtain ⟨j, hle, hready⟩ := hfair (time s)
    induction hd : j - time s generalizing s with
    | zero =>
      rcases hstep s hs with ⟨r, hr, hQ⟩ | ⟨t, ht, hP, hlt | ⟨-, hwait, -⟩⟩
      · exact ⟨r, .done hr, hQ⟩
      · obtain ⟨r, hr, hQ⟩ := ih _ (hn ▸ hlt) hP rfl
        exact ⟨r, .again ht hr, hQ⟩
      · have htime : time s = j := by omega
        rw [htime] at hwait
        exact absurd hready hwait
    | succ d ihd =>
      rcases hstep s hs with ⟨r, hr, hQ⟩ | ⟨t, ht, hP, hlt | ⟨heq, -, htime⟩⟩
      · exact ⟨r, .done hr, hQ⟩
      · obtain ⟨r, hr, hQ⟩ := ih _ (hn ▸ hlt) hP rfl
        exact ⟨r, .again ht hr, hQ⟩
      · obtain ⟨r, hr, hQ⟩ := ihd hP (heq.trans hn) (by omega) (by omega)
        exact ⟨r, .again ht hr, hQ⟩

end Loop

end LibXmtp.Data
