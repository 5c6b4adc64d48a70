import LibXmtp.Types.ClockBounds

universe u

namespace LibXmtp.Bidi

open LibXmtp.Types

/-- How a binding of the wire compares resume positions and puts them together. What a position
covers is a preorder in which `advance` is the least position that covers both and `meet` the
greatest position that both cover. -/
structure TransportBinding (C : Type u) where
  advance : C → C → C
  covers : C → C → Bool
  meet : C → C → C
  covers_refl : ∀ p, covers p p = true
  covers_trans : ∀ {p q r}, covers p q = true → covers q r = true → covers p r = true
  covers_advance_iff : ∀ {p q r},
    covers r (advance p q) = true ↔ covers r p = true ∧ covers r q = true
  meet_covers_iff : ∀ {p q r}, covers (meet p q) r = true ↔ covers p r = true ∧ covers q r = true

namespace TransportBinding

variable {C : Type u} (B : TransportBinding C)

theorem covers_meet_left (p q : C) : B.covers p (B.meet p q) = true :=
  (B.meet_covers_iff.mp (B.covers_refl (B.meet p q))).1

theorem covers_meet_right (p q : C) : B.covers q (B.meet p q) = true :=
  (B.meet_covers_iff.mp (B.covers_refl (B.meet p q))).2

def meetAll (cs : List C) : Option C :=
  cs.foldl (fun meet c => some (meet.elim c fun other => B.meet other c)) none

theorem covers_foldl_meet (cs : List C) (p : C) :
    B.covers p (cs.foldl B.meet p) = true ∧ ∀ c ∈ cs, B.covers c (cs.foldl B.meet p) = true := by
  induction cs generalizing p with
  | nil => exact ⟨B.covers_refl p, fun c hc => absurd hc List.not_mem_nil⟩
  | cons d cs ih =>
    obtain ⟨hstart, hrest⟩ := ih (B.meet p d)
    refine ⟨B.covers_trans (B.covers_meet_left p d) hstart, ?_⟩
    intro c hc
    cases List.mem_cons.mp hc with
    | inl heq =>
      subst heq
      exact B.covers_trans (B.covers_meet_right p c) hstart
    | inr hc => exact hrest c hc

theorem meetAll_cons (p : C) (cs : List C) : B.meetAll (p :: cs) = some (cs.foldl B.meet p) := by
  have hsome (cs : List C) (p : C) :
      cs.foldl (fun meet c => some (meet.elim c fun other => B.meet other c)) (some p) =
        some (cs.foldl B.meet p) := by
    induction cs generalizing p with
    | nil => rfl
    | cons c cs ih => exact ih (B.meet p c)
  exact hsome cs p

theorem exists_meetAll {cs : List C} (h : cs ≠ []) :
    ∃ m, B.meetAll cs = some m ∧ ∀ c ∈ cs, B.covers c m = true := by
  cases cs with
  | nil => exact absurd rfl h
  | cons p cs =>
    obtain ⟨hstart, hrest⟩ := B.covers_foldl_meet cs p
    exact ⟨_, B.meetAll_cons p cs, List.forall_mem_cons.mpr ⟨hstart, hrest⟩⟩

end TransportBinding

def V3Binding : TransportBinding UInt64 where
  advance position delivered := max position delivered
  covers position delivered := delivered ≤ position
  meet a b := min a b
  covers_refl p := by simp
  covers_trans := by
    intro p q r hpq hqr
    simp only [decide_eq_true_eq, UInt64.le_iff_toNat_le] at *
    omega
  covers_advance_iff := by
    intro p q r
    simp only [decide_eq_true_eq, UInt64.le_iff_toNat_le, UInt64.max_def]
    split <;> omega
  meet_covers_iff := by
    intro p q r
    simp only [decide_eq_true_eq, UInt64.le_iff_toNat_le, UInt64.min_def]
    split <;> omega

/-- A topic is resumed from a sequence id of each originator. -/
def VectorBinding : TransportBinding GlobalCursor where
  advance position delivered := position.merge delivered
  covers position delivered := position.dominates delivered
  meet a b := a.meet b
  covers_refl := GlobalCursor.dominates_refl
  covers_trans := GlobalCursor.dominates_trans
  covers_advance_iff := GlobalCursor.dominates_merge_iff
  meet_covers_iff := GlobalCursor.meet_dominates_iff

end LibXmtp.Bidi
