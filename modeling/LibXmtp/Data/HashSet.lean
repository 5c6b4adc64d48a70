import Mathlib.Data.List.Basic
import Mathlib.Data.List.Pairwise

universe u

namespace LibXmtp.Data

/-- No two entries are equal by `==`, which need not be equality. An entry that is already there is
kept. -/
structure HashSet (κ : Type u) [BEq κ] where
  entries : List κ
  distinct : entries.Pairwise fun a b => (a == b) = false

namespace HashSet

variable {κ : Type u} [BEq κ]

def empty : HashSet κ := ⟨[], .nil⟩

def insert (s : HashSet κ) (a : κ) : HashSet κ :=
  if h : s.entries.any (· == a) then s
  else ⟨s.entries ++ [a], by
    refine List.pairwise_append.mpr ⟨s.distinct, List.pairwise_singleton _ _, ?_⟩
    intro b hb c hc
    rw [List.mem_singleton.mp hc]
    simp only [List.any_eq_true, not_exists, not_and, Bool.not_eq_true] at h
    exact h b hb⟩

def extend (s : HashSet κ) (as : List κ) : HashSet κ := as.foldl insert s

def filter (p : κ → Bool) (s : HashSet κ) : HashSet κ := ⟨s.entries.filter p, s.distinct.filter _⟩

variable {s : HashSet κ} {a b : κ} {as : List κ}

theorem eq_of_beq [PartialEquivBEq κ] (base : HashSet κ) :
    ∀ a ∈ base.entries, ∀ b ∈ base.entries, (a == b) = true → a = b := by
  intro a ha b hb h
  have hsymm : Std.Symm fun a b : κ => (a == b) = false := ⟨fun _ _ => BEq.symm_false⟩
  by_contra hne
  rw [base.distinct.forall ha hb hne] at h
  cases h

theorem mem_insert (h : ∀ b ∈ s.entries, (b == a) = true → b = a) :
    b ∈ (s.insert a).entries ↔ b ∈ s.entries ∨ b = a := by
  rw [insert]
  split
  · rename_i hany
    obtain ⟨c, hc, heq⟩ := List.any_eq_true.mp hany
    rw [h c hc heq] at hc
    constructor
    · exact Or.inl
    · rintro (hb | rfl)
      · exact hb
      · exact hc
  · rw [List.mem_append, List.mem_singleton]

theorem mem_extend {all : List κ} (hall : ∀ a ∈ all, ∀ b ∈ all, (a == b) = true → a = b)
    (hs : s.entries ⊆ all) (has : as ⊆ all) :
    b ∈ (s.extend as).entries ↔ b ∈ s.entries ∨ b ∈ as := by
  induction as generalizing s with
  | nil => simp [extend]
  | cons a as ih =>
    obtain ⟨ha, has⟩ := List.cons_subset.mp has
    have hmem (b : κ) : b ∈ (s.insert a).entries ↔ b ∈ s.entries ∨ b = a :=
      mem_insert fun b hb heq => hall b (hs hb) a ha heq
    have hs' : (s.insert a).entries ⊆ all := by
      intro b hb
      rcases (hmem b).mp hb with hb | rfl
      · exact hs hb
      · exact ha
    rw [extend, List.foldl_cons, ← extend, ih hs' has, hmem, List.mem_cons, or_assoc]

end HashSet

end LibXmtp.Data
