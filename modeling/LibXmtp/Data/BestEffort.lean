import LibXmtp.Data.Result

namespace LibXmtp.Data

variable {ε σ : Type}

/-- What the updates up to the first that fails make of the state, and how it fails. -/
def failFast : List (σ → Except ε σ) → σ → σ × Except ε Unit
  | [], s => (s, .ok ())
  | update :: updates, s =>
    match update s with
    | .ok s' => failFast updates s'
    | .error e => (s, .error e)

/-- What the updates that do not fail make of the state, and the failures of the others. -/
def bestEffort : List (σ → Except ε σ) → σ → σ × List ε
  | [], s => (s, [])
  | update :: updates, s =>
    match update s with
    | .ok s' => bestEffort updates s'
    | .error e => ((bestEffort updates s).1, e :: (bestEffort updates s).2)

section

variable {updates : List (σ → Except ε σ)} {s s' : σ}

theorem bestEffort_eq_nil :
    bestEffort updates s = (s', []) ↔ failFast updates s = (s', .ok ()) := by
  induction updates generalizing s with
  | nil => simp [bestEffort, failFast]
  | cons update updates ih =>
    rw [bestEffort, failFast]
    cases update s with
    | ok t => exact ih
    | error e => simp

theorem failFast_eq_error {e : ε} :
    (failFast updates s).2 = .error e ↔ (bestEffort updates s).2.head? = some e := by
  induction updates generalizing s with
  | nil => simp [bestEffort, failFast]
  | cons update updates ih =>
    rw [bestEffort, failFast]
    cases update s with
    | ok t => exact ih
    | error e' => simp

theorem bestEffort_append (more : List (σ → Except ε σ)) :
    bestEffort (updates ++ more) s =
      ((bestEffort more (bestEffort updates s).1).1,
        (bestEffort updates s).2 ++ (bestEffort more (bestEffort updates s).1).2) := by
  induction updates generalizing s with
  | nil => rfl
  | cons update updates ih =>
    rw [List.cons_append, bestEffort, bestEffort]
    cases update s with
    | ok t => exact ih
    | error e => rw [ih, List.cons_append]

end

def errorOf {α : Type} : Except ε α → Option ε
  | .ok _ => none
  | .error e => some e

end LibXmtp.Data
