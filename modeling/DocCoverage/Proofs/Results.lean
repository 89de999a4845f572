/-! # Results of computations

A computation ends with a value or with an error, and what is computed from it ends as it does
unless it has a value.  These equations hold for any kind of error: a refusal of arguments, a
fault of a run, a flaw of a log setting. -/

namespace DocCoverage

variable {ε α β : Type} {outcome : Except ε α}

/-- One computation behind another, as it is written in steps. -/
theorem seq_eq_bind (outcome : Except ε α) (next : α → Except ε β) :
    (outcome >>= next) = outcome.bind next := rfl

/-- A value that was computed from an outcome was computed from its value. -/
theorem map_eq_ok_iff {f : α → β} {b : β} :
    outcome.map f = .ok b ↔ ∃ a, outcome = .ok a ∧ f a = b := by
  cases outcome <;> simp [Except.map]

/-- What is computed from an outcome fails as the outcome does. -/
theorem map_eq_error_iff {f : α → β} {error : ε} :
    outcome.map f = .error error ↔ outcome = .error error := by
  cases outcome <;> simp [Except.map]

/-- A value behind an outcome comes of a step that was taken with the value of the
outcome. -/
theorem bind_eq_ok_iff {next : α → Except ε β} {b : β} :
    outcome.bind next = .ok b ↔ ∃ a, outcome = .ok a ∧ next a = .ok b := by
  cases outcome <;> simp [Except.bind]

end DocCoverage
