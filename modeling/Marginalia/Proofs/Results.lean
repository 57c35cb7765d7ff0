/-!
# Results of steps that can fail

A result of several steps comes from a result of each of them.  With these lemmas what was computed
is taken apart step by step, without a look at the faults.
-/

namespace Marginalia

variable {ε α β : Type} {b : β}

/-- **Taking a result apart.**  A result comes from a result of the first step. -/
theorem exists_of_bind {first : Except ε α} {second : α → Except ε β}
    (h : first >>= second = .ok b) : ∃ a, first = .ok a ∧ second a = .ok b := by
  cases first with
  | error fault => cases h
  | ok a => exact ⟨a, rfl, h⟩

@[inherit_doc exists_of_bind]
theorem exists_of_map {first : Except ε α} {f : α → β} (h : first.map f = .ok b) :
    ∃ a, first = .ok a ∧ f a = b := by
  cases first with
  | error fault => cases h
  | ok a => exact ⟨a, rfl, Except.ok.inj h⟩

end Marginalia
