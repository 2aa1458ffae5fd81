set_option autoImplicit false

/-!
Computations that have succeeded, taken apart.
-/

namespace TypedScript

variable {ε α β : Type}

theorem exists_ok_of_bind {first : Except ε α} {next : α → Except ε β} {y : β}
    (done : first >>= next = .ok y) : ∃ x, first = .ok x ∧ next x = .ok y := by
  cases first with
  | error e => contradiction
  | ok x => exact ⟨x, rfl, done⟩

theorem exists_ok_of_map {first : Except ε α} {change : α → β} {y : β}
    (done : first.map change = .ok y) : ∃ x, first = .ok x ∧ change x = y := by
  cases first with
  | error e => contradiction
  | ok x => exact ⟨x, rfl, Except.ok.inj done⟩

theorem eq_ok_of_toOption {outcome : Except ε α} {x : α} (got : outcome.toOption = some x) :
    outcome = .ok x := by
  cases outcome with
  | error e => contradiction
  | ok y => exact congrArg Except.ok (Option.some.inj got)

end TypedScript
