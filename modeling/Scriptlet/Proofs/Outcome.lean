/-! Computations that end with a value or an error, taken apart at their binds. -/

namespace Scriptlet

variable {ε α β : Type} {r : Except ε α} {f : α → Except ε β}

theorem bind_eq_ok {b : β} : r >>= f = .ok b ↔ ∃ a, r = .ok a ∧ f a = .ok b := by
  cases r with
  | error e => simp [bind, Except.bind]
  | ok a => simp [bind, Except.bind]

end Scriptlet
