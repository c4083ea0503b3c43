/-
Taking a chain of fallible steps apart.
-/
import Mathlib.Tactic.Basic

namespace BigRocket.Lib

variable {ε α β : Type}

theorem ok_bind (a : α) (k : α → Except ε β) : ((Except.ok a : Except ε α) >>= k) = k a := rfl

theorem bind_eq_ok {x : Except ε α} {k : α → Except ε β} {b : β} (h : (x >>= k) = .ok b) :
    ∃ a, x = .ok a ∧ k a = .ok b := by
  cases x with
  | error e => cases h
  | ok a => exact ⟨a, rfl, h⟩

theorem check_eq_ok {c : Prop} [Decidable c] {e : ε} {k : α → Except ε β} {rest : Except ε β}
    {b : β} (h : (if c then throw e >>= k else rest) = .ok b) : rest = .ok b := by
  split at h
  · cases h
  · exact h

end BigRocket.Lib
