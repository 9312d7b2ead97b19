import Mathlib.Tactic.Lemma
import OrderFlow.Failure

/-! Operations that succeed. A sequence succeeds where each of its steps does and no guard in it
fails, and it fails as the first step that does not. -/
namespace OrderFlow
variable {α β ε ε' : Type} {a : α} {b : β} {x : Except ε α} {y : Except ε β}
  {f : α → Except ε β} {c : Prop} [Decidable c]

theorem bind_eq_ok_iff : x >>= f = .ok b ↔ ∃ a, x = .ok a ∧ f a = .ok b := by
  cases x <;> simp [bind, Except.bind]

theorem bind_eq_error_iff {e : ε} :
    x >>= f = .error e ↔ x = .error e ∨ ∃ a, x = .ok a ∧ f a = .error e := by
  cases x <;> simp [bind, Except.bind]

lemma pure_eq_ok_iff {a a' : α} : (pure a : Except ε α) = .ok a' ↔ a = a' := by
  simp [pure, Except.pure]

lemma guard_eq_ok_iff {e : ε} :
    (if c then throw e >>= f else y) = .ok b ↔ ¬ c ∧ y = .ok b := by
  by_cases h : c <;> simp [h, throw, throwThe, MonadExceptOf.throw, bind, Except.bind]

lemma guard_fail_eq_ok_iff {cause : Cause} {f : α → Outcome β} {y : Outcome β} :
    (if c then fail cause >>= f else y) = .ok b ↔ ¬ c ∧ y = .ok b := by
  by_cases h : c <;> simp [h, fail, bind, Except.bind]

lemma map_eq_ok_iff {g : α → β} : x.map g = .ok b ↔ ∃ a, x = .ok a ∧ g a = b := by
  cases x <;> simp [Except.map]

lemma mapError_eq_ok_iff {g : ε → ε'} : x.mapError g = .ok a ↔ x = .ok a := by
  cases x with
  | error e =>
    change (.error (g e) : Except ε' α) = .ok a ↔ (.error e : Except ε α) = .ok a
    simp
  | ok a' =>
    change (.ok a' : Except ε' α) = .ok a ↔ (.ok a' : Except ε α) = .ok a
    simp

lemma toOption_eq_some_iff : x.toOption = some a ↔ x = .ok a := by
  cases x <;> simp [Except.toOption]

end OrderFlow
