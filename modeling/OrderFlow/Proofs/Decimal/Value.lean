import Mathlib.Algebra.Order.Field.Rat
import Mathlib.Tactic.FieldSimp
import Mathlib.Tactic.Positivity
import OrderFlow.Decimal.Arithmetic

/-! The numbers that decimals stand for. Comparison is by value, and a sum is exact unless it had
to be rounded. -/
namespace OrderFlow.Decimal

/-- `c · 10^-s`, or zero where that is no decimal. -/
def scaled (c : Int) (s : Nat) : Decimal := (of? c s).getD zero

def value (x : Decimal) : ℚ := x.coefficient / 10 ^ x.scale

@[simp] theorem value_zero : zero.value = 0 := by simp [value, zero]

theorem isZero_iff {x : Decimal} : x.isZero = true ↔ x.value = 0 := by
  have hx : (10 : ℚ) ^ x.scale ≠ 0 := by positivity
  rw [value, div_eq_zero_iff, or_iff_left hx, Int.cast_eq_zero, isZero, decide_eq_true_eq]

theorem le_iff {x y : Decimal} : x.le y = true ↔ x.value ≤ y.value := by
  have hx : (0 : ℚ) < 10 ^ x.scale := by positivity
  have hy : (0 : ℚ) < 10 ^ y.scale := by positivity
  rw [value, value, div_le_div_iff₀ hx hy, le, decide_eq_true_eq]
  exact_mod_cast Iff.rfl

theorem lt_iff {x y : Decimal} : x.lt y = true ↔ x.value < y.value := by
  rw [lt, Bool.not_eq_true', ← Bool.not_eq_true, le_iff, not_le]

/-- Nothing plus a decimal is that decimal, with its places. -/
@[simp] theorem zero_add (x : Decimal) : zero.add x = some x := by simp [add, zero, isZero]

/-- A sum loses nothing: where there is one, its value is the sum of the values. -/
def AddsExactly (x y : Decimal) : Prop := ∀ z ∈ x.add y, z.value = x.value + y.value

/-- Exactness told by the coefficients, all brought to one power of ten. -/
theorem addsExactly_iff {x y : Decimal} : x.AddsExactly y ↔ ∀ z ∈ x.add y,
    z.coefficient * (10 ^ x.scale * 10 ^ y.scale) =
      (x.coefficient * 10 ^ y.scale + 10 ^ x.scale * y.coefficient) * 10 ^ z.scale := by
  have pow_ne (s : Nat) : (10 : ℚ) ^ s ≠ 0 := by positivity
  apply forall₂_congr
  intro z _
  rw [value, value, value, div_add_div _ _ (pow_ne _) (pow_ne _),
    div_eq_div_iff (pow_ne _) (mul_ne_zero (pow_ne _) (pow_ne _))]
  exact_mod_cast Iff.rfl

instance (x y : Decimal) : Decidable (x.AddsExactly y) := decidable_of_iff' _ addsExactly_iff

end OrderFlow.Decimal
