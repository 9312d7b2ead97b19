import OrderFlow.Power

/-! Rounding of a ratio of naturals to an integer. -/
namespace OrderFlow

/-- `n / d` rounded to an integer, a half going to the even neighbour. -/
def halfEven (n d : Nat) : Nat :=
  let q := n / d
  let r := n % d
  if d < 2 * r ∨ (2 * r = d ∧ q % 2 = 1) then q + 1 else q

@[simp] theorem halfEven_mul_left (n d : Nat) (h : 0 < d) : halfEven (n * d) d = n := by
  have h0 : n * d / d = n := Nat.mul_div_cancel n h
  have h1 : n * d % d = 0 := Nat.mul_mod_left n d
  simp only [halfEven, h0, h1]
  split <;> omega

example : halfEven 5 10 = 0 ∧ halfEven 15 10 = 2 ∧ halfEven 26 10 = 3 := by decide

end OrderFlow
