import OrderFlow.Proofs.Decimal.Quotient
import OrderFlow.Proofs.Decimal.Sign

/-! Sums that overflow. A sum gives up places until it fits, so there is none exactly if its value
rounded to a whole number needs more than 96 bits. -/
namespace OrderFlow

/-- A ratio is rounded to a number below `2^96` exactly if it is below the middle before that. -/
theorem IsNearest.lt_iff {v : ℚ} {k : ℕ} (h : IsNearest v k) :
    k < 2 ^ 96 ↔ v < 2 ^ 96 - 1 / 2 := by
  refine ⟨h.lt_of_lt,fun hv => ?_⟩
  have hk : (k : ℚ) < 2 ^ 96 := by
    have := (abs_le.mp h.near).1
    linarith
  exact_mod_cast hk

namespace Decimal
variable {x y : Decimal} {negative : Bool} {n d k s : ℕ}

lemma isNearest_halfEven (hd : 0 < d) (n : ℕ) : IsNearest (n / d) (halfEven n d) := by
  have hne : (d : ℚ) ≠ 0 := by exact_mod_cast hd.ne'
  have hdiv : (n : ℚ) = d * (n / d : ℕ) + (n % d : ℕ) := by
    exact_mod_cast (Nat.div_add_mod n d).symm
  have hremains : Remains (n / d) d (n / d) (n % d) 0 := by
    refine ⟨?_,Nat.mod_lt n hd⟩
    rw [zpow_zero, mul_one]
    nth_rewrite 1 [hdiv]
    rw [add_div, mul_div_cancel_left₀ _ hne]
  have hnearest := hremains.isNearest_last
  rwa [zpow_zero, mul_one] at hnearest

lemma of?_signed_eq_none_iff (hs : s ≤ 28) : of? (signed negative k) s = none ↔ ¬ k < 2 ^ 96 := by
  simp [of?, natAbs_signed, hs]

/-- A ratio that is too large at no places is too large at any. -/
theorem fit_eq_none_iff (hd : 0 < d) (hs : s ≤ 28) :
    fit negative n d s = none ↔ 2 ^ 96 - 1 / 2 ≤ (n : ℚ) / d := by
  constructor
  · intro hnone
    by_contra hlt
    have hsome : (fit negative n d s).isSome :=
      isSome_fit ((isNearest_halfEven hd n).lt_iff.mpr (not_le.mp hlt)) s
    rw [hnone] at hsome
    cases hsome
  · intro hlarge
    induction s with
    | zero =>
      rw [fit, of?_signed_eq_none_iff hs, (isNearest_halfEven hd n).lt_iff]
      exact not_lt.mpr hlarge
    | succ s ih =>
      have hscaled : (n : ℚ) / d ≤ (n * 10 ^ (s + 1) : ℕ) / d := by
        push_cast
        rw [mul_div_right_comm]
        exact le_mul_of_one_le_right (by positivity) (one_le_pow₀ (by norm_num))
      rw [fit, ih (by omega), Option.or_none, of?_signed_eq_none_iff hs,
        (isNearest_halfEven hd _).lt_iff]
      exact not_lt.mpr (hlarge.trans hscaled)

/-- Two decimals overflow if their sum rounded to a whole number needs more than 96 bits. -/
def Overflows (x y : Decimal) : Prop := 2 ^ 96 - 1 / 2 ≤ |x.value + y.value|

lemma abs_value_lt (x : Decimal) : |x.value| < 2 ^ 96 - 1 / 2 := by
  have hle : (x.coefficient.natAbs : ℚ) ≤ 2 ^ 96 - 1 := by
    have := x.coefficient_lt
    rw [le_sub_iff_add_le]
    exact_mod_cast this
  have hscale : (1 : ℚ) ≤ 10 ^ x.scale := one_le_pow₀ (by norm_num)
  rw [abs_value]
  calc
    (x.coefficient.natAbs : ℚ) / 10 ^ x.scale ≤ x.coefficient.natAbs :=
      div_le_self (by positivity) hscale
    _ < 2 ^ 96 - 1 / 2 := by linarith

/-- Brought to the larger number of places, coefficients are added as they are. -/
lemma value_add_value (x y : Decimal) : x.value + y.value =
    (x.coefficient * 10 ^ (max x.scale y.scale - x.scale) +
      y.coefficient * 10 ^ (max x.scale y.scale - y.scale) : ℤ) / 10 ^ max x.scale y.scale := by
  have hplaces (z : Decimal) (h : z.scale ≤ max x.scale y.scale) : z.value =
      z.coefficient * 10 ^ (max x.scale y.scale - z.scale) / 10 ^ max x.scale y.scale := by
    rw [value, div_eq_div_iff (by positivity) (by positivity), mul_assoc, ← pow_add,
      Nat.sub_add_cancel h]
  rw [hplaces x (le_max_left ..), hplaces y (le_max_right ..), ← add_div]
  push_cast
  rfl

/-- There is no sum exactly where one overflows. -/
theorem add_eq_none_iff : x.add y = none ↔ x.Overflows y := by
  rw [add, Overflows]
  split_ifs with hx hy
  · rw [add_eq_right.mpr (isZero_iff.mp hx)]
    exact iff_of_false not_false (not_le.mpr (abs_value_lt y))
  · rw [add_eq_left.mpr (isZero_iff.mp hy)]
    exact iff_of_false not_false (not_le.mpr (abs_value_lt x))
  · have hplaces : (0 : ℚ) < 10 ^ max x.scale y.scale := by positivity
    rw [fit_eq_none_iff (by positivity) (max_le x.scale_le y.scale_le), value_add_value, abs_div,
      abs_of_pos hplaces, Nat.cast_natAbs, Int.cast_abs]
    push_cast
    rfl

end Decimal
end OrderFlow
