import OrderFlow.Proofs.Decimal.Value

/-! Signs of decimals. Rounding keeps the sign of a sum, and a difference of decimals that are not
negative is no longer than the larger of them, so it always fits. -/
namespace OrderFlow

/-- Rounding does not pass a whole number. -/
lemma halfEven_le {n d m : Nat} (h : n ≤ m * d) : halfEven n d ≤ m := by
  have hq : n / d ≤ m := Nat.div_le_of_le_mul (by rwa [Nat.mul_comm])
  have hn := Nat.div_add_mod n d
  simp only [halfEven]
  -- it is rounded up by one at most, and not at all if nothing is left to round
  rcases hq.lt_or_eq with hlt | heq
  · split <;> omega
  · have hr : n % d = 0 := by
      rw [heq, Nat.mul_comm] at hn
      omega
    rw [hr, if_neg, heq]
    rintro (hd | ⟨hd,hodd⟩)
    · omega
    · have hd : d = 0 := by omega
      rw [hd, Nat.div_zero] at hodd
      omega

namespace Decimal
variable {x y z : Decimal}

theorem value_nonneg_iff : 0 ≤ x.value ↔ 0 ≤ x.coefficient := by
  have hx : (0 : ℚ) < 10 ^ x.scale := by positivity
  rw [value, le_div_iff₀ hx, zero_mul, Int.cast_nonneg_iff]

theorem isPositive_iff : x.isPositive = true ↔ 0 < x.value := by
  have hx : (0 : ℚ) < 10 ^ x.scale := by positivity
  rw [value, lt_div_iff₀ hx, zero_mul, Int.cast_pos, isPositive, decide_eq_true_eq]

theorem isNegative_eq_false_iff : x.isNegative = false ↔ 0 ≤ x.value := by
  rw [value_nonneg_iff, isNegative, decide_eq_false_iff_not, not_lt]

lemma coefficient_of_of? {c : Int} {s : Nat} (h : of? c s = some z) : z.coefficient = c := by
  rw [of?] at h
  split at h
  · cases h
    rfl
  · cases h

lemma coefficient_nonneg_of_fit {n d s : Nat} (h : fit false n d s = some z) :
    0 ≤ z.coefficient := by
  induction s with
  | zero =>
    rw [coefficient_of_of? h]
    exact Int.natCast_nonneg _
  | succ s ih =>
    rcases Option.or_eq_some_iff.mp h with h | ⟨-,h⟩
    · rw [coefficient_of_of? h]
      exact Int.natCast_nonneg _
    · exact ih h

/-- A ratio fits as soon as its whole part does. -/
lemma isSome_fit {negative : Bool} {n d : Nat} (h : halfEven n d < 2 ^ 96) (s : Nat) :
    (fit negative n d s).isSome := by
  induction s with
  | zero =>
    have hn : (signed negative (halfEven n d)).natAbs = halfEven n d := by
      cases negative <;> simp [signed]
    rw [fit, of?, dif_pos ⟨by rwa [hn],by omega⟩]
    rfl
  | succ s ih => rw [fit, Option.isSome_or, ih, Bool.or_true]

theorem add_nonneg (hx : 0 ≤ x.value) (hy : 0 ≤ y.value) (h : x.add y = some z) : 0 ≤ z.value := by
  rw [add] at h
  split at h
  · cases h
    exact hy
  · split at h
    · cases h
      exact hx
    · rw [value_nonneg_iff] at hx hy ⊢
      have hsum : 0 ≤ x.coefficient * 10 ^ (max x.scale y.scale - x.scale) +
          y.coefficient * 10 ^ (max x.scale y.scale - y.scale) := by positivity
      simp only [decide_eq_false (not_lt.mpr hsum)] at h
      exact coefficient_nonneg_of_fit h

/-- A coefficient brought to more places stays below `2^96` whole units. -/
lemma coefficient_mul_le (hx : 0 ≤ x.value) (s : Nat) :
    0 ≤ x.coefficient * 10 ^ (s - x.scale) ∧
      x.coefficient * 10 ^ (s - x.scale) ≤ ((2 ^ 96 - 1) * 10 ^ s : Nat) := by
  have hc := value_nonneg_iff.mp hx
  have hlt := x.coefficient_lt
  have hpow : (10 : Int) ^ (s - x.scale) ≤ 10 ^ s := by
    exact_mod_cast Nat.pow_le_pow_right (by omega) (Nat.sub_le ..)
  refine ⟨by positivity,?_⟩
  push_cast
  exact Int.mul_le_mul (by omega) hpow (by positivity) (by omega)

/-- The difference of two decimals that are not negative is a decimal. -/
theorem isSome_sub (hx : 0 ≤ x.value) (hy : 0 ≤ y.value) : (x.sub y).isSome := by
  rw [sub, add]
  split
  · rfl
  · split
    · rfl
    · -- of two coefficients between zero and a bound, the difference is no longer than the bound
      obtain ⟨hx0,hx1⟩ := coefficient_mul_le hx (max x.scale y.scale)
      obtain ⟨hy0,hy1⟩ := coefficient_mul_le hy (max x.scale y.scale)
      have hle : (x.coefficient * 10 ^ (max x.scale y.scale - x.scale) +
          -y.coefficient * 10 ^ (max x.scale y.scale - y.scale)).natAbs ≤
            (2 ^ 96 - 1) * 10 ^ max x.scale y.scale := by
        rw [Int.neg_mul]
        omega
      exact isSome_fit ((halfEven_le hle).trans_lt (by omega)) _

end Decimal
end OrderFlow
