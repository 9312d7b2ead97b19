import Mathlib.Algebra.Order.Field.Power
import Mathlib.Tactic.Linarith
import OrderFlow.Proofs.Decimal.Value

/-! Nearest decimals. A ratio is taken to the nearest digits, a half to the even ones, at places at
which they fit and with another of which they would not. However many places that takes, the number
it comes to is one. -/
namespace OrderFlow

/-- A whole number is nearest to a ratio, and even if another one is just as near. -/
structure IsNearest (x : ℚ) (k : ℕ) : Prop where
  near : |x - k| ≤ 1 / 2
  even : |x - k| = 1 / 2 → k % 2 = 0

section
variable {x y f : ℚ} {k l q : ℕ}

theorem isNearest_natCast (k : ℕ) : IsNearest k k := ⟨by norm_num,by norm_num⟩

/-- A ratio is rounded down up to the middle. -/
lemma isNearest_down (h0 : 0 ≤ f) (h1 : f ≤ 1 / 2) (heven : f = 1 / 2 → q % 2 = 0) :
    IsNearest (q + f) q := by
  have hdist : |(q : ℚ) + f - q| = f := by rw [add_sub_cancel_left, abs_of_nonneg h0]
  constructor
  · rwa [hdist]
  · rwa [hdist]

/-- A ratio is rounded up from the middle on. -/
lemma isNearest_up (h0 : 1 / 2 ≤ f) (h1 : f ≤ 1) (hodd : f = 1 / 2 → q % 2 = 1) :
    IsNearest (q + f) (q + 1) := by
  have hdist : |(q : ℚ) + f - (q + 1 : ℕ)| = 1 - f := by
    rw [Nat.cast_add, Nat.cast_one, add_sub_add_left_eq_sub, abs_sub_comm, abs_of_nonneg]
    linarith
  constructor
  · rw [hdist]
    linarith
  · intro h
    have := hodd (by linarith)
    omega

/-- A smaller ratio is not rounded to a larger number. -/
theorem IsNearest.mono (hx : IsNearest x k) (hy : IsNearest y l) (h : x ≤ y) : k ≤ l := by
  by_contra hlt
  have hkl : (l : ℚ) + 1 ≤ k := by exact_mod_cast not_le.mp hlt
  obtain ⟨hx1,hx2⟩ := abs_le.mp hx.near
  obtain ⟨hy1,hy2⟩ := abs_le.mp hy.near
  -- then both ratios are in the middle between two neighbours, of which one is odd
  have hk : k = l + 1 := by
    have : (k : ℚ) = l + 1 := by linarith
    exact_mod_cast this
  have hxe := hx.even (by rw [abs_of_nonpos] <;> linarith)
  have hye := hy.even (by rw [abs_of_nonneg] <;> linarith)
  omega

theorem IsNearest.unique (hk : IsNearest x k) (hl : IsNearest x l) : k = l :=
  Nat.le_antisymm (hk.mono hl le_rfl) (hl.mono hk le_rfl)

/-- A ratio whose rounding is below `2^96` is below the middle before that. -/
lemma IsNearest.lt_of_lt (hx : IsNearest x k) (hk : k < 2 ^ 96) : x < 2 ^ 96 - 1 / 2 := by
  by_contra hge
  have hmiddle : IsNearest ((2 ^ 96 - 1 : ℕ) + 1 / 2) (2 ^ 96 - 1 + 1) :=
    isNearest_up le_rfl (by norm_num) fun _ => by norm_num
  have hle : ((2 ^ 96 - 1 : ℕ) : ℚ) + 1 / 2 ≤ x := by
    push_cast
    linarith
  have := hmiddle.mono hx hle
  omega

end

namespace Decimal

/-- The digits `q` at `s` places for a ratio: exactly it, or it rounded, and then with another place
the digits would not fit. -/
structure Rounds (v : ℚ) (q s : ℕ) : Prop where
  lt : q < 2 ^ 96
  le : s ≤ 28
  nearest : IsNearest (v * 10 ^ s) q
  most : (q : ℚ) = v * 10 ^ s ∨ s = 28 ∨ 2 ^ 96 - 1 / 2 ≤ v * 10 ^ (s + 1)

section
variable {v : ℚ} {q q' s s' : ℕ}

lemma Rounds.lt_bound (hv : 0 ≤ v) (h : Rounds v q s) : v < 2 ^ 96 - 1 / 2 := by
  have hone : (1 : ℚ) ≤ 10 ^ s := one_le_pow₀ (by norm_num)
  exact (le_mul_of_one_le_right hv hone).trans_lt (h.nearest.lt_of_lt h.lt)

lemma Rounds.value_eq_of_lt (hv : 0 ≤ v) (h : Rounds v q s) (h' : Rounds v q' s') (hs : s < s') :
    (q : ℚ) / 10 ^ s = q' / 10 ^ s' := by
  rcases h.most with hexact | hlast | hfull
  · -- the exact digits stay exact with more places
    have hpow : (10 : ℚ) ^ s' = 10 ^ s * 10 ^ (s' - s) := by
      rw [← pow_add, Nat.add_sub_cancel' hs.le]
    have hq' : q' = q * 10 ^ (s' - s) := by
      apply h'.nearest.unique
      rw [hpow, ← mul_assoc, ← hexact]
      exact_mod_cast isNearest_natCast (q * 10 ^ (s' - s))
    rw [hq', hpow]
    push_cast
    rw [mul_div_mul_right _ _ (by positivity)]
  · have := h'.le
    omega
  · have hle : v * 10 ^ (s + 1) ≤ v * 10 ^ s' :=
      mul_le_mul_of_nonneg_left (pow_le_pow_right₀ (by norm_num) hs) hv
    exact absurd (hfull.trans hle) (not_le.mpr (h'.nearest.lt_of_lt h'.lt))

/-- A ratio has one rounding. -/
theorem Rounds.value_eq (hv : 0 ≤ v) (h : Rounds v q s) (h' : Rounds v q' s') :
    (q : ℚ) / 10 ^ s = q' / 10 ^ s' := by
  rcases Nat.lt_trichotomy s s' with hlt | rfl | hgt
  · exact h.value_eq_of_lt hv h' hlt
  · rw [h.nearest.unique h'.nearest]
  · exact (h'.value_eq_of_lt hv h hgt).symm

end

end Decimal
end OrderFlow
