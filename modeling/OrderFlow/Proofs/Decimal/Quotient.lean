import OrderFlow.Proofs.Decimal.LongDivision

/-! Quotients of decimals. The value of a quotient hangs on the values of the operands alone, not on
their places. -/
namespace OrderFlow.Decimal

/-- Zeros at the end of a coefficient are dropped with their places. -/
def Shortens (p p' : ℕ × ℕ) : Prop := ∃ k, p.1 = p'.1 * 10 ^ k ∧ p.2 = p'.2 + k

lemma shortens_shorten (k : ℕ) (p : ℕ × ℕ) : Shortens p (shorten k p) := by
  rw [shorten]
  split_ifs with h
  · exact ⟨k,(Nat.div_mul_cancel (Nat.dvd_of_mod_eq_zero h.1)).symm,(Nat.sub_add_cancel h.2).symm⟩
  · exact ⟨0,by simp,by simp⟩

lemma Shortens.trans {p p' p'' : ℕ × ℕ} (h : Shortens p p') (h' : Shortens p' p'') :
    Shortens p p'' := by
  obtain ⟨k,hq,hs⟩ := h
  obtain ⟨k',hq',hs'⟩ := h'
  exact ⟨k' + k,by rw [hq, hq', pow_add, mul_assoc],by omega⟩

lemma shortens_shortened (fuel : ℕ) (p : ℕ × ℕ) : Shortens p (shortened fuel p) := by
  induction fuel generalizing p with
  | zero => exact ⟨0,by simp [shortened],by simp [shortened]⟩
  | succ fuel ih =>
    rw [shortened]
    split_ifs
    · exact (shortens_shorten 8 p).trans (ih _)
    · exact ((shortens_shorten 4 p).trans (shortens_shorten 2 _)).trans (shortens_shorten 1 _)

lemma Shortens.value_eq {p p' : ℕ × ℕ} (h : Shortens p p') :
    (p'.1 : ℚ) / 10 ^ p'.2 = p.1 / 10 ^ p.2 := by
  obtain ⟨k,hq,hs⟩ := h
  rw [hq, hs, pow_add]
  push_cast
  rw [mul_div_mul_right _ _ (by positivity)]

lemma Shortens.le {p p' : ℕ × ℕ} (h : Shortens p p') : p'.1 ≤ p.1 ∧ p'.2 ≤ p.2 := by
  obtain ⟨k,hq,hs⟩ := h
  refine ⟨?_,by omega⟩
  rw [hq]
  exact Nat.le_mul_of_pos_right _ (by positivity)

lemma natAbs_signed (negative : Bool) (n : ℕ) : (signed negative n).natAbs = n := by
  cases negative <;> simp [signed]

/-- A ratio with a sign. -/
def withSign (negative : Bool) (v : ℚ) : ℚ := if negative then -v else v

/-- What a quotient of size `v` may be: the value of `v` rounded, with its sign, or nothing if it is
too large. -/
inductive IsQuotient (negative : Bool) (v : ℚ) : Option Decimal → Prop
  | rounded {q s : ℕ} {z : Decimal} (rounds : Rounds v q s)
    (value : z.value = withSign negative (q / 10 ^ s)) : IsQuotient negative v (some z)
  | tooLarge (large : 2 ^ 96 - 1 / 2 ≤ v) : IsQuotient negative v none

variable {x y x' y' : Decimal}

lemma quotient_of_shortens {v : ℚ} {q s : ℕ} {p : ℕ × ℕ} (negative : Bool) (h : Rounds v q s)
    (hp : Shortens (q,s) p) : IsQuotient negative v (of? (signed negative p.1) p.2) := by
  obtain ⟨hq,hs⟩ := hp.le
  have hfits : (signed negative p.1).natAbs < 2 ^ 96 ∧ p.2 ≤ 28 := by
    rw [natAbs_signed]
    exact ⟨hq.trans_lt h.lt,hs.trans h.le⟩
  rw [of?, dif_pos hfits]
  apply IsQuotient.rounded h
  rw [← hp.value_eq, value]
  cases negative
  · simp [signed, withSign]
  · simp [signed, withSign, neg_div]

lemma abs_value (x : Decimal) : |x.value| = x.coefficient.natAbs / 10 ^ x.scale := by
  have hx : (0 : ℚ) < 10 ^ x.scale := by positivity
  rw [value, abs_div, abs_of_pos hx, Nat.cast_natAbs, Int.cast_abs]

/-- Long division begins with the quotient of the coefficients at the difference of the places. -/
lemma remains_div (x : Decimal) (hy : y.coefficient.natAbs ≠ 0) :
    Remains |x.value / y.value| y.coefficient.natAbs
      (x.coefficient.natAbs / y.coefficient.natAbs) (x.coefficient.natAbs % y.coefficient.natAbs)
      ((x.scale : ℤ) - y.scale) := by
  have hn : (y.coefficient.natAbs : ℚ) ≠ 0 := by exact_mod_cast hy
  have hdiv : (x.coefficient.natAbs : ℚ) = y.coefficient.natAbs *
      (x.coefficient.natAbs / y.coefficient.natAbs : ℕ) +
        (x.coefficient.natAbs % y.coefficient.natAbs : ℕ) := by
    exact_mod_cast (Nat.div_add_mod ..).symm
  constructor
  · rw [abs_div, abs_value, abs_value, zpow_sub₀ (by norm_num), zpow_natCast, zpow_natCast]
    generalize x.coefficient.natAbs / y.coefficient.natAbs = q at *
    generalize x.coefficient.natAbs % y.coefficient.natAbs = r at *
    rw [hdiv]
    field_simp
  · exact Nat.mod_lt _ (Nat.pos_of_ne_zero hy)

/-- Digits are developed, unless exact, with zeros at the end that are then dropped. -/
lemma quotient_of_developed {v : ℚ} {digits : Option (ℕ × ℤ)} (negative : Bool) (exact : Prop)
    [Decidable exact] (h : Developed v digits) : IsQuotient negative v (digits.bind fun p =>
      let p' := if exact then (p.1,p.2.toNat) else shortened 4 (p.1,p.2.toNat)
      of? (signed negative p'.1) p'.2) := by
  cases h with
  | digits rounds =>
    apply quotient_of_shortens negative rounds
    split_ifs
    · exact ⟨0,by simp,by simp⟩
    · exact shortens_shortened ..
  | tooLarge large => exact .tooLarge large

/-- A quotient of two decimals that are not zero is their ratio, rounded. -/
theorem div_quotient (hx : x.coefficient.natAbs ≠ 0) (hy : y.coefficient.natAbs ≠ 0) :
    IsQuotient (decide (x.coefficient * y.coefficient < 0)) |x.value / y.value| (x.div y) := by
  have hq : x.coefficient.natAbs / y.coefficient.natAbs < 2 ^ 96 :=
    (Nat.div_le_self ..).trans_lt x.coefficient_lt
  have hx28 := x.scale_le
  have hy28 := y.scale_le
  have hdeveloped : Developed |x.value / y.value| (develop y.coefficient.natAbs 60
      (x.coefficient.natAbs / y.coefficient.natAbs) (x.coefficient.natAbs % y.coefficient.natAbs)
      ((x.scale : ℤ) - y.scale)) :=
    (remains_div x hy).develop hq (by omega) (by omega)
  rw [div, if_neg hy, if_neg hx]
  exact quotient_of_developed _ _ hdeveloped

/-- A ratio has one quotient, but for its places. -/
theorem IsQuotient.value_eq {negative : Bool} {v : ℚ} {z? z'? : Option Decimal} (hv : 0 ≤ v)
    (h : IsQuotient negative v z?) (h' : IsQuotient negative v z'?) :
    z?.map value = z'?.map value := by
  cases h with
  | rounded rounds hz =>
    cases h' with
    | rounded rounds' hz' =>
      rw [Option.map_some, Option.map_some, hz, hz', rounds.value_eq hv rounds']
    | tooLarge large => exact absurd (rounds.lt_bound hv) (not_lt.mpr large)
  | tooLarge large =>
    cases h' with
    | rounded rounds' hz' => exact absurd (rounds'.lt_bound hv) (not_lt.mpr large)
    | tooLarge large' => rfl

lemma natAbs_eq_zero_iff : x.coefficient.natAbs = 0 ↔ x.value = 0 := by
  rw [← isZero_iff, isZero, decide_eq_true_eq, Int.natAbs_eq_zero]

lemma coefficient_mul_neg_iff : x.coefficient * y.coefficient < 0 ↔ x.value * y.value < 0 := by
  rw [value, value, div_mul_div_comm, div_lt_iff₀ (by positivity), zero_mul]
  exact_mod_cast Iff.rfl

/-- The value of a quotient hangs on the values divided alone, and so does whether there is one. -/
theorem div_value_congr (hx : x.value = x'.value) (hy : y.value = y'.value) :
    (x.div y).map value = (x'.div y').map value := by
  by_cases hy0 : y.coefficient.natAbs = 0
  · have hy0' := natAbs_eq_zero_iff.mpr (hy ▸ natAbs_eq_zero_iff.mp hy0)
    rw [div, div, if_pos hy0, if_pos hy0']
  · have hy0' : y'.coefficient.natAbs ≠ 0 := by
      rwa [Ne, natAbs_eq_zero_iff, ← hy, ← natAbs_eq_zero_iff]
    by_cases hx0 : x.coefficient.natAbs = 0
    · have hx0' := natAbs_eq_zero_iff.mpr (hx ▸ natAbs_eq_zero_iff.mp hx0)
      rw [div, div, if_neg hy0, if_neg hy0', if_pos hx0, if_pos hx0']
    · have hx0' : x'.coefficient.natAbs ≠ 0 := by
        rwa [Ne, natAbs_eq_zero_iff, ← hx, ← natAbs_eq_zero_iff]
      have h := div_quotient hx0 hy0
      have h' := div_quotient hx0' hy0'
      rw [← hx, ← hy] at h'
      simp only [coefficient_mul_neg_iff, hx, hy] at h h'
      exact h.value_eq (abs_nonneg _) h'

end OrderFlow.Decimal
