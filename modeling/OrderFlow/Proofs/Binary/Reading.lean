import OrderFlow.Binary.Reader
import OrderFlow.Proofs.Binary.Grid

/-! Doubles are read from their own text. The digits, wherever the layout puts the point and
whatever exponent it writes, are read as a ratio inside the neighbourhood of the double. -/
namespace OrderFlow.Binary
open OrderFlow.Text
variable {m s n a : Nat} {e k : Int} {negative : Bool}

lemma ofScaled_zero (negative : Bool) (e : Int) : ofScaled negative 0 e = withSign negative 0 := by
  simp [ofScaled]

/-- A significand and a power of ten that write a ratio of moderate size. -/
lemma ofScaled_eq_nearest (hn : n ≠ 0) (hlow : -400 ≤ ((natDigits n).length : Int) + e)
    (hhigh : ((natDigits n).length : Int) + e ≤ 400) :
    ofScaled negative n e = nearest negative (n * 10 ^ e.toNat) (10 ^ (-e).toNat) := by
  simp only [ofScaled]
  rw [if_neg hn, if_neg (by omega), if_neg (by omega)]
  split_ifs with he
  · rw [Int.toNat_of_nonpos (by omega : -e ≤ 0), Nat.pow_zero]
  · rw [Int.toNat_of_nonpos (by omega : e ≤ 0), Nat.pow_zero, Nat.mul_one]

section
open Neighbourhood

/-- The digits of a ratio inside do not stand further left of the point than those of the largest
double. -/
lemma length_add_le (hm : m < 2 ^ 53) (hs : s ≤ 2045) (hn : n ≠ 0)
    (hin : (of m s).Contains (n * 10 ^ e.toNat) (10 ^ (-e).toNat)) :
    ((natDigits n).length : Int) + e ≤ 310 := by
  obtain ⟨l,hl,hleast,-⟩ := natDigits_bounds hn
  have hhigh := hin.high.trans (Nat.mul_le_mul_right _ (high_le_limit hm hs))
  have hlimit : 2 ^ 54 * 2 ^ 970 ≤ 10 ^ 309 := by decide +kernel
  obtain ⟨u,hu⟩ := @exists_eq' Nat 1076
  obtain ⟨v,hv⟩ := @exists_eq' Nat (2 ^ 54 * 2 ^ 970)
  obtain ⟨w,hw⟩ := @exists_eq' Nat 309
  rw [hv] at hlimit hhigh
  rw [hw] at hlimit
  rw [hu, Nat.mul_right_comm v] at hhigh
  have hscaled := Nat.le_of_mul_le_mul_right hhigh (Nat.two_pow_pos u)
  have hpow : 10 ^ (l + e.toNat) ≤ 10 ^ (w + (-e).toNat) := by
    rw [Nat.pow_add, Nat.pow_add]
    exact (Nat.mul_le_mul_right _ hleast).trans
      (hscaled.trans (Nat.mul_le_mul_right _ hlimit))
  have := (Nat.pow_le_pow_iff_right (by decide : 1 < 10)).mp hpow
  omega

/-- Nor do they stand further right than those of the smallest one. -/
lemma le_length_add (hm0 : m ≠ 0) (hn : n ≠ 0)
    (hin : (of m s).Contains (n * 10 ^ e.toNat) (10 ^ (-e).toNat)) :
    -324 ≤ ((natDigits n).length : Int) + e := by
  obtain ⟨l,hl,-,hmost⟩ := natDigits_bounds hn
  have hlimit : 2 ^ 1076 ≤ 10 ^ 324 := by decide +kernel
  have hlow := (Nat.mul_le_mul_right _ (low_pos (s := s) hm0)).trans hin.low
  obtain ⟨u,hu⟩ := @exists_eq' Nat 1076
  obtain ⟨v,hv⟩ := @exists_eq' Nat 324
  rw [hu] at hlow hlimit
  rw [hv] at hlimit
  have hpow : 10 ^ (-e).toNat < 10 ^ (l + 1 + e.toNat + v) := by
    rw [Nat.pow_add _ _ v, Nat.pow_add _ (l + 1)]
    calc
      10 ^ (-e).toNat = 1 * 10 ^ (-e).toNat := (Nat.one_mul _).symm
      _ ≤ n * 10 ^ e.toNat * 2 ^ u := hlow
      _ ≤ n * 10 ^ e.toNat * 10 ^ v := Nat.mul_le_mul_left _ hlimit
      _ < 10 ^ (l + 1) * 10 ^ e.toNat * 10 ^ v := by
        refine Nat.mul_lt_mul_of_pos_right ?_ (Nat.pow_pos (by decide))
        exact Nat.mul_lt_mul_of_pos_right hmost (Nat.pow_pos (by decide))
  have := (Nat.pow_lt_pow_iff_right (by decide : 1 < 10)).mp hpow
  omega

/-- A significand and a power of ten inside the neighbourhood of a double are read as it. -/
theorem ofScaled_of_contains (hm : m < 2 ^ 53) (hm0 : m ≠ 0) (hs : s = 0 ∨ 2 ^ 52 ≤ m)
    (hs' : s ≤ 2045) (hin : (of m s).Contains (n * 10 ^ e.toNat) (10 ^ (-e).toNat)) :
    ofScaled negative n e = withSign negative (s * 2 ^ 52 + m) := by
  have hpos : 0 < 10 ^ (-e).toNat := Nat.pow_pos (by decide)
  have hn : n ≠ 0 := by
    rintro rfl
    have hlow := hin.low
    obtain ⟨u,hu⟩ := @exists_eq' Nat 1076
    rw [hu, Nat.zero_mul, Nat.zero_mul] at hlow
    exact absurd (Nat.mul_pos (low_pos (s := s) hm0) hpos) (Nat.not_lt.mpr hlow)
  have hleast := le_length_add hm0 hn hin
  have hmost := length_add_le hm hs' hn hin
  rw [ofScaled_eq_nearest hn (by omega) (by omega), nearest,
    nearestBits_of_contains hm hs hs' hpos hin]

/-- So are the shortest digits of the double, whatever zeros are put after them. -/
theorem ofScaled_of_isShortest {dg : Digits} {t j : Nat} (hm : m < 2 ^ 53) (hm0 : m ≠ 0)
    (hs : s = 0 ∨ 2 ^ 52 ≤ m) (hs' : s ≤ 2045) (h : IsShortest m s dg t k j)
    (he : (a : Int) + e = dg.point - dg.digits.length) :
    ofScaled negative (digitsValue (digitChars dg.digits) * 10 ^ a) e =
      withSign negative (s * 2 ^ 52 + m) := by
  refine ofScaled_of_contains hm hm0 hs hs' ?_
  have ht : t = digitsValue (digitChars dg.digits) * 10 ^ j := by
    rw [← digitsValue_natDigits t, h.digits, digitsValue_append, digitsValue_zeros, Nat.add_zero,
      zeros, List.length_replicate]
  have hsum : j + k.toNat + (-e).toNat = a + e.toNat + (-k).toNat := by
    have := h.point
    omega
  refine (contains_of_holds h.holds).of_mul_eq (Nat.pow_pos (by decide))
    (Nat.pow_pos (by decide)) ?_
  calc
    t * 10 ^ k.toNat * 10 ^ (-e).toNat
        = digitsValue (digitChars dg.digits) * 10 ^ (j + k.toNat + (-e).toNat) := by
      rw [ht, Nat.pow_add, Nat.pow_add]
      ring
    _ = digitsValue (digitChars dg.digits) * 10 ^ a * 10 ^ e.toNat * 10 ^ (-k).toNat := by
      rw [hsum, Nat.pow_add, Nat.pow_add]
      ring

end

end OrderFlow.Binary
