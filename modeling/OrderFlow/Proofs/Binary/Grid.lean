import OrderFlow.Proofs.Binary.Neighbourhood

/-! The search for the shortest digits always ends. The magnitude is estimated from below, so after
seventeen digits the grid is finer than the neighbourhood of the double, and of the two points
around the double one is inside. -/
namespace OrderFlow.Binary
open OrderFlow.Text
variable {h : Neighbourhood} {m s n d t fuel : Nat} {e k : Int}

lemma shiftDown_eq (n d : Nat) (k : Int) :
    shiftDown n d k = (n * 10 ^ (-k).toNat,d * 10 ^ k.toNat) := by
  rw [shiftDown]
  split_ifs with hk
  · rw [Int.toNat_of_nonpos (by omega : -k ≤ 0), Nat.pow_zero, Nat.mul_one]
  · rw [Int.toNat_of_nonpos (by omega : k ≤ 0), Nat.pow_zero, Nat.mul_one]

/-- A ratio is at least a power of ten. -/
def Reaches (n d : Nat) (k : Int) : Prop := d * 10 ^ k.toNat ≤ n * 10 ^ (-k).toNat

lemma reaches_climb (h : Reaches n d (e - 1)) : Reaches n d (climb n d fuel e - 1) := by
  induction fuel generalizing e with
  | zero => exact h
  | succ fuel ih =>
    rw [climb]
    simp only [shiftDown_eq]
    split_ifs with hlt
    · exact h
    · refine ih ?_
      rw [Int.add_sub_cancel]
      exact Nat.not_lt.mp hlt

/-- The magnitude of a number over `2^unit`, estimated from its highest bit and a little too low. -/
def estimate (unit bit : Nat) : Int := ((bit : Int) - unit - 1) * 30103 / 100000 - 1

lemma estimate_le : ∀ bit < 2101, 2 ^ 1076 * 10 ^ (estimate 1076 bit - 1).toNat ≤
    2 ^ bit * 10 ^ (-(estimate 1076 bit - 1)).toNat := by
  decide +kernel

lemma magnitude_two_pow (n unit : Nat) :
    magnitude n (2 ^ unit) = climb n (2 ^ unit) 5 (estimate unit n.log2) := by
  rw [magnitude, Nat.log2_two_pow, estimate]

lemma reaches_magnitude (hn : n ≠ 0) (hbit : n.log2 < 2101) :
    Reaches n (2 ^ 1076) (magnitude n (2 ^ 1076) - 1) := by
  have hestimate := estimate_le _ hbit
  obtain ⟨u,hu⟩ := @exists_eq' Nat 1076
  rw [hu] at hestimate ⊢
  rw [magnitude_two_pow]
  exact reaches_climb (hestimate.trans (Nat.mul_le_mul_right _ (Nat.log2_self_le hn)))

/-- Ten to the sixteenth more is reached at a grid sixteen places finer. -/
lemma Reaches.scaled (h : Reaches n d (k + 16)) :
    10 ^ 16 * (d * 10 ^ k.toNat) ≤ n * 10 ^ (-k).toNat := by
  have hpow : 0 < 10 ^ (-(k + 16)).toNat := Nat.pow_pos (by decide)
  have hsum : (k + 16).toNat + (-k).toNat = 16 + k.toNat + (-(k + 16)).toNat := by omega
  refine Nat.le_of_mul_le_mul_right ?_ hpow
  calc
    10 ^ 16 * (d * 10 ^ k.toNat) * 10 ^ (-(k + 16)).toNat
        = d * 10 ^ (16 + k.toNat + (-(k + 16)).toNat) := by
      rw [Nat.pow_add, Nat.pow_add]
      ring
    _ = d * 10 ^ (k + 16).toNat * 10 ^ (-k).toNat := by
      rw [← hsum, Nat.pow_add]
      ring
    _ ≤ n * 10 ^ (-(k + 16)).toNat * 10 ^ (-k).toNat := Nat.mul_le_mul_right _ h
    _ = n * 10 ^ (-k).toNat * 10 ^ (-(k + 16)).toNat := Nat.mul_right_comm ..

namespace Neighbourhood

lemma holds_of_lt (hlow : h.low * 10 ^ (-k).toNat < t * (2 ^ 1076 * 10 ^ k.toNat))
    (hhigh : t * (2 ^ 1076 * 10 ^ k.toNat) < h.high * 10 ^ (-k).toNat) : h.holds t k = true := by
  simp only [holds]
  obtain ⟨u,hu⟩ := @exists_eq' Nat 1076
  rw [hu] at hlow hhigh ⊢
  have hx : t * (2 ^ u * 10 ^ k.toNat) = t * 10 ^ k.toNat * 2 ^ u := by ring
  rw [hx] at hlow hhigh
  split_ifs
  · rw [decide_eq_true hlow.le, decide_eq_true hhigh.le]
    rfl
  · rw [decide_eq_true hlow, decide_eq_true hhigh]
    rfl

/-- A step of less than one part in `10^16` of the double is shorter than its neighbourhood. -/
lemma low_add_lt {step scale : Nat} (hm : m < 2 ^ 53) (hm0 : m ≠ 0) (hscale : 0 < scale)
    (hstep : 10 ^ 16 * step ≤ (of m s).value * scale) :
    (of m s).low * scale + step < (of m s).high * scale := by
  have hw : 0 < 2 ^ s * scale := Nat.mul_pos (Nat.two_pow_pos s) hscale
  simp only [of] at hstep ⊢
  rw [Nat.mul_assoc] at hstep
  rw [Nat.mul_assoc _ _ scale]
  split_ifs with hpower
  · rw [hpower.1] at hstep ⊢
    rw [Nat.mul_assoc]
    omega
  · rw [Nat.mul_assoc]
    generalize 2 ^ s * scale = w at *
    have hmost : 4 * m * w ≤ 4 * (2 ^ 53 - 1) * w := Nat.mul_le_mul_right _ (by omega)
    have hsplit : (4 * m - 2) * w + 4 * w = (4 * m + 2) * w := by
      rw [← Nat.add_mul]
      congr 1
      omega
    omega

lemma value_lt_high (m s : Nat) : (of m s).value < (of m s).high :=
  Nat.mul_lt_mul_of_pos_right (by omega) (Nat.two_pow_pos s)

lemma low_le_value (m s : Nat) : (of m s).low ≤ (of m s).value := by
  simp only [of]
  split_ifs <;> exact Nat.mul_le_mul_right _ (by omega)

/-- Of the two points around the double on a fine grid one is inside. -/
lemma holds_or_holds (hm : m < 2 ^ 53) (hm0 : m ≠ 0) {x step : Nat}
    (hfine : 10 ^ 16 * step ≤ x) (hx : (of m s).value * 10 ^ (-k).toNat = x)
    (hstep : 2 ^ 1076 * 10 ^ k.toNat = step) (hpos : 0 < step) :
    (of m s).holds (x / step) k = true ∨ (of m s).holds (x / step + 1) k = true := by
  have hscale : 0 < 10 ^ (-k).toNat := Nat.pow_pos (by decide)
  have hwidth := low_add_lt hm hm0 hscale (hfine.trans_eq hx.symm)
  have hlow := Nat.mul_le_mul_right (10 ^ (-k).toNat) (low_le_value m s)
  have hhigh := Nat.mul_lt_mul_of_pos_right (value_lt_high m s) hscale
  have hbelow : x / step * step ≤ x := Nat.div_mul_le_self x step
  have habove : x < x / step * step + step := Nat.lt_div_mul_add hpos
  by_cases hpoint : (of m s).low * 10 ^ (-k).toNat < x / step * step
  · refine .inl (holds_of_lt ?_ ?_) <;> rw [hstep]
    · exact hpoint
    · omega
  · refine .inr (holds_of_lt ?_ ?_) <;> rw [hstep]
    · rw [Nat.succ_mul]
      omega
    · rw [Nat.succ_mul]
      omega

lemma isSome_onGrid (tieUp : Bool) (hm : m < 2 ^ 53) (hm0 : m ≠ 0)
    (hfine : Reaches (of m s).value (2 ^ 1076) (k + 16)) :
    ((of m s).onGrid tieUp k).isSome := by
  have hpos : 0 < 2 ^ 1076 * 10 ^ k.toNat := by positivity
  have hpoints := holds_or_holds hm hm0 hfine.scaled rfl rfl hpos
  simp only [onGrid, shiftDown_eq]
  split
  · split_ifs <;> rfl
  · rfl
  · rfl
  · next hdown hup =>
    rw [hdown, hup] at hpoints
    simp at hpoints

lemma log2_value_lt (hm : m < 2 ^ 53) (hm0 : m ≠ 0) (hs : s ≤ 2045) :
    (of m s).value ≠ 0 ∧ (of m s).value.log2 < 2101 := by
  have hvalue : (of m s).value = 4 * m * 2 ^ s := rfl
  have hpos : (of m s).value ≠ 0 := by
    rw [hvalue]
    exact (Nat.mul_pos (by omega) (Nat.two_pow_pos s)).ne'
  refine ⟨hpos,(Nat.log2_lt hpos).mpr ?_⟩
  obtain ⟨e,he⟩ := @exists_eq' Nat 2101
  rw [he, hvalue]
  calc
    4 * m * 2 ^ s < 2 ^ 55 * 2 ^ s := Nat.mul_lt_mul_of_pos_right (by omega) (Nat.two_pow_pos s)
    _ = 2 ^ (55 + s) := (Nat.pow_add ..).symm
    _ ≤ 2 ^ e := Nat.pow_le_pow_right (by decide) (by omega)

end Neighbourhood

/-- Every double but zero has shortest digits. -/
theorem exists_isShortest_of_ne_zero (hm : m < 2 ^ 53) (hm0 : m ≠ 0) (hs : s ≤ 2045)
    (tieUp : Bool) : ∃ t k j, IsShortest m s (shortest tieUp m s) t k j := by
  rw [shortest, if_neg hm0]
  dsimp only
  split
  · next hnone =>
    obtain ⟨hpos,hbit⟩ := Neighbourhood.log2_value_lt hm hm0 hs
    have hlast := List.findSome?_eq_none_iff.mp hnone 16 (by simp)
    rw [Option.map_eq_none_iff] at hlast
    have hfine : Reaches (Neighbourhood.of m s).value (2 ^ 1076)
        (magnitude (Neighbourhood.of m s).value (2 ^ 1076) - (16 + 1 : Nat) + 16) := by
      rw [show ∀ e : Int, e - (16 + 1 : Nat) + 16 = e - 1 from fun e => by omega]
      exact reaches_magnitude hpos hbit
    have hfound := Neighbourhood.isSome_onGrid tieUp hm hm0 hfine
    rw [hlast] at hfound
    cases hfound
  · next hfound =>
    obtain ⟨_,-,hfound⟩ := List.exists_of_findSome?_eq_some hfound
    obtain ⟨t,hgrid,heq⟩ := Option.map_eq_some_iff.mp hfound
    obtain ⟨rfl,rfl⟩ := Prod.mk.inj heq
    obtain ⟨j,hj⟩ := exists_isShortest_of_onGrid hgrid
    exact ⟨t,_,j,hj⟩

end OrderFlow.Binary
