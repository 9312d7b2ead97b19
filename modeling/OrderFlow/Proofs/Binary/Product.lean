import Mathlib.Tactic.Ring
import OrderFlow.Proofs.Binary.Nearest

/-! Products of doubles. What is multiplied exactly is shifted down to 53 bits and rounded; the
double it comes to is finite as long as the exact product is below the rounding limit. -/
namespace OrderFlow.Binary
open Float.Model Float.Model.UnpackedFloat
variable {x y : Float} {a b : Bool} {m n s t k w : Nat} {e : Int} {sign : Sign}

lemma isFinite_iff : isFinite x = true ↔ x.toBits.toNat / 2 ^ 52 % 2 ^ 11 ≠ 2047 := by
  rw [isFinite, exact, exactOfBits]
  split_ifs <;> simp_all

lemma exists_of_isFinite (hx : isFinite x = true) :
    ∃ negative m s, exact x = .finite negative m s := by
  cases hexact : exact x with
  | finite negative m s => exact ⟨negative,m,s,rfl⟩
  | infinite negative => rw [isFinite, hexact] at hx; cases hx
  | nan => rw [isFinite, hexact] at hx; cases hx

lemma isFinite_pack_iff {u : UnpackedFloat} :
    isFinite (.ofModel (Float.Model.pack u)) = true ↔
      (unpackExponent (UnpackedFloat.pack Format.binary64 u)).toNat ≠ 2047 := by
  rw [isFinite_iff, toNat_unpackExponent]
  rfl

lemma isFinite_pack_zero : isFinite (.ofModel (Float.Model.pack (.zero sign))) = true := by
  rw [isFinite_pack_iff, UnpackedFloat.pack, packedZero, unpackExponent_packComponents]
  decide

lemma isFinite_pack {hm : 0 < m} (he : e ≤ 971) :
    isFinite (.ofModel (Float.Model.pack (.finite sign m e hm))) = true := by
  rw [isFinite_pack_iff, pack_finite he, unpackExponent_packComponents]
  split_ifs
  · change (e + 1075).toNat % 2 ^ 11 ≠ 2047
    omega
  · decide

lemma exact_bounds (h : exact x = .finite a m s) :
    m < 2 ^ 53 ∧ (s = 0 ∨ 2 ^ 52 ≤ m) ∧ s ≤ 2045 := by
  rw [exact, exactOfBits] at h
  split_ifs at h <;> cases h <;> omega

lemma shiftRight_succ (em : ExtendedMantissa) (k : Nat) :
    em >>> (k + 1) = (em >>> k).shiftRightOne := rfl

lemma mantissa_shiftRight (em : ExtendedMantissa) (k : Nat) :
    (em >>> k).mantissa = em.mantissa / 2 ^ k := by
  induction k with
  | zero => exact (Nat.div_one _).symm
  | succ k ih =>
    rw [shiftRight_succ, ExtendedMantissa.shiftRightOne, ih, Nat.div_div_eq_div_mul, Nat.pow_succ]

/-- Rounding goes up only where the first of the bits that are cut off is one. -/
lemma roundedMantissa_le (em : ExtendedMantissa) :
    em.roundedMantissa ≤ em.mantissa + em.roundBit.toNat := by
  rcases em with ⟨m,_ | _,_ | _⟩ <;>
    simp only [ExtendedMantissa.roundedMantissa, ExtendedMantissa.accuracy,
      Accuracy.roundToNearestEven, Bool.toNat_false, Bool.toNat_true] <;> omega

/-- A mantissa that bits are cut off is rounded by half a unit at most. -/
lemma two_mul_roundedMantissa_le (em : ExtendedMantissa) (k : Nat) :
    2 * (em >>> (k + 1)).roundedMantissa ≤ em.mantissa / 2 ^ k + 1 := by
  have hrounded := roundedMantissa_le (em >>> (k + 1))
  have hmantissa : (em >>> (k + 1)).mantissa = em.mantissa / 2 ^ k / 2 := by
    rw [shiftRight_succ, ExtendedMantissa.shiftRightOne, mantissa_shiftRight]
  have hbit : (em >>> (k + 1)).roundBit.toNat = em.mantissa / 2 ^ k % 2 := by
    rw [shiftRight_succ, ExtendedMantissa.shiftRightOne, mantissa_shiftRight]
    rcases Nat.mod_two_eq_zero_or_one (em.mantissa / 2 ^ k) with h | h <;> rw [h] <;> rfl
  omega

lemma targetExponent_eq (m : Nat) (e : Int) :
    Format.binary64.targetExponent (totalExponent m e) = max (m.log2 + e - 52) (-1074) := by
  rw [Format.targetExponent, totalExponent, mantissaBits_binary64, minExponent_binary64]
  congr 1
  omega

/-- As many bits are cut off as leave 53 of them, and a multiple of the smallest double. -/
lemma exists_shift (m : Nat) (e : Int) :
    ∃ k : Nat, (k : Int) = max 0 (max ((m.log2 : Int) - 52) (-1074 - e)) ∧
      shiftToTargetExponent Format.binary64 m e .exact =
        ((⟨m,false,false⟩ : ExtendedMantissa) >>> k,e + k) := by
  refine ⟨(max (m.log2 + e - 52) (-1074) - e).toNat,by omega,?_⟩
  rw [shiftToTargetExponent, shiftToExponent, targetExponent_eq]
  rfl

/-- Rounding makes a mantissa longer than 53 bits only from half a unit below the next power on. -/
lemma le_of_carry {r : Nat} (hcut : m / 2 ^ k < 2 ^ 54) (hround : 2 * r ≤ m / 2 ^ k + 1)
    (hcarry : 53 ≤ r.log2) : r.log2 = 53 ∧ (2 ^ 54 - 1) * 2 ^ k ≤ m := by
  have hr : r ≠ 0 := by
    rintro rfl
    exact absurd hcarry (by decide)
  have hfull : 2 ^ 53 ≤ r := (Nat.le_log2 hr).mp hcarry
  have hbits : r.log2 < 54 := (Nat.log2_lt hr).mpr (by omega)
  refine ⟨by omega,?_⟩
  rw [← Nat.le_div_iff_mul_le (Nat.two_pow_pos k)]
  omega

/-- Below the rounding limit the exponent is not too large, also where rounding makes the mantissa
a bit longer. -/
lemma exponent_of_rounded {r : Nat} (hm : 0 < m) (hw : w ≤ 3119)
    (h : m * 2 ^ w < (2 ^ 54 - 1) * 2 ^ 3118)
    (hk : (k : Int) = max 0 (max ((m.log2 : Int) - 52) (-1074 - (w - 2148))))
    (hr : ((⟨m,false,false⟩ : ExtendedMantissa) >>> k).roundedMantissa = r) :
    w + k ≤ 3119 ∧ r.log2 + (w + k) ≤ 3171 := by
  obtain ⟨e,he⟩ := @exists_eq' Nat 3118
  rw [he] at h
  have hlog : m.log2 + w < 54 + e := by
    rw [← Nat.pow_lt_pow_iff_right (by decide : 1 < 2)]
    calc 2 ^ (m.log2 + w) = 2 ^ m.log2 * 2 ^ w := Nat.pow_add ..
      _ ≤ m * 2 ^ w := Nat.mul_le_mul_right _ (Nat.log2_self_le hm.ne')
      _ < 2 ^ 54 * 2 ^ e := by omega
      _ = 2 ^ (54 + e) := (Nat.pow_add ..).symm
  have hexponent : w + k ≤ 3119 := by omega
  refine ⟨hexponent,?_⟩
  cases k with
  | zero =>
    obtain rfl : m = r := hr
    omega
  | succ k =>
    have hcut : m / 2 ^ k < 2 ^ 54 := by
      rw [Nat.div_lt_iff_lt_mul (Nat.two_pow_pos k), ← Nat.pow_add]
      exact (Nat.log2_lt hm.ne').mp (by omega)
    have hround : 2 * r ≤ m / 2 ^ k + 1 := hr ▸ two_mul_roundedMantissa_le ⟨m,false,false⟩ k
    by_contra hover
    obtain ⟨hbits,hmost⟩ := le_of_carry hcut hround (by omega)
    have : (2 ^ 54 - 1) * 2 ^ e ≤ m * 2 ^ w := calc
      (2 ^ 54 - 1) * 2 ^ e = (2 ^ 54 - 1) * 2 ^ k * 2 ^ w := by
        rw [Nat.mul_assoc, ← Nat.pow_add]
        congr 2
        omega
      _ ≤ m * 2 ^ w := Nat.mul_le_mul_right _ hmost
    omega

lemma isFinite_pack_round (hm : 0 < m) (hw : w ≤ 3119)
    (h : m * 2 ^ w < (2 ^ 54 - 1) * 2 ^ 3118) :
    isFinite (.ofModel (.pack
      (roundWithAccuracy Format.binary64 sign m ((w : Int) - 2148) .exact))) = true := by
  obtain ⟨k,hk,hshift⟩ := exists_shift m ((w : Int) - 2148)
  generalize hr : ((⟨m,false,false⟩ : ExtendedMantissa) >>> k).roundedMantissa = r at *
  have hexponent := exponent_of_rounded hm hw h hk hr
  obtain ⟨l,hl,hcarry⟩ := exists_shift r ((w : Int) - 2148 + k)
  rw [roundWithAccuracy, hshift]
  dsimp only
  rw [hr, hcarry]
  clear h
  split_ifs
  · exact isFinite_pack_zero
  · refine isFinite_pack ?_
    dsimp only
    omega

lemma add_le_of_exact (hx : exact x = .finite a m s) (hy : exact y = .finite b n t)
    (h : m * n * 2 ^ (s + t) < (2 ^ 54 - 1) * 2 ^ 3118) : s + t ≤ 3119 := by
  obtain ⟨-,hm,hs⟩ := exact_bounds hx
  obtain ⟨-,hn,ht⟩ := exact_bounds hy
  obtain ⟨e,he⟩ := @exists_eq' Nat 3118
  rw [he] at h
  rcases hm with rfl | hm
  · omega
  rcases hn with rfl | hn
  · omega
  have hlt : 2 ^ (104 + (s + t)) < 2 ^ (54 + e) := calc
    2 ^ (104 + (s + t)) = 2 ^ 52 * 2 ^ 52 * 2 ^ (s + t) := by rw [Nat.pow_add]
    _ ≤ m * n * 2 ^ (s + t) := Nat.mul_le_mul_right _ (Nat.mul_le_mul hm hn)
    _ < 2 ^ 54 * 2 ^ e := by omega
    _ = 2 ^ (54 + e) := (Nat.pow_add ..).symm
  have := (Nat.pow_lt_pow_iff_right (by decide : 1 < 2)).mp hlt
  omega

/-- The product of two doubles is finite where the exact product is below the rounding limit. -/
theorem isFinite_mul (hx : exact x = .finite a m s) (hy : exact y = .finite b n t)
    (h : m * n * 2 ^ (s + t) < (2 ^ 54 - 1) * 2 ^ 3118) : isFinite (x * y) = true := by
  change isFinite (.ofModel (.pack (UnpackedFloat.mul _ x.toModel.unpack y.toModel.unpack))) = true
  rcases unpack_of_exact hx with ⟨-,signx,hux⟩ | ⟨signx,hm,hux⟩ <;>
    rcases unpack_of_exact hy with ⟨-,signy,huy⟩ | ⟨signy,hn,huy⟩ <;> rw [hux, huy]
  case inr.inr =>
    have hexponent : ((s : Int) - 1074 + (t - 1074)) = ((s + t : Nat) : Int) - 2148 := by omega
    rw [UnpackedFloat.mul, hexponent]
    exact isFinite_pack_round (Nat.mul_pos hm hn) (add_le_of_exact hx hy h) h
  all_goals exact isFinite_pack_zero

/-- Two natural numbers may be rounded before they are multiplied where their product is four units
below the rounding limit. -/
theorem isFinite_nearest_mul {p q : Nat} (hp : 0 < p) (hq : 0 < q)
    (h : p * q ≤ (2 ^ 54 - 5) * 2 ^ 970) :
    isFinite (nearest false p 1 * nearest false q 1) = true := by
  obtain ⟨e,he⟩ := @exists_eq' Nat 970
  obtain ⟨k,hk⟩ := @exists_eq' Nat 1074
  rw [he] at h
  have hlimit := Nat.two_pow_pos e
  have hbelow : p * q < (2 ^ 54 - 1) * 2 ^ e := by omega
  rw [← he] at hbelow
  obtain ⟨m,s,hx,hm⟩ := exists_exact_nearest hp ((Nat.le_mul_of_pos_right p hq).trans_lt hbelow)
  obtain ⟨n,t,hy,hn⟩ := exists_exact_nearest hq ((Nat.le_mul_of_pos_left q hp).trans_lt hbelow)
  rw [hk] at hm hn
  have hproduct : m * n * 2 ^ (s + t) * 2 ^ 106 <
      (2 ^ 54 - 1) * (2 ^ e * (2 ^ k * 2 ^ k)) * 2 ^ 106 := calc
    m * n * 2 ^ (s + t) * 2 ^ 106 = m * 2 ^ s * 2 ^ 53 * (n * 2 ^ t * 2 ^ 53) := by ring
    _ ≤ p * 2 ^ k * (2 ^ 53 + 1) * (q * 2 ^ k * (2 ^ 53 + 1)) := Nat.mul_le_mul hm hn
    _ = p * q * (2 ^ k * 2 ^ k * (2 ^ 53 + 1) ^ 2) := by ring
    _ ≤ (2 ^ 54 - 5) * 2 ^ e * (2 ^ k * 2 ^ k * (2 ^ 53 + 1) ^ 2) := Nat.mul_le_mul_right _ h
    _ = (2 ^ 54 - 5) * (2 ^ 53 + 1) ^ 2 * (2 ^ e * (2 ^ k * 2 ^ k)) := by ring
    _ < (2 ^ 54 - 1) * 2 ^ 106 * (2 ^ e * (2 ^ k * 2 ^ k)) := by
      refine Nat.mul_lt_mul_of_pos_right (by decide) ?_
      exact Nat.mul_pos hlimit (Nat.mul_pos (Nat.two_pow_pos k) (Nat.two_pow_pos k))
    _ = (2 ^ 54 - 1) * (2 ^ e * (2 ^ k * 2 ^ k)) * 2 ^ 106 := by ring
  refine isFinite_mul hx hy ?_
  rw [show 3118 = e + (k + k) by omega, Nat.pow_add 2 e, Nat.pow_add 2 k]
  exact Nat.lt_of_mul_lt_mul_right hproduct

end OrderFlow.Binary
