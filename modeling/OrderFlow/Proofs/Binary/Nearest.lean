import Mathlib.Tactic.Ring
import OrderFlow.Proofs.Binary.Patterns

/-! The double nearest to a natural number, and how far it is above it at most. -/
namespace OrderFlow.Binary
variable {n d shift mantissa : Nat}

lemma two_mul_halfEven_le (n d : Nat) : 2 * (halfEven n d * d) ≤ 2 * n + d := by
  have hn := Nat.div_add_mod n d
  rw [Nat.mul_comm] at hn
  simp only [halfEven]
  split_ifs with hup
  · rw [Nat.add_mul]
    omega
  · omega

lemma div_le_halfEven (n d : Nat) : n / d ≤ halfEven n d := by
  simp only [halfEven]
  split_ifs <;> omega

/-- A mantissa of 53 bits is packed without its highest one; one that was rounded up to 54 bits
raises the exponent. -/
lemma exists_exactOfBits (hlow : 2 ^ 52 ≤ mantissa) (hhigh : mantissa ≤ 2 ^ 53)
    (h : shift * 2 ^ 52 + mantissa < 2047 * 2 ^ 52) :
    ∃ m s, exactOfBits (shift * 2 ^ 52 + mantissa) = .finite false m s ∧
      m * 2 ^ s = mantissa * 2 ^ shift := by
  have hpositive : ¬ 2 ^ 63 ≤ shift * 2 ^ 52 + mantissa := by omega
  by_cases hfull : mantissa = 2 ^ 53
  · have hexponent : (shift * 2 ^ 52 + mantissa) / 2 ^ 52 % 2 ^ 11 = shift + 2 := by omega
    have hfraction : (shift * 2 ^ 52 + mantissa) % 2 ^ 52 = 0 := by omega
    refine ⟨2 ^ 52,shift + 1,?_,?_⟩
    · simp only [exactOfBits, hexponent, hfraction, decide_eq_false hpositive]
      rw [if_neg (by omega), if_neg (by omega)]
      rfl
    · rw [hfull]
      ring
  · have hexponent : (shift * 2 ^ 52 + mantissa) / 2 ^ 52 % 2 ^ 11 = shift + 1 := by omega
    have hfraction : (shift * 2 ^ 52 + mantissa) % 2 ^ 52 = mantissa - 2 ^ 52 := by omega
    refine ⟨mantissa,shift,?_,rfl⟩
    simp only [exactOfBits, hexponent, hfraction, decide_eq_false hpositive]
    rw [if_neg (by omega), if_neg (by omega), Nat.add_sub_cancel' hlow]
    rfl

lemma exact_withSign {bits : Nat} (h : bits < 2047 * 2 ^ 52) :
    exact (withSign false bits) = exactOfBits bits := by
  have hbits : (UInt64.ofNat bits).toNat = bits := by
    rw [UInt64.toNat_ofNat']
    omega
  rw [exact, withSign, if_neg (by decide), toBits_ofBits, hbits]
  rw [hbits]
  omega

/-- The highest bits of a number, rounded. -/
lemma halfEven_bounds (hlow : 2 ^ 52 * d ≤ n) (hhigh : n < 2 ^ 53 * d) :
    2 ^ 52 ≤ halfEven n d ∧ halfEven n d ≤ 2 ^ 53 := by
  have hd : 0 < d := Nat.pos_of_mul_pos_left (Nat.zero_lt_of_lt hhigh)
  have hround := two_mul_halfEven_le n d
  constructor
  · exact ((Nat.le_div_iff_mul_le hd).mpr hlow).trans (div_le_halfEven n d)
  · have : 2 * halfEven n d * d < (2 ^ 54 + 1) * d := by
      rw [Nat.mul_assoc]
      omega
    have := Nat.lt_of_mul_lt_mul_right this
    omega

/-- The highest 53 bits of a number, and how many are below them. -/
lemma exists_log2_eq (h : 2 ^ 52 ≤ n) :
    ∃ shift, n.log2 = 52 + shift ∧ 2 ^ 52 * 2 ^ shift ≤ n ∧ n < 2 ^ 53 * 2 ^ shift := by
  have hne : n ≠ 0 := (Nat.lt_of_lt_of_le (Nat.two_pow_pos 52) h).ne'
  obtain ⟨shift,hshift⟩ := Nat.exists_eq_add_of_le ((Nat.le_log2 hne).mpr h)
  refine ⟨shift,hshift,?_,?_⟩
  · rw [← Nat.pow_add, ← hshift]
    exact Nat.log2_self_le hne
  · rw [← Nat.pow_add, show 53 + shift = n.log2 + 1 by omega]
    exact Nat.lt_log2_self

/-- Below the rounding limit a rounded mantissa does not carry into the pattern of infinity. -/
lemma rounded_lt {e k units : Nat} (he : e + k = 2044)
    (hmost : units < (2 ^ 54 - 1) * (2 ^ e * 2 ^ k)) (hlow : 2 ^ 52 * 2 ^ shift ≤ units)
    (hmantissa : 2 ^ 52 ≤ mantissa ∧ mantissa ≤ 2 ^ 53)
    (hround : 2 * (mantissa * 2 ^ shift) ≤ 2 * units + 2 ^ shift) :
    shift * 2 ^ 52 + mantissa < 2047 * 2 ^ 52 := by
  have hshift : shift < 2046 := by
    rw [← Nat.pow_lt_pow_iff_right (by decide : 1 < 2), show 2046 = 2 + (e + k) by omega,
      Nat.pow_add 2 2, Nat.pow_add 2 e]
    omega
  by_contra hover
  have hdouble : 2 ^ shift = 2 ^ e * 2 ^ k * 2 := by
    rw [← Nat.pow_add, ← Nat.pow_succ]
    congr 1
    omega
  obtain rfl : mantissa = 2 ^ 53 := by omega
  rw [hdouble] at hround
  omega

/-- A natural number below the rounding limit has a nearest double, larger by one part in `2^53` at
most. -/
theorem exists_exact_nearest (hpos : 0 < n) (h : n < (2 ^ 54 - 1) * 2 ^ 970) :
    ∃ m s, exact (nearest false n 1) = .finite false m s ∧
      m * 2 ^ s * 2 ^ 53 ≤ n * 2 ^ 1074 * (2 ^ 53 + 1) := by
  -- the exponents are named so that no power of two is computed
  obtain ⟨e,he⟩ := @exists_eq' Nat 970
  obtain ⟨k,hk⟩ := @exists_eq' Nat 1074
  rw [hk]
  rw [he] at h
  obtain ⟨units,hunits⟩ := @exists_eq' Nat (n * 2 ^ k)
  have hleast : 2 ^ 52 ≤ units :=
    (Nat.pow_le_pow_right (by decide) (by omega)).trans (hunits ▸ Nat.le_mul_of_pos_left _ hpos)
  have hmost : units < (2 ^ 54 - 1) * (2 ^ e * 2 ^ k) := by
    rw [← hunits, ← Nat.mul_assoc]
    exact Nat.mul_lt_mul_of_pos_right h (Nat.two_pow_pos k)
  obtain ⟨shift,hshift,hlow,hhigh⟩ := exists_log2_eq hleast
  have hbounds := halfEven_bounds hlow hhigh
  have hround := two_mul_halfEven_le units (2 ^ shift)
  generalize hmantissa : halfEven units (2 ^ shift) = mantissa at *
  have hfits := rounded_lt (by omega) hmost hlow hbounds hround
  have hbits : nearest false n 1 = withSign false (shift * 2 ^ 52 + mantissa) := by
    rw [nearest, nearestBits]
    simp only [hk, hunits, Nat.div_one, Nat.one_mul, hshift, Nat.add_sub_cancel_left, hmantissa]
    rw [Nat.min_eq_left hfits.le]
  obtain ⟨m,s,hexact,hvalue⟩ := exists_exactOfBits hbounds.1 hbounds.2 hfits
  refine ⟨m,s,by rw [hbits, exact_withSign hfits, hexact],?_⟩
  rw [hvalue, hunits]
  omega

end OrderFlow.Binary
