import OrderFlow.Proofs.Binary.Nearest
import OrderFlow.Proofs.Binary.Shortest

/-! Every ratio in the neighbourhood of a double is rounded to that double. At a power of two the
neighbourhood reaches half as far down, because the doubles below lie twice as close. -/
namespace OrderFlow.Binary
variable {h : Neighbourhood} {m s n d n' d' t q : Nat} {k : Int}

/-- What is at most half a unit away is rounded to a number, and exactly half a unit away if the
number is even. -/
lemma halfEven_eq (hd : 0 < d) (hlow : 2 * m * d ≤ 2 * n + d) (hhigh : 2 * n ≤ (2 * m + 1) * d)
    (hodd : m % 2 = 1 → 2 * m * d < 2 * n + d ∧ 2 * n < (2 * m + 1) * d) : halfEven n d = m := by
  have hn := Nat.div_add_mod n d
  have hr := Nat.mod_lt n hd
  rw [Nat.mul_comm] at hn
  simp only [halfEven]
  generalize n / d = q at *
  generalize n % d = r at *
  have hle : q ≤ m := by
    have : 2 * q * d < (2 * m + 1 + 1) * d := by
      rw [Nat.mul_assoc, Nat.succ_mul (2 * m + 1)]
      omega
    have := Nat.lt_of_mul_lt_mul_right this
    omega
  have hge : m ≤ q + 1 := by
    have : 2 * m * d < (2 * q + 3) * d := by
      rw [Nat.add_mul, Nat.mul_assoc 2 q]
      omega
    have := Nat.lt_of_mul_lt_mul_right this
    omega
  rw [Nat.mul_assoc] at hlow hodd
  rw [Nat.add_mul, Nat.mul_assoc] at hhigh hodd
  rcases (by omega : m = q ∨ m = q + 1) with rfl | rfl
  · rw [if_neg]
    omega
  · rw [Nat.add_mul] at hlow hhigh hodd
    rw [if_pos]
    omega

namespace Neighbourhood

/-- Is a ratio inside? An end belongs to a neighbourhood that is closed. -/
structure Contains (h : Neighbourhood) (n d : Nat) : Prop where
  low : h.low * d ≤ n * 2 ^ 1076
  high : n * 2 ^ 1076 ≤ h.high * d
  inner : h.closed = false → h.low * d < n * 2 ^ 1076 ∧ n * 2 ^ 1076 < h.high * d

lemma contains_of_holds (hholds : h.holds t k = true) :
    h.Contains (t * 10 ^ k.toNat) (10 ^ (-k).toNat) := by
  simp only [holds] at hholds
  split_ifs at hholds with hclosed <;> simp only [Bool.and_eq_true, decide_eq_true_eq] at hholds
  · exact ⟨hholds.1,hholds.2,fun hopen => absurd (hclosed.symm.trans hopen) (by decide)⟩
  · exact ⟨hholds.1.le,hholds.2.le,fun _ => hholds⟩

/-- Equal ratios are inside together. -/
lemma Contains.of_mul_eq (hin : h.Contains n d) (hd : 0 < d) (hd' : 0 < d')
    (heq : n * d' = n' * d) : h.Contains n' d' := by
  obtain ⟨hlow,hhigh,hinner⟩ := hin
  obtain ⟨u,hu⟩ := @exists_eq' Nat 1076
  rw [hu] at hlow hhigh hinner
  have hvalue : n' * 2 ^ u * d = n * 2 ^ u * d' := by
    rw [Nat.mul_right_comm, ← heq, Nat.mul_right_comm]
  have hend (a : Nat) : a * d' * d = a * d * d' := Nat.mul_right_comm ..
  refine ⟨?_,?_,fun hopen => ⟨?_,?_⟩⟩ <;> rw [hu]
  · refine Nat.le_of_mul_le_mul_right ?_ hd
    rw [hvalue, hend]
    exact Nat.mul_le_mul_right _ hlow
  · refine Nat.le_of_mul_le_mul_right ?_ hd
    rw [hvalue, hend]
    exact Nat.mul_le_mul_right _ hhigh
  · refine Nat.lt_of_mul_lt_mul_right (a := d) ?_
    rw [hvalue, hend]
    exact Nat.mul_lt_mul_of_pos_right (hinner hopen).1 hd'
  · refine Nat.lt_of_mul_lt_mul_right (a := d) ?_
    rw [hvalue, hend]
    exact Nat.mul_lt_mul_of_pos_right (hinner hopen).2 hd'

lemma le_low (m s : Nat) : (4 * m - 2) * 2 ^ s ≤ (of m s).low := by
  rw [of]
  dsimp only
  split_ifs
  · exact Nat.mul_le_mul_right _ (by omega)
  · exact le_rfl

lemma mul_two_pow_eq {units : Nat} (h : n * 2 ^ 1074 = units) : n * 2 ^ 1076 = 4 * units := by
  obtain ⟨k,hk⟩ := @exists_eq' Nat 1074
  rw [← h, hk, show 1076 = k + 2 by omega, Nat.pow_add]
  ring

/-- The bounds of a neighbourhood in units of half the smallest double. -/
lemma Contains.bounds {units : Nat} (hin : (of m s).Contains n d) (hunits : n * 2 ^ 1074 = units) :
    2 * m * (d * 2 ^ s) ≤ 2 * units + d * 2 ^ s ∧ 2 * units ≤ (2 * m + 1) * (d * 2 ^ s) ∧
      (m % 2 = 1 → 2 * m * (d * 2 ^ s) < 2 * units + d * 2 ^ s ∧
        2 * units < (2 * m + 1) * (d * 2 ^ s)) := by
  obtain ⟨hlow,hhigh,hinner⟩ := hin
  have hfour := mul_two_pow_eq hunits
  have hleast : (4 * m - 2) * (d * 2 ^ s) ≤ (of m s).low * d := by
    rw [Nat.mul_comm d, ← Nat.mul_assoc]
    exact Nat.mul_le_mul_right _ (le_low m s)
  have hmost : (of m s).high * d = (4 * m + 2) * (d * 2 ^ s) := by
    rw [Nat.mul_comm d, ← Nat.mul_assoc]
    rfl
  rw [hfour, hmost] at hhigh hinner
  rw [hfour] at hlow
  generalize d * 2 ^ s = w at *
  rw [Nat.mul_assoc, Nat.add_mul, Nat.mul_assoc]
  rw [Nat.add_mul, Nat.mul_assoc] at hhigh hinner
  rw [Nat.sub_mul, Nat.mul_assoc] at hleast
  refine ⟨by omega,by omega,fun hodd => ?_⟩
  obtain ⟨hlow,hhigh⟩ := hinner (decide_eq_false (by omega))
  omega

/-- Down from a power of two the neighbourhood ends after a quarter of a unit. -/
lemma Contains.le_of_power {units : Nat} (hin : (of m (s + 1)).Contains n d) (hm : m = 2 ^ 52)
    (hunits : n * 2 ^ 1074 = units) : (2 ^ 54 - 1) * (d * 2 ^ s) ≤ 2 * units := by
  have hlow := hin.low
  have hfour := mul_two_pow_eq hunits
  have hleast : (of m (s + 1)).low * d = 2 * ((2 ^ 54 - 1) * (d * 2 ^ s)) := by
    rw [of]
    dsimp only
    rw [if_pos ⟨hm,Nat.succ_pos s⟩, hm, Nat.pow_succ]
    ring
  rw [hfour, hleast] at hlow
  omega

end Neighbourhood

lemma nearestBits_eq {units shift : Nat} (hunits : n * 2 ^ 1074 = units)
    (hshift : (units / d).log2 - 52 = shift)
    (hrounded : halfEven units (d * 2 ^ shift) = m) (hfits : shift * 2 ^ 52 + m ≤ 2047 * 2 ^ 52) :
    nearestBits n d = shift * 2 ^ 52 + m := by
  simp only [nearestBits, hunits, hshift, hrounded]
  exact Nat.min_eq_left hfits

/-- Where the highest of 53 bits stands. -/
lemma log2_div_sub {units shift : Nat} (hd : 0 < d) (hlow : 2 ^ 52 * (d * 2 ^ shift) ≤ units)
    (hhigh : units < 2 ^ 53 * (d * 2 ^ shift)) : (units / d).log2 - 52 = shift := by
  have hpow (e : Nat) : 2 ^ (e + shift) * d = 2 ^ e * (d * 2 ^ shift) := by
    rw [Nat.pow_add]
    ring
  have hleast : 2 ^ (52 + shift) ≤ units / d := by
    rwa [Nat.le_div_iff_mul_le hd, hpow]
  have hmost : units / d < 2 ^ (53 + shift) := by
    rwa [Nat.div_lt_iff_lt_mul hd, hpow]
  have hne : units / d ≠ 0 := (Nat.lt_of_lt_of_le (Nat.two_pow_pos _) hleast).ne'
  have := (Nat.le_log2 hne).mpr hleast
  have := (Nat.log2_lt hne).mpr hmost
  omega

/-- What is inside the neighbourhood of a double is rounded to the pattern of that double. -/
theorem nearestBits_of_contains (hm : m < 2 ^ 53) (hs : s = 0 ∨ 2 ^ 52 ≤ m) (hs' : s ≤ 2045)
    (hd : 0 < d) (hin : (Neighbourhood.of m s).Contains n d) :
    nearestBits n d = s * 2 ^ 52 + m := by
  obtain ⟨units,hunits⟩ := @exists_eq' Nat (n * 2 ^ 1074)
  have hwidth : 0 < d * 2 ^ s := Nat.mul_pos hd (Nat.two_pow_pos s)
  obtain ⟨hlow,hhigh,hodd⟩ := hin.bounds hunits
  have hrounded := halfEven_eq hwidth hlow hhigh hodd
  have hmost : units < 2 ^ 53 * (d * 2 ^ s) := by
    have : (2 * m + 1) * (d * 2 ^ s) ≤ (2 ^ 54 - 1) * (d * 2 ^ s) :=
      Nat.mul_le_mul_right _ (by omega)
    omega
  by_cases hleast : 2 ^ 52 * (d * 2 ^ s) ≤ units
  · exact nearestBits_eq hunits (log2_div_sub hd hleast hmost) hrounded (by omega)
  cases s with
  | zero =>
    have hsmall : units / d < 2 ^ 52 := by
      rw [Nat.div_lt_iff_lt_mul hd]
      omega
    have hshift : (units / d).log2 - 52 = 0 := by
      by_cases hne : units / d = 0
      · rw [hne]
        rfl
      · have := (Nat.log2_lt hne).mpr hsmall
        omega
    exact nearestBits_eq hunits hshift hrounded (by omega)
  | succ s =>
    -- just below a power of two the mantissa is rounded up from the exponent before
    have hdouble : d * 2 ^ (s + 1) = 2 * (d * 2 ^ s) := by
      rw [Nat.pow_succ]
      ring
    have hpower : m = 2 ^ 52 := by
      have : 2 * m * (d * 2 ^ (s + 1)) < (2 ^ 53 + 1) * (d * 2 ^ (s + 1)) := by omega
      have := Nat.lt_of_mul_lt_mul_right this
      omega
    have hend := hin.le_of_power hpower hunits
    rw [hdouble] at hleast
    have hcarried : halfEven units (d * 2 ^ s) = 2 ^ 53 :=
      halfEven_eq (by omega) (by omega) (by omega) (by omega)
    rw [nearestBits_eq hunits (log2_div_sub hd (by omega) (by omega)) hcarried (by omega), hpower]
    ring

end OrderFlow.Binary
