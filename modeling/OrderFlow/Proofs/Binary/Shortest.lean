import Mathlib.Tactic.Ring
import OrderFlow.Binary.Layout
import OrderFlow.Proofs.Text.Digits

/-! The shortest digits of a double write a number that rounds to it, so they are not far above
it. -/
namespace OrderFlow.Binary
open OrderFlow.Text
variable {m s t a n e : Nat} {k : Int} {tieUp : Bool} {h : Neighbourhood}

namespace Neighbourhood

lemma holds_of_onGrid (hgrid : h.onGrid tieUp k = some t) : h.holds t k = true := by
  simp only [onGrid] at hgrid
  split at hgrid
  · next hdown hup =>
    split_ifs at hgrid <;> cases hgrid
    exacts [hdown,hup,hup,hdown]
  · next hdown _ => cases hgrid; exact hdown
  · next _ hup => cases hgrid; exact hup
  · cases hgrid

lemma le_high_of_holds (hholds : h.holds t k = true) :
    t * 10 ^ k.toNat * 2 ^ 1076 ≤ h.high * 10 ^ (-k).toNat := by
  simp only [holds] at hholds
  split_ifs at hholds <;> simp only [Bool.and_eq_true, decide_eq_true_eq] at hholds
  · exact hholds.2
  · exact hholds.2.le

/-- What is left of a number inside when its last digits are dropped is not above either. -/
lemma scaled_le_high (hholds : h.holds t k = true) (ha : a * 10 ^ n ≤ t) (he : (n : Int) + k = e) :
    a * 10 ^ e * 2 ^ 1076 ≤ h.high := by
  have hpow : 0 < 10 ^ (-k).toNat := Nat.pow_pos (by decide)
  have hsum : e + (-k).toNat = n + k.toNat := by omega
  refine Nat.le_of_mul_le_mul_right ?_ hpow
  obtain ⟨u,hu⟩ := @exists_eq' Nat 1076
  have hhigh := le_high_of_holds hholds
  rw [hu] at hhigh ⊢
  calc
    a * 10 ^ e * 2 ^ u * 10 ^ (-k).toNat = a * 10 ^ (e + (-k).toNat) * 2 ^ u := by ring
    _ = a * 10 ^ n * (10 ^ k.toNat * 2 ^ u) := by rw [hsum]; ring
    _ ≤ t * (10 ^ k.toNat * 2 ^ u) := Nat.mul_le_mul_right _ ha
    _ = t * 10 ^ k.toNat * 2 ^ u := by ring
    _ ≤ h.high * 10 ^ (-k).toNat := hhigh

lemma high_le_limit (hm : m < 2 ^ 53) (hs : s ≤ 2045) :
    (of m s).high ≤ 2 ^ 54 * 2 ^ 970 * 2 ^ 1076 := by
  obtain ⟨e,he⟩ := @exists_eq' Nat 970
  obtain ⟨k,hk⟩ := @exists_eq' Nat 1076
  rw [he, hk, Nat.mul_assoc, ← Nat.pow_add]
  calc
    (of m s).high ≤ 2 ^ 54 * 2 * 2 ^ s := Nat.mul_le_mul_right _ (by omega)
    _ = 2 ^ 54 * 2 ^ (s + 1) := by rw [Nat.pow_succ']; ring
    _ ≤ 2 ^ 54 * 2 ^ (e + k) :=
      Nat.mul_le_mul_left _ (Nat.pow_le_pow_right (by decide) (by omega))

/-- All but the two largest doubles are some units away from the rounding limit. -/
lemma high_le (hm : m < 2 ^ 53) (hs : s ≤ 2045) (h : ¬ (s = 2045 ∧ 2 ^ 53 - 2 ≤ m)) :
    (of m s).high ≤ (2 ^ 54 - 5) * 2 ^ 970 * 2 ^ 1076 := by
  obtain ⟨e,he⟩ := @exists_eq' Nat 970
  obtain ⟨k,hk⟩ := @exists_eq' Nat 1076
  rw [he, hk, Nat.mul_assoc, ← Nat.pow_add]
  by_cases hlast : s = 2045
  · calc
      (of m s).high ≤ (2 ^ 54 - 5) * 2 * 2 ^ s := Nat.mul_le_mul_right _ (by omega)
      _ = (2 ^ 54 - 5) * 2 ^ (s + 1) := by rw [Nat.pow_succ']; ring
      _ ≤ (2 ^ 54 - 5) * 2 ^ (e + k) :=
        Nat.mul_le_mul_left _ (Nat.pow_le_pow_right (by decide) (by omega))
  · calc
      (of m s).high ≤ (2 ^ 54 - 5) * 2 ^ 2 * 2 ^ s := Nat.mul_le_mul_right _ (by omega)
      _ = (2 ^ 54 - 5) * 2 ^ (s + 2) := by rw [Nat.pow_add]; ring
      _ ≤ (2 ^ 54 - 5) * 2 ^ (e + k) :=
        Nat.mul_le_mul_left _ (Nat.pow_le_pow_right (by decide) (by omega))

lemma low_pos (hm : m ≠ 0) : 0 < (of m s).low := by
  have hpow := Nat.two_pow_pos s
  rw [of]
  dsimp only
  split_ifs <;> exact Nat.mul_pos (by omega) hpow

lemma ne_zero_of_holds (hm : m ≠ 0) (hholds : (of m s).holds t k = true) : t ≠ 0 := by
  rintro rfl
  have hlow := Nat.mul_pos (low_pos (s := s) hm) (Nat.pow_pos (n := (-k).toNat) (by decide : 0 < 10))
  simp only [holds, Nat.zero_mul] at hholds
  split_ifs at hholds <;> simp only [Bool.and_eq_true, decide_eq_true_eq] at hholds <;> omega

end Neighbourhood

lemma digitChar_digitValue {c : Char} (hc : isDigit c = true) : digitChar (digitValue c) = c := by
  rw [isDigit_iff] at hc
  rw [digitChar, digitValue, Nat.add_sub_cancel' hc.1, Char.ofNat_toNat]

lemma digitChars_map_digitValue {cs : List Char} (hcs : ∀ c ∈ cs, isDigit c = true) :
    digitChars (cs.map digitValue) = cs := by
  rw [digitChars, List.map_map, List.map_congr_left, List.map_id]
  exact fun c hc => digitChar_digitValue (hcs c hc)

lemma exists_dropTrailingZeros (ds : List Nat) :
    ∃ j, ds = dropTrailingZeros ds ++ List.replicate j 0 := by
  have hzeros : ∀ d ∈ ds.reverse.takeWhile (· = 0), d = 0 := fun d hd =>
    of_decide_eq_true (List.all_eq_true.mp List.all_takeWhile d hd)
  refine ⟨(ds.reverse.takeWhile (· = 0)).length,?_⟩
  rw [dropTrailingZeros, ← List.reverse_replicate, ← List.reverse_append,
    ← List.eq_replicate_of_mem hzeros, List.takeWhile_append_dropWhile, List.reverse_reverse]

/-- What the shortest digits of a double are: those of a number inside its neighbourhood, less the
zeros at their end. -/
structure IsShortest (m s : Nat) (d : Digits) (t : Nat) (k : Int) (j : Nat) : Prop where
  holds : (Neighbourhood.of m s).holds t k = true
  digits : natDigits t = digitChars d.digits ++ zeros j
  point : d.point = d.digits.length + j + k

section
variable {d : Digits} {j : Nat}

lemma isDigit_of_isShortest (h : IsShortest m s d t k j) :
    ∀ c ∈ digitChars d.digits, isDigit c = true := fun _ hc =>
  isDigit_of_mem_natDigits (h.digits ▸ List.mem_append_left _ hc)

lemma exists_cons_of_isShortest (hm : m ≠ 0) (h : IsShortest m s d t k j) :
    ∃ c cs, digitChars d.digits = c :: cs ∧ c ≠ '0' := by
  have ht := Neighbourhood.ne_zero_of_holds hm h.holds
  cases hcs : digitChars d.digits with
  | nil =>
    have hvalue := digitsValue_natDigits t
    rw [h.digits, hcs, List.nil_append, digitsValue_zeros] at hvalue
    exact absurd hvalue.symm ht
  | cons c cs =>
    refine ⟨c,cs,rfl,fun hc => ht (head?_natDigits ?_)⟩
    rw [h.digits, hcs, hc]
    rfl

end

/-- The digits of a point on a grid that is found inside. -/
lemma exists_isShortest_of_onGrid (hgrid : (Neighbourhood.of m s).onGrid tieUp k = some t) :
    ∃ j, IsShortest m s ⟨dropTrailingZeros ((natDigits t).map digitValue),
      ((natDigits t).map digitValue).length + k⟩ t k j := by
  obtain ⟨j,hj⟩ := exists_dropTrailingZeros ((natDigits t).map digitValue)
  refine ⟨j,Neighbourhood.holds_of_onGrid hgrid,?_,?_⟩
  · have hchars := digitChars_map_digitValue fun _ => isDigit_of_mem_natDigits (n := t)
    rw [hj, digitChars, List.map_append, List.map_replicate] at hchars
    exact hchars.symm
  · have hlength := congrArg List.length hj
    rw [List.length_append, List.length_replicate] at hlength
    dsimp only
    omega

theorem exists_isShortest (hm : m ≠ 0) :
    (shortest tieUp m s).digits = [] ∨ ∃ t k j, IsShortest m s (shortest tieUp m s) t k j := by
  rw [shortest, if_neg hm]
  dsimp only
  split
  · exact .inl rfl
  · next hfound =>
    obtain ⟨_,-,hfound⟩ := List.exists_of_findSome?_eq_some hfound
    obtain ⟨t,hgrid,heq⟩ := Option.map_eq_some_iff.mp hfound
    obtain ⟨rfl,rfl⟩ := Prod.mk.inj heq
    obtain ⟨j,hj⟩ := exists_isShortest_of_onGrid hgrid
    exact .inr ⟨t,_,j,hj⟩

end OrderFlow.Binary
