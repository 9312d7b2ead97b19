import Mathlib.Tactic.SplitIfs
import OrderFlow.Decimal.Text
import OrderFlow.Proofs.Text.Digits

/-! The text of a decimal is read again: the same value with the same number of places. -/
namespace OrderFlow.Decimal
open OrderFlow.Text
variable {c n s : Nat} {d : Char} {point seen : Bool} {ds r : List Char}

/-- A digit for which there is room is read on. -/
lemma scan_digit (hd : isDigit d = true) (hs : s < 28) (hc : 10 * c + digitValue d < 2 ^ 96) :
    scan c s point seen (d :: r) =
      scan (10 * c + digitValue d) (if point then s + 1 else s) point true r := by
  rw [scan, if_pos hd]
  exact if_neg (by omega)

/-- A run of digits is read on, each of them a place once the point has been passed. -/
lemma scan_digits (point seen : Bool) (r : List Char) (hds : ∀ d ∈ ds, isDigit d = true)
    (hs : ∀ i < ds.length, s + (if point then i else 0) < 28)
    (hc : c * 10 ^ ds.length + digitsValue ds < 2 ^ 96) :
    scan c s point seen (ds ++ r) =
      scan (c * 10 ^ ds.length + digitsValue ds) (s + if point then ds.length else 0) point
        (seen || !ds.isEmpty) r := by
  induction ds generalizing c s seen with
  | nil => simp
  | cons d ds ih =>
    have hvalue : c * 10 ^ (d :: ds).length + digitsValue (d :: ds) =
        (10 * c + digitValue d) * 10 ^ ds.length + digitsValue ds := by
      rw [digitsValue_cons, List.length_cons]
      ring
    rw [hvalue] at hc ⊢
    have hnext : 10 * c + digitValue d < 2 ^ 96 :=
      ((Nat.le_mul_of_pos_right _ (Nat.pow_pos (by decide))).trans (Nat.le_add_right ..)).trans_lt hc
    have hfirst : s < 28 := by
      have := hs 0 (by simp)
      split_ifs at this <;> exact this
    have hrest : ∀ i < ds.length, (if point then s + 1 else s) + (if point then i else 0) < 28 := by
      intro i hi
      have := hs (i + 1) (by simpa using hi)
      split_ifs at this ⊢ <;> omega
    rw [List.cons_append, scan_digit (hds d List.mem_cons_self) hfirst hnext,
      ih true (fun e he => hds e (List.mem_cons_of_mem _ he)) hrest hc]
    cases point <;> simp [Nat.add_assoc, Nat.add_comm 1]

lemma scan_point (c s : Nat) (seen : Bool) (r : List Char) :
    scan c s false seen ('.' :: r) = scan c s true seen r := rfl

/-- The digits of a whole number, cut off before a number of places. -/
lemma exists_magnitudeDigits (n s : Nat) :
    ∃ ds fs, magnitudeDigits n s = ds ++ (if s = 0 then [] else '.' :: fs) ∧ ds ≠ [] ∧
      fs.length = s ∧ (∀ d ∈ ds ++ fs, isDigit d = true) ∧ digitsValue (ds ++ fs) = n := by
  by_cases hs : s = 0
  · refine ⟨natDigits n,[],?_,natDigits_ne_nil n,hs.symm,?_,?_⟩
    · rw [magnitudeDigits, if_pos hs, if_pos hs, List.append_nil]
    · rw [List.append_nil]
      exact fun d hd => isDigit_of_mem_natDigits hd
    · rw [List.append_nil, digitsValue_natDigits]
  · have hlength : s + 1 ≤ (paddedDigits (s + 1) n).length := by
      rw [paddedDigits_eq, List.length_append, zeros, List.length_replicate]
      omega
    have hdigits : ∀ d ∈ paddedDigits (s + 1) n, isDigit d = true := fun d hd =>
      isDigit_of_mem_paddedDigits hd
    have hvalue := digitsValue_paddedDigits (s + 1) n
    simp only [magnitudeDigits, if_neg hs]
    generalize paddedDigits (s + 1) n = ds at *
    refine ⟨ds.take (ds.length - s),ds.drop (ds.length - s),rfl,?_,?_,?_,?_⟩
    · rw [Ne, ← List.length_eq_zero_iff, List.length_take]
      omega
    · rw [List.length_drop]
      omega
    · rwa [List.take_append_drop]
    · rwa [List.take_append_drop]

/-- The digits of a coefficient are read as that coefficient with its places. -/
lemma scan_magnitudeDigits (hn : n < 2 ^ 96) (hs : s ≤ 28) :
    scan 0 0 false false (magnitudeDigits n s) = some (n,s) := by
  obtain ⟨ds,fs,hchars,hne,hlength,hdigits,hvalue⟩ := exists_magnitudeDigits n s
  have hds : ∀ d ∈ ds, isDigit d = true := fun d hd => hdigits d (List.mem_append_left _ hd)
  have hfs : ∀ d ∈ fs, isDigit d = true := fun d hd => hdigits d (List.mem_append_right _ hd)
  rw [digitsValue_append] at hvalue
  have hfits : 0 * 10 ^ ds.length + digitsValue ds < 2 ^ 96 := by
    have := Nat.le_mul_of_pos_right (digitsValue ds)
      (Nat.pow_pos (n := fs.length) (by decide : 0 < 10))
    omega
  have hwhole (r : List Char) : scan 0 0 false false (ds ++ r) =
      scan (digitsValue ds) 0 false true r := by
    have hroom : ∀ i < ds.length, 0 + (if false then i else 0) < 28 := fun _ _ => by simp
    have hseen : ds.isEmpty = false := List.isEmpty_eq_false_iff.mpr hne
    simpa [hseen] using scan_digits false false r hds hroom hfits
  rw [hchars, hwhole]
  split_ifs with hzero
  · obtain rfl : fs = [] := List.length_eq_zero_iff.mp (hlength.trans hzero)
    simp [scan, ← hvalue, hzero]
  · have hroom : ∀ i < fs.length, 0 + (if true then i else 0) < 28 := fun i hi => by
      rw [if_pos rfl]
      omega
    have hplaces := scan_digits true true [] hfs hroom (hvalue.trans_lt hn)
    rw [List.append_nil, hvalue, hlength] at hplaces
    rw [scan_point, hplaces]
    simp [scan]

lemma takeSign_toChars (x : Decimal) :
    takeSign x.toChars =
      (decide (x.coefficient < 0),magnitudeDigits x.coefficient.natAbs x.scale) := by
  by_cases hx : x.coefficient < 0
  · rw [toChars, if_pos hx, decide_eq_true hx, List.singleton_append, takeSign_minus]
  · rw [toChars, if_neg hx, decide_eq_false hx, List.nil_append]
    obtain ⟨ds,fs,hchars,hne,-,hdigits,-⟩ := exists_magnitudeDigits x.coefficient.natAbs x.scale
    obtain ⟨d,ds,rfl⟩ := List.exists_cons_of_ne_nil hne
    refine takeSign_of_isDigit ?_
    rw [hchars]
    rintro _ ⟨⟩
    exact hdigits d List.mem_cons_self

/-- What is written as a decimal is read as that decimal, with all its places. -/
theorem ofText?_toText (x : Decimal) : ofText? x.toText = some x := by
  have hsign : (if decide (x.coefficient < 0) = true then -(x.coefficient.natAbs : Int)
      else x.coefficient.natAbs) = x.coefficient := by
    simp only [decide_eq_true_eq]
    split_ifs <;> omega
  have hplain : ofPlain? x.toChars = some x := by
    rw [ofPlain?, takeSign_toChars]
    dsimp only
    rw [scan_magnitudeDigits x.coefficient_lt x.scale_le, Option.bind_some, ofParts?, hsign,
      of?_coefficient_scale]
  rw [ofText?, toText, String.toList_ofList, hplain]
  rfl

end OrderFlow.Decimal
