import OrderFlow.Json.Number
import OrderFlow.Proofs.Text.Digits

/-! Numbers in JSON text. A run of digits is kept as far as it fits a word; a whole number that fits
reads back as itself. -/
namespace OrderFlow.Json
open OrderFlow.Text
variable {n : Nat} {ds es rest : List Char} {negative : Bool}

/-- What can stand after a number without being read as a part of it. -/
def Ends (rest : List Char) : Prop :=
  ∀ c ∈ rest.head?, isDigit c = false ∧ c ≠ '.' ∧ c ≠ 'e' ∧ c ≠ 'E'

lemma absorb_cons_of_lt {c : Char} (h : 10 * n + digitValue c < 2 ^ 64) :
    absorb n (c :: ds) = absorb (10 * n + digitValue c) ds := by
  rw [absorb]
  exact if_pos h

lemma absorb_cons_of_not_lt {c : Char} (h : ¬ 10 * n + digitValue c < 2 ^ 64) :
    absorb n (c :: ds) = (n,c :: ds) := by
  rw [absorb]
  exact if_neg h

/-- Digits are kept from the front. -/
lemma exists_absorb (n : Nat) (ds : List Char) :
    ∃ taken, ds = taken ++ (absorb n ds).2 ∧
      (absorb n ds).1 = n * 10 ^ taken.length + digitsValue taken := by
  induction ds generalizing n with
  | nil => exact ⟨[],rfl,by simp [absorb]⟩
  | cons c ds ih =>
    by_cases h : 10 * n + digitValue c < 2 ^ 64
    · obtain ⟨taken,hds,hvalue⟩ := ih (10 * n + digitValue c)
      rw [absorb_cons_of_lt h]
      refine ⟨c :: taken,congrArg (c :: ·) hds,?_⟩
      rw [hvalue, digitsValue_cons, List.length_cons]
      ring
    · rw [absorb_cons_of_not_lt h]
      exact ⟨[],rfl,by simp⟩

lemma absorb_append (h : (absorb n ds).2 = []) :
    absorb n (ds ++ es) = absorb (absorb n ds).1 es := by
  induction ds generalizing n with
  | nil => rfl
  | cons c ds ih =>
    by_cases hc : 10 * n + digitValue c < 2 ^ 64
    · rw [absorb_cons_of_lt hc] at h
      rw [List.cons_append, absorb_cons_of_lt hc, absorb_cons_of_lt hc, ih h]
    · rw [absorb_cons_of_not_lt hc] at h
      cases h

/-- Digits that fit are all kept. -/
lemma absorb_of_lt (h : n * 10 ^ ds.length + digitsValue ds < 2 ^ 64) :
    absorb n ds = (n * 10 ^ ds.length + digitsValue ds,[]) := by
  induction ds generalizing n with
  | nil => simp [absorb]
  | cons c ds ih =>
    have hvalue : n * 10 ^ (c :: ds).length + digitsValue (c :: ds) =
        (10 * n + digitValue c) * 10 ^ ds.length + digitsValue ds := by
      rw [digitsValue_cons, List.length_cons]
      ring
    rw [hvalue] at h ⊢
    have hnext : 10 * n + digitValue c ≤ (10 * n + digitValue c) * 10 ^ ds.length :=
      Nat.le_mul_of_pos_right _ (Nat.pow_pos (by decide))
    rw [absorb_cons_of_lt (by omega), ih h]

lemma absorb_zero_of_lt (h : digitsValue ds < 2 ^ 64) : absorb 0 ds = (digitsValue ds,[]) := by
  rw [absorb_of_lt (by simpa using h)]
  simp

/-- A run of digits without a leading zero. -/
structure IsWhole (ds : List Char) : Prop where
  digits : ∀ c ∈ ds, isDigit c = true
  nonempty : ds ≠ []
  leading : ds.head? = some '0' → ds.length = 1

lemma isWhole_natDigits (n : Nat) : IsWhole (natDigits n) where
  digits _ := isDigit_of_mem_natDigits
  nonempty := natDigits_ne_nil n
  leading h := by
    rw [head?_natDigits h, natDigits_of_lt (by decide)]
    rfl

section
variable {sig : Nat} {fs r : List Char}

lemma IsWhole.not_refused (h : IsWhole ds) :
    (ds.isEmpty || (ds.head? == some '0' && decide (1 < ds.length))) = false := by
  have hleading := h.leading
  simp only [Bool.or_eq_false_iff, List.isEmpty_eq_false_iff, Bool.and_eq_false_imp, beq_iff_eq,
    decide_eq_false_iff_not]
  exact ⟨h.nonempty,fun hzero => by rw [hleading hzero]; decide⟩

lemma unsignedNumber_of_ends (h : IsWhole ds) (hkept : absorb 0 ds = (sig,[])) (hr : Ends r) :
    unsignedNumber negative (ds ++ r) = some (wholeNumber negative sig,r) := by
  obtain ⟨hwhole,hleft⟩ := takeWhile_run h.digits fun c hc => (hr c hc).1
  rw [unsignedNumber, hwhole, hleft]
  simp only [hkept, h.not_refused, Bool.false_eq_true, if_false]
  split
  · exact absurd rfl (hr _ rfl).2.1
  · next c r _ =>
    rw [if_neg (not_or.mpr (hr c rfl).2.2)]
    rfl
  · rfl

lemma unsignedNumber_of_exponent (h : IsWhole ds) (hkept : absorb 0 ds = (sig,[])) :
    unsignedNumber negative (ds ++ 'e' :: r) = exponentNumber negative sig 0 r := by
  have hend : ∀ c ∈ ('e' :: r).head?, isDigit c = false := by simp [isDigit]
  obtain ⟨hwhole,hleft⟩ := takeWhile_run h.digits hend
  rw [unsignedNumber, hwhole, hleft]
  simp only [hkept, h.not_refused, Bool.false_eq_true, if_false]
  rfl

lemma unsignedNumber_of_point (h : IsWhole ds) (hkept : absorb 0 ds = (sig,[]))
    (hfs : ∀ c ∈ fs, isDigit c = true) (hne : fs ≠ []) (hr : ∀ c ∈ r.head?, isDigit c = false) :
    unsignedNumber negative (ds ++ '.' :: (fs ++ r)) =
      scaledNumber negative (absorb sig fs).1
        (-(fs.length - (absorb sig fs).2.length : Nat)) r := by
  have hend : ∀ c ∈ ('.' :: (fs ++ r)).head?, isDigit c = false := by simp [isDigit]
  obtain ⟨hwhole,hleft⟩ := takeWhile_run h.digits hend
  obtain ⟨hfraction,hafter⟩ := takeWhile_run hfs hr
  rw [unsignedNumber, hwhole, hleft]
  simp only [hkept, h.not_refused, Bool.false_eq_true, if_false, hfraction, hafter,
    List.isEmpty_eq_false_iff.mpr hne]
  simp

lemma scaledNumber_of_ends {e : Int} (hr : Ends r) :
    scaledNumber negative sig e r = some (floatNumber negative sig e,r) := by
  rw [scaledNumber]
  · rintro cs rfl
    exact (hr 'e' rfl).2.2.1 rfl
  · rintro cs rfl
    exact (hr 'E' rfl).2.2.2 rfl

/-- A sign is read before the digits. -/
lemma number_of_sign {c : Char} {cs : List Char} (hc : isDigit c = true) :
    number ((if negative then ['-'] else []) ++ c :: cs) = unsignedNumber negative (c :: cs) := by
  cases negative with
  | true => rfl
  | false =>
    change number (c :: cs) = unsignedNumber false (c :: cs)
    rw [number]
    intro _ hminus
    rw [(List.cons.inj hminus).1] at hc
    cases hc

/-- A whole number that fits a word reads back as itself. -/
theorem number_written {i : Int} (hlow : -2 ^ 63 ≤ i) (hhigh : i < 2 ^ 64) (hr : Ends r) :
    number ((if i < 0 then ['-'] else []) ++ natDigits i.natAbs ++ r) = some (.integer i,r) := by
  have hkept : absorb 0 (natDigits i.natAbs) = (i.natAbs,[]) := by
    rw [absorb_zero_of_lt (by rw [digitsValue_natDigits]; omega), digitsValue_natDigits]
  have hsign : (if i < 0 then ['-'] else []) = if decide (i < 0) then ['-'] else [] := by simp
  have hread : number ((if decide (i < 0) then ['-'] else []) ++ (natDigits i.natAbs ++ r)) =
      unsignedNumber (decide (i < 0)) (natDigits i.natAbs ++ r) := by
    obtain ⟨c,cs,hcs⟩ := List.exists_cons_of_ne_nil (natDigits_ne_nil i.natAbs)
    rw [hcs, List.cons_append]
    exact number_of_sign (isDigit_of_mem_natDigits (hcs ▸ List.mem_cons_self))
  rw [List.append_assoc, hsign, hread, unsignedNumber_of_ends (isWhole_natDigits _) hkept hr,
    wholeNumber]
  by_cases hneg : i < 0
  · rw [decide_eq_true hneg, if_neg (by decide), if_neg (by omega)]
    congr 3
    omega
  · rw [decide_eq_false hneg, if_pos (by decide)]
    congr 3
    omega

end

end OrderFlow.Json
