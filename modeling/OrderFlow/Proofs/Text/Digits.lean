import Mathlib.Data.List.Induction
import Mathlib.Tactic.Ring
import OrderFlow.Power
import OrderFlow.Text.Digits

/-! Digits that are written and read. A run of digits writes one number, and the digits of a number
are a run without a leading zero. -/
namespace OrderFlow.Text
variable {c : Char} {ds es : List Char} {d n k w : Nat}

lemma isDigit_digitChar (hd : d < 10) : isDigit (digitChar d) = true := by
  have h : ∀ d : Fin 10, isDigit (digitChar d) = true := by decide
  exact h ⟨d,hd⟩

lemma digitValue_digitChar (hd : d < 10) : digitValue (digitChar d) = d := by
  have h : ∀ d : Fin 10, digitValue (digitChar d) = d := by decide
  exact h ⟨d,hd⟩

lemma isDigit_iff : isDigit c = true ↔ 48 ≤ c.toNat ∧ c.toNat ≤ 57 := by
  rw [isDigit, decide_eq_true_eq]
  exact Iff.rfl

lemma digitValue_lt (hc : isDigit c = true) : digitValue c < 10 := by
  rw [isDigit_iff] at hc
  rw [digitValue]
  omega

lemma digitValue_eq_zero_iff (hc : isDigit c = true) : digitValue c = 0 ↔ c = '0' := by
  rw [isDigit_iff] at hc
  rw [digitValue]
  constructor
  · intro h
    exact Char.toNat_inj.mp (show c.toNat = 48 by omega)
  · rintro rfl
    rfl

@[simp] lemma digitsValue_nil : digitsValue [] = 0 := rfl

lemma digitsValue_append_singleton (ds : List Char) (c : Char) :
    digitsValue (ds ++ [c]) = 10 * digitsValue ds + digitValue c := by
  rw [digitsValue, List.foldl_append, List.foldl_cons, List.foldl_nil, ← digitsValue]

lemma digitsValue_append (ds es : List Char) :
    digitsValue (ds ++ es) = digitsValue ds * 10 ^ es.length + digitsValue es := by
  induction es using List.reverseRecOn with
  | nil => simp
  | append_singleton es e ih =>
    rw [← List.append_assoc, digitsValue_append_singleton, digitsValue_append_singleton, ih,
      List.length_append, List.length_singleton]
    ring

lemma digitsValue_singleton (c : Char) : digitsValue [c] = digitValue c := by simp [digitsValue]

lemma digitsValue_cons (c : Char) (ds : List Char) :
    digitsValue (c :: ds) = digitValue c * 10 ^ ds.length + digitsValue ds := by
  rw [← List.singleton_append, digitsValue_append, digitsValue_singleton]

@[simp] lemma digitsValue_zeros : digitsValue (zeros n) = 0 := by
  induction n with
  | zero => rfl
  | succ n ih =>
    rw [zeros, List.replicate_succ, digitsValue_cons, ← zeros, ih]
    simp [digitValue]

@[simp] lemma length_zeros (n : Nat) : (zeros n).length = n := List.length_replicate

lemma isDigit_of_mem_zeros {c : Char} (h : c ∈ zeros n) : isDigit c = true := by
  rw [List.eq_of_mem_replicate h]
  rfl

lemma digitsValue_lt (h : ∀ c ∈ ds, isDigit c = true) : digitsValue ds < 10 ^ ds.length := by
  induction ds with
  | nil => simp
  | cons c rest ih =>
    have hc := digitValue_lt (h c List.mem_cons_self)
    have hrest := ih fun c hc => h c (List.mem_cons_of_mem _ hc)
    rw [digitsValue_cons, List.length_cons, pow_succ']
    calc
      digitValue c * 10 ^ rest.length + digitsValue rest
          < digitValue c * 10 ^ rest.length + 10 ^ rest.length := by omega
      _ = (digitValue c + 1) * 10 ^ rest.length := by ring
      _ ≤ 10 * 10 ^ rest.length := Nat.mul_le_mul_right _ hc

lemma natDigits_of_lt (h : n < 10) : natDigits n = [digitChar n] := by
  rw [natDigits, dif_pos h]

lemma natDigits_of_le (h : 10 ≤ n) :
    natDigits n = natDigits (n / 10) ++ [digitChar (n % 10)] := by
  rw [natDigits, dif_neg (by omega)]

lemma natDigits_ne_nil (n : Nat) : natDigits n ≠ [] := by
  rw [natDigits]
  split <;> simp

lemma isDigit_of_mem_natDigits (h : c ∈ natDigits n) : isDigit c = true := by
  induction n using Nat.strong_induction_on with
  | _ n ih =>
    by_cases hn : n < 10
    · rw [natDigits_of_lt hn, List.mem_singleton] at h
      exact h ▸ isDigit_digitChar hn
    · rw [natDigits_of_le (by omega), List.mem_append, List.mem_singleton] at h
      obtain h | rfl := h
      · exact ih (n / 10) (by omega) h
      · exact isDigit_digitChar (by omega)

lemma all_natDigits (n : Nat) : (natDigits n).all isDigit = true :=
  List.all_eq_true.mpr fun _ => isDigit_of_mem_natDigits

/-- The digits of a number write it. -/
@[simp] theorem digitsValue_natDigits (n : Nat) : digitsValue (natDigits n) = n := by
  induction n using Nat.strong_induction_on with
  | _ n ih =>
    by_cases hn : n < 10
    · rw [natDigits_of_lt hn, digitsValue_singleton, digitValue_digitChar hn]
    · rw [natDigits_of_le (by omega), digitsValue_append, ih (n / 10) (by omega),
        digitsValue_singleton, digitValue_digitChar (by omega), List.length_singleton]
      omega

lemma length_natDigits_le (hk : 0 < k) (h : n < 10 ^ k) : (natDigits n).length ≤ k := by
  induction k generalizing n with
  | zero => omega
  | succ k ih =>
    by_cases hn : n < 10
    · rw [natDigits_of_lt hn]
      simp
    · have hpos : 0 < k := by
        by_contra hzero
        obtain rfl : k = 0 := by omega
        omega
      rw [natDigits_of_le (by omega), List.length_append, List.length_singleton]
      have hdiv : n / 10 < 10 ^ k := by
        rw [Nat.div_lt_iff_lt_mul (by omega), ← pow_succ]
        exact h
      have := ih hpos hdiv
      omega

/-- Only zero starts with a zero. -/
lemma head?_natDigits (h : (natDigits n).head? = some '0') : n = 0 := by
  induction n using Nat.strong_induction_on with
  | _ n ih =>
    by_cases hn : n < 10
    · rw [natDigits_of_lt hn, List.head?_singleton, Option.some.injEq] at h
      rw [← digitValue_digitChar hn, h]
      rfl
    · rw [natDigits_of_le (by omega), List.head?_append, Option.or_of_isSome (by simp [natDigits_ne_nil])] at h
      have := ih (n / 10) (by omega) h
      omega

lemma pow_le_digitsValue (hc : isDigit c = true) (hne : c ≠ '0') (cs : List Char) :
    10 ^ cs.length ≤ digitsValue (c :: cs) := by
  have hpos : 0 < digitValue c := Nat.pos_of_ne_zero (mt (digitValue_eq_zero_iff hc).mp hne)
  rw [digitsValue_cons]
  exact Nat.le_add_right_of_le (Nat.le_mul_of_pos_left _ hpos)

/-- How many digits a number has. -/
lemma natDigits_bounds (hn : n ≠ 0) :
    ∃ l, (natDigits n).length = l + 1 ∧ 10 ^ l ≤ n ∧ n < 10 ^ (l + 1) := by
  obtain ⟨c,cs,hcs⟩ := List.exists_cons_of_ne_nil (natDigits_ne_nil n)
  have hdigits : ∀ c' ∈ c :: cs, isDigit c' = true := fun _ hc' =>
    isDigit_of_mem_natDigits (hcs ▸ hc')
  have hvalue : digitsValue (c :: cs) = n := by rw [← hcs, digitsValue_natDigits]
  have hne : c ≠ '0' := fun hc => hn (head?_natDigits (by rw [hcs, hc]; rfl))
  refine ⟨cs.length,by rw [hcs]; rfl,?_,?_⟩
  · rw [← hvalue]
    exact pow_le_digitsValue (hdigits c List.mem_cons_self) hne cs
  · have hlt := digitsValue_lt hdigits
    rwa [hvalue, List.length_cons] at hlt

lemma paddedDigits_eq (w n : Nat) :
    paddedDigits w n = zeros (w - (natDigits n).length) ++ natDigits n := rfl

lemma isDigit_of_mem_paddedDigits (h : c ∈ paddedDigits w n) : isDigit c = true := by
  rw [paddedDigits_eq, List.mem_append] at h
  obtain h | h := h
  · rw [List.eq_of_mem_replicate h]
    rfl
  · exact isDigit_of_mem_natDigits h

@[simp] theorem digitsValue_paddedDigits (w n : Nat) : digitsValue (paddedDigits w n) = n := by
  rw [paddedDigits_eq, digitsValue_append, digitsValue_zeros, digitsValue_natDigits]
  omega

lemma length_paddedDigits (hw : 0 < w) (h : n < 10 ^ w) : (paddedDigits w n).length = w := by
  have := length_natDigits_le hw h
  rw [paddedDigits_eq, List.length_append, zeros, List.length_replicate]
  omega

/-- A run of characters of one kind is taken up to the first character of another. -/
lemma takeWhile_run {p : Char → Bool} (hds : ∀ c ∈ ds, p c = true)
    (hes : ∀ c ∈ es.head?, p c = false) :
    (ds ++ es).takeWhile p = ds ∧ (ds ++ es).dropWhile p = es := by
  rw [List.takeWhile_append_of_pos hds, List.dropWhile_append_of_pos hds]
  cases es with
  | nil => simp
  | cons e rest =>
    have he := hes e rfl
    simp [he]

/-- No digit is taken for a sign. -/
lemma takeSign_of_isDigit (h : ∀ d ∈ ds.head?, isDigit d = true) : takeSign ds = (false,ds) := by
  rw [takeSign]
  · rintro r rfl
    exact absurd (h '-' rfl) (by decide)
  · rintro r rfl
    exact absurd (h '+' rfl) (by decide)

/-- A minus before digits is split off, if there is one. -/
lemma takeSign_signed (p : Prop) [Decidable p] (h : ∀ d ∈ ds.head?, isDigit d = true) :
    takeSign ((if p then ['-'] else []) ++ ds) = (decide p,ds) := by
  by_cases hp : p
  · rw [if_pos hp, decide_eq_true hp]
    rfl
  · rw [if_neg hp, decide_eq_false hp]
    exact takeSign_of_isDigit h

/-- A sign and a size make up an integer. -/
lemma signed_natAbs (i : Int) :
    (if decide (i < 0) = true then -(i.natAbs : Int) else i.natAbs) = i := by
  simp only [decide_eq_true_eq]
  split_ifs <;> omega

end OrderFlow.Text
