import OrderFlow.Document.Scalar
import OrderFlow.Proofs.Binary.Texts
import OrderFlow.Proofs.Text.Blanks

/-! Numbers as texts. The text of a number has no blanks in it and reads as what the number itself
reads as, on both sides of every bound of a word. -/
namespace OrderFlow

namespace Binary
open OrderFlow.Text
variable {n : Nat} {negative : Bool} {ds : List Char}

/-- A run of digits is read as a whole number. -/
lemma magnitudeOf?_of_isDigit (hds : ∀ c ∈ ds, isDigit c = true) (hne : ds ≠ []) :
    magnitudeOf? negative ds = some (ofScaled negative (digitsValue ds) 0) := by
  have hchars := digitChars_map_digitValue hds
  have hwrites : Writes ⟨ds.map digitValue,ds.length⟩ ds ds [] [] 0 0 := by
    refine ⟨?_,hds,hne,by simp,by simp,rfl,?_,by simp⟩
    · exact (List.append_nil ds).symm
    · rw [hchars, List.append_nil, Nat.pow_zero, Nat.mul_one]
  have hread : magnitudeOf? negative ds = _ := hwrites.magnitudeOf?_eq
  rwa [hchars, Nat.pow_zero, Nat.mul_one] at hread

/-- The digits of a word are read as the double nearest to it. -/
theorem ofText?_natText (hn : n < 2 ^ 64) : ofText? (natText n) = some (ofInt n) := by
  have hsign : takeSign (natDigits n) = (false,natDigits n) :=
    takeSign_of_isDigit fun _ hd => isDigit_of_mem_natDigits (List.mem_of_mem_head? hd)
  have hlength : (natDigits n).length ≤ 20 := length_natDigits_le (by decide) (by omega)
  rw [ofText?, natText, String.toList_ofList, hsign]
  dsimp only
  rw [magnitudeOf?_of_isDigit (fun _ => isDigit_of_mem_natDigits) (natDigits_ne_nil n),
    digitsValue_natDigits, ofInt, Int.natAbs_natCast, decide_eq_false (by omega)]
  by_cases hzero : n = 0
  · have hbits : nearestBits 0 1 = 0 := by decide +kernel
    rw [hzero, ofScaled_zero, nearest, hbits]
  · rw [ofScaled_eq_nearest hzero (by omega) (by omega), Int.toNat_zero, Int.neg_zero,
      Int.toNat_zero, Nat.pow_zero, Nat.mul_one]

end Binary

namespace Json
open OrderFlow.Text Binary
variable {j : Json} {i : Int} {x : Float} {c : Char} {d : Digits}

/-- A number that JSON text can hold: a whole one of at most 64 bits, or a finite double. -/
def isNumber : Json → Bool
  | .integer i => -2 ^ 63 ≤ i && i < 2 ^ 64
  | .float x => isFinite x
  | _ => false

/-- The characters of numbers. -/
def isNumeral (c : Char) : Bool := isDigit c || ['.', 'e', '+', '-'].contains c

lemma isBlank_of_isNumeral (h : isNumeral c = true) : isBlank c = false := by
  rcases Bool.or_eq_true_iff.mp h with h | h
  · exact isBlank_of_isDigit h
  · have hmark : c = '.' ∨ c = 'e' ∨ c = '+' ∨ c = '-' := by simpa using h
    rcases hmark with rfl | rfl | rfl | rfl <;> rfl

lemma isNumeral_of_isDigit (h : isDigit c = true) : isNumeral c = true := by
  rw [isNumeral, h]
  rfl

lemma isNumeral_of_mem_intChars (h : c ∈ intChars i) : isNumeral c = true := by
  rw [intChars, List.mem_append] at h
  rcases h with h | h
  · split_ifs at h
    · rw [List.mem_singleton.mp h]
      rfl
    · cases h
  · exact isNumeral_of_isDigit (isDigit_of_mem_natDigits h)

lemma numerals_positionalChars (hdigits : ∀ c ∈ digitChars d.digits, isDigit c = true) :
    ∀ c ∈ floatLayout.positionalChars d, isNumeral c = true := by
  have hds : ∀ c ∈ digitChars d.digits, isNumeral c = true := fun c hc =>
    isNumeral_of_isDigit (hdigits c hc)
  have hzeros : ∀ n, ∀ c ∈ zeros n, isNumeral c = true := fun n c hc =>
    isNumeral_of_isDigit (isDigit_of_mem_zeros hc)
  have hmark : ∀ c ∈ floatLayout.wholeMark.toList, isNumeral c = true :=
    List.forall_mem_cons.mpr ⟨rfl,List.forall_mem_singleton.mpr rfl⟩
  simp only [Layout.positionalChars]
  split_ifs
  · exact List.forall_mem_cons.mpr ⟨rfl,hmark⟩
  · simp only [List.cons_append, List.forall_mem_cons, List.forall_mem_append]
    exact ⟨rfl,rfl,hzeros _,hds⟩
  · simp only [List.forall_mem_append]
    exact ⟨⟨hds,hzeros _⟩,hmark⟩
  · simp only [List.forall_mem_append, List.forall_mem_cons]
    exact ⟨fun c hc => hds c (List.mem_of_mem_take hc),rfl,
      fun c hc => hds c (List.mem_of_mem_drop hc)⟩

lemma numerals_exponentChars (hdigits : ∀ c ∈ digitChars d.digits, isDigit c = true) :
    ∀ c ∈ floatLayout.exponentChars d, isNumeral c = true := by
  have hds : ∀ c ∈ digitChars d.digits, isNumeral c = true := fun c hc =>
    isNumeral_of_isDigit (hdigits c hc)
  have hfraction : ∀ c ∈ '.' :: (digitChars d.digits).drop 1, isNumeral c = true :=
    List.forall_mem_cons.mpr ⟨rfl,fun c hc => hds c (List.mem_of_mem_drop hc)⟩
  have hplus : ∀ c ∈ floatLayout.exponentMark.toList, isNumeral c = true :=
    List.forall_mem_singleton.mpr rfl
  have hnone : ∀ c ∈ ([] : List Char), isNumeral c = true := List.forall_mem_nil _
  simp only [Layout.exponentChars, List.forall_mem_append, List.forall_mem_cons]
  refine ⟨⟨⟨fun c hc => hds c (List.mem_of_mem_take hc),?_⟩,rfl,?_⟩,
    fun _ => isNumeral_of_mem_intChars⟩
  · split_ifs
    exacts [hnone,hfraction]
  · split_ifs
    exacts [hplus,hnone]

/-- Doubles are not written in digits alone. -/
lemma exists_mark (d : Digits) : ∃ c ∈ floatLayout.digitsChars d, isDigit c = false := by
  have hpoint : '.' ∈ floatLayout.positionalChars d := by
    simp only [Layout.positionalChars]
    split_ifs
    · exact List.mem_cons_of_mem _ List.mem_cons_self
    · exact List.mem_append_left _ (List.mem_cons_of_mem _ List.mem_cons_self)
    · exact List.mem_append_right _ List.mem_cons_self
    · exact List.mem_append_right _ List.mem_cons_self
  have hexponent : 'e' ∈ floatLayout.exponentChars d :=
    List.mem_append_left _ (List.mem_append_right _ List.mem_cons_self)
  change ∃ c ∈ if _ ∨ _ then _ else _, isDigit c = false
  split_ifs
  exacts [⟨'.',hpoint,rfl⟩,⟨'e',hexponent,rfl⟩]

/-- The layout of doubles in JSON text, but with words for what is no number. It writes the same
digits and is one that can be read. -/
def wordedLayout : Layout := { floatLayout with nan := "NaN", infinity := "inf" }

lemma isReadable_wordedLayout : wordedLayout.IsReadable := ⟨.inr rfl,.inr rfl,rfl,rfl⟩

/-- A finite double is written as a sign and digits that are read as the double. -/
lemma exists_floatChars (hx : isFinite x = true) :
    ∃ (negative : Bool) (d : Digits),
      floatChars x = (if negative then ['-'] else []) ++ floatLayout.digitsChars d ∧
      (∀ c ∈ digitChars d.digits, isDigit c = true) ∧
      (∀ c ∈ (floatLayout.digitsChars d).head?, isDigit c = true) ∧
      magnitudeOf? negative (floatLayout.digitsChars d) = some x := by
  obtain ⟨negative,m,s,hexact⟩ := exists_of_isFinite hx
  obtain ⟨⟨c,cs,hcs,hc⟩,hread⟩ := magnitudeOf?_digitsChars isReadable_wordedLayout hexact
  refine ⟨negative,shortest false m s,?_,(digits_of_exact hexact false).1,?_,hread⟩
  · rw [floatChars, if_pos hx, hexact]
    rfl
  · intro c' hc'
    change c' ∈ (wordedLayout.digitsChars (shortest wordedLayout.tieUp m s)).head? at hc'
    rw [hcs] at hc'
    exact Option.some.inj hc' ▸ hc

/-- The text of a finite double is read as the double, though not as a whole number. -/
lemma readings_floatChars (hx : isFinite x = true) :
    ofText? (String.ofList (floatChars x)) = some x ∧ int64OfText? (floatChars x) = none := by
  obtain ⟨negative,d,htext,-,hhead,hread⟩ := exists_floatChars hx
  have hsign : takeSign (floatChars x) = (negative,floatLayout.digitsChars d) := by
    rw [htext, takeSign_signed _ hhead, Bool.decide_eq_true]
  obtain ⟨c,hc,hmark⟩ := exists_mark d
  have hall : (floatLayout.digitsChars d).all isDigit = false :=
    List.all_eq_false.mpr ⟨c,hc,by simp [hmark]⟩
  constructor
  · rw [ofText?, String.toList_ofList, hsign]
    exact hread
  · rw [int64OfText?, hsign]
    exact if_pos (by simp [hall])

lemma numerals_floatChars (hx : isFinite x = true) : ∀ c ∈ floatChars x, isNumeral c = true := by
  obtain ⟨negative,d,htext,hdigits,-⟩ := exists_floatChars hx
  have hnumerals : ∀ c ∈ floatLayout.digitsChars d, isNumeral c = true := by
    change ∀ c ∈ if _ ∨ _ then _ else _, isNumeral c = true
    split_ifs
    exacts [numerals_positionalChars hdigits,numerals_exponentChars hdigits]
  rw [htext, List.forall_mem_append]
  refine ⟨?_,hnumerals⟩
  cases negative with
  | true => exact List.forall_mem_singleton.mpr rfl
  | false => exact List.forall_mem_nil _

/-- The text of a whole number is read as that number where it has a sign and 64 bits. -/
lemma int64OfText?_intChars (hlow : -2 ^ 63 ≤ i) :
    int64OfText? (intChars i) = if i ≤ int64High then some i else none := by
  rw [int64OfText?, takeSign_intChars]
  dsimp only
  rw [if_neg (by simp [natDigits_ne_nil, all_natDigits]), digitsValue_natDigits, signed_natAbs]
  exact if_congr (and_iff_right hlow) rfl rfl

/-- The text that a number stands for is the one it is written as. -/
lemma looseText?_of_isNumber (h : isNumber j = true) : looseText? j = some j.toText := by
  cases j with
  | integer i =>
    rw [looseText?, intText, natText]
    change _ = some (String.ofList (intChars i))
    rw [intChars, String.ofList_append]
    split_ifs <;> rfl
  | float x => rfl
  | _ => cases h

/-- Numbers are written in numerals. -/
lemma numerals_toText (h : isNumber j = true) : ∀ c ∈ j.toText.toList, isNumeral c = true := by
  rw [toText, String.toList_ofList]
  cases j with
  | integer i => exact fun c => isNumeral_of_mem_intChars
  | float x => exact numerals_floatChars h
  | _ => cases h

/-- A whole number is read from the text of a number as from the number. -/
theorem looseInteger?_of_isNumber (h : isNumber j = true) :
    looseInteger? j =
      (int64OfText? j.toText.toList).or ((ofText? j.toText).map saturate) := by
  cases j with
  | integer i =>
    rw [isNumber, Bool.and_eq_true, decide_eq_true_eq, decide_eq_true_eq] at h
    have htext : (Json.integer i).toText = String.ofList (intChars i) := rfl
    rw [htext, String.toList_ofList, int64OfText?_intChars h.1, looseInteger?]
    split_ifs with hhigh
    · rfl
    · -- above a word with a sign the text is read as a double, and the number is made one
      obtain ⟨n,rfl⟩ := Int.eq_ofNat_of_zero_le (by rw [int64High] at hhigh; omega : 0 ≤ i)
      have hdigits : intChars n = natDigits n := by
        rw [intChars, if_neg (by omega), List.nil_append, Int.natAbs_natCast]
      have hread : ofText? (String.ofList (intChars n)) = some (ofInt n) := by
        rw [hdigits, ← natText, ofText?_natText (by have := h.2; omega)]
      rw [hread]
      rfl
  | float x =>
    obtain ⟨hread,hnone⟩ := readings_floatChars h
    have htext : (Json.float x).toText = String.ofList (floatChars x) := rfl
    rw [htext, String.toList_ofList, hnone, hread]
    rfl
  | _ => cases h

end Json
end OrderFlow
