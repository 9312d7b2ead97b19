import OrderFlow.Binary.Layout
import OrderFlow.Proofs.Binary.Product
import OrderFlow.Proofs.Binary.Reading

/-! Doubles and their texts. A double is read from its text in every layout whose marks belong to
numbers. -/
namespace OrderFlow.Binary
open OrderFlow.Text
variable {m s a : Nat} {e k : Int} {negative : Bool} {c : Char} {ws fs cs ds r : List Char}
  {l : Layout} {dg : Digits} {x : Float}

lemma lowerAscii_of_isDigit (hc : isDigit c = true) : lowerAscii c = c := by
  rw [isDigit_iff] at hc
  refine if_neg fun h => ?_
  have : (65 : Nat) ≤ c.toNat := h.1
  omega

/-- What starts with a digit is no word. -/
lemma ofList_lower_ne (hc : isDigit c = true) (cs : List Char) {w : Char} (hw : isDigit w = false)
    (ws : List Char) : String.ofList ((c :: cs).map lowerAscii) ≠ String.ofList (w :: ws) := by
  intro h
  have hlist := String.ofList_injective h
  rw [List.map_cons, lowerAscii_of_isDigit hc] at hlist
  rw [(List.cons.inj hlist).1, hw] at hc
  cases hc

/-- A fraction after a point. Without digits there is no point either. -/
def pointed (fs : List Char) : List Char := if fs.isEmpty then [] else '.' :: fs

lemma fractionOf_pointed (hfs : ∀ c ∈ fs, isDigit c = true)
    (hr : ∀ c ∈ r.head?, isDigit c = false ∧ c ≠ '.') : fractionOf (pointed fs ++ r) = (fs,r) := by
  cases fs with
  | nil =>
    change fractionOf r = ([],r)
    rw [fractionOf]
    rintro rest rfl
    exact (hr '.' rfl).2 rfl
  | cons f fs =>
    obtain ⟨htaken,hleft⟩ := takeWhile_run hfs fun c hc => (hr c hc).1
    rw [pointed, if_neg (by simp), List.cons_append, fractionOf, htaken, hleft]

/-- A text that writes some digits: some of them before a point and the others after it, with an
exponent at the end. -/
structure Writes (dg : Digits) (cs ws fs r : List Char) (e : Int) (a : Nat) : Prop where
  text : cs = ws ++ (pointed fs ++ r)
  whole : ∀ c ∈ ws, isDigit c = true
  nonempty : ws ≠ []
  fraction : ∀ c ∈ fs, isDigit c = true
  tail : ∀ c ∈ r.head?, isDigit c = false ∧ c ≠ '.'
  exponent : exponentOf? r = some e
  value : digitsValue (ws ++ fs) = digitsValue (digitChars dg.digits) * 10 ^ a
  scale : (a : Int) + (e - fs.length) = dg.point - dg.digits.length

lemma Writes.starts (h : Writes dg cs ws fs r e a) : ∃ c cs', cs = c :: cs' ∧ isDigit c = true := by
  obtain ⟨c,ws',rfl⟩ := List.exists_cons_of_ne_nil h.nonempty
  exact ⟨c,_,h.text,h.whole c List.mem_cons_self⟩

/-- Such a text is read as its digits times a power of ten. -/
theorem Writes.magnitudeOf?_eq (h : Writes dg cs ws fs r e a) :
    magnitudeOf? negative cs =
      some (ofScaled negative (digitsValue (digitChars dg.digits) * 10 ^ a) (e - fs.length)) := by
  have hpoint : ∀ c ∈ (pointed fs ++ r).head?, isDigit c = false := by
    cases fs with
    | nil => exact fun c hc => (h.tail c hc).1
    | cons f fs =>
      rintro _ ⟨⟩
      rfl
  obtain ⟨htaken,hleft⟩ := takeWhile_run h.whole hpoint
  rw [← h.text] at htaken hleft
  obtain ⟨c,cs',hcs,hc⟩ := h.starts
  have hword (w : Char) (hw : isDigit w = false) (ws : List Char) :
      String.ofList (cs.map lowerAscii) ≠ String.ofList (w :: ws) :=
    hcs ▸ ofList_lower_ne hc cs' hw ws
  rw [magnitudeOf?]
  split
  · next heq => exact absurd heq (hword 'i' rfl ['n','f'])
  · next heq => exact absurd heq (hword 'i' rfl ['n','f','i','n','i','t','y'])
  · next heq => exact absurd heq (hword 'n' rfl ['a','n'])
  · simp only [htaken, hleft, fractionOf_pointed h.fraction h.tail, h.exponent, h.value]
    exact if_neg (by simp [h.nonempty])

lemma takeSign_intChars (e : Int) : takeSign (intChars e) = (decide (e < 0),natDigits e.natAbs) :=
  takeSign_signed _ fun _ hd => isDigit_of_mem_natDigits (List.mem_of_mem_head? hd)

lemma exponentOf?_chars {mark : List Char} (hmark : mark = [] ∨ mark = ['+']) (e : Int) :
    exponentOf? ('e' :: ((if 0 ≤ e then mark else []) ++ intChars e)) = some e := by
  have hsign : takeSign ((if 0 ≤ e then mark else []) ++ intChars e) =
      (decide (e < 0),natDigits e.natAbs) := by
    by_cases he : 0 ≤ e
    · rcases hmark with rfl | rfl
      · rw [ite_self, List.nil_append, takeSign_intChars]
      · rw [if_pos he, intChars, if_neg (by omega), decide_eq_false (by omega)]
        rfl
    · rw [if_neg he, List.nil_append, takeSign_intChars]
  rw [exponentOf?, if_pos (by decide), hsign]
  dsimp only
  rw [if_neg (by simp [natDigits_ne_nil, all_natDigits]), digitsValue_natDigits, signed_natAbs]

/-- The marks of a layout belong to numbers that can be read. -/
structure Layout.IsReadable (l : Layout) : Prop where
  wholeMark : l.wholeMark = "" ∨ l.wholeMark = ".0"
  exponentMark : l.exponentMark = "" ∨ l.exponentMark = "+"
  nan : l.nan = "NaN"
  infinity : l.infinity = "inf"

namespace Layout.IsReadable

lemma exists_wholeMark (hl : l.IsReadable) : ∃ j, l.wholeMark.toList = pointed (zeros j) := by
  rcases hl.wholeMark with h | h
  · exact ⟨0,by rw [h]; rfl⟩
  · exact ⟨1,by rw [h]; rfl⟩

/-- No digits at all are the digits of zero. -/
lemma writes_nil (hl : l.IsReadable) (hdigits : dg.digits = []) (hpoint : dg.point = 0) :
    ∃ j, Writes dg ('0' :: l.wholeMark.toList) ['0'] (zeros j) [] 0 j := by
  obtain ⟨j,hmark⟩ := hl.exists_wholeMark
  refine ⟨j,?_,List.forall_mem_singleton.mpr rfl,List.cons_ne_nil _ _,
    fun _ => isDigit_of_mem_zeros,by simp,rfl,?_,?_⟩
  · rw [hmark, List.append_nil]
    rfl
  · rw [hdigits, digitsValue_append, digitsValue_zeros]
    simp [digitChars, digitsValue, digitValue]
  · rw [hpoint, hdigits, length_zeros, List.length_nil]
    omega

end Layout.IsReadable

section
variable (hds : digitChars dg.digits = ds) (hdigits : ∀ c ∈ ds, isDigit c = true)
include hds hdigits

/-- The point stands before all digits. -/
lemma writes_below (hne : ds ≠ []) (hpoint : dg.point ≤ 0) :
    Writes dg ('0' :: '.' :: zeros (-dg.point).toNat ++ ds) ['0']
      (zeros (-dg.point).toNat ++ ds) [] 0 0 := by
  have hlength : ds.length = dg.digits.length := by rw [← hds, digitChars, List.length_map]
  refine ⟨?_,List.forall_mem_singleton.mpr rfl,List.cons_ne_nil _ _,?_,by simp,rfl,?_,?_⟩
  · rw [pointed, if_neg (by simp [hne]), List.append_nil]
    rfl
  · intro c hc
    rcases List.mem_append.mp hc with h | h
    exacts [isDigit_of_mem_zeros h,hdigits c h]
  · rw [hds, digitsValue_append, digitsValue_append, digitsValue_zeros]
    simp [digitsValue, digitValue]
  · rw [List.length_append, length_zeros, hlength]
    omega

/-- The point stands after all digits. -/
lemma writes_above (hl : l.IsReadable) (hne : ds ≠ []) (hpoint : ds.length ≤ dg.point.toNat) :
    ∃ j, Writes dg (ds ++ zeros (dg.point.toNat - ds.length) ++ l.wholeMark.toList)
      (ds ++ zeros (dg.point.toNat - ds.length)) (zeros j) [] 0
      (dg.point.toNat - ds.length + j) := by
  have hlength : ds.length = dg.digits.length := by rw [← hds, digitChars, List.length_map]
  have hpos := List.length_pos_iff.mpr hne
  obtain ⟨j,hmark⟩ := hl.exists_wholeMark
  refine ⟨j,?_,?_,by simp [hne],fun _ => isDigit_of_mem_zeros,by simp,rfl,?_,?_⟩
  · rw [hmark, List.append_nil]
  · intro c hc
    rcases List.mem_append.mp hc with h | h
    exacts [hdigits c h,isDigit_of_mem_zeros h]
  · rw [hds, digitsValue_append, digitsValue_append, digitsValue_zeros, digitsValue_zeros,
      length_zeros, length_zeros, Nat.pow_add]
    ring
  · rw [length_zeros]
    omega

/-- The point stands between digits. -/
lemma writes_between (hpos : 0 < dg.point) (hpoint : ¬ ds.length ≤ dg.point.toNat) :
    Writes dg (ds.take dg.point.toNat ++ '.' :: ds.drop dg.point.toNat) (ds.take dg.point.toNat)
      (ds.drop dg.point.toNat) [] 0 0 := by
  have hlength : ds.length = dg.digits.length := by rw [← hds, digitChars, List.length_map]
  have hdrop : (ds.drop dg.point.toNat).length = ds.length - dg.point.toNat := List.length_drop
  refine ⟨?_,fun c hc => hdigits c (List.mem_of_mem_take hc),?_,
    fun c hc => hdigits c (List.mem_of_mem_drop hc),by simp,rfl,?_,?_⟩
  · rw [pointed, if_neg, List.append_nil]
    rw [List.isEmpty_iff_length_eq_zero]
    omega
  · rw [Ne, ← List.length_eq_zero_iff, List.length_take]
    omega
  · rw [hds, List.take_append_drop, Nat.pow_zero, Nat.mul_one]
  · omega

/-- One digit stands before the point, and an exponent at the end. -/
lemma writes_exponentChars (hl : l.IsReadable) (hne : ds ≠ []) :
    Writes dg (l.exponentChars dg) (ds.take 1) (ds.drop 1)
      ('e' :: ((if 0 ≤ dg.point - 1 then l.exponentMark.toList else []) ++ intChars (dg.point - 1)))
      (dg.point - 1) 0 := by
  have hlength : ds.length = dg.digits.length := by rw [← hds, digitChars, List.length_map]
  have hpos := List.length_pos_iff.mpr hne
  have hmark : l.exponentMark.toList = [] ∨ l.exponentMark.toList = ['+'] :=
    hl.exponentMark.imp (fun h => by rw [h]; rfl) fun h => by rw [h]; rfl
  refine ⟨?_,fun c hc => hdigits c (List.mem_of_mem_take hc),?_,
    fun c hc => hdigits c (List.mem_of_mem_drop hc),?_,exponentOf?_chars hmark _,?_,?_⟩
  · rw [Layout.exponentChars, hds]
    simp only [List.append_assoc, List.cons_append]
    rfl
  · rw [Ne, ← List.length_eq_zero_iff, List.length_take]
    omega
  · rintro _ ⟨⟩
    decide
  · rw [hds, List.take_append_drop, Nat.pow_zero, Nat.mul_one]
  · rw [List.length_drop]
    omega

end

lemma exists_writes_positionalChars (hl : l.IsReadable)
    (hdigits : ∀ c ∈ digitChars dg.digits, isDigit c = true)
    (hpoint : dg.digits = [] → dg.point = 0) :
    ∃ ws fs a, Writes dg (l.positionalChars dg) ws fs [] 0 a := by
  rw [Layout.positionalChars]
  dsimp only
  split_ifs with hempty hzero hwhole
  · have hnone : dg.digits = [] := List.map_eq_nil_iff.mp (List.isEmpty_iff.mp hempty)
    obtain ⟨j,h⟩ := hl.writes_nil hnone (hpoint hnone)
    exact ⟨_,_,_,h⟩
  · exact ⟨_,_,_,writes_below rfl hdigits (fun h => hempty (List.isEmpty_iff.mpr h)) hzero⟩
  · obtain ⟨j,h⟩ := writes_above rfl hdigits hl (fun h => hempty (List.isEmpty_iff.mpr h)) hwhole
    exact ⟨_,_,_,h⟩
  · exact ⟨_,_,_,writes_between rfl hdigits (by omega) hwhole⟩

/-- Every layout writes the digits that it is given. -/
theorem exists_writes_digitsChars (hl : l.IsReadable)
    (hdigits : ∀ c ∈ digitChars dg.digits, isDigit c = true)
    (hpoint : dg.digits = [] → dg.point = 0) :
    ∃ ws fs r e a, Writes dg (l.digitsChars dg) ws fs r e a := by
  obtain ⟨ws,fs,a,hplain⟩ := exists_writes_positionalChars hl hdigits hpoint
  rw [Layout.digitsChars]
  split
  · exact ⟨_,_,_,_,_,hplain⟩
  · split_ifs with hpositional
    · exact ⟨_,_,_,_,_,hplain⟩
    · have hne : digitChars dg.digits ≠ [] := fun h =>
        hpositional (.inl (List.isEmpty_iff.mpr (List.map_eq_nil_iff.mp h)))
      exact ⟨_,_,_,_,_,writes_exponentChars rfl hdigits hl hne⟩

lemma digits_of_exact (hx : exact x = .finite negative m s) (tieUp : Bool) :
    (∀ c ∈ digitChars (shortest tieUp m s).digits, isDigit c = true) ∧
      ((shortest tieUp m s).digits = [] → (shortest tieUp m s).point = 0) := by
  obtain ⟨hm,-,hs⟩ := exact_bounds hx
  by_cases hm0 : m = 0
  · rw [shortest, if_pos hm0]
    exact ⟨by simp [digitChars],fun _ => rfl⟩
  · obtain ⟨t,k,j,h⟩ := exists_isShortest_of_ne_zero hm hm0 hs tieUp
    obtain ⟨c,cs,hcs,-⟩ := exists_cons_of_isShortest hm0 h
    refine ⟨isDigit_of_isShortest h,fun hnone => ?_⟩
    rw [hnone] at hcs
    cases hcs

/-- A finite double is read from its digits, whatever sign stands before them. -/
lemma magnitudeOf?_digitsChars (hl : l.IsReadable) (hx : exact x = .finite negative m s) :
    (∃ c cs, l.digitsChars (shortest l.tieUp m s) = c :: cs ∧ isDigit c = true) ∧
      magnitudeOf? negative (l.digitsChars (shortest l.tieUp m s)) = some x := by
  obtain ⟨hm,hnormal,hs⟩ := exact_bounds hx
  obtain ⟨hdigits,hpoint⟩ := digits_of_exact hx l.tieUp
  obtain ⟨ws,fs,r,e,a,hwrites⟩ := exists_writes_digitsChars hl hdigits hpoint
  refine ⟨hwrites.starts,?_⟩
  rw [hwrites.magnitudeOf?_eq, eq_withSign_of_exact hx]
  by_cases hm0 : m = 0
  · have hs0 : s = 0 := hnormal.resolve_right (by omega)
    have hzero : digitsValue (digitChars (shortest l.tieUp m s).digits) = 0 := by
      rw [shortest, if_pos hm0]
      rfl
    rw [hzero, Nat.zero_mul, ofScaled_zero, hs0, hm0]
  · obtain ⟨t,k,j,h⟩ := exists_isShortest_of_ne_zero hm hm0 hs l.tieUp
    rw [ofScaled_of_isShortest hm hm0 hnormal hs h hwrites.scale]

/-- A double is read from its text in every such layout. -/
theorem ofText?_text (hl : l.IsReadable) (x : Float) : ofText? (l.text x) = some x := by
  rw [ofText?, Layout.text, String.toList_ofList]
  cases hx : exact x with
  | finite negative m s =>
    obtain ⟨⟨c,cs,hcs,hc⟩,hread⟩ := magnitudeOf?_digitsChars hl hx
    rw [Layout.exactChars, takeSign_signed _ fun d hd => by
      rw [hcs] at hd
      exact Option.some.inj hd ▸ hc]
    simpa only [Bool.decide_eq_true] using hread
  | infinite negative =>
    rw [eq_infinity_of_exact hx, Layout.exactChars, hl.infinity]
    cases negative <;> rfl
  | nan =>
    rw [eq_nan_of_exact hx, Layout.exactChars, hl.nan]
    rfl

end OrderFlow.Binary
