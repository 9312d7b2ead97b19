import OrderFlow.Json.Printer
import OrderFlow.Proofs.Binary.Product
import OrderFlow.Proofs.Binary.Shortest
import OrderFlow.Proofs.Json.Numbers

/-! Doubles in JSON text. What is written for a finite double reads back as a double, even where its
digits are multiplied by a large power of ten. -/
namespace OrderFlow.Json
open OrderFlow.Text Binary
variable {x : Float} {negative : Bool} {sig fuel n m s : Nat} {e start : Int}
  {ds fs rest : List Char}

/-- Dividing a significand by powers of ten always gives a double. -/
lemma isSome_timesPower (he : e < 0) : (timesPower x e fuel).isSome := by
  induction fuel generalizing x e with
  | zero => rfl
  | succ fuel ih =>
    simp only [timesPower, if_neg (Int.not_le.mpr he)]
    split_ifs
    · rfl
    · rfl
    · exact ih (by omega)

lemma exists_floatNumber (negative : Bool) (h : (timesPower (nearest false sig 1) e 4).isSome) :
    ∃ y, floatNumber negative sig e = .float y := by
  obtain ⟨y,hy⟩ := Option.isSome_iff_exists.mp h
  rw [floatNumber, hy]
  exact ⟨_,rfl⟩

/-- The powers of ten up to the largest double are in the table. -/
lemma lt_309_of_pow_le (h : 10 ^ n ≤ 2 ^ 54 * 2 ^ 970) : n < 309 := by
  rw [← Nat.pow_lt_pow_iff_right (by decide : 1 < 10)]
  calc
    10 ^ n ≤ 2 ^ 54 * 2 ^ 970 := h
    _ < 10 ^ 309 := by decide +kernel

/-- Multiplying gives one as long as the digits write a number somewhat below the rounding limit. -/
lemma isSome_timesPower_of_le (hsig : 0 < sig) (h : sig * 10 ^ n ≤ (2 ^ 54 - 5) * 2 ^ 970) :
    (timesPower (nearest false sig 1) n (fuel + 1)).isSome := by
  have hten : 0 < 10 ^ n := Nat.pow_pos (by decide)
  have hn : n < 309 := by
    refine lt_309_of_pow_le ?_
    have hle : 10 ^ n ≤ sig * 10 ^ n := Nat.le_mul_of_pos_left _ hsig
    generalize 2 ^ 970 = limit at h ⊢
    omega
  have hfinite := isFinite_nearest_mul hsig hten h
  rw [timesPower, Int.natAbs_natCast, if_pos (by omega), if_pos (by omega), if_pos hfinite]
  rfl

lemma length_absorb_lt {c : Char} (h : 10 * sig + digitValue c < 2 ^ 64) (fs : List Char) :
    (absorb sig (c :: fs)).2.length < (c :: fs).length := by
  obtain ⟨taken,hfs,-⟩ := exists_absorb (10 * sig + digitValue c) fs
  have hlength := congrArg List.length hfs
  rw [List.length_append] at hlength
  rw [absorb_cons_of_lt h, List.length_cons]
  omega

/-- A text that starts with a digit and is read as a double, whatever sign stands before it and
whatever comes after it. -/
structure ReadsAsFloat (negative : Bool) (text : List Char) : Prop where
  starts : ∃ c cs, text = c :: cs ∧ isDigit c = true
  reads : ∃ y, ∀ rest, Ends rest →
    unsignedNumber negative (text ++ rest) = some (.float y,rest)

/-- With a point and without an exponent a number reads as a double. -/
lemma readsAsFloat_positional (hds : IsWhole ds) (hfew : digitsValue ds < 10 ^ 16)
    (hfs : ∀ c ∈ fs, isDigit c = true) (hne : fs ≠ []) :
    ReadsAsFloat negative (ds ++ '.' :: fs) := by
  obtain ⟨c,cs,hcs⟩ := List.exists_cons_of_ne_nil hds.nonempty
  refine ⟨⟨c,cs ++ '.' :: fs,by rw [hcs]; rfl,hds.digits c (hcs ▸ List.mem_cons_self)⟩,?_⟩
  have hkept : absorb 0 ds = (digitsValue ds,[]) := absorb_zero_of_lt (by omega)
  have hexponent : -((fs.length - (absorb (digitsValue ds) fs).2.length : Nat) : Int) < 0 := by
    obtain ⟨c,cs,rfl⟩ := List.exists_cons_of_ne_nil hne
    have hc := digitValue_lt (hfs c List.mem_cons_self)
    have hleft : (absorb (digitsValue ds) (c :: cs)).2.length < (c :: cs).length :=
      length_absorb_lt (by omega) cs
    omega
  obtain ⟨y,hy⟩ := exists_floatNumber negative (isSome_timesPower hexponent)
  refine ⟨y,fun rest hrest => ?_⟩
  rw [List.append_assoc, List.cons_append, unsignedNumber_of_point hds hkept hfs hne fun c hc => (hrest c hc).1,
    scaledNumber_of_ends hrest, hy]

lemma exponentNumber_up (hn : n < 2 ^ 31) (hrest : Ends rest) :
    exponentNumber negative sig start ('+' :: (natDigits n ++ rest)) =
      some (floatNumber negative sig (start + n),rest) := by
  obtain ⟨htaken,hleft⟩ := takeWhile_run (fun _ => isDigit_of_mem_natDigits (n := n))
    fun c hc => (hrest c hc).1
  simp only [exponentNumber, takeSign, htaken, hleft, digitsValue_natDigits]
  rw [if_neg (by simp [natDigits_ne_nil]), if_neg (by omega), if_neg (by omega)]
  rfl

lemma exists_exponentNumber_down (hn : 0 < n) (hstart : start ≤ 0) :
    ∃ y, ∀ rest, Ends rest →
      exponentNumber negative sig start ('-' :: (natDigits n ++ rest)) = some (.float y,rest) := by
  obtain ⟨y,hy⟩ : ∃ y, floatNumber negative sig (start - n) = .float y :=
    exists_floatNumber negative (isSome_timesPower (by omega))
  refine ⟨if 2 ^ 31 ≤ n then withSign negative 0 else y,fun rest hrest => ?_⟩
  obtain ⟨htaken,hleft⟩ := takeWhile_run (fun _ => isDigit_of_mem_natDigits (n := n))
    fun c hc => (hrest c hc).1
  simp only [exponentNumber, takeSign, htaken, hleft, digitsValue_natDigits]
  rw [if_neg (by simp [natDigits_ne_nil]), if_neg (by simp)]
  split_ifs
  · rfl
  · rw [hy]

/-- The significand that the digits of a double are read as. -/
def significandOf (d : Digits) : Nat := (absorb 0 (digitChars d.digits)).1

/-- The power of ten that goes with it. -/
def scaleOf (d : Digits) : Int :=
  (absorb 0 (digitChars d.digits)).2.length - d.digits.length + d.point

section
variable {d : Digits} {t j : Nat} {k : Int}

lemma mul_pow_le_of_isShortest (h : IsShortest m s d t k j) :
    significandOf d * 10 ^ ((absorb 0 (digitChars d.digits)).2.length + j) ≤ t := by
  obtain ⟨taken,hdigits,hvalue⟩ := exists_absorb 0 (digitChars d.digits)
  have ht := digitsValue_natDigits t
  rw [h.digits, digitsValue_append, digitsValue_zeros, hdigits, digitsValue_append] at ht
  rw [significandOf, hvalue, Nat.pow_add, ← Nat.mul_assoc, ← ht, zeros, List.length_replicate]
  refine Nat.mul_le_mul_right _ ?_
  simp

lemma significandOf_pos (hm : m ≠ 0) (h : IsShortest m s d t k j) : 0 < significandOf d := by
  obtain ⟨c,cs,hcs,hc⟩ := exists_cons_of_isShortest hm h
  have hdigit : isDigit c = true := isDigit_of_isShortest h c (hcs ▸ List.mem_cons_self)
  have hlt := digitValue_lt hdigit
  have hpos : 0 < digitValue c := Nat.pos_of_ne_zero (mt (digitValue_eq_zero_iff hdigit).mp hc)
  obtain ⟨taken,-,hvalue⟩ := exists_absorb (10 * 0 + digitValue c) cs
  rw [significandOf, hcs, absorb_cons_of_lt (by omega), hvalue]
  exact Nat.add_pos_left (Nat.mul_pos (by omega) (Nat.pow_pos (by decide))) _

/-- The point of a double's digits does not stand further right than that of the largest one. -/
lemma point_le_of_isShortest (hmLt : m < 2 ^ 53) (hs : s ≤ 2045) (hm : m ≠ 0)
    (h : IsShortest m s d t k j) : d.point ≤ 309 := by
  by_contra hpoint
  obtain ⟨e,he⟩ := Int.eq_ofNat_of_zero_le (by omega : 0 ≤ d.point - 1)
  obtain ⟨c,cs,hcs,hc⟩ := exists_cons_of_isShortest hm h
  have hlength : d.digits.length = cs.length + 1 := by
    rw [← List.length_cons, ← hcs, digitChars, List.length_map]
  have hleast : 1 * 10 ^ (cs ++ zeros j).length ≤ t := by
    have hdigit := isDigit_of_isShortest h c (hcs ▸ List.mem_cons_self)
    rw [← digitsValue_natDigits t, h.digits, hcs, List.cons_append, Nat.one_mul]
    exact pow_le_digitsValue hdigit hc _
  have hexponent : ((cs ++ zeros j).length : Int) + k = e := by
    rw [← he, h.point, hlength, List.length_append, zeros, List.length_replicate]
    omega
  have hhigh := Neighbourhood.scaled_le_high h.holds hleast hexponent
  rw [Nat.one_mul] at hhigh
  have hsmall := lt_309_of_pow_le (Nat.le_of_mul_le_mul_right
    (hhigh.trans (Neighbourhood.high_le_limit hmLt hs)) (Nat.two_pow_pos 1076))
  omega

/-- The two largest doubles are so close to the rounding limit that they are tried out. -/
lemma isSome_timesPower_largest (hm : m < 2 ^ 53) (hlarge : 2 ^ 53 - 2 ≤ m) :
    (timesPower (nearest false (significandOf (shortest false m 2045)) 1)
      (scaleOf (shortest false m 2045)) 4).isSome := by
  obtain rfl | rfl : m = 2 ^ 53 - 2 ∨ m = 2 ^ 53 - 1 := by omega
  · decide +kernel
  · decide +kernel

/-- The digits of a finite double read as a double, whatever power of ten they are multiplied by. -/
lemma isSome_timesPower_shortest {a : Bool} (hx : exact x = .finite a m s) (hm : m ≠ 0)
    (h : IsShortest m s (shortest false m s) t k j) :
    (timesPower (nearest false (significandOf (shortest false m s)) 1)
      (scaleOf (shortest false m s)) 4).isSome := by
  obtain ⟨hmLt,-,hs⟩ := exact_bounds hx
  by_cases hlargest : s = 2045 ∧ 2 ^ 53 - 2 ≤ m
  · obtain ⟨rfl,hlarge⟩ := hlargest
    exact isSome_timesPower_largest hmLt hlarge
  by_cases hneg : scaleOf (shortest false m s) < 0
  · exact isSome_timesPower hneg
  obtain ⟨e,he⟩ := Int.eq_ofNat_of_zero_le (Int.not_lt.mp hneg)
  rw [he]
  refine isSome_timesPower_of_le (significandOf_pos hm h) ?_
  have hscale : (((absorb 0 (digitChars (shortest false m s).digits)).2.length + j : Nat) : Int) + k
      = e := by
    rw [← he, scaleOf, h.point]
    omega
  have hhigh := Neighbourhood.scaled_le_high h.holds (mul_pow_le_of_isShortest h) hscale
  exact Nat.le_of_mul_le_mul_right (hhigh.trans (Neighbourhood.high_le hmLt hs hlargest))
    (Nat.two_pow_pos 1076)

lemma isDigit_of_mem_zero : ∀ c ∈ ['0'], isDigit c = true := List.forall_mem_singleton.mpr rfl

lemma isWhole_zero : IsWhole ['0'] where
  digits := isDigit_of_mem_zero
  nonempty := by decide
  leading _ := rfl

lemma isWhole_of_head {c : Char} {cs : List Char} (h : ∀ c' ∈ c :: cs, isDigit c' = true)
    (hc : c ≠ '0') : IsWhole (c :: cs) where
  digits := h
  nonempty := List.cons_ne_nil c cs
  leading hzero := absurd (Option.some.inj hzero) hc

/-- Without an exponent a double is written with digits on both sides of a point. -/
lemma exists_positionalChars (hdigits : ∀ c ∈ digitChars d.digits, isDigit c = true)
    (hhead : (digitChars d.digits).head? ≠ some '0') (hpoint : d.digits = [] ∨ d.point ≤ 16) :
    ∃ ds fs, floatLayout.positionalChars d = ds ++ '.' :: fs ∧ IsWhole ds ∧
      digitsValue ds < 10 ^ 16 ∧ (∀ c ∈ fs, isDigit c = true) ∧ fs ≠ [] := by
  rw [Layout.positionalChars]
  cases hcs : digitChars d.digits with
  | nil => exact ⟨['0'],['0'],rfl,isWhole_zero,by decide,isDigit_of_mem_zero,by decide⟩
  | cons c cs =>
    rw [hcs] at hdigits hhead
    have hc : c ≠ '0' := fun h => hhead (congrArg some h)
    have hwhole := isWhole_of_head hdigits hc
    have hpoint : d.point ≤ 16 := hpoint.resolve_left fun h => by
      rw [h] at hcs
      cases hcs
    simp only [List.isEmpty_cons, Bool.false_eq_true, if_false]
    split_ifs with hzero hshort
    · refine ⟨['0'],zeros (-d.point).toNat ++ c :: cs,rfl,isWhole_zero,by decide,?_,by simp⟩
      intro c' hc'
      rcases List.mem_append.mp hc' with h | h
      exacts [isDigit_of_mem_zeros h,hdigits c' h]
    · have hfilled : ∀ c' ∈ c :: (cs ++ zeros (d.point.toNat - (c :: cs).length)),
          isDigit c' = true := by
        intro c' hc'
        rw [← List.cons_append] at hc'
        rcases List.mem_append.mp hc' with h | h
        exacts [hdigits c' h,isDigit_of_mem_zeros h]
      refine ⟨_,['0'],rfl,isWhole_of_head hfilled hc,?_,isDigit_of_mem_zero,by decide⟩
      refine (digitsValue_lt hfilled).trans_le (Nat.pow_le_pow_right (by decide) ?_)
      simp only [List.length_cons, List.length_append, zeros, List.length_replicate] at hshort ⊢
      omega
    · obtain ⟨n,hn⟩ : ∃ n, d.point.toNat = n + 1 := ⟨d.point.toNat - 1,by omega⟩
      rw [hn] at hshort ⊢
      have htaken : ∀ c' ∈ c :: cs.take n, isDigit c' = true := fun c' hc' =>
        hdigits c' (List.mem_of_mem_take (i := n + 1) hc')
      refine ⟨c :: cs.take n,cs.drop n,rfl,isWhole_of_head htaken hc,?_,?_,?_⟩
      · refine (digitsValue_lt htaken).trans_le (Nat.pow_le_pow_right (by decide) ?_)
        rw [List.length_cons, List.length_take]
        omega
      · exact fun c' hc' => hdigits c' (List.mem_cons_of_mem c (List.mem_of_mem_drop hc'))
      · rw [List.length_cons] at hshort
        simpa using hshort

lemma isWhole_singleton {c : Char} (hc : isDigit c = true) : IsWhole [c] where
  digits := by simpa using hc
  nonempty := List.cons_ne_nil c []
  leading _ := rfl

/-- One digit, and the others after a point, are read as the digits without it. -/
lemma unsignedNumber_mantissa {c : Char} {cs r : List Char} (h : ∀ c' ∈ c :: cs, isDigit c' = true) :
    unsignedNumber negative (c :: ((if cs.isEmpty then [] else '.' :: cs) ++ 'e' :: r)) =
      exponentNumber negative (absorb 0 (c :: cs)).1
        (-(cs.length - (absorb 0 (c :: cs)).2.length : Nat)) r := by
  have hc := h c List.mem_cons_self
  have hlt := digitValue_lt hc
  have hkept : absorb 0 [c] = (digitValue c,[]) := by
    rw [absorb_zero_of_lt (by rw [digitsValue_singleton]; omega), digitsValue_singleton]
  have hall : absorb 0 (c :: cs) = absorb (digitValue c) cs := by
    have happend : absorb 0 ([c] ++ cs) = absorb (absorb 0 [c]).1 cs := absorb_append (by rw [hkept])
    rwa [hkept] at happend
  rw [hall]
  cases cs with
  | nil => exact unsignedNumber_of_exponent (isWhole_singleton hc) hkept
  | cons c' cs =>
    have hfs : ∀ c'' ∈ c' :: cs, isDigit c'' = true := fun c'' hc'' =>
      h c'' (List.mem_cons_of_mem c hc'')
    exact unsignedNumber_of_point (isWhole_singleton hc) hkept hfs (List.cons_ne_nil c' cs)
      (by simp [isDigit])

/-- With an exponent a double is written with one digit before the point. -/
lemma readsAsFloat_exponentChars (hdigits : ∀ c ∈ digitChars d.digits, isDigit c = true)
    (hne : digitChars d.digits ≠ []) (hpoint : d.point ≤ 309)
    (hreads : (timesPower (nearest false (significandOf d) 1) (scaleOf d) 4).isSome) :
    ReadsAsFloat negative (floatLayout.exponentChars d) := by
  obtain ⟨c,cs,hcs⟩ := List.exists_cons_of_ne_nil hne
  have hlength : d.digits.length = cs.length + 1 := by
    rw [← List.length_cons, ← hcs, digitChars, List.length_map]
  rw [hcs] at hdigits
  have hc := digitValue_lt (hdigits c List.mem_cons_self)
  have hleft : (absorb 0 (c :: cs)).2.length < (c :: cs).length := length_absorb_lt (by omega) cs
  have htext : ∀ rest, floatLayout.exponentChars d ++ rest =
      c :: ((if cs.isEmpty then [] else '.' :: cs) ++ 'e' ::
        ((if 0 ≤ d.point - 1 then ['+'] else ['-']) ++ (natDigits (d.point - 1).natAbs ++ rest))) := by
    intro rest
    have hsign : (if 0 ≤ d.point - 1 then floatLayout.exponentMark.toList else []) ++
        (if d.point - 1 < 0 then ['-'] else []) = if 0 ≤ d.point - 1 then ['+'] else ['-'] := by
      split_ifs <;> first | rfl | omega
    rw [Layout.exponentChars, hcs, intChars, ← hsign]
    simp only [List.take_succ_cons, List.take_zero, List.drop_succ_cons, List.drop_zero,
      List.append_assoc, List.cons_append, List.nil_append]
  refine ⟨⟨c,_,by simpa using htext [],hdigits c List.mem_cons_self⟩,?_⟩
  simp only [htext, unsignedNumber_mantissa hdigits]
  rw [List.length_cons] at hleft
  split_ifs with hup
  · obtain ⟨y,hy⟩ := exists_floatNumber negative hreads
    refine ⟨y,fun rest hrest => ?_⟩
    refine (exponentNumber_up (by omega) hrest).trans ?_
    rw [← hcs, ← significandOf, ← hy]
    congr 3
    rw [scaleOf, hcs]
    omega
  · exact exists_exponentNumber_down (by omega) (by omega)

end

lemma readsAsFloat_positionalChars (negative : Bool) {d : Digits}
    (hdigits : ∀ c ∈ digitChars d.digits, isDigit c = true)
    (hhead : (digitChars d.digits).head? ≠ some '0') (hpoint : d.digits = [] ∨ d.point ≤ 16) :
    ReadsAsFloat negative (floatLayout.positionalChars d) := by
  obtain ⟨ds,fs,htext,hds,hfew,hfs,hne⟩ := exists_positionalChars hdigits hhead hpoint
  rw [htext]
  exact readsAsFloat_positional hds hfew hfs hne

/-- The shortest digits of a double, in either notation. -/
lemma readsAsFloat_digitsChars (negative : Bool) {a : Bool} (hx : exact x = .finite a m s) :
    ReadsAsFloat negative (floatLayout.digitsChars (shortest false m s)) := by
  obtain ⟨hmLt,-,hs⟩ := exact_bounds hx
  change ReadsAsFloat negative (if _ ∨ _ then _ else _)
  by_cases hnone : (shortest false m s).digits = []
  · rw [if_pos (.inl (List.isEmpty_iff.mpr hnone))]
    refine readsAsFloat_positionalChars negative ?_ ?_ (.inl hnone) <;> simp [hnone, digitChars]
  · have hm : m ≠ 0 := by
      rintro rfl
      exact hnone rfl
    obtain ⟨t,k,j,h⟩ := (exists_isShortest hm).resolve_left hnone
    obtain ⟨c,cs,hcs,hc⟩ := exists_cons_of_isShortest hm h
    split_ifs with hplain
    · refine readsAsFloat_positionalChars negative (isDigit_of_isShortest h) ?_
        (hplain.imp List.isEmpty_iff.mp And.right)
      rw [hcs]
      exact fun h => hc (Option.some.inj h)
    · exact readsAsFloat_exponentChars (isDigit_of_isShortest h) (hcs ▸ List.cons_ne_nil c cs)
        (point_le_of_isShortest hmLt hs hm h) (isSome_timesPower_shortest hx hm h)

/-- A finite double is written as a text that reads as a double. -/
theorem exists_number_floatChars (hx : isFinite x = true) :
    ∃ y, ∀ rest, Ends rest → number (floatChars x ++ rest) = some (.float y,rest) := by
  obtain ⟨negative,m,s,hexact⟩ := exists_of_isFinite hx
  obtain ⟨⟨c,cs,hcs,hc⟩,y,hy⟩ := readsAsFloat_digitsChars negative hexact
  refine ⟨y,fun rest hrest => ?_⟩
  have hread := hy rest hrest
  rw [hcs, List.cons_append] at hread
  rw [floatChars, if_pos hx, hexact, Layout.exactChars, List.append_assoc]
  change number (_ ++ (floatLayout.digitsChars (shortest false m s) ++ rest)) = _
  rw [hcs, List.cons_append, number_of_sign hc, hread]

end OrderFlow.Json
