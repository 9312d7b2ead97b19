import Mathlib.Data.List.TakeWhile
import Mathlib.Tactic.SplitIfs
import OrderFlow.Calendar.Instant
import OrderFlow.Proofs.Calendar
import OrderFlow.Proofs.Text.Blanks

/-! Points in time read back from their written form. -/
namespace OrderFlow.Instant
open OrderFlow.Text OrderFlow.Calendar
variable {c : Char} {ds cs rest : List Char} {n w : Nat} {t : Instant} {d : Date}

lemma ne_nil_of_length (hw : 0 < w) (h : ds.length = w) : ds ≠ [] := by
  rintro rfl
  simp at h
  omega

/-- A number with digits to the full width is read whatever follows it. -/
lemma digits?_paddedDigits (hw : 0 < w) (h : n < 10 ^ w) (rest : List Char) :
    digits? w (paddedDigits w n ++ rest) = some (n,rest) := by
  have hlength := length_paddedDigits hw h
  have htake : ((paddedDigits w n ++ rest).take w).takeWhile isDigit = paddedDigits w n := by
    rw [List.take_left' hlength,
      List.takeWhile_eq_self_iff.mpr fun c hc => isDigit_of_mem_paddedDigits hc]
  rw [digits?, htake, if_neg (by simp [ne_nil_of_length hw hlength]), digitsValue_paddedDigits,
    List.drop_left]

/-- A run of digits is read to its end where the width allows it. -/
lemma digits?_run (hds : ∀ c ∈ ds, isDigit c = true) (hne : ds ≠ []) (hc : isDigit c = false)
    (hw : ds.length ≤ w) (rest : List Char) :
    digits? w (ds ++ c :: rest) = some (digitsValue ds,c :: rest) := by
  have htake : ((ds ++ c :: rest).take w).takeWhile isDigit = ds := by
    rw [List.take_append, List.take_of_length_le hw]
    refine (takeWhile_run hds ?_).1
    cases w - ds.length with
    | zero => simp
    | succ k => simpa using hc
  rw [digits?, htake, if_neg (by simpa using hne), List.drop_left]

lemma skipBlank_cons (h : isBlank c = false) (rest : List Char) :
    skipBlank (c :: rest) = c :: rest := by
  simp [skipBlank, h]

lemma exists_paddedDigits (w n : Nat) :
    ∃ c ds, paddedDigits w n = c :: ds ∧ isDigit c = true := by
  obtain ⟨c,ds,h⟩ := List.exists_cons_of_ne_nil (l := paddedDigits w n) <| by
    rw [paddedDigits_eq]
    simp [natDigits_ne_nil]
  exact ⟨c,ds,h,isDigit_of_mem_paddedDigits (h ▸ List.mem_cons_self)⟩

lemma skipBlank_paddedDigits (w n : Nat) (rest : List Char) :
    skipBlank (paddedDigits w n ++ rest) = paddedDigits w n ++ rest := by
  obtain ⟨c,ds,h,hc⟩ := exists_paddedDigits w n
  rw [h, List.cons_append, skipBlank_cons (isBlank_of_isDigit hc)]

lemma number?_paddedDigits (hw : 0 < w) (h : n < 10 ^ w) (rest : List Char) :
    number? w (paddedDigits w n ++ rest) = some (n,rest) := by
  rw [number?, skipBlank_paddedDigits, digits?_paddedDigits hw h]

lemma mark?_cons (h : isBlank c = false) (rest : List Char) : mark? c (c :: rest) = some rest := by
  rw [mark?, skipBlank_cons h]
  simp

/-- A year is read whether it has a sign or not. -/
lemma year?_yearChars (year : Int) (rest : List Char) :
    year? (yearChars year ++ '-' :: rest) = some (year,'-' :: rest) := by
  rw [yearChars]
  split
  case isTrue hshort =>
    obtain ⟨c,ds,h,hc⟩ := exists_paddedDigits 4 year.toNat
    have hread := digits?_paddedDigits (by decide) (by omega : year.toNat < 10 ^ 4) ('-' :: rest)
    rw [year?, skipBlank_paddedDigits]
    rw [h, List.cons_append] at hread ⊢
    split
    · exact absurd hc (by simp_all [isDigit])
    · exact absurd hc (by simp_all [isDigit])
    · rw [hread]
      simp [Int.toNat_of_nonneg hshort.1]
  case isFalse hlong =>
    have hread : ∀ r, r = paddedDigits 4 year.natAbs ++ '-' :: rest →
        digits? r.length r = some (year.natAbs,'-' :: rest) := by
      rintro r rfl
      rw [digits?_run (fun c hc => isDigit_of_mem_paddedDigits hc) _ rfl (by simp),
        digitsValue_paddedDigits]
      simp [paddedDigits_eq, natDigits_ne_nil]
    split
    · rw [List.cons_append, year?, skipBlank_cons rfl]
      simp only [hread _ rfl, Option.map_some, Option.some.injEq, Prod.mk.injEq, and_true]
      omega
    · rw [List.cons_append, year?, skipBlank_cons rfl]
      simp only [hread _ rfl, Option.map_some, Option.some.injEq, Prod.mk.injEq, and_true]
      omega

lemma date?_dateChars (hmonth : d.month < 100) (hday : d.day < 100) (rest : List Char) :
    date? (dateChars d ++ rest) = some (d,rest) := by
  simp only [date?, dateChars, List.append_assoc, List.cons_append, year?_yearChars,
    Option.bind_eq_bind, Option.bind_some, mark?_cons (by decide : isBlank '-' = false),
    number?_paddedDigits (by decide) (by omega : d.month < 10 ^ 2),
    number?_paddedDigits (by decide) (by omega : d.day < 10 ^ 2)]
  rfl

/-- Digits of a fraction that leave out zeros at the end. -/
lemma fraction?_padded {k : Nat} (hw : 0 < w) (hk : w + k = 9) (h : n < billion)
    (hzeros : n % 10 ^ k = 0) (hc : isDigit c = false) (rest : List Char) :
    fraction? ('.' :: paddedDigits w (n / 10 ^ k) ++ c :: rest) = some (n,c :: rest) := by
  have hvalue : n / 10 ^ k < 10 ^ w := by
    rw [Nat.div_lt_iff_lt_mul (Nat.pow_pos (by decide)), ← pow_add, hk]
    exact h
  have hlength := length_paddedDigits hw hvalue
  have htake : (paddedDigits w (n / 10 ^ k) ++ c :: rest).takeWhile isDigit =
      paddedDigits w (n / 10 ^ k) :=
    (takeWhile_run (fun c hc => isDigit_of_mem_paddedDigits hc) (by simpa using hc)).1
  rw [List.cons_append, fraction?]
  simp only [htake]
  rw [if_neg (by simp [ne_nil_of_length hw hlength]), List.take_of_length_le (by omega),
    digitsValue_paddedDigits, hlength, show 9 - w = k by omega, List.drop_left' hlength,
    Nat.div_mul_cancel (Nat.dvd_of_mod_eq_zero hzeros)]

lemma fraction?_fractionChars (h : n < billion) (hc : isDigit c = false) (hdot : c ≠ '.')
    (rest : List Char) : fraction? (fractionChars n ++ c :: rest) = some (n,c :: rest) := by
  rw [fractionChars]
  split_ifs with hzero hmillis hmicros
  · rw [hzero, List.nil_append, fraction?]
    simpa using hdot
  · exact fraction?_padded (by decide) (by decide : 3 + 6 = 9) h hmillis hc rest
  · exact fraction?_padded (by decide) (by decide : 6 + 3 = 9) h hmicros hc rest
  · simpa using fraction?_padded (by decide) (by decide : 9 + 0 = 9) h (Nat.mod_one n) hc rest

/-- The points in time that have a written form, with leap seconds at the end of a minute only. -/
structure IsWritable (t : Instant) : Prop where
  low : earliest ≤ t.seconds * 1000
  high : t.seconds * 1000 ≤ latest
  nanos : t.nanos < billion ∨ t.nanos < 2 * billion ∧ t.seconds % 60 = 59

def clock (t : Instant) : Clock :=
  let s := (t.seconds % secondsPerDay).toNat
  ⟨s / 3600,s / 60 % 60,s % 60 + t.nanos / billion,t.nanos % billion⟩

lemma IsWritable.clock_bounds (h : t.IsWritable) :
    t.clock.hour < 24 ∧ t.clock.minute < 60 ∧ t.clock.second ≤ 60 ∧
      t.clock.second / 60 = t.nanos / billion := by
  have := h.nanos
  simp only [clock, secondsPerDay, billion] at this ⊢
  omega

lemma isDate_dateOfDays {days : Int} (hlow : earliest ≤ days * 86400000)
    (hhigh : days * 86400000 ≤ latest) : isDate (dateOfDays days) = true := by
  obtain ⟨era,year,day,h⟩ := exists_isDate days
  simp [isDate, year_bounds hlow hhigh, h.month_bounds, h.day_bounds]

/-- The date and the time of day of a point in time are those of that point alone. -/
lemma of?_clock (h : t.IsWritable) :
    of? (dateOfDays (t.seconds / secondsPerDay)) t.clock 0 = some t := by
  obtain ⟨hhour,hminute,hsecond,hleap⟩ := h.clock_bounds
  have hlow := h.low
  have hhigh := h.high
  have hnanos := h.nanos
  have hdate : isDate (dateOfDays (t.seconds / secondsPerDay)) = true := by
    rw [earliest_eq] at hlow
    rw [latest_eq] at hhigh
    refine isDate_dateOfDays ?_ ?_
    · rw [earliest_eq, secondsPerDay]
      omega
    · rw [latest_eq, secondsPerDay]
      omega
  have hseconds : t.seconds / secondsPerDay * secondsPerDay +
      (t.clock.hour * 3600 + t.clock.minute * 60 + (t.clock.second - t.nanos / billion) : Nat) -
        0 = t.seconds := by
    simp only [clock, secondsPerDay]
    omega
  rw [of?, if_pos (by simp [hdate, hhour, hminute, hsecond]), daysOfDate_dateOfDays]
  simp only [hleap, hseconds]
  rw [if_pos ⟨hlow,hhigh⟩]
  have hclock : t.clock.nanos + t.nanos / billion * billion = t.nanos := by
    rw [clock, Nat.mul_comm, Nat.mod_add_div]
  rw [hclock]

/-- Every point in time that can be written is read back from its written form. -/
@[simp] theorem ofText?_text (h : t.IsWritable) : ofText? (t.text "Z") = some t := by
  obtain ⟨hhour,hminute,hsecond,hleap⟩ := h.clock_bounds
  obtain ⟨era,year,day,hdate⟩ := exists_isDate (t.seconds / secondsPerDay)
  have hmonth := hdate.month_bounds
  have hday := hdate.day_bounds
  have hfraction := fraction?_fractionChars (n := t.nanos % billion)
    (Nat.mod_lt _ (by decide)) (by decide : isDigit 'Z' = false) (by decide) []
  have hclock : clock? (paddedDigits 2 t.clock.hour ++ (':' :: (paddedDigits 2 t.clock.minute ++
      (':' :: (paddedDigits 2 t.clock.second ++ (fractionChars (t.nanos % billion) ++ ['Z'])))))) =
        some (t.clock,['Z']) := by
    simp only [clock?, Option.bind_eq_bind, Option.bind_some, hfraction,
      mark?_cons (by decide : isBlank ':' = false),
      number?_paddedDigits (by decide) (by omega : t.clock.hour < 10 ^ 2),
      number?_paddedDigits (by decide) (by omega : t.clock.minute < 10 ^ 2),
      number?_paddedDigits (by decide) (by omega : t.clock.second < 10 ^ 2)]
    rfl
  have htext : (t.text "Z").toList = dateChars (dateOfDays (t.seconds / secondsPerDay)) ++
      ('T' :: (paddedDigits 2 t.clock.hour ++ (':' :: (paddedDigits 2 t.clock.minute ++
        (':' :: (paddedDigits 2 t.clock.second ++
          (fractionChars (t.nanos % billion) ++ ['Z']))))))) := by
    simp [text, chars, clock]
  rw [ofText?, htext, date?_dateChars (by omega) (by omega)]
  simp only [Option.bind_eq_bind, Option.bind_some, hclock, skipBlank_cons
    (by decide : isBlank 'Z' = false), offset?]
  exact of?_clock h

end OrderFlow.Instant
