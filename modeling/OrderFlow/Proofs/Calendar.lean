import Mathlib.Tactic.Lemma
import Mathlib.Tactic.SplitIfs
import OrderFlow.Calendar

/-! Dates and days stand for each other: the date a number of days after the epoch is that number of
days after it. -/
namespace OrderFlow.Calendar
variable {n year day : Nat} {days era : Int} {d : Date}

/-- A day of an era is a day of one of its 400 years. -/
lemma exists_yearOfEra (h : n < 146097) :
    ∃ year day, (n - n / 1460 + n / 36524 - n / 146096) / 365 = year ∧
      n = 365 * year + year / 4 - year / 100 + day ∧ year < 400 ∧ day < 366 := by
  by_cases hlast : n = 146096
  · subst hlast
    exact ⟨399,365,by decide,by decide,by decide,by decide⟩
  -- centuries, spans of four years that end in a leap year, and years within them
  obtain ⟨c,q,a,r,hn,hc,hq,hr,ha,hlow,hhigh,hcut⟩ :
      ∃ c q a r, n = 36524 * c + 1461 * q + r ∧ c < 4 ∧ q < 25 ∧ r < 1461 ∧ a < 4 ∧ 365 * a ≤ r ∧
        (r < 365 * a + 365 ∨ r = 1460 ∧ a = 3) ∧ (q = 24 → r < 1460) :=
    ⟨n / 36524,n % 36524 / 1461,min (n % 36524 % 1461 / 365) 3,n % 36524 % 1461,by omega,by omega,
      by omega,by omega,by omega,by omega,by omega,by omega⟩
  have hspan : (100 * c + 4 * q + a) / 4 = 25 * c + q := by omega
  have hcentury : (100 * c + 4 * q + a) / 100 = c := by omega
  have hcenturies : n / 36524 = c := by omega
  have hera : n / 146096 = 0 := by omega
  refine ⟨100 * c + 4 * q + a,r - 365 * a,?_,by omega,by omega,by omega⟩
  by_cases hcarry : 24 * c + q + r < 1460
  · have hspans : n / 1460 = 25 * c + q := by omega
    omega
  · have hspans : n / 1460 = 25 * c + q + 1 := by omega
    omega

/-- The parts that a date is put together from: the era, the year in it and the day in that, both
counted from March. -/
structure IsDate (days : Int) (d : Date) (era : Int) (year day : Nat) : Prop where
  days : days + 719468 = era * 146097 + (365 * year + year / 4 - year / 100 + day : Nat)
  yearLt : year < 400
  dayLt : day < 366
  date : d = ⟨year + era * 400 + (if (5 * day + 2) / 153 < 10 then 0 else 1),
    if (5 * day + 2) / 153 < 10 then (5 * day + 2) / 153 + 3 else (5 * day + 2) / 153 - 9,
    day - (153 * ((5 * day + 2) / 153) + 2) / 5 + 1⟩

lemma exists_isDate (days : Int) :
    ∃ era year day, IsDate days (dateOfDays days) era year day := by
  obtain ⟨n,hn⟩ : ∃ n : Nat, (days + 719468) % 146097 = n :=
    Int.eq_ofNat_of_zero_le (Int.emod_nonneg _ (by decide))
  obtain ⟨year,day,hyear,hday,hyearLt,hdayLt⟩ := exists_yearOfEra (by omega : n < 146097)
  have hrest : n - (365 * year + year / 4 - year / 100) = day := by omega
  refine ⟨(days + 719468) / 146097,year,day,by omega,hyearLt,hdayLt,?_⟩
  have hmonth : (5 * day + 2) / 153 < 12 := by omega
  simp only [dateOfDays, hn, Int.toNat_natCast, hyear, hrest, Date.mk.injEq, and_true]
  congr 1
  split_ifs <;> omega

lemma IsDate.month_bounds (h : IsDate days d era year day) : 1 ≤ d.month ∧ d.month ≤ 12 := by
  have := h.dayLt
  rw [h.date]
  dsimp only
  split_ifs <;> omega

lemma IsDate.day_bounds (h : IsDate days d era year day) : 1 ≤ d.day ∧ d.day ≤ 31 := by
  have := h.dayLt
  rw [h.date]
  dsimp only
  omega

/-- A day has one date, and the date is of that day. -/
@[simp] theorem daysOfDate_dateOfDays (days : Int) : daysOfDate (dateOfDays days) = days := by
  obtain ⟨era,year,day,h⟩ := exists_isDate days
  have hdays := h.days
  have hyear := h.yearLt
  have hday := h.dayLt
  rw [h.date]
  obtain ⟨m,hm⟩ : ∃ m, (5 * day + 2) / 153 = m := ⟨_,rfl⟩
  have hmonth : m < 12 := by omega
  simp only [daysOfDate, hm]
  -- the year that the days are counted in starts in March again
  by_cases hspring : m < 10
  · simp only [if_pos hspring, show ¬ m + 3 ≤ 2 by omega, show 2 < m + 3 by omega, if_true,
      if_false]
    have hdiv : ((year : Int) + era * 400 + 0) / 400 = era := by omega
    have hmod : ((year : Int) + era * 400 + 0) % 400 = year := by omega
    rw [hdiv, hmod]
    omega
  · simp only [if_neg hspring, show m - 9 ≤ 2 by omega, show ¬ 2 < m - 9 by omega, if_true,
      if_false]
    have hdiv : ((year : Int) + era * 400 + 1 - 1) / 400 = era := by omega
    have hmod : ((year : Int) + era * 400 + 1 - 1) % 400 = year := by omega
    rw [hdiv, hmod]
    omega

lemma earliest_eq : earliest = -8334601228800000 := by decide

lemma latest_eq : latest = 8210266876799999 := by decide

/-- The days whose dates can be written are those of the years that can be. -/
lemma year_bounds (hlow : earliest ≤ days * 86400000) (hhigh : days * 86400000 ≤ latest) :
    -262143 ≤ (dateOfDays days).year ∧ (dateOfDays days).year ≤ 262142 := by
  obtain ⟨era,year,day,h⟩ := exists_isDate days
  have hdays := h.days
  have hyear := h.yearLt
  have hday := h.dayLt
  rw [earliest_eq] at hlow
  rw [latest_eq] at hhigh
  -- the first and the last year are in the middle of an era
  have hera : -656 ≤ era ∧ era ≤ 655 := by omega
  rw [h.date]
  dsimp only
  obtain rfl | rfl | hinner : era = -656 ∨ era = 655 ∨ (-655 ≤ era ∧ era ≤ 654) := by omega
  · split_ifs <;> omega
  · split_ifs <;> omega
  · split_ifs <;> omega

end OrderFlow.Calendar
