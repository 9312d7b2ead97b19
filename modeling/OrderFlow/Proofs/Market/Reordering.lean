import OrderFlow.Proofs.Market.Times

/-! Trades in another order. Their times are the same, so they have the same unit and the same
periods, and each period has the same trades. Only trades of one time can change places within it;
where these keep their order, nothing changes at all. -/
namespace OrderFlow
open Keyed

namespace TimeUnit
variable {times times' : List Int}

theorem least_perm (h : times.Perm times') : least times = least times' := by
  by_cases hne : times = []
  · subst hne
    rw [h.nil_eq]
  · obtain ⟨m,hm⟩ := Option.ne_none_iff_exists'.mp (mt List.min?_eq_none_iff.mp hne)
    obtain ⟨hmem,hle⟩ := List.min?_eq_some_iff.mp hm
    rw [Resample.least_eq hmem hle,
      Resample.least_eq (h.mem_iff.mp hmem) fun a ha => hle a (h.mem_iff.mpr ha)]

theorem greatest_perm (h : times.Perm times') : greatest times = greatest times' := by
  by_cases hne : times = []
  · subst hne
    rw [h.nil_eq]
  · obtain ⟨m,hm⟩ := Option.ne_none_iff_exists'.mp (mt List.max?_eq_none_iff.mp hne)
    obtain ⟨hmem,hle⟩ := List.max?_eq_some_iff.mp hm
    rw [Resample.greatest_eq hmem hle,
      Resample.greatest_eq (h.mem_iff.mp hmem) fun a ha => hle a (h.mem_iff.mpr ha)]

theorem detect_perm (h : times.Perm times') : detect times = detect times' := by
  rw [detect, detect, least_perm h, greatest_perm h]

/-- A unit keeps times in order, and apart. -/
lemma toMillis_le_iff (unit : TimeUnit) (a b : Int) :
    unit.toMillis a ≤ unit.toMillis b ↔ a ≤ b := by
  cases unit with
  | seconds =>
    rw [toMillis, toMillis]
    omega
  | millis => exact Iff.rfl

end TimeUnit

namespace Resample
variable {tf : Timeframe} {unit : TimeUnit} {xs ys : List Trade}

section
variable (h : xs.Perm ys)
include h

lemma detect_perm :
    TimeUnit.detect (xs.map (·.time)) = TimeUnit.detect (ys.map (·.time)) :=
  TimeUnit.detect_perm (h.map _)

lemma firstStart_perm (tf : Timeframe) (unit : TimeUnit) :
    firstStart tf unit xs = firstStart tf unit ys := by
  rw [firstStart, firstStart, TimeUnit.least_perm (h.map _)]

lemma lastStart_perm (tf : Timeframe) (unit : TimeUnit) :
    lastStart tf unit xs = lastStart tf unit ys := by
  rw [lastStart, lastStart, TimeUnit.greatest_perm (h.map _)]

theorem grid_perm (tf : Timeframe) (unit : TimeUnit) : grid tf unit xs = grid tf unit ys := by
  rw [grid, grid, firstStart_perm h, lastStart_perm h]

theorem Fits.perm (hfits : Fits tf unit xs) : Fits tf unit ys where
  millis t ht := hfits.millis t (h.mem_iff.mpr ht)
  starts t ht := hfits.starts t (h.mem_iff.mpr ht)
  span := by
    rw [← firstStart_perm h, ← lastStart_perm h]
    exact hfits.span

theorem tradesOf_perm (tf : Timeframe) (unit : TimeUnit) (openTime : Int) :
    (tradesOf tf unit xs openTime).Perm (tradesOf tf unit ys openTime) :=
  (List.mergeSort_perm ..).trans ((h.filter _).trans (List.mergeSort_perm ..).symm)

end

/-- Trades of one time stand in the same order. -/
def KeepsTies (xs ys : List Trade) : Prop :=
  ∀ time, fibre Trade.time time xs = fibre Trade.time time ys

/-- Only the times of the trades matter. -/
theorem keepsTies_iff : KeepsTies xs ys ↔
    ∀ t ∈ xs ++ ys, fibre Trade.time t.time xs = fibre Trade.time t.time ys := by
  constructor
  · intro h t _
    exact h t.time
  · intro h time
    by_cases htime : ∃ t ∈ xs ++ ys, t.time = time
    · obtain ⟨t,ht,rfl⟩ := htime
      exact h t ht
    · have hnone : ∀ t ∈ xs ++ ys, t.time ≠ time := fun t ht he => htime ⟨t,ht,he⟩
      rw [fibre_eq_nil_iff.mpr fun t ht => hnone t (List.mem_append_left _ ht),
        fibre_eq_nil_iff.mpr fun t ht => hnone t (List.mem_append_right _ ht)]

instance (xs ys : List Trade) : Decidable (KeepsTies xs ys) := decidable_of_iff' _ keepsTies_iff

/-- The milliseconds of trades order them like the times that are written. -/
lemma sortBy_toMillis (unit : TimeUnit) (trades : List Trade) :
    sortBy (fun t => unit.toMillis t.time) trades = sortBy Trade.time trades := by
  simp only [sortBy, unit.toMillis_le_iff]

/-- Trades in another order that keep their ties are put in the same order. -/
theorem KeepsTies.ordered_eq (h : KeepsTies xs ys) (unit : TimeUnit) :
    ordered unit xs = ordered unit ys := by
  have hsort : sortBy Trade.time xs = sortBy Trade.time ys := by
    apply eq_of_fibre_eq (inOrder_sortBy _ _) (inOrder_sortBy _ _)
    intro time
    rw [fibre_sortBy, fibre_sortBy, h time]
  rw [Resample.ordered_eq, Resample.ordered_eq, sortBy_toMillis, sortBy_toMillis, hsort]

theorem KeepsTies.build_eq (h : KeepsTies xs ys) (hperm : xs.Perm ys) (tf : Timeframe) :
    build tf xs = build tf ys := by
  rw [build, build, hperm.isEmpty_eq, detect_perm hperm]
  simp only [h.ordered_eq]

/-- The unit of the times is known, but a number on the way to the series is no word. -/
def Overflows (tf : Timeframe) (trades : List Trade) : Prop :=
  ∃ unit, TimeUnit.detect (trades.map (·.time)) = .ok unit ∧ ¬ Fits tf unit trades

theorem build_eq_overflow_iff : build tf xs = .error .overflow ↔ Overflows tf xs := by
  constructor
  · intro h
    by_cases hne : xs = []
    · subst hne
      cases h
    · cases hunit : TimeUnit.detect (xs.map (·.time)) with
      | error cause =>
        obtain ⟨-,rfl⟩ := TimeUnit.detect_eq_error_iff.mp hunit
        rw [build_of_detect_error hne hunit] at h
        cases h
      | ok unit =>
        refine ⟨unit,hunit,fun hfits => ?_⟩
        rw [build_of_fits hne hunit hfits] at h
        cases h
  · rintro ⟨unit,hunit,hfits⟩
    have hne := ne_nil_of_detect hunit
    rw [build_eq hne hunit, if_neg (mt (isTimely_ordered hne).mp hfits)]

theorem Overflows.perm (h : xs.Perm ys) (hx : Overflows tf xs) : Overflows tf ys := by
  obtain ⟨unit,hunit,hfits⟩ := hx
  exact ⟨unit,detect_perm h ▸ hunit,fun hy => hfits (hy.perm h.symm)⟩

/-- Two runs end alike: both refuse the times of the trades, naming the same two, or both make
candles that open at the same times. -/
inductive SameOutcome : Except Cause (List Candle) → Except Cause (List Candle) → Prop
  | invalidTimestamps (least greatest : Int) :
    SameOutcome (.error (.invalidTimestamps least greatest))
      (.error (.invalidTimestamps least greatest))
  | ok {cs ds : List Candle} (openTimes : cs.map Candle.openTime = ds.map Candle.openTime) :
    SameOutcome (.ok cs) (.ok ds)

theorem sameOutcome_perm (h : xs.Perm ys) (hx : ¬ Overflows tf xs) :
    SameOutcome (build tf xs) (build tf ys) := by
  by_cases hne : xs = []
  · subst hne
    obtain rfl := h.nil_eq
    exact .ok rfl
  · have hne' : ys ≠ [] := fun hy => hne (hy ▸ h).eq_nil
    have hdetect := detect_perm h
    cases hunit : TimeUnit.detect (xs.map (·.time)) with
    | error cause =>
      obtain ⟨-,rfl⟩ := TimeUnit.detect_eq_error_iff.mp hunit
      rw [build_of_detect_error hne hunit, build_of_detect_error hne' (hdetect ▸ hunit)]
      exact .invalidTimestamps ..
    | ok unit =>
      have hfits : Fits tf unit xs := by
        by_contra hfits
        exact hx ⟨unit,hunit,hfits⟩
      rw [build_of_fits hne hunit hfits, build_of_fits hne' (hdetect ▸ hunit) (hfits.perm h)]
      apply SameOutcome.ok
      rw [map_openTime_seriesOf, map_openTime_seriesOf, grid_perm h]

end Resample
end OrderFlow
