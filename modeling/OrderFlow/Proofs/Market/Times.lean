import OrderFlow.Proofs.Market.Periods

/-! Times of trades. Positive times that are words stay words all the way: only small times are
seconds, so their milliseconds fit, and a period starts between the epoch and its times. -/
namespace OrderFlow

namespace TimeUnit
variable {times : List Int} {unit : TimeUnit}

theorem detect_eq_error_iff {cause : Cause} : detect times = .error cause ↔
    greatest times ≤ 1000000000 ∧ cause = .invalidTimestamps (least times) (greatest times) := by
  rw [detect]
  split_ifs with hmillis hseconds
  · simp
    omega
  · simp
    omega
  · simp only [Except.error.injEq, not_lt.mp hseconds, true_and]
    exact eq_comm

theorem exists_detect_iff : (∃ unit, detect times = .ok unit) ↔ 1000000000 < greatest times := by
  cases h : detect times with
  | ok unit =>
    simp only [Except.ok.injEq, exists_eq', true_iff]
    by_contra hle
    rw [detect_eq_error_iff.mpr ⟨not_lt.mp hle,rfl⟩] at h
    cases h
  | error cause =>
    have := (detect_eq_error_iff.mp h).1
    simp
    omega

/-- A time in a known unit is no later than the end of words, in milliseconds too. -/
theorem toMillis_bounds (hunit : detect times = .ok unit) {t : Int} (ht : t ∈ times) (hpos : 0 < t)
    (hword : t < 2 ^ 63) : 0 < unit.toMillis t ∧ unit.toMillis t < 2 ^ 63 := by
  cases unit with
  | millis => exact ⟨hpos,hword⟩
  | seconds =>
    have hle : t ≤ 1000000000000 := by
      apply (Resample.le_greatest ht).trans
      by_contra hlt
      rw [detect, if_pos (not_le.mp hlt)] at hunit
      cases hunit
    rw [toMillis]
    omega

end TimeUnit

namespace Timeframe

theorem periodStart_nonneg (tf : Timeframe) {t : Int} (h : 0 ≤ t) : 0 ≤ tf.periodStart t :=
  (le_periodStart_iff (Int.dvd_zero _)).mpr h

end Timeframe

namespace Resample
variable {tf : Timeframe} {unit : TimeUnit} {trades : List Trade}

lemma ne_nil_of_detect (hunit : TimeUnit.detect (trades.map (·.time)) = .ok unit) :
    trades ≠ [] := by
  rintro rfl
  cases hunit

lemma build_of_detect_error {cause : Cause} (hne : trades ≠ [])
    (h : TimeUnit.detect (trades.map (·.time)) = .error cause) :
    build tf trades = .error cause := by
  rw [build, if_neg (by simpa using hne), h]
  rfl

/-- Trades at positive times that are words fit, whatever the unit and the interval. -/
theorem fits_of_times (tf : Timeframe) (hunit : TimeUnit.detect (trades.map (·.time)) = .ok unit)
    (htimes : ∀ t ∈ trades, 0 < t.time ∧ t.time < 2 ^ 63) : Fits tf unit trades := by
  have hmillis : ∀ t ∈ trades, 0 < unit.toMillis t.time ∧ unit.toMillis t.time < 2 ^ 63 :=
    fun t ht => TimeUnit.toMillis_bounds hunit (List.mem_map_of_mem ht) (htimes t ht).1
      (htimes t ht).2
  have hstarts : ∀ t ∈ trades, 0 ≤ periodOf tf unit t ∧ periodOf tf unit t < 2 ^ 63 := by
    intro t ht
    obtain ⟨hpos,hword⟩ := hmillis t ht
    exact ⟨tf.periodStart_nonneg hpos.le,(tf.periodStart_le _).trans_lt hword⟩
  have hne := ne_nil_of_detect hunit
  obtain ⟨t,ht,hfirst⟩ := exists_firstStart tf unit hne
  obtain ⟨u,hu,hlast⟩ := exists_lastStart tf unit hne
  have hle := firstStart_le_lastStart tf unit hne
  refine ⟨?_,?_,?_⟩
  · intro v hv
    have := hmillis v hv
    rw [isSigned_iff]
    omega
  · intro v hv
    have := hstarts v hv
    rw [isSigned_iff]
    omega
  · have := hstarts t ht
    have := hstarts u hu
    rw [isSigned_iff]
    omega

end Resample
end OrderFlow
