import OrderFlow.Proofs.Market.Times

/-! The unit of times. The two bounds that tell units apart are as far from each other as the units,
so trades told in milliseconds instead of seconds are understood as such and make the same candles:
buckets do not look at the times of their trades. -/
namespace OrderFlow

/-- A trade at another time. -/
def Trade.retime (f : Int → Int) (t : Trade) : Trade := { t with time := f t.time }

namespace TimeUnit
variable {times : List Int}

theorem detect_eq_seconds_iff :
    detect times = .ok seconds ↔ 1000000000 < greatest times ∧ greatest times ≤ 1000000000000 := by
  rw [detect]
  split_ifs <;> simp <;> omega

theorem detect_eq_millis_iff : detect times = .ok millis ↔ 1000000000000 < greatest times := by
  rw [detect]
  split_ifs <;> simp <;> omega

lemma greatest_mem (hne : times ≠ []) : greatest times ∈ times := by
  obtain ⟨m,hm⟩ := Option.ne_none_iff_exists'.mp (mt List.max?_eq_none_iff.mp hne)
  rw [greatest, hm]
  exact (List.max?_eq_some_iff.mp hm).1

theorem greatest_map_mul {c : Int} (hc : 0 ≤ c) (times : List Int) :
    greatest (times.map (· * c)) = greatest times * c := by
  by_cases hne : times = []
  · simp [hne, greatest]
  · apply Resample.greatest_eq
    · exact List.mem_map_of_mem (greatest_mem hne)
    · intro a ha
      obtain ⟨b,hb,rfl⟩ := List.mem_map.mp ha
      exact Int.mul_le_mul_of_nonneg_right (Resample.le_greatest hb) hc

/-- Seconds written as milliseconds are taken for milliseconds. -/
theorem detect_map_mul (h : detect times = .ok seconds) :
    detect (times.map (· * 1000)) = .ok millis := by
  rw [detect_eq_seconds_iff] at h
  rw [detect_eq_millis_iff, greatest_map_mul (by decide)]
  omega

/-- No time that is taken for seconds is too late for its milliseconds to be a word. -/
theorem le_of_detect_seconds (h : detect times = .ok seconds) {t : Int} (ht : t ∈ times) :
    t ≤ 1000000000000 :=
  (Resample.le_greatest ht).trans (detect_eq_seconds_iff.mp h).2

end TimeUnit

namespace Resample
open Keyed
variable {tf : Timeframe} {trades : List Trade} (f : Int → Int)

lemma accept_retime (b : Bucket) (t : Trade) : b.accept (t.retime f) = b.accept t := rfl

lemma start_retime (openTime : Int) (t : Trade) :
    Bucket.start openTime (t.retime f) = Bucket.start openTime t := rfl

theorem gather_retime (tf : Timeframe) (current : Bucket) (timed : List Timed) :
    gather tf current (timed.map (Prod.map id (Trade.retime f))) = gather tf current timed := by
  induction timed generalizing current with
  | nil => rfl
  | cons p rest ih =>
    obtain ⟨time,t⟩ := p
    simp only [List.map_cons, Prod.map_apply, id, gather, accept_retime, start_retime, ih]

theorem buckets_retime (tf : Timeframe) (timed : List Timed) :
    buckets tf (timed.map (Prod.map id (Trade.retime f))) = buckets tf timed := by
  cases timed with
  | nil => rfl
  | cons p rest => exact gather_retime f tf _ rest

lemma isTimely_retime (tf : Timeframe) (timed : List Timed) :
    isTimely tf (timed.map (Prod.map id (Trade.retime f))) = isTimely tf timed := by
  have hstarts : (timed.map (Prod.map id (Trade.retime f))).map (fun p => tf.periodStart p.1) =
      timed.map fun p => tf.periodStart p.1 := by
    rw [List.map_map]
    rfl
  rw [isTimely, isTimely, hstarts, List.all_map]
  rfl

variable {f}

/-- Trades at other times of another unit that mean the same are put in the same order. -/
theorem ordered_retime {unit unit' : TimeUnit}
    (h : ∀ time, unit'.toMillis (f time) = unit.toMillis time) (trades : List Trade) :
    ordered unit' (trades.map (Trade.retime f)) =
      (ordered unit trades).map (Prod.map id (Trade.retime f)) := by
  have hkey : (fun t : Trade => unit'.toMillis (t.retime f).time) =
      fun t => unit.toMillis t.time := by
    funext t
    exact h t.time
  rw [ordered_eq, ordered_eq, sortBy_map, hkey, List.map_map, List.map_map]
  apply List.map_congr_left
  intro t _
  simp only [Function.comp_apply, Prod.map_apply, id]
  rw [Trade.retime, h]

/-- What a run makes of trades hangs on their times in milliseconds alone, whatever unit they were
told in. -/
theorem build_retime {unit unit' : TimeUnit} (tf : Timeframe)
    (h : ∀ time, unit'.toMillis (f time) = unit.toMillis time)
    (hunit : TimeUnit.detect (trades.map (·.time)) = .ok unit)
    (hunit' : TimeUnit.detect ((trades.map (Trade.retime f)).map (·.time)) = .ok unit') :
    build tf (trades.map (Trade.retime f)) = build tf trades := by
  have hne := ne_nil_of_detect hunit
  have hne' := ne_nil_of_detect hunit'
  rw [build_eq hne hunit, build_eq hne' hunit', ← fill_ordered hne, ← fill_ordered hne',
    ordered_retime h, isTimely_retime, buckets_retime]

/-- Trades in seconds make the same candles once their times are written in milliseconds, and none
of these milliseconds overflows. -/
theorem build_seconds_to_millis (tf : Timeframe) (hpos : ∀ t ∈ trades, 0 < t.time)
    (hunit : TimeUnit.detect (trades.map (·.time)) = .ok .seconds) :
    TimeUnit.detect ((trades.map (Trade.retime (· * 1000))).map (·.time)) = .ok .millis ∧
    (∀ t ∈ trades, isSigned (t.time * 1000)) ∧
    ∃ candles, build tf trades = .ok candles ∧
      build tf (trades.map (Trade.retime (· * 1000))) = .ok candles := by
  have hle : ∀ t ∈ trades, t.time ≤ 1000000000000 :=
    fun t ht => TimeUnit.le_of_detect_seconds hunit (List.mem_map_of_mem ht)
  have htimes : (trades.map (Trade.retime (· * 1000))).map (·.time) =
      (trades.map (·.time)).map (· * 1000) := by
    rw [List.map_map, List.map_map]
    rfl
  have hunit' : TimeUnit.detect ((trades.map (Trade.retime (· * 1000))).map (·.time)) =
      .ok .millis := by
    rw [htimes]
    exact TimeUnit.detect_map_mul hunit
  have hwords : ∀ t ∈ trades, 0 < t.time ∧ t.time < 2 ^ 63 := by
    intro t ht
    have := hpos t ht
    have := hle t ht
    omega
  have hbuild := build_of_fits (ne_nil_of_detect hunit) hunit (fits_of_times tf hunit hwords)
  refine ⟨hunit',?_,_,hbuild,?_⟩
  · intro t ht
    have := hpos t ht
    have := hle t ht
    rw [isSigned_iff]
    omega
  · rw [← hbuild]
    exact build_retime tf (fun _ => rfl) hunit hunit'

/-- A trade, two earlier ones of one second, and one at the last time that is taken for seconds. -/
def olderTrades : List Trade :=
  [⟨none,999999999980,.scaled 12 0,.scaled 1 0,.scaled 12 0,true⟩,
   ⟨none,999999999940,.scaled 10 0,.scaled 2 0,.scaled 20 0,false⟩,
   ⟨none,999999999940,.scaled 115 1,.scaled 2 0,.scaled 230 1,false⟩,
   ⟨none,1000000000000,.scaled 11 0,.scaled 1 0,.scaled 11 0,false⟩]

theorem build_seconds_to_millis_older : ∃ candles,
    (∀ t ∈ olderTrades, 0 < t.time) ∧
    TimeUnit.detect (olderTrades.map (·.time)) = .ok .seconds ∧
    TimeUnit.detect ((olderTrades.map (Trade.retime (· * 1000))).map (·.time)) = .ok .millis ∧
    (∀ t ∈ olderTrades, isSigned (t.time * 1000)) ∧
    build .oneMinute olderTrades = .ok candles ∧
    build .oneMinute (olderTrades.map (Trade.retime (· * 1000))) = .ok candles := by
  have hpos : ∀ t ∈ olderTrades, 0 < t.time := by decide
  have hunit : TimeUnit.detect (olderTrades.map (·.time)) = .ok .seconds := by rfl
  obtain ⟨hunit',hwords,candles,hbuild,hbuild'⟩ := build_seconds_to_millis .oneMinute hpos hunit
  exact ⟨candles,hpos,hunit,hunit',hwords,hbuild,hbuild'⟩

end Resample
end OrderFlow
