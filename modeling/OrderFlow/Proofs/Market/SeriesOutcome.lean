import Mathlib.Order.Bounds.Basic
import OrderFlow.Market.Series
import OrderFlow.Proofs.Document.Trades
import OrderFlow.Proofs.Market.DepthAsOf
import OrderFlow.Proofs.Market.Refinement
import OrderFlow.Proofs.Market.Times

/-! What becomes of documents. Whether they make a series, and if not why, is told by the times of
their trades alone; depth changes nothing else. -/
namespace OrderFlow

def Document.times (docs : List Json) : List Int := (trades docs).map (·.time)

namespace Series
variable {tf : Timeframe} {symbol : String} {docs : List Json} {withDepth : Bool}

def withoutDepth (s : Series) : Series := { s with candles := s.candles.map Candle.withoutDepth }

lemma build_of_nil (h : Document.trades docs = []) :
    build tf symbol docs withDepth = .error (.noTrades symbol) := by
  rw [build, h]
  rfl

lemma build_of_error {cause : Cause} (hne : Document.trades docs ≠ [])
    (h : Resample.build tf (Document.trades docs) = .error cause) :
    build tf symbol docs withDepth = .error cause := by
  have hempty : (Document.trades docs).isEmpty = false := List.isEmpty_eq_false_iff.mpr hne
  simp only [build, hempty, h]
  rfl

lemma build_of_ok {candles : List Candle} (hne : Document.trades docs ≠ [])
    (h : Resample.build tf (Document.trades docs) = .ok candles) (hcandles : candles ≠ [])
    (hfloor : ∀ r ∈ Document.books docs, isSigned (tf.periodStart r.time) = true) :
    build tf symbol docs withDepth = .ok {
      symbol
      timeframe := tf
      candles := if withDepth then DepthMerge.attach tf (Document.books docs) none candles
        else candles
      fileCount := docs.length
      tradeCount := (Document.trades docs).length } := by
  cases withDepth <;>
    simp [build, hne, h, hcandles, DepthMerge.merge?_eq candles hfloor, bind, Except.bind, pure,
      Except.pure]

/-- The candles of documents whose times have a known unit. -/
def candlesOf (tf : Timeframe) (docs : List Json) (unit : TimeUnit) (withDepth : Bool) :
    List Candle :=
  if withDepth then
    DepthMerge.attach tf (Document.books docs) none
      (Resample.seriesOf tf unit (Document.trades docs))
  else Resample.seriesOf tf unit (Document.trades docs)

lemma map_openTime_candlesOf (tf : Timeframe) (unit : TimeUnit) (withDepth : Bool)
    (hne : Document.trades docs ≠ []) :
    ∃ n, (candlesOf tf docs unit withDepth).map Candle.openTime =
      tf.starts (Resample.firstStart tf unit (Document.trades docs)) (n+1) := by
  obtain ⟨n,-,h⟩ := Resample.exists_map_openTime_seriesOf tf unit hne
  refine ⟨n,?_⟩
  cases withDepth with
  | false => exact h
  | true => exact (DepthMerge.map_openTime_attach ..).trans h

lemma withoutDepth_of_mem_seriesOf {unit : TimeUnit} {trades : List Trade} {c : Candle}
    (hc : c ∈ Resample.seriesOf tf unit trades) : c.withoutDepth = c := by
  obtain ⟨g,-,last,rfl⟩ := Resample.mem_series hc
  cases Resample.table tf unit trades g <;> rfl

lemma candlesOf_false (tf : Timeframe) (docs : List Json) (unit : TimeUnit) :
    candlesOf tf docs unit false = (candlesOf tf docs unit true).map Candle.withoutDepth := by
  have hself : (Resample.seriesOf tf unit (Document.trades docs)).map Candle.withoutDepth =
      Resample.seriesOf tf unit (Document.trades docs) :=
    (List.map_congr_left fun _ hc => withoutDepth_of_mem_seriesOf hc).trans (List.map_id' _)
  exact hself.symm.trans (DepthMerge.map_withoutDepth_attach ..).symm

/-- The three ways a run can go. The times of trades decide between them, and depth plays no part. -/
theorem build_cases (tf : Timeframe) (symbol : String)
    (hfloor : ∀ r ∈ Document.books docs, isSigned (tf.periodStart r.time) = true) :
    (Document.trades docs = [] ∧
      ∀ withDepth, build tf symbol docs withDepth = .error (.noTrades symbol)) ∨
    (Document.trades docs ≠ [] ∧ TimeUnit.greatest (Document.times docs) ≤ 1000000000 ∧
      ∀ withDepth, build tf symbol docs withDepth = .error (.invalidTimestamps
        (TimeUnit.least (Document.times docs)) (TimeUnit.greatest (Document.times docs)))) ∨
    (Document.trades docs ≠ [] ∧ 1000000000 < TimeUnit.greatest (Document.times docs) ∧
      ∃ unit, ∀ withDepth, build tf symbol docs withDepth = .ok {
        symbol
        timeframe := tf
        candles := candlesOf tf docs unit withDepth
        fileCount := docs.length
        tradeCount := (Document.trades docs).length }) := by
  by_cases hne : Document.trades docs = []
  · left
    exact ⟨hne,fun _ => build_of_nil hne⟩
  · right
    cases hunit : TimeUnit.detect (Document.times docs) with
    | error cause =>
      obtain ⟨hle,rfl⟩ := TimeUnit.detect_eq_error_iff.mp hunit
      left
      exact ⟨hne,hle,fun _ => build_of_error hne (Resample.build_of_detect_error hne hunit)⟩
    | ok unit =>
      right
      have hfits := Resample.fits_of_times tf hunit fun t ht => Document.time_bounds ht
      have hseries : Resample.seriesOf tf unit (Document.trades docs) ≠ [] := by
        obtain ⟨t,ht⟩ := List.exists_mem_of_ne_nil _ hne
        obtain ⟨c,hc,-⟩ := Resample.exists_candle tf unit ht
        exact List.ne_nil_of_mem hc
      refine ⟨hne,TimeUnit.exists_detect_iff.mp ⟨unit,hunit⟩,unit,fun _ => ?_⟩
      exact build_of_ok hne (Resample.build_of_fits hne hunit hfits) hseries hfloor

/-- Candles that open one period after the other, each at the start of a period. -/
def GapFree (tf : Timeframe) (candles : List Candle) : Prop :=
  ∃ first n, tf.millis ∣ first ∧ candles.map Candle.openTime = tf.starts first n

/-- What becomes of documents. -/
structure Outcomes (tf : Timeframe) (symbol : String) (docs : List Json) (withDepth : Bool) :
    Prop where
  noTrades : build tf symbol docs withDepth = .error (.noTrades symbol) ↔ Document.trades docs = []
  invalidTimestamps : ∀ least greatest, IsLeast {time | time ∈ Document.times docs} least →
    IsGreatest {time | time ∈ Document.times docs} greatest →
    (build tf symbol docs withDepth = .error (.invalidTimestamps least greatest) ↔
      greatest ≤ 1000000000)
  ok : (∃ time ∈ Document.times docs, 1000000000 < time) →
    ∃ s, build tf symbol docs withDepth = .ok s ∧ s.symbol = symbol ∧ s.timeframe = tf ∧
      s.candles ≠ [] ∧ GapFree tf s.candles ∧ s.tradeCount = (Document.trades docs).length ∧
      s.fileCount = docs.length
  noCandles : ∀ name, build tf symbol docs withDepth ≠ .error (.noCandles name)

section
variable (tf symbol) (hfloor : ∀ r ∈ Document.books docs, isSigned (tf.periodStart r.time) = true)
include hfloor

lemma build_noTrades_iff (withDepth : Bool) :
    build tf symbol docs withDepth = .error (.noTrades symbol) ↔ Document.trades docs = [] := by
  rcases build_cases tf symbol hfloor with ⟨hnil,h⟩ | ⟨hne,-,h⟩ | ⟨hne,-,unit,h⟩
  · rw [h withDepth]
    exact iff_of_true rfl hnil
  · rw [h withDepth]
    simp [hne]
  · rw [h withDepth]
    simp [hne]

lemma build_invalidTimestamps_iff (withDepth : Bool) {least greatest : Int}
    (hleast : IsLeast {time | time ∈ Document.times docs} least)
    (hgreatest : IsGreatest {time | time ∈ Document.times docs} greatest) :
    build tf symbol docs withDepth = .error (.invalidTimestamps least greatest) ↔
      greatest ≤ 1000000000 := by
  rw [← Resample.least_eq hleast.1 fun _ htime => hleast.2 htime,
    ← Resample.greatest_eq hgreatest.1 fun _ htime => hgreatest.2 htime]
  rcases build_cases tf symbol hfloor with ⟨hnil,-⟩ | ⟨-,hle,h⟩ | ⟨-,hlt,unit,h⟩
  · have hmem := hleast.1
    simp [Document.times, hnil] at hmem
  · rw [h withDepth]
    exact iff_of_true rfl hle
  · rw [h withDepth]
    simp [hlt]

lemma exists_build_ok (withDepth : Bool) (hlate : ∃ time ∈ Document.times docs, 1000000000 < time) :
    ∃ s, build tf symbol docs withDepth = .ok s ∧ s.symbol = symbol ∧ s.timeframe = tf ∧
      s.candles ≠ [] ∧ GapFree tf s.candles ∧ s.tradeCount = (Document.trades docs).length ∧
      s.fileCount = docs.length := by
  obtain ⟨time,htime,hlt⟩ := hlate
  rcases build_cases tf symbol hfloor with ⟨hnil,-⟩ | ⟨-,hle,-⟩ | ⟨hne,-,unit,h⟩
  · simp [Document.times, hnil] at htime
  · exact absurd (hlt.trans_le (Resample.le_greatest htime)) (not_lt.mpr hle)
  · obtain ⟨n,hopen⟩ := map_openTime_candlesOf tf unit withDepth hne
    refine ⟨_,h withDepth,rfl,rfl,?_,⟨_,n+1,tf.dvd_periodStart _,hopen⟩,rfl,rfl⟩
    intro (hnil : candlesOf tf docs unit withDepth = [])
    rw [hnil, Timeframe.starts_succ] at hopen
    cases hopen

lemma build_ne_noCandles (withDepth : Bool) (name : String) :
    build tf symbol docs withDepth ≠ .error (.noCandles name) := by
  rcases build_cases tf symbol hfloor with ⟨-,h⟩ | ⟨-,-,h⟩ | ⟨-,-,unit,h⟩
  · simp [h withDepth]
  · simp [h withDepth]
  · simp [h withDepth]

/-- Without depth the run is the same but for the depth of the candles, which is zero throughout. -/
lemma build_false : build tf symbol docs false = (build tf symbol docs true).map withoutDepth := by
  rcases build_cases tf symbol hfloor with ⟨-,h⟩ | ⟨-,-,h⟩ | ⟨-,-,unit,h⟩
  · rw [h false, h true]
    rfl
  · rw [h false, h true]
    rfl
  · rw [h false, h true]
    simp only [Except.map, withoutDepth, candlesOf_false]

end

/-- Documents without trades, or with trades at no time that can be told, make no series; all others
make one without gaps. Reading the book of the documents or not makes no difference to that, nor to
anything in the candles but their depth, which is zero throughout if the book is not read. -/
theorem build_outcome (tf : Timeframe) (symbol : String)
    (hfloor : ∀ r ∈ Document.books docs, isSigned (tf.periodStart r.time) = true) :
    (∀ withDepth, Outcomes tf symbol docs withDepth) ∧
      build tf symbol docs false = (build tf symbol docs true).map withoutDepth := by
  refine ⟨fun withDepth => ⟨?_,?_,?_,?_⟩,build_false tf symbol hfloor⟩
  · exact build_noTrades_iff tf symbol hfloor withDepth
  · intro least greatest hleast hgreatest
    exact build_invalidTimestamps_iff tf symbol hfloor withDepth hleast hgreatest
  · exact exists_build_ok tf symbol hfloor withDepth
  · exact build_ne_noCandles tf symbol hfloor withDepth

theorem build_outcome_mixed :
    (∀ r ∈ Document.books Document.mixedDocuments,
      isSigned (Timeframe.oneMinute.periodStart r.time) = true) ∧
    (∃ time ∈ Document.times Document.mixedDocuments, 1000000000 < time) ∧
    (∀ withDepth, Outcomes .oneMinute "XRPUSDT" Document.mixedDocuments withDepth) ∧
    build .oneMinute "XRPUSDT" Document.mixedDocuments false =
      (build .oneMinute "XRPUSDT" Document.mixedDocuments true).map withoutDepth := by
  have hfloor : ∀ r ∈ Document.books Document.mixedDocuments,
      isSigned (Timeframe.oneMinute.periodStart r.time) = true := by decide
  obtain ⟨t,ht,hlt⟩ := Document.exists_late_mixedDocuments
  exact ⟨hfloor,⟨_,List.mem_map_of_mem ht,hlt⟩,build_outcome .oneMinute "XRPUSDT" hfloor⟩

end Series
end OrderFlow
