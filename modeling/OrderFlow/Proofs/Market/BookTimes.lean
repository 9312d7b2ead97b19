import OrderFlow.Proofs.Market.SeriesOutcome

/-! Times of book summaries. Unlike those of trades they are taken as they are read, so one can lie
in a period that starts before the first word. Such a period has no start, and a series with depth
overflows on it; no other time can do that. -/
namespace OrderFlow

namespace Timeframe
variable {tf : Timeframe} {t : Int}

/-- The first start of a period that is a word. -/
def earliest (tf : Timeframe) : Int := -(2 ^ 63 / tf.millis) * tf.millis

theorem dvd_earliest (tf : Timeframe) : tf.millis ∣ tf.earliest := Int.dvd_mul_left ..

/-- A start is no word exactly before the first that is one. -/
theorem word_le_iff (h : tf.millis ∣ t) : -2 ^ 63 ≤ t ↔ tf.earliest ≤ t := by
  obtain ⟨k,rfl⟩ := h
  have hm := tf.millis_pos
  have hk : -k ≤ 2 ^ 63 / tf.millis ↔ -k * tf.millis ≤ 2 ^ 63 := Int.le_ediv_iff_mul_le hm
  rw [Int.neg_mul] at hk
  rw [earliest, Int.mul_comm tf.millis k, mul_le_mul_iff_left₀ hm]
  omega

theorem isSigned_periodStart_iff (h : t < 2 ^ 63) :
    isSigned (tf.periodStart t) = true ↔ tf.earliest ≤ t := by
  have hlt := (tf.periodStart_le t).trans_lt h
  rw [isSigned_iff, and_iff_left hlt, word_le_iff (tf.dvd_periodStart t),
    le_periodStart_iff tf.dvd_earliest]

theorem periodStart?_eq_none_iff (h : t < 2 ^ 63) :
    tf.periodStart? t = none ↔ t < tf.earliest := by
  rw [periodStart?, signed?, ite_eq_right_iff, ← not_le, ← isSigned_periodStart_iff h]
  simp

end Timeframe

namespace Document
open Json
variable {docs : List Json} {r : DepthRecord}

lemma summary?_time_le {j : Json} (h : summary? j = some r) : r.time ≤ int64High := by
  simp only [summary?, Option.bind_eq_bind, Option.bind_eq_some_iff] at h
  obtain ⟨ms,-,value,-,time,htime,h⟩ := h
  cases h
  exact looseInteger?_le htime

lemma snapshot?_time_le {j : Json} (h : snapshot? j = some r) : r.time ≤ int64High := by
  simp only [snapshot?, Option.bind_eq_bind, Option.bind_eq_some_iff] at h
  obtain ⟨ms,-,value,-,time,htime,depth,-,h⟩ := h
  cases h
  exact looseInteger?_le htime

/-- A record of a document was read from a summary or a snapshot in it. -/
lemma exists_of_mem_booksOf {d : Json} (h : r ∈ booksOf d) :
    ∃ j, summary? j = some r ∨ snapshot? j = some r := by
  rw [booksOf] at h
  split at h
  · cases h
  · split at h
    · obtain ⟨j,-,hj⟩ := List.mem_filterMap.mp h
      exact ⟨j,.inl hj⟩
    · obtain ⟨j,-,hj⟩ := List.mem_filterMap.mp h
      exact ⟨j,.inr hj⟩
    · obtain ⟨⟨key,value⟩,-,h⟩ := List.mem_flatMap.mp h
      dsimp only at h
      split at h
      · split_ifs at h
        · obtain ⟨j,-,hj⟩ := List.mem_filterMap.mp h
          exact ⟨j,.inr hj⟩
        · cases h
      · cases h

theorem bookTime_lt (h : r ∈ books docs) : r.time < 2 ^ 63 := by
  obtain ⟨d,-,hd⟩ := List.mem_flatMap.mp h
  obtain ⟨j,hj⟩ := exists_of_mem_booksOf hd
  have hle : r.time ≤ int64High := hj.elim summary?_time_le snapshot?_time_le
  rw [int64High] at hle
  omega

/-- One trade, and a summary of the book at the first time there is. -/
def distantDocuments : List Json :=
  [.object [("trades", .array [
      .object [("price", .string "1"), ("qty", .string "1"), ("time", .integer 1704067200000)]]),
    ("candles", .array [
      .object [("openTime", .integer (-2 ^ 63)), ("bidLiquidity", .integer 1)]])]]

lemma exists_first_distantDocuments : ∃ r ∈ books distantDocuments, r.time = -2 ^ 63 := by decide

end Document

namespace Series
variable {tf : Timeframe} {symbol : String} {docs : List Json}

lemma build_of_unfloored {candles : List Candle} (hne : Document.trades docs ≠ [])
    (h : Resample.build tf (Document.trades docs) = .ok candles) (hcandles : candles ≠ [])
    {r : DepthRecord} (hr : r ∈ Document.books docs)
    (hfloor : isSigned (tf.periodStart r.time) = false) :
    build tf symbol docs true = .error .overflow := by
  have hmerge : DepthMerge.merge? tf (Document.books docs) candles = none := by
    rw [DepthMerge.merge?, if_neg]
    rw [List.isEmpty_eq_false_iff.mpr hcandles, Bool.false_or, List.all_eq_true]
    intro hall
    rw [hall r hr] at hfloor
    cases hfloor
  simp [build, hne, h, hcandles, hmerge, bind, Except.bind, throw, throwThe, MonadExceptOf.throw]

lemma build_without_depth {candles : List Candle} (hne : Document.trades docs ≠ [])
    (h : Resample.build tf (Document.trades docs) = .ok candles) (hcandles : candles ≠ []) :
    build tf symbol docs false = .ok {
      symbol
      timeframe := tf
      candles
      fileCount := docs.length
      tradeCount := (Document.trades docs).length } := by
  simp [build, hne, h, hcandles, bind, Except.bind, pure, Except.pure]

lemma exists_candles (tf : Timeframe) {unit : TimeUnit}
    (hunit : TimeUnit.detect (Document.times docs) = .ok unit) :
    ∃ candles ≠ [], Document.trades docs ≠ [] ∧
      Resample.build tf (Document.trades docs) = .ok candles := by
  have hne := Resample.ne_nil_of_detect hunit
  have hfits := Resample.fits_of_times tf hunit fun t ht => Document.time_bounds ht
  obtain ⟨t,ht⟩ := List.exists_mem_of_ne_nil _ hne
  obtain ⟨c,hc,-⟩ := Resample.exists_candle tf unit ht
  exact ⟨_,List.ne_nil_of_mem hc,hne,Resample.build_of_fits hne hunit hfits⟩

/-- Trades either make candles, or fail in a way that depth plays no part in. -/
lemma trades_cases (tf : Timeframe) (symbol : String) (docs : List Json) :
    (∃ cause ≠ Cause.overflow, ∀ withDepth, build tf symbol docs withDepth = .error cause) ∨
    ∃ candles ≠ [], Document.trades docs ≠ [] ∧
      Resample.build tf (Document.trades docs) = .ok candles := by
  by_cases hne : Document.trades docs = []
  · left
    exact ⟨.noTrades symbol,by simp,fun _ => build_of_nil hne⟩
  · cases hunit : TimeUnit.detect (Document.times docs) with
    | error cause =>
      left
      obtain ⟨-,rfl⟩ := TimeUnit.detect_eq_error_iff.mp hunit
      exact ⟨_,by simp,fun _ => build_of_error hne (Resample.build_of_detect_error hne hunit)⟩
    | ok unit => exact .inr (exists_candles tf hunit)

/-- Reading depth overflows exactly where there is a series without it and some summary of the book
lies before the first period that has a start. -/
lemma build_eq_overflow_iff (tf : Timeframe) (symbol : String) (docs : List Json) :
    build tf symbol docs true = .error .overflow ↔
      (∃ s, build tf symbol docs false = .ok s) ∧
        ∃ r ∈ Document.books docs, r.time < tf.earliest := by
  rcases trades_cases tf symbol docs with ⟨cause,hcause,h⟩ | ⟨candles,hcandles,hne,h⟩
  · simp [h, hcause]
  · simp only [build_without_depth hne h hcandles, Except.ok.injEq, exists_eq', true_and]
    constructor
    · intro hover
      by_contra hall
      simp only [not_exists, not_and, not_lt] at hall
      have hfloor : ∀ r ∈ Document.books docs, isSigned (tf.periodStart r.time) = true :=
        fun r hr => (Timeframe.isSigned_periodStart_iff (Document.bookTime_lt hr)).mpr (hall r hr)
      rw [build_of_ok hne h hcandles hfloor] at hover
      cases hover
    · rintro ⟨r,hr,hlt⟩
      apply build_of_unfloored hne h hcandles hr
      rw [← Bool.not_eq_true, Timeframe.isSigned_periodStart_iff (Document.bookTime_lt hr)]
      omega

/-- The time of a summary always lies in the period that starts where it is floored to, but that
start is a word only from the first one on. Where it is none, and only there, a series that can be
built without depth overflows with it. -/
theorem build_depth_overflow (tf : Timeframe) (symbol : String) (docs : List Json) :
    (∀ r ∈ Document.books docs,
      tf.periodStart r.time ≤ r.time ∧ r.time < tf.periodStart r.time + tf.millis ∧
        (tf.periodStart? r.time = none ↔ r.time < tf.earliest)) ∧
    (build tf symbol docs true = .error .overflow ↔
      (∃ s, build tf symbol docs false = .ok s) ∧
        ∃ r ∈ Document.books docs, r.time < tf.earliest) := by
  refine ⟨fun r hr => ⟨tf.periodStart_le _,tf.lt_periodStart_add _,?_⟩,?_⟩
  · exact Timeframe.periodStart?_eq_none_iff (Document.bookTime_lt hr)
  · exact build_eq_overflow_iff tf symbol docs

lemma distantDocuments_candles (tf : Timeframe) :
    ∃ candles ≠ [], Document.trades Document.distantDocuments ≠ [] ∧
      Resample.build tf (Document.trades Document.distantDocuments) = .ok candles := by
  have h : ∃ t ∈ Document.writtenTrades Document.distantDocuments, 1000000000 < t.time := by decide
  obtain ⟨t,ht,hlt⟩ := h
  have hmem := List.mem_map_of_mem (f := (·.time)) (Document.mem_trades.mpr ht)
  obtain ⟨unit,hunit⟩ := TimeUnit.exists_detect_iff.mpr (hlt.trans_le (Resample.le_greatest hmem))
  exact exists_candles tf hunit

theorem build_depth_overflow_distant : ∃ r ∈ Document.books Document.distantDocuments,
    Timeframe.oneMinute.periodStart r.time ≤ r.time ∧
    r.time < Timeframe.oneMinute.periodStart r.time + Timeframe.oneMinute.millis ∧
    Timeframe.oneMinute.periodStart? r.time = none ∧
    build .oneMinute "XRPUSDT" Document.distantDocuments true = .error .overflow := by
  obtain ⟨r,hr,htime⟩ := Document.exists_first_distantDocuments
  have hlt : r.time < Timeframe.oneMinute.earliest := by
    rw [htime]
    decide
  obtain ⟨candles,hcandles,hne,h⟩ := distantDocuments_candles .oneMinute
  obtain ⟨hrecords,hbuild⟩ :=
    build_depth_overflow .oneMinute "XRPUSDT" Document.distantDocuments
  obtain ⟨hle,hend,hstart⟩ := hrecords r hr
  exact ⟨r,hr,hle,hend,hstart.mpr hlt,
    hbuild.mpr ⟨⟨_,build_without_depth hne h hcandles⟩,r,hr,hlt⟩⟩

/-- The first time there is has no start of a period, and a series with depth fails on it. -/
theorem exists_book_without_start : ∃ r ∈ Document.books Document.distantDocuments,
    isSigned (Timeframe.oneMinute.periodStart r.time) = false ∧
    (∃ s, build .oneMinute "XRPUSDT" Document.distantDocuments false = .ok s) ∧
    build .oneMinute "XRPUSDT" Document.distantDocuments true = .error .overflow := by
  obtain ⟨r,hr,htime⟩ := Document.exists_first_distantDocuments
  have hfloor : isSigned (Timeframe.oneMinute.periodStart r.time) = false := by
    rw [htime]
    decide
  obtain ⟨candles,hcandles,hne,h⟩ := distantDocuments_candles .oneMinute
  exact ⟨r,hr,hfloor,⟨_,build_without_depth hne h hcandles⟩,
    build_of_unfloored hne h hcandles hr hfloor⟩

end Series
end OrderFlow
