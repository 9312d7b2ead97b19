import OrderFlow.Proofs.Market.Periods

/-! A series against its definition period by period: the trades of a period are taken out of the
whole input, put in order of time, and booked one after the other. The single pass over the sorted
trades yields exactly these buckets, each at its own period and none twice. -/
namespace OrderFlow.Resample
variable {tf : Timeframe} {unit : TimeUnit} {trades : List Trade}

/-- A candle shows the totals of a bucket. -/
structure Shows (c : Candle) (b : Bucket) : Prop where
  openTime : c.openTime = b.openTime
  openPrice : c.openPrice = b.openPrice
  highPrice : c.highPrice = b.highPrice
  lowPrice : c.lowPrice = b.lowPrice
  closePrice : c.closePrice = b.closePrice
  baseVolume : c.baseVolume = b.baseVolume
  quoteVolume : c.quoteVolume = b.quoteVolume
  buyVolume : c.buyVolume = b.buyVolume
  sellVolume : c.sellVolume = b.sellVolume
  tradeCount : c.tradeCount = b.tradeCount

lemma traded_shows (tf : Timeframe) (last : Carried) (b : Bucket) : Shows (traded tf last b) b :=
  ⟨rfl,rfl,rfl,rfl,rfl,rfl,rfl,rfl,rfl,rfl⟩

/-- A candle of a series shows the bucket of its period, or nothing where there is none. -/
theorem mem_seriesOf {c : Candle} (hc : c ∈ seriesOf tf unit trades) :
    (∃ b, table tf unit trades c.openTime = some b ∧ Shows c b) ∨
    table tf unit trades c.openTime = none ∧ ∃ last, c = untraded tf last c.openTime := by
  obtain ⟨g,-,last',rfl⟩ := mem_series hc
  rw [candleAt_openTime]
  cases hb : table tf unit trades g with
  | none =>
    right
    exact ⟨rfl,last',rfl⟩
  | some b =>
    left
    exact ⟨b,rfl,traded_shows tf last' b⟩

/-- A candle counts trades exactly if its period has some: the first trade is always counted. -/
theorem tradeCount_eq_zero_iff {c : Candle} (hc : c ∈ seriesOf tf unit trades) :
    c.tradeCount = 0 ↔ ∀ t ∈ trades, periodOf tf unit t ≠ c.openTime := by
  rw [← tradesOf_eq_nil_iff, ← table_eq_none_iff]
  rcases mem_seriesOf hc with ⟨b,hb,hs⟩ | ⟨hnone,last',he⟩
  · rw [hb, hs.tradeCount]
    simp [Bucket.ofTrades?_tradeCount_ne_zero hb]
  · rw [hnone, he]
    simp [untraded, Candle.flat]

/-- The candles are those that the trades of each period define. -/
structure PeriodByPeriod (tf : Timeframe) (unit : TimeUnit) (trades : List Trade)
    (candles : List Candle) : Prop where
  /-- The candles open at the first start, one period later and so on up to the last start. -/
  gapFree : ∃ n : Nat, lastStart tf unit trades = firstStart tf unit trades + n * tf.millis ∧
    candles.map Candle.openTime = tf.starts (firstStart tf unit trades) (n+1)
  empty : ∀ c ∈ candles,
    c.tradeCount = 0 ↔ ∀ t ∈ trades, periodOf tf unit t ≠ c.openTime
  traded : ∀ c ∈ candles, (∃ t ∈ trades, periodOf tf unit t = c.openTime) →
    ∃ first rest, tradesOf tf unit trades c.openTime = first :: rest ∧
      Shows c (rest.foldl Bucket.accept (Bucket.start c.openTime first))
  /-- The period of a trade has one candle. -/
  once : ∀ t ∈ trades, ∃ c, candles.filter (fun c => c.openTime = periodOf tf unit t) = [c]

/-- Resampling refines the definition period by period. -/
theorem build_periodByPeriod (hne : trades ≠ [])
    (hunit : TimeUnit.detect (trades.map (·.time)) = .ok unit) (hfits : Fits tf unit trades) :
    ∃ candles, build tf trades = .ok candles ∧ PeriodByPeriod tf unit trades candles := by
  refine ⟨_,build_of_fits hne hunit hfits,?_,?_,?_,?_⟩
  · obtain ⟨n,hn,hcount⟩ := Timeframe.periodsBetween_eq (tf.dvd_periodStart _)
      (tf.dvd_periodStart _) (firstStart_le_lastStart tf unit hne)
    refine ⟨n,hn,?_⟩
    rw [map_openTime_seriesOf, grid, ← hcount]
    rfl
  · intro c hc
    exact tradeCount_eq_zero_iff hc
  · rintro c hc ⟨t,ht,hperiod⟩
    rcases mem_seriesOf hc with ⟨b,hb,hs⟩ | ⟨hnone,-⟩
    · cases htrades : tradesOf tf unit trades c.openTime with
      | nil =>
        rw [table, htrades] at hb
        cases hb
      | cons first rest =>
        rw [table, htrades, Bucket.ofTrades?, Option.some.injEq] at hb
        exact ⟨first,rest,rfl,hb ▸ hs⟩
    · exact absurd hperiod (tradesOf_eq_nil_iff.mp (table_eq_none_iff.mp hnone) t ht)
  · intro t ht
    exact filter_openTime (periodOf_mem_grid ht)

theorem build_periodByPeriod_sparse : sparseTrades ≠ [] ∧
    TimeUnit.detect (sparseTrades.map (·.time)) = .ok .millis ∧
    Fits .oneMinute .millis sparseTrades ∧
    ∃ candles, build .oneMinute sparseTrades = .ok candles ∧
      PeriodByPeriod .oneMinute .millis sparseTrades candles := by
  have hne : sparseTrades ≠ [] := by decide
  have hunit : TimeUnit.detect (sparseTrades.map (·.time)) = .ok .millis := by rfl
  have hfits := sparseTrades_fit
  exact ⟨hne,hunit,hfits,build_periodByPeriod hne hunit hfits⟩

end OrderFlow.Resample
