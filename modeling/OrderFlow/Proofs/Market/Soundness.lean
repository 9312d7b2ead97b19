import OrderFlow.Feature.Column
import OrderFlow.Proofs.Decimal.Sign
import OrderFlow.Proofs.Document.Trades
import OrderFlow.Proofs.Market.Conservation
import OrderFlow.Proofs.Market.ForwardFill
import OrderFlow.Proofs.Market.Times

/-! Soundness of built candles. Counting or skipping a valid trade keeps a bucket sound, and a
candle without trades stands still at the close of a sound one. -/
namespace OrderFlow

lemma Trade.isValid_iff {t : Trade} : t.isValid = true ↔
    0 < t.price.value ∧ 0 ≤ t.quantity.value ∧ 0 ≤ t.quoteQuantity.value ∧ 0 < t.time := by
  simp [isValid, Decimal.isPositive_iff, Decimal.isNegative_eq_false_iff, and_assoc]

/-- The prices of a bucket are positive and inside its range, and no volume is negative. -/
structure Bucket.Sound (b : Bucket) : Prop where
  low_pos : 0 < b.lowPrice.value
  low_le_open : b.lowPrice.value ≤ b.openPrice.value
  low_le_close : b.lowPrice.value ≤ b.closePrice.value
  open_le_high : b.openPrice.value ≤ b.highPrice.value
  close_le_high : b.closePrice.value ≤ b.highPrice.value
  base : 0 ≤ b.baseVolume.value
  quote : 0 ≤ b.quoteVolume.value
  buy : 0 ≤ b.buyVolume.value
  sell : 0 ≤ b.sellVolume.value

namespace Bucket
variable {b : Bucket} {o : Offer} {ts : List Trade}

lemma fresh_sound (openTime : Int) {price : Decimal} (h : 0 < price.value) :
    (fresh openTime price).Sound := by
  have hzero : (0 : ℚ) ≤ Decimal.zero.value := Decimal.value_zero.ge
  exact ⟨h,le_refl _,le_refl _,le_refl _,le_refl _,hzero,hzero,hzero,hzero⟩

lemma Sound.side (h : b.Sound) (t : Trade) : 0 ≤ (b.sideVolume t).value := by
  rw [sideVolume]
  split
  · exact h.buy
  · exact h.sell

/-- A trade that is counted moves the range and adds to the volumes. -/
theorem Sound.accept (h : o.bucket.Sound) (hc : o.counted) (ht : o.trade.isValid = true) :
    (o.bucket.accept o.trade).Sound := by
  obtain ⟨hprice,hquantity,hquote,-⟩ := Trade.isValid_iff.mp ht
  obtain ⟨base,quote,side,hbase,hq,hside,he⟩ := accept_of_counted hc
  have hside := Decimal.add_nonneg (h.side o.trade) hquote hside
  rw [he]
  refine ⟨?_,?_,?_,?_,?_,?_,?_,?_,?_⟩
  · -- the low is one of two prices, both of them positive
    rcases minOn_eq_or (f := Decimal.value) (x := o.bucket.lowPrice) (y := o.trade.price) with
      hmin | hmin
    · rw [counting, hmin]
      exact h.low_pos
    · rw [counting, hmin]
      exact hprice
  · exact apply_minOn_le_left.trans h.low_le_open
  · exact apply_minOn_le_right
  · exact h.open_le_high.trans left_le_apply_maxOn
  · exact right_le_apply_maxOn
  · exact Decimal.add_nonneg h.base hquantity hbase
  · exact Decimal.add_nonneg h.quote hquote hq
  · rw [counting]
    split
    · exact hside
    · exact h.buy
  · rw [counting]
    split
    · exact h.sell
    · exact hside

theorem Sound.foldl_accept (h : b.Sound) (hts : ∀ t ∈ ts, t.isValid = true) :
    (ts.foldl Bucket.accept b).Sound :=
  foldl_accept_keeps h fun _ ho hc hsound =>
    hsound.accept hc (hts _ (trade_mem_of_mem_offers ho))

theorem ofTrades?_sound {openTime : Int} (hts : ∀ t ∈ ts, t.isValid = true)
    (hb : ofTrades? openTime ts = some b) : b.Sound := by
  cases ts with
  | nil => cases hb
  | cons t rest =>
    have ht := Trade.isValid_iff.mp (hts t List.mem_cons_self)
    rw [ofTrades?_cons, Option.some.injEq] at hb
    rw [← hb]
    exact (fresh_sound openTime ht.1).foldl_accept hts

end Bucket

namespace Candle
variable {c : Candle}

/-- A candle that can have happened, of which every column can be read. -/
structure Sound (c : Candle) : Prop where
  valid : c.isValid = true
  buy : c.buyVolume.isNegative = false
  sell : c.sellVolume.isNegative = false
  delta : c.delta?.isSome
  columns : ∀ column : Column, (column.value? c).isSome

lemma isValid_iff : c.isValid = true ↔
    (0 < c.openPrice.value ∧ 0 < c.highPrice.value ∧ 0 < c.lowPrice.value ∧
      0 < c.closePrice.value) ∧
    (c.openPrice.value ≤ c.highPrice.value ∧ c.closePrice.value ≤ c.highPrice.value ∧
      c.lowPrice.value ≤ c.highPrice.value ∧ c.lowPrice.value ≤ c.openPrice.value ∧
      c.lowPrice.value ≤ c.closePrice.value) ∧
    0 ≤ c.baseVolume.value ∧ 0 ≤ c.quoteVolume.value := by
  simp [isValid, isConsistent, Decimal.isPositive_iff, Decimal.isNegative_eq_false_iff,
    Decimal.le_iff, and_assoc]

/-- Only the difference of the sides can fail to be a decimal. -/
lemma isSome_value? (h : c.delta?.isSome) (column : Column) : (column.value? c).isSome := by
  cases column <;> first | rfl | exact (Option.isSome_map ..).trans h

lemma sound_of (hvalid : c.isValid = true) (hbuy : 0 ≤ c.buyVolume.value)
    (hsell : 0 ≤ c.sellVolume.value) : c.Sound := by
  have hdelta : c.delta?.isSome := Decimal.isSome_sub hbuy hsell
  exact ⟨hvalid,Decimal.isNegative_eq_false_iff.mpr hbuy,
    Decimal.isNegative_eq_false_iff.mpr hsell,hdelta,isSome_value? hdelta⟩

theorem Still.sound {price : Decimal} (hs : c.Still price) (h : 0 < price.value) :
    c.Sound := by
  have hzero : (0 : ℚ) ≤ Decimal.zero.value := Decimal.value_zero.ge
  apply Candle.sound_of
  · rw [Candle.isValid_iff, hs.openPrice, hs.highPrice, hs.lowPrice, hs.closePrice, hs.baseVolume,
      hs.quoteVolume]
    exact ⟨⟨h,h,h,h⟩,⟨le_refl _,le_refl _,le_refl _,le_refl _,le_refl _⟩,hzero,hzero⟩
  · rw [hs.buyVolume]
    exact hzero
  · rw [hs.sellVolume]
    exact hzero

end Candle

namespace Resample
variable {tf : Timeframe} {unit : TimeUnit} {trades : List Trade}

theorem Shows.sound {c : Candle} {b : Bucket} (hs : Shows c b) (h : b.Sound) : c.Sound := by
  have hopen := h.low_pos.trans_le h.low_le_open
  have hclose := h.low_pos.trans_le h.low_le_close
  apply Candle.sound_of
  · rw [Candle.isValid_iff, hs.openPrice, hs.highPrice, hs.lowPrice, hs.closePrice, hs.baseVolume,
      hs.quoteVolume]
    exact ⟨⟨hopen,hopen.trans_le h.open_le_high,h.low_pos,hclose⟩,
      ⟨h.open_le_high,h.close_le_high,h.low_le_open.trans h.open_le_high,h.low_le_open,
        h.low_le_close⟩,h.base,h.quote⟩
  · rw [hs.buyVolume]
    exact h.buy
  · rw [hs.sellVolume]
    exact h.sell

/-- Every candle of valid trades is sound. The price that one would take without any close before it
is never used. -/
theorem sound_seriesOf (hne : trades ≠ [])
    (hunit : TimeUnit.detect (trades.map (·.time)) = .ok unit)
    (hvalid : ∀ t ∈ trades, t.isValid = true) {c : Candle} (hc : c ∈ seriesOf tf unit trades) :
    c.Sound := by
  have hbucket : ∀ g b, table tf unit trades g = some b → b.Sound := by
    intro g b hb
    apply Bucket.ofTrades?_sound _ hb
    intro t ht
    exact hvalid t (mem_tradesOf.mp ht).1
  rcases mem_seriesOf hc with ⟨b,hb,hs⟩ | ⟨hnone,-⟩
  · exact hs.sound (hbucket _ b hb)
  · -- the close it stands at is of a candle before it, which shows a bucket
    obtain ⟨before,after,h⟩ := List.append_of_mem hc
    obtain ⟨price,hprice,hstill⟩ := (filledForward_seriesOf hne hunit).untraded before c after h
      ((tradeCount_eq_zero_iff_table hc).mpr hnone)
    obtain ⟨d,hd,hclose⟩ := exists_mem_of_latest? hprice
    have hds : d ∈ seriesOf tf unit trades := by simp [h, hd]
    rw [tradedClose?_eq hds] at hclose
    obtain ⟨b,hb,rfl⟩ := Option.map_eq_some_iff.mp hclose
    have hsound := hbucket _ b hb
    exact hstill.sound (hsound.low_pos.trans_le hsound.low_le_close)

/-- Valid trades make sound candles, whatever is skipped or filled in. As documents only give valid
trades, none of their candles ever fails the check. -/
theorem build_sound (tf : Timeframe) :
    (∀ trades candles, (∀ t ∈ trades, t.isValid = true) → build tf trades = .ok candles →
      ∀ c ∈ candles, c.Sound) ∧
    ∀ docs candles, build tf (Document.trades docs) = .ok candles →
      candles.countP (fun c => !c.isValid) = 0 := by
  have hsound : ∀ trades candles, (∀ t ∈ trades, t.isValid = true) →
      build tf trades = .ok candles → ∀ c ∈ candles, c.Sound := by
    intro trades candles hvalid hbuild
    rcases build_eq_ok hbuild with ⟨-,rfl⟩ | ⟨hne,unit,hunit,-,rfl⟩
    · simp
    · exact fun c hc => sound_seriesOf hne hunit hvalid hc
  refine ⟨hsound,?_⟩
  intro docs candles hbuild
  rw [List.countP_eq_zero]
  intro c hc
  have hvalid : ∀ t ∈ Document.trades docs, t.isValid = true :=
    fun t ht => (Document.exists_of_mem_trades ht).1
  rw [(hsound _ candles hvalid hbuild c hc).valid]
  decide

/-- Trades of which one is skipped and one comes after an empty minute, and trades of documents. -/
theorem build_sound_full : ∃ candles quoted, (∀ t ∈ fullTrades, t.isValid = true) ∧
    build .oneMinute fullTrades = .ok candles ∧ (∀ c ∈ candles, c.Sound) ∧
    build .oneMinute (Document.trades Document.mixedDocuments) = .ok quoted ∧
    quoted.countP (fun c => !c.isValid) = 0 := by
  have hvalid : ∀ t ∈ fullTrades, t.isValid = true := by decide
  have hunit : TimeUnit.detect (fullTrades.map (·.time)) = .ok .millis := by rfl
  have hfits : Fits .oneMinute .millis fullTrades := ⟨by decide,by decide,by decide⟩
  have hbuild := build_of_fits (by decide) hunit hfits
  obtain ⟨quoted,hquoted⟩ : ∃ quoted,
      build .oneMinute (Document.trades Document.mixedDocuments) = .ok quoted := by
    obtain ⟨t,ht,hlt⟩ := Document.exists_late_mixedDocuments
    obtain ⟨unit,hunit⟩ :=
      TimeUnit.exists_detect_iff.mpr (hlt.trans_le (le_greatest (List.mem_map_of_mem ht)))
    have hwords := fits_of_times .oneMinute hunit fun u hu => Document.time_bounds hu
    exact ⟨_,build_of_fits (List.ne_nil_of_mem ht) hunit hwords⟩
  obtain ⟨hsound,hcount⟩ := build_sound .oneMinute
  exact ⟨_,quoted,hvalid,hbuild,hsound _ _ hvalid hbuild,hquoted,hcount _ _ hquoted⟩

end Resample
end OrderFlow
