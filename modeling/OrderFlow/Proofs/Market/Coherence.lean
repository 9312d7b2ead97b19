import OrderFlow.Proofs.Market.Offers
import OrderFlow.Proofs.Market.Refinement

/-! Coherence of timeframes. A longer period is made of whole shorter ones, so the candle of the
longer period is what the traded candles of the shorter ones amount to. -/
namespace OrderFlow
open Keyed

namespace Candle

/-- The period of a candle lies inside the period of another. -/
def Inside (x y : Candle) : Prop :=
  y.openTime ≤ x.openTime ∧
    x.openTime + x.timeframe.millis ≤ y.openTime + y.timeframe.millis

instance (x y : Candle) : Decidable (x.Inside y) := inferInstanceAs (Decidable (_ ∧ _))

/-- A candle amounts to candles that follow each other. -/
structure Merges (y : Candle) (xs : List Candle) : Prop where
  openPrice : xs.head?.map Candle.openPrice = some y.openPrice
  closePrice : xs.getLast?.map Candle.closePrice = some y.closePrice
  highPrice : (xs.map Candle.highPrice).maxOn? Decimal.value = some y.highPrice
  lowPrice : (xs.map Candle.lowPrice).minOn? Decimal.value = some y.lowPrice
  tradeCount : y.tradeCount = (xs.map Candle.tradeCount).sum
  base : y.baseVolume.value = (xs.map fun x => x.baseVolume.value).sum
  quote : y.quoteVolume.value = (xs.map fun x => x.quoteVolume.value).sum
  buy : y.buyVolume.value = (xs.map fun x => x.buyVolume.value).sum
  sell : y.sellVolume.value = (xs.map fun x => x.sellVolume.value).sum

/-- A candle books some trades: it shows a bucket with their prices and volumes. -/
def Books (c : Candle) (ts : List Trade) : Prop :=
  ∃ b, Resample.Shows c b ∧ b.Prices ts ∧ b.Sums ts

/-- What is taken of trades and of candles part by part agrees on the whole if it agrees on every
part. -/
lemma whole_flatMap {β : Type*} (op : β → β → β) (whole : List Trade → β)
    (whole' : List Candle → β) (hnil : whole [] = whole' [])
    (happend : ∀ a b, whole (a ++ b) = op (whole a) (whole b))
    (hcons : ∀ x xs, whole' (x :: xs) = op (whole' [x]) (whole' xs))
    {parts : Candle → List Trade} {xs : List Candle}
    (hparts : ∀ x ∈ xs, whole (parts x) = whole' [x]) :
    whole (xs.flatMap parts) = whole' xs := by
  induction xs with
  | nil => exact hnil
  | cons x xs ih =>
    rw [List.flatMap_cons, happend, hcons, hparts x List.mem_cons_self,
      ih fun x' hx' => hparts x' (List.mem_cons_of_mem _ hx')]

lemma sum_flatMap {M : Type*} [AddCommMonoid M] {weight : Trade → M} {total : Candle → M}
    {parts : Candle → List Trade} {xs : List Candle}
    (h : ∀ x ∈ xs, total x = ((parts x).map weight).sum) :
    ((xs.flatMap parts).map weight).sum = (xs.map total).sum := by
  rw [Resample.sum_map_flatMap, List.map_congr_left h]

/-- A candle that books the trades of other candles in turn amounts to these candles. -/
theorem Books.merges {y : Candle} {xs : List Candle} {parts : Candle → List Trade}
    (hy : y.Books (xs.flatMap parts)) (hx : ∀ x ∈ xs, x.Books (parts x)) : y.Merges xs := by
  obtain ⟨b,hs,hp,hv⟩ := hy
  choose bucket shows prices sums using hx
  refine ⟨?_,?_,?_,?_,?_,?_,?_,?_,?_⟩
  · rw [hs.openPrice, ← hp.openPrice]
    symm
    apply whole_flatMap Option.or (fun ts => ts.head?.map Trade.price)
      (fun xs => xs.head?.map openPrice) rfl
    · simp [Option.map_or]
    · simp
    · intro x h
      rw [(prices x h).openPrice, ← (shows x h).openPrice]
      rfl
  · rw [hs.closePrice, ← hp.closePrice]
    symm
    apply whole_flatMap (fun a b => Option.or b a) (fun ts => ts.getLast?.map Trade.price)
      (fun xs => xs.getLast?.map closePrice) rfl
    · simp [Option.map_or]
    · intro x xs
      rw [← List.singleton_append, List.getLast?_append, Option.map_or]
    · intro x h
      rw [(prices x h).closePrice, ← (shows x h).closePrice]
      rfl
  · rw [hs.highPrice, ← hp.highPrice]
    symm
    apply whole_flatMap (Option.merge (maxOn Decimal.value))
      (fun ts => (ts.map Trade.price).maxOn? Decimal.value)
      (fun xs => (xs.map highPrice).maxOn? Decimal.value) rfl
    · simp
    · intro x xs
      rw [← List.singleton_append, List.map_append, List.maxOn?_append]
    · intro x h
      rw [(prices x h).highPrice, ← (shows x h).highPrice]
      rfl
  · rw [hs.lowPrice, ← hp.lowPrice]
    symm
    apply whole_flatMap (Option.merge (minOn Decimal.value))
      (fun ts => (ts.map Trade.price).minOn? Decimal.value)
      (fun xs => (xs.map lowPrice).minOn? Decimal.value) rfl
    · simp
    · intro x xs
      rw [← List.singleton_append, List.map_append, List.minOn?_append]
    · intro x h
      rw [(prices x h).lowPrice, ← (shows x h).lowPrice]
      rfl
  · rw [hs.tradeCount, hp.tradeCount, List.length_flatMap, List.map_congr_left]
    intro x h
    rw [(shows x h).tradeCount, (prices x h).tradeCount]
  · rw [hs.baseVolume, hv.base]
    apply sum_flatMap
    intro x h
    rw [(shows x h).baseVolume, (sums x h).base]
  · rw [hs.quoteVolume, hv.quote]
    apply sum_flatMap
    intro x h
    rw [(shows x h).quoteVolume, (sums x h).quote]
  · rw [hs.buyVolume, hv.buy, List.filter_flatMap]
    apply sum_flatMap
    intro x h
    rw [(shows x h).buyVolume, (sums x h).buy]
  · rw [hs.sellVolume, hv.sell, List.filter_flatMap]
    apply sum_flatMap
    intro x h
    rw [(shows x h).sellVolume, (sums x h).sell]

end Candle

namespace Resample
variable {tf fine coarse : Timeframe} {unit : TimeUnit} {trades : List Trade}

/-- No trade is skipped on the way, and no sum is rounded. -/
structure Lossless (tf : Timeframe) (trades : List Trade) : Prop where
  counted : ∀ o ∈ offers tf trades, o.counted
  exact : ∀ o ∈ offers tf trades, o.Exact

/-- The candles of a shorter and of a longer interval tell the same. -/
structure Coherent (xs ys : List Candle) : Prop where
  inOrder : xs.Pairwise fun a b => a.openTime < b.openTime
  /-- A shorter candle lies inside one longer candle. -/
  inside : ∀ x ∈ xs, ∃ y, ys.filter (fun y => x.Inside y) = [y]
  empty : ∀ y ∈ ys, y.tradeCount = 0 ↔ ∀ x ∈ xs, x.Inside y → x.tradeCount = 0
  merges : ∀ y ∈ ys, y.tradeCount ≠ 0 →
    y.Merges (xs.filter fun x => x.tradeCount ≠ 0 ∧ x.Inside y)

lemma timeframe_seriesOf {c : Candle} (hc : c ∈ seriesOf tf unit trades) : c.timeframe = tf := by
  obtain ⟨g,-,last,rfl⟩ := mem_series hc
  cases table tf unit trades g <;> rfl

section
variable (hunit : TimeUnit.detect (trades.map (·.time)) = .ok unit)
include hunit

lemma Lossless.accepted_eq (h : Lossless tf trades) {g : Int} (hg : g ∈ grid tf unit trades) :
    Offer.accepted (Bucket.offersOf g (tradesOf tf unit trades g)) = tradesOf tf unit trades g := by
  have hcounted : ∀ o ∈ Bucket.offersOf g (tradesOf tf unit trades g), o.counted :=
    fun o ho => h.counted o (mem_offers_of_mem_grid hunit hg ho)
  rw [Offer.accepted, List.filter_eq_self.mpr hcounted, Bucket.map_trade_offersOf]

/-- Where nothing is lost, a bucket has the prices and the volumes of all trades of its period. -/
theorem Lossless.prices_and_sums (h : Lossless tf trades) {g : Int}
    (hg : g ∈ grid tf unit trades) {b : Bucket} (hb : table tf unit trades g = some b) :
    b.Prices (tradesOf tf unit trades g) ∧ b.Sums (tradesOf tf unit trades g) := by
  have hprices := Bucket.ofTrades?_prices hb
  have hsums := Bucket.ofTrades?_sums hb fun o ho _ =>
    h.exact o (mem_offers_of_mem_grid hunit hg ho)
  rw [h.accepted_eq hunit hg] at hprices hsums
  exact ⟨hprices,hsums⟩

/-- Where nothing is lost, a candle books all trades of its period. -/
theorem Lossless.books (h : Lossless tf trades) {c : Candle} (hc : c ∈ seriesOf tf unit trades)
    (htraded : c.tradeCount ≠ 0) : c.Books (tradesOf tf unit trades c.openTime) := by
  rcases mem_seriesOf hc with ⟨b,hb,hs⟩ | ⟨hnone,-⟩
  · obtain ⟨hprices,hsums⟩ := h.prices_and_sums hunit (openTime_mem_grid hc) hb
    exact ⟨b,hs,hprices,hsums⟩
  · have hnil := tradesOf_eq_nil_iff.mp (table_eq_none_iff.mp hnone)
    exact absurd ((tradeCount_eq_zero_iff hc).mpr hnil) htraded

end

lemma periodOf_periodOf (h : fine.millis ∣ coarse.millis) (unit : TimeUnit) (t : Trade) :
    coarse.periodStart (periodOf fine unit t) = periodOf coarse unit t :=
  Timeframe.periodStart_periodStart h _

/-- The trades of a longer period that fall into a shorter one inside it are all its trades. -/
lemma fibre_tradesOf (h : fine.millis ∣ coarse.millis) (s : Int) :
    fibre (periodOf fine unit) s (tradesOf coarse unit trades (coarse.periodStart s)) =
      tradesOf fine unit trades s := by
  rw [tradesOf, fibre]
  refine (sortBy_filter _ _).symm.trans ?_
  rw [List.filter_filter, sortBy, tradesOf]
  congr 1
  apply List.filter_congr
  intro t _
  by_cases ht : periodOf fine unit t = s
  · have hcoarse : periodOf coarse unit t = coarse.periodStart s := by
      rw [← ht, periodOf_periodOf h]
    simp [ht, hcoarse]
  · simp [ht]

/-- The trades of a longer period are those of the shorter periods inside it, one after the
other. -/
theorem tradesOf_flatMap (h : fine.millis ∣ coarse.millis) (gs : List Int) {openTime : Int}
    (hord : gs.Pairwise (· < ·)) (hinside : ∀ g ∈ gs, coarse.periodStart g = openTime)
    (hcover : ∀ t ∈ trades, periodOf coarse unit t = openTime → periodOf fine unit t ∈ gs) :
    gs.flatMap (tradesOf fine unit trades) = tradesOf coarse unit trades openTime := by
  have hmillis : InOrder (fun t => unit.toMillis t.time)
      (tradesOf coarse unit trades openTime) := inOrder_sortBy _ _
  have hsorted : InOrder (periodOf fine unit) (tradesOf coarse unit trades openTime) :=
    hmillis.imp fun hab => fine.periodStart_mono hab
  rw [← flatMap_fibre hsorted hord]
  · apply List.flatMap_congr
    intro g hg
    rw [← hinside g hg, fibre_tradesOf h]
  · intro t ht
    obtain ⟨htrades,hperiod⟩ := mem_tradesOf.mp ht
    exact hcover t htrades hperiod

/-- The longer period around a shorter one of a series belongs to the longer series. -/
lemma periodStart_mem_grid (h : fine.millis ∣ coarse.millis) {s : Int}
    (hs : s ∈ grid fine unit trades) : coarse.periodStart s ∈ grid coarse unit trades := by
  obtain ⟨-,hfirst,hlast⟩ := mem_grid.mp hs
  have hf := coarse.periodStart_mono hfirst
  have hl := coarse.periodStart_mono hlast
  rw [firstStart, Timeframe.periodStart_periodStart h] at hf
  rw [lastStart, Timeframe.periodStart_periodStart h] at hl
  exact mem_grid.mpr ⟨coarse.dvd_periodStart s,hf,hl⟩

section
variable (h : fine.millis ∣ coarse.millis) {x y : Candle}
include h

/-- A candle lies inside the longer candle of the period around its own. -/
lemma inside_iff (hx : x ∈ seriesOf fine unit trades) (hy : y ∈ seriesOf coarse unit trades) :
    x.Inside y ↔ coarse.periodStart x.openTime = y.openTime := by
  rw [Candle.Inside, timeframe_seriesOf hx, timeframe_seriesOf hy]
  exact Timeframe.inside_iff h (mem_grid.mp (openTime_mem_grid hx)).1
    (mem_grid.mp (openTime_mem_grid hy)).1

theorem filter_inside (hx : x ∈ seriesOf fine unit trades) :
    ∃ y, (seriesOf coarse unit trades).filter (fun y => x.Inside y) = [y] := by
  obtain ⟨y,hy⟩ := filter_openTime (periodStart_mem_grid h (openTime_mem_grid hx))
  refine ⟨y,?_⟩
  rw [← hy]
  apply List.filter_congr
  intro y' hy'
  rw [decide_eq_decide, inside_iff h hx hy', eq_comm]

/-- A trade of a longer period makes a traded candle inside it. -/
lemma exists_inside (hy : y ∈ seriesOf coarse unit trades) {t : Trade} (ht : t ∈ trades)
    (hperiod : periodOf coarse unit t = y.openTime) :
    ∃ x ∈ seriesOf fine unit trades, x.openTime = periodOf fine unit t ∧ x.tradeCount ≠ 0 ∧
      x.Inside y := by
  obtain ⟨x,hx,hopen⟩ := exists_candle fine unit ht
  refine ⟨x,hx,hopen,?_,?_⟩
  · intro hzero
    exact (tradeCount_eq_zero_iff hx).mp hzero t ht hopen.symm
  · rw [inside_iff h hx hy, hopen, periodOf_periodOf h, hperiod]

theorem tradeCount_eq_zero_iff_inside (hy : y ∈ seriesOf coarse unit trades) :
    y.tradeCount = 0 ↔
      ∀ x ∈ seriesOf fine unit trades, x.Inside y → x.tradeCount = 0 := by
  constructor
  · intro hzero x hx hxy
    rw [tradeCount_eq_zero_iff hx]
    intro t ht hperiod
    apply (tradeCount_eq_zero_iff hy).mp hzero t ht
    rw [← periodOf_periodOf h, hperiod]
    exact (inside_iff h hx hy).mp hxy
  · intro hzero
    rw [tradeCount_eq_zero_iff hy]
    intro t ht hperiod
    obtain ⟨x,hx,-,hne,hxy⟩ := exists_inside h hy ht hperiod
    exact hne (hzero x hx hxy)

/-- The traded candles inside a longer candle hold its trades, one after the other. -/
theorem tradesOf_inside (hy : y ∈ seriesOf coarse unit trades) :
    ((seriesOf fine unit trades).filter fun x => x.tradeCount ≠ 0 ∧ x.Inside y).flatMap
      (fun x => tradesOf fine unit trades x.openTime) = tradesOf coarse unit trades y.openTime := by
  rw [← List.flatMap_map]
  apply tradesOf_flatMap h
  · rw [List.pairwise_map]
    exact (seriesOf_pairwise fine unit trades).filter _
  · intro g hg
    obtain ⟨x,hx,rfl⟩ := List.mem_map.mp hg
    obtain ⟨hx,hp⟩ := List.mem_filter.mp hx
    exact (inside_iff h hx hy).mp (decide_eq_true_eq.mp hp).2
  · intro t ht hperiod
    obtain ⟨x,hx,hopen,hxy⟩ := exists_inside h hy ht hperiod
    rw [← hopen]
    exact List.mem_map_of_mem (List.mem_filter.mpr ⟨hx,decide_eq_true_eq.mpr hxy⟩)

end

/-- Candles of two intervals of which one divides the other tell the same, as long as no trade is
skipped for either and no sum is rounded. -/
theorem build_coherent {xs ys : List Candle} (h : fine.millis ∣ coarse.millis)
    (hxs : build fine trades = .ok xs) (hys : build coarse trades = .ok ys)
    (hfine : Lossless fine trades) (hcoarse : Lossless coarse trades) : Coherent xs ys := by
  rcases build_eq_ok hxs with ⟨rfl,rfl⟩ | ⟨hne,unit,hunit,-,rfl⟩
  · cases hys
    exact ⟨List.Pairwise.nil,by simp,by simp,by simp⟩
  · rcases build_eq_ok hys with ⟨hnil,-⟩ | ⟨-,unit',hunit',-,rfl⟩
    · exact absurd hnil hne
    · rw [hunit] at hunit'
      cases hunit'
      refine ⟨seriesOf_pairwise fine unit trades,?_,?_,?_⟩
      · intro x hx
        exact filter_inside h hx
      · intro y hy
        exact tradeCount_eq_zero_iff_inside h hy
      · intro y hy htraded
        have hbooks := hcoarse.books hunit hy htraded
        rw [← tradesOf_inside h hy] at hbooks
        apply hbooks.merges
        intro x hx
        obtain ⟨hx,hp⟩ := List.mem_filter.mp hx
        exact hfine.books hunit hx (decide_eq_true_eq.mp hp).1

/-- Three trades in the first two of five minutes, and one after these. -/
def steadyTrades : List Trade :=
  [⟨none,1704067200000,.scaled 10 0,.scaled 2 0,.scaled 20 0,false⟩,
   ⟨none,1704067230000,.scaled 115 1,.scaled 1 0,.scaled 115 1,true⟩,
   ⟨none,1704067260000,.scaled 9 0,.scaled 5 1,.scaled 45 1,false⟩,
   ⟨none,1704067500000,.scaled 12 0,.scaled 1 0,.scaled 12 0,true⟩]

theorem build_coherent_steady : ∃ xs ys,
    Timeframe.oneMinute.millis ∣ Timeframe.fiveMinutes.millis ∧
    build .oneMinute steadyTrades = .ok xs ∧ build .fiveMinutes steadyTrades = .ok ys ∧
    Lossless .oneMinute steadyTrades ∧ Lossless .fiveMinutes steadyTrades ∧ Coherent xs ys := by
  have hunit : TimeUnit.detect (steadyTrades.map (·.time)) = .ok .millis := by rfl
  have hfine : Fits .oneMinute .millis steadyTrades := ⟨by decide,by decide,by decide⟩
  have hcoarse : Fits .fiveMinutes .millis steadyTrades := ⟨by decide,by decide,by decide⟩
  have hxs := build_of_fits (by decide) hunit hfine
  have hys := build_of_fits (by decide) hunit hcoarse
  have hlossless (tf : Timeframe)
      (h : ∀ o ∈ offersIn tf (steadyTrades.map fun t => (t.time,t)), o.counted ∧ o.Exact) :
      Lossless tf steadyTrades := by
    have hoffers : offers tf steadyTrades = _ := offers_of_pairwise tf hunit (by decide)
    constructor
    · intro o ho
      exact (h o (hoffers ▸ ho)).1
    · intro o ho
      exact (h o (hoffers ▸ ho)).2
  have hx := hlossless .oneMinute (by decide)
  have hy := hlossless .fiveMinutes (by decide)
  have hdvd : Timeframe.oneMinute.millis ∣ Timeframe.fiveMinutes.millis := by decide
  exact ⟨_,_,hdvd,hxs,hys,hx,hy,build_coherent hdvd hxs hys hx hy⟩

end Resample
end OrderFlow
