import OrderFlow.Proofs.Market.Offers

/-! Conservation. Each trade is offered to one bucket and booked there as a whole or not at all, so
what the candles count and sum up is what the accepted trades amount to. -/
namespace OrderFlow
open Keyed

namespace Offer

/-- Trades offered are counted or left out, and none of them is both. -/
lemma accepted_append_skipped (os : List Offer) :
    (accepted os ++ skipped os).Perm (os.map trade) := by
  rw [accepted, skipped, ← List.map_append]
  exact (List.filter_append_perm counted os).map trade

lemma accepted_flatMap (gs : List Int) (f : Int → List Offer) :
    accepted (gs.flatMap f) = gs.flatMap fun g => accepted (f g) := by
  simp only [accepted, List.filter_flatMap, List.map_flatMap]

end Offer

namespace Resample
variable {tf : Timeframe} {unit : TimeUnit} {trades : List Trade}

/-- Trades of a run are neither lost nor counted twice. -/
structure TradesConserved (tf : Timeframe) (trades : List Trade) (candles : List Candle) :
    Prop where
  /-- Each trade is accepted or skipped, once. -/
  once : (Offer.accepted (offers tf trades) ++ Offer.skipped (offers tf trades)).Perm trades
  count : (candles.map Candle.tradeCount).sum + (Offer.skipped (offers tf trades)).length =
    trades.length
  /-- The first trade of a period is never the skipped one. -/
  first : ∀ openTime, ∀ o ∈ (fibre offerPeriod openTime (offers tf trades)).head?, o.counted

/-- The volumes are those of the accepted trades, each on the side that took it. -/
structure FlowConserved (tf : Timeframe) (trades : List Trade) (candles : List Candle) : Prop where
  sides : ∀ c ∈ candles, c.buyVolume.value + c.sellVolume.value = c.quoteVolume.value
  base : (candles.map fun c => c.baseVolume.value).sum =
    ((Offer.accepted (offers tf trades)).map fun t => t.quantity.value).sum
  buy : (candles.map fun c => c.buyVolume.value).sum =
    (((Offer.accepted (offers tf trades)).filter fun t => t.isTakerBuy).map
      fun t => t.quoteQuantity.value).sum
  sell : (candles.map fun c => c.sellVolume.value).sum =
    (((Offer.accepted (offers tf trades)).filter fun t => !t.isTakerBuy).map
      fun t => t.quoteQuantity.value).sum

lemma map_trade_offers (hunit : TimeUnit.detect (trades.map (·.time)) = .ok unit) :
    ((offers tf trades).map Offer.trade).Perm trades := by
  have hsnd (ts : List Trade) : (ts.map fun t => (unit.toMillis t.time,t)).map Prod.snd = ts := by
    rw [List.map_map]
    exact List.map_id' ts
  rw [offers, hunit]
  simp only
  rw [map_trade_offersIn, ordered_eq, hsnd]
  exact sortBy_perm ..

/-- A part of the candles that sums up the counted trades of each period sums up those of all. -/
lemma sum_seriesOf {M : Type*} [AddCommMonoid M] (part : Candle → M) (weight : Trade → M)
    (hunit : TimeUnit.detect (trades.map (·.time)) = .ok unit)
    (hnone : ∀ last g, part (untraded tf last g) = 0)
    (hsome : ∀ g ∈ grid tf unit trades, ∀ last b, table tf unit trades g = some b →
      part (traded tf last b) =
        ((Offer.accepted (Bucket.offersOf g (tradesOf tf unit trades g))).map weight).sum) :
    ((seriesOf tf unit trades).map part).sum =
      ((Offer.accepted (offers tf trades)).map weight).sum := by
  rw [seriesOf, map_series part fun g =>
    ((Offer.accepted (Bucket.offersOf g (tradesOf tf unit trades g))).map weight).sum]
  · rw [offers_eq hunit, Offer.accepted_flatMap, sum_map_flatMap]
  · intro g hg last
    cases hb : table tf unit trades g with
    | none =>
      rw [table_eq_none_iff.mp hb]
      exact hnone last g
    | some b => exact hsome g hg last b hb

theorem tradesConserved_seriesOf (hunit : TimeUnit.detect (trades.map (·.time)) = .ok unit) :
    TradesConserved tf trades (seriesOf tf unit trades) := by
  have honce := (Offer.accepted_append_skipped (offers tf trades)).trans (map_trade_offers hunit)
  refine ⟨honce,?_,?_⟩
  · rw [sum_seriesOf Candle.tradeCount (fun _ => 1) hunit (fun _ _ => rfl)]
    · rw [← honce.length_eq, List.length_append]
      simp
    · intro g _ last b hb
      have hcount : (traded tf last b).tradeCount = _ := (Bucket.ofTrades?_prices hb).tradeCount
      simpa using hcount
  · intro openTime o ho
    rw [offers, hunit] at ho
    simp only at ho
    rw [fibre_offersIn (inOrder_ordered tf unit trades)] at ho
    cases hts : tradesIn tf (ordered unit trades) openTime with
    | nil =>
      rw [hts] at ho
      cases ho
    | cons t rest =>
      rw [hts] at ho
      cases ho
      exact Bucket.fresh_counts openTime t.price t

theorem flowConserved_seriesOf (hunit : TimeUnit.detect (trades.map (·.time)) = .ok unit)
    (hexact : ∀ o ∈ offers tf trades, o.counted → o.Exact) :
    FlowConserved tf trades (seriesOf tf unit trades) := by
  have hsums : ∀ g ∈ grid tf unit trades, ∀ b, table tf unit trades g = some b →
      b.Sums (Offer.accepted (Bucket.offersOf g (tradesOf tf unit trades g))) := by
    intro g hg b hb
    apply Bucket.ofTrades?_sums hb
    intro o ho
    exact hexact o (mem_offers_of_mem_grid hunit hg ho)
  refine ⟨?_,?_,?_,?_⟩
  · intro c hc
    obtain ⟨g,hg,last,rfl⟩ := mem_series hc
    cases hb : table tf unit trades g with
    | none =>
      have hzero : Decimal.zero.value + Decimal.zero.value = Decimal.zero.value := by simp
      exact hzero
    | some b => exact (hsums g hg b hb).buy_add_sell
  · apply sum_seriesOf _ _ hunit fun _ _ => Decimal.value_zero
    intro g hg _ b hb
    exact (hsums g hg b hb).base
  · rw [Bucket.sum_filter]
    apply sum_seriesOf _ _ hunit fun _ _ => Decimal.value_zero
    intro g hg _ b hb
    rw [← Bucket.sum_filter]
    exact (hsums g hg b hb).buy
  · rw [Bucket.sum_filter]
    apply sum_seriesOf _ _ hunit fun _ _ => Decimal.value_zero
    intro g hg _ b hb
    rw [← Bucket.sum_filter]
    exact (hsums g hg b hb).sell

/-- A run conserves its trades, whatever overflows on the way; and where no sum is rounded, it
conserves their volumes. -/
theorem build_conserves {candles : List Candle} (hbuild : build tf trades = .ok candles) :
    TradesConserved tf trades candles ∧
      ((∀ o ∈ offers tf trades, o.counted → o.Exact) → FlowConserved tf trades candles) := by
  rcases build_eq_ok hbuild with ⟨rfl,rfl⟩ | ⟨-,unit,hunit,-,rfl⟩
  · have hnone : offers tf [] = [] := rfl
    refine ⟨⟨?_,?_,?_⟩,fun _ => ⟨?_,?_,?_,?_⟩⟩ <;> simp [hnone, Offer.accepted, Offer.skipped]
  · exact ⟨tradesConserved_seriesOf hunit,flowConserved_seriesOf hunit⟩

/-- Two trades of the greatest volume in one minute, of which the second is skipped, and a trade
two minutes later. -/
def fullTrades : List Trade :=
  [⟨none,1704067200000,.scaled 2 0,.scaled 1 0,.scaled 79228162514264337593543950335 0,false⟩,
   ⟨none,1704067201000,.scaled 5 0,.scaled 1 0,.scaled 79228162514264337593543950335 0,false⟩,
   ⟨none,1704067320000,.scaled 3 0,.scaled 15 1,.scaled 45 1,true⟩]

theorem build_conserves_full : ∃ candles, build .oneMinute fullTrades = .ok candles ∧
    (Offer.skipped (offers .oneMinute fullTrades)).length = 1 ∧
    (∀ o ∈ offers .oneMinute fullTrades, o.counted → o.Exact) ∧
    TradesConserved .oneMinute fullTrades candles ∧
    FlowConserved .oneMinute fullTrades candles := by
  have hunit : TimeUnit.detect (fullTrades.map (·.time)) = .ok .millis := by rfl
  have hfits : Fits .oneMinute .millis fullTrades := ⟨by decide,by decide,by decide⟩
  have hbuild := build_of_fits (by decide) hunit hfits
  have hoffers := offers_of_pairwise .oneMinute hunit (by decide)
  have hexact : ∀ o ∈ offers .oneMinute fullTrades, o.counted → o.Exact := by
    rw [hoffers]
    decide
  have hskipped : (Offer.skipped (offers .oneMinute fullTrades)).length = 1 := by
    rw [hoffers]
    decide
  obtain ⟨htrades,hflow⟩ := build_conserves hbuild
  exact ⟨_,hbuild,hskipped,hexact,htrades,hflow hexact⟩

end Resample
end OrderFlow
