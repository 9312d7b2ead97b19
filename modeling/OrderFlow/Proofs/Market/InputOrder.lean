import Mathlib.Algebra.Order.Monoid.Unbundled.WithTop
import OrderFlow.Proofs.Decimal.Quotient
import OrderFlow.Proofs.Market.Coherence
import OrderFlow.Proofs.Market.ForwardFill
import OrderFlow.Proofs.Market.Reordering

/-! The order of the input. Candles of the same trades in another order agree in all that does not
hang on which of two trades at one time came first. -/
namespace OrderFlow
open Keyed

namespace Decimal

/-- The number that a result stands for, infinite if there is none. -/
def extended (x? : Option Decimal) : WithTop ℚ := x?.elim ⊤ fun x => x.value

lemma extended_some (x : Decimal) : extended (some x) = x.value := rfl

lemma map_value_of_extended {x? y? : Option Decimal} (h : extended x? = extended y?) :
    x?.map value = y?.map value := by
  cases x? with
  | none =>
    cases y? with
    | none => rfl
    | some y => cases h
  | some x =>
    cases y? with
    | none => cases h
    | some y => rw [Option.map_some, Option.map_some, WithTop.coe_injective h]

section
variable {p q : Decimal} {ps qs : List Decimal}

lemma value_le_of_maxOn? (hq : qs.maxOn? Decimal.value = some q) (hp : p ∈ qs) :
    p.value ≤ q.value := by
  have hle := List.le_apply_get_maxOn?_of_mem (f := Decimal.value) hp
  simpa only [hq, Option.get_some] using hle

lemma le_value_of_minOn? (hq : qs.minOn? Decimal.value = some q) (hp : p ∈ qs) :
    q.value ≤ p.value := by
  have hle := List.apply_get_minOn?_le_of_mem (f := Decimal.value) hp
  simpa only [hq, Option.get_some] using hle

/-- The highest of some prices is as high in any order. -/
lemma value_maxOn?_perm (h : ps.Perm qs) (hp : ps.maxOn? Decimal.value = some p)
    (hq : qs.maxOn? Decimal.value = some q) : p.value = q.value :=
  le_antisymm (value_le_of_maxOn? hq (h.mem_iff.mp (List.maxOn?_mem hp)))
    (value_le_of_maxOn? hp (h.mem_iff.mpr (List.maxOn?_mem hq)))

/-- The lowest of some prices is as low in any order. -/
lemma value_minOn?_perm (h : ps.Perm qs) (hp : ps.minOn? Decimal.value = some p)
    (hq : qs.minOn? Decimal.value = some q) : p.value = q.value :=
  le_antisymm (le_value_of_minOn? hp (h.mem_iff.mpr (List.minOn?_mem hq)))
    (le_value_of_minOn? hq (h.mem_iff.mp (List.minOn?_mem hp)))

end
end Decimal

/-- Price times quote quantity. -/
def Trade.weight (t : Trade) : WithTop ℚ := Decimal.extended (t.price.mul t.quoteQuantity)

/-- The sum of weighted prices takes the trade in without loss, if there is a product to add. -/
def Offer.Weighs (o : Offer) : Prop := ∀ sum ∈ o.bucket.weighted,
  ∀ product ∈ o.trade.price.mul o.trade.quoteQuantity,
    (sum.add product).isSome ∧ sum.AddsExactly product

instance (o : Offer) : Decidable o.Weighs := inferInstanceAs (Decidable (∀ _ ∈ _, ∀ _ ∈ _, _))

namespace Bucket
variable {b b' : Bucket} {ts ts' : List Trade}

/-- Buckets that may differ in the first and the last price, and in how decimals are written. -/
structure Agrees (b b' : Bucket) : Prop where
  openTime : b.openTime = b'.openTime
  highPrice : b.highPrice.value = b'.highPrice.value
  lowPrice : b.lowPrice.value = b'.lowPrice.value
  tradeCount : b.tradeCount = b'.tradeCount
  base : b.baseVolume.value = b'.baseVolume.value
  quote : b.quoteVolume.value = b'.quoteVolume.value
  buy : b.buyVolume.value = b'.buyVolume.value
  sell : b.sellVolume.value = b'.sellVolume.value

/-- Buckets of the same trades agree, in whatever order the trades came. -/
theorem Agrees.of_perm (h : ts.Perm ts') (hopen : b.openTime = b'.openTime) (hp : b.Prices ts)
    (hs : b.Sums ts) (hp' : b'.Prices ts') (hs' : b'.Sums ts') : b.Agrees b' where
  openTime := hopen
  highPrice := Decimal.value_maxOn?_perm (h.map _) hp.highPrice hp'.highPrice
  lowPrice := Decimal.value_minOn?_perm (h.map _) hp.lowPrice hp'.lowPrice
  tradeCount := by rw [hp.tradeCount, hp'.tradeCount, h.length_eq]
  base := by rw [hs.base, hs'.base, (h.map _).sum_eq]
  quote := by rw [hs.quote, hs'.quote, (h.map _).sum_eq]
  buy := by rw [hs.buy, hs'.buy, ((h.filter _).map _).sum_eq]
  sell := by rw [hs.sell, hs'.sell, ((h.filter _).map _).sum_eq]

/-- The sum of weighted prices, infinite once it has overflowed. -/
def weight (b : Bucket) : WithTop ℚ := Decimal.extended b.weighted

lemma extended_addWeighted {w : Option Decimal} {t : Trade}
    (h : ∀ sum ∈ w, ∀ product ∈ t.price.mul t.quoteQuantity,
      (sum.add product).isSome ∧ sum.AddsExactly product) :
    Decimal.extended (addWeighted w t) = Decimal.extended w + t.weight := by
  rw [Trade.weight]
  cases w with
  | none => exact (WithTop.top_add _).symm
  | some sum =>
    cases hproduct : t.price.mul t.quoteQuantity with
    | none =>
      rw [addWeighted, hproduct]
      exact (WithTop.add_top _).symm
    | some product =>
      obtain ⟨hsome,hexact⟩ := h sum rfl product hproduct
      obtain ⟨z,hz⟩ := Option.isSome_iff_exists.mp hsome
      have hadd : addWeighted (some sum) t = some z := by simp [addWeighted, hproduct, hz]
      rw [hadd, Decimal.extended_some, hexact z hz, WithTop.coe_add]
      rfl

/-- Where weighted prices are summed up without loss, the sum is that of the trades. -/
theorem ofTrades?_weight {openTime : Int} (hb : ofTrades? openTime ts = some b)
    (hweighs : ∀ o ∈ offersOf openTime ts, o.Weighs) :
    b.weight = ((Offer.accepted (offersOf openTime ts)).map Trade.weight).sum := by
  cases ts with
  | nil => cases hb
  | cons t rest =>
    have zero : (fresh openTime t.price).weight = 0 := by
      rw [weight, fresh, Decimal.extended_some, Decimal.value_zero]
      rfl
    apply ofTrades?_sum hb weight _ zero
    rintro ⟨b,u⟩ ho hc
    obtain ⟨base,quote,side,-,-,-,he⟩ := accept_of_counted hc
    rw [he]
    exact extended_addWeighted (hweighs _ ho)

/-- The volume-weighted price hangs on the numbers that are divided alone. -/
theorem vwap?_value_congr (hw : b.weight = b'.weight)
    (hquote : b.quoteVolume.value = b'.quoteVolume.value) :
    b.vwap?.map Decimal.value = b'.vwap?.map Decimal.value := by
  have hzero : b.quoteVolume.isZero = b'.quoteVolume.isZero := by
    rw [Bool.eq_iff_iff, Decimal.isZero_iff, Decimal.isZero_iff, hquote]
  have hmap := Decimal.map_value_of_extended hw
  rw [vwap?, vwap?, hzero]
  split_ifs
  · rfl
  · cases hb : b.weighted with
    | none =>
      rw [hb, Option.map_none, eq_comm, Option.map_eq_none_iff] at hmap
      rw [hmap]
      rfl
    | some sum =>
      rw [hb, Option.map_some, eq_comm, Option.map_eq_some_iff] at hmap
      obtain ⟨sum',hsum',hvalue⟩ := hmap
      rw [hsum']
      exact Decimal.div_value_congr hvalue.symm hquote

end Bucket

namespace Candle

/-- Candles of one period that may differ in their open and close, in prices that are filled from a
close, and in how decimals are written. -/
structure Agrees (c d : Candle) : Prop where
  openTime : c.openTime = d.openTime
  timeframe : c.timeframe = d.timeframe
  tradeCount : c.tradeCount = d.tradeCount
  highPrice : c.tradeCount ≠ 0 → c.highPrice.value = d.highPrice.value
  lowPrice : c.tradeCount ≠ 0 → c.lowPrice.value = d.lowPrice.value
  base : c.baseVolume.value = d.baseVolume.value
  quote : c.quoteVolume.value = d.quoteVolume.value
  buy : c.buyVolume.value = d.buyVolume.value
  sell : c.sellVolume.value = d.sellVolume.value
  depth : c.depth = d.depth

end Candle

namespace Resample
variable {tf : Timeframe} {unit : TimeUnit} {xs ys : List Trade}

/-- Candles of two runs show one volume-weighted price, or neither has one of its own and each fills
it from its own close. -/
def SameVwap (tf : Timeframe) (xs ys : List Trade) (c d : Candle) : Prop :=
  c.vwap.value = d.vwap.value ∨
    (ownVwap? tf xs c = none ∧ c.vwap = c.closePrice) ∧
      ownVwap? tf ys d = none ∧ d.vwap = d.closePrice

/-- Two series agree candle by candle if the candles of a period agree whatever was carried there,
as long as what is carried agrees. -/
theorem forall₂_series {table table' : Int → Option Bucket} {agree : Candle → Candle → Prop}
    (carry : Carried → Carried → Prop) {openTimes : List Int} {last last' : Carried}
    (h : ∀ g ∈ openTimes, ∀ last last', carry last last' →
      agree (candleAt tf last g (table g)) (candleAt tf last' g (table' g)) ∧
      carry (last.after (candleAt tf last g (table g)) (table g))
        (last'.after (candleAt tf last' g (table' g)) (table' g)))
    (hlast : carry last last') :
    List.Forall₂ agree (series tf table openTimes last) (series tf table' openTimes last') := by
  induction openTimes generalizing last last' with
  | nil => exact .nil
  | cons g rest ih =>
    obtain ⟨hagree,hcarry⟩ := h g List.mem_cons_self last last' hlast
    rw [series_cons, series_cons]
    exact .cons hagree (ih (fun g' hg' => h g' (List.mem_cons_of_mem _ hg')) hcarry)

lemma traded_agrees {b b' : Bucket} (h : b.Agrees b') (last last' : Carried) :
    (traded tf last b).Agrees (traded tf last' b') :=
  ⟨h.openTime,rfl,h.tradeCount,fun _ => h.highPrice,fun _ => h.lowPrice,h.base,h.quote,h.buy,
    h.sell,rfl⟩

lemma untraded_agrees (openTime : Int) (last last' : Carried) :
    (untraded tf last openTime).Agrees (untraded tf last' openTime) :=
  ⟨rfl,rfl,rfl,fun h => absurd rfl h,fun h => absurd rfl h,rfl,rfl,rfl,rfl,rfl⟩

/-- A period has a bucket in any order of the trades, or in none. -/
lemma table_perm (h : xs.Perm ys) (tf : Timeframe) (unit : TimeUnit) (g : Int) :
    table tf unit xs g = none ∧ table tf unit ys g = none ∨
      ∃ b b', table tf unit xs g = some b ∧ table tf unit ys g = some b' := by
  have hperm := tradesOf_perm h tf unit g
  have hnone : table tf unit xs g = none ↔ table tf unit ys g = none := by
    rw [table_eq_none_iff, table_eq_none_iff]
    exact ⟨fun hnil => (hnil ▸ hperm).nil_eq.symm,fun hnil => (hnil ▸ hperm).eq_nil⟩
  cases hx : table tf unit xs g with
  | none => exact Or.inl ⟨rfl,hnone.mp hx⟩
  | some b =>
    obtain ⟨b',hy⟩ := Option.ne_none_iff_exists'.mp (mt hnone.mpr (by simp [hx]))
    exact Or.inr ⟨b,b',rfl,hy⟩

lemma value_getD {x? y? : Option Decimal} (h : x?.map Decimal.value = y?.map Decimal.value)
    (x y : Decimal) : (x?.getD x).value = (y?.getD y).value ∨ x? = none ∧ y? = none := by
  cases x? with
  | none => exact Or.inr ⟨rfl,Option.map_eq_none_iff.mp h.symm⟩
  | some a =>
    obtain ⟨b,hb,hvalue⟩ := Option.map_eq_some_iff.mp h.symm
    left
    rw [hb]
    exact hvalue.symm

section
variable (h : xs.Perm ys) (hunit : TimeUnit.detect (xs.map (·.time)) = .ok unit)
  (hx : Lossless tf xs) (hy : Lossless tf ys)
include h hunit hx hy

theorem agrees_table {g : Int} (hg : g ∈ grid tf unit xs) {b b' : Bucket}
    (hb : table tf unit xs g = some b) (hb' : table tf unit ys g = some b') : b.Agrees b' := by
  have hunit' := detect_perm h ▸ hunit
  obtain ⟨hp,hs⟩ := hx.prices_and_sums hunit hg hb
  obtain ⟨hp',hs'⟩ := hy.prices_and_sums hunit' (grid_perm h tf unit ▸ hg) hb'
  have hopen := (Bucket.ofTrades?_openTime hb).trans (Bucket.ofTrades?_openTime hb').symm
  exact .of_perm (tradesOf_perm h tf unit g) hopen hp hs hp' hs'

/-- The candles of trades in two orders agree. -/
theorem agrees_seriesOf :
    List.Forall₂ Candle.Agrees (seriesOf tf unit xs) (seriesOf tf unit ys) := by
  rw [seriesOf, seriesOf, ← grid_perm h]
  apply forall₂_series (fun _ _ => True) _ trivial
  intro g hg last last' _
  refine ⟨?_,trivial⟩
  rcases table_perm h tf unit g with ⟨hb,hb'⟩ | ⟨b,b',hb,hb'⟩
  · rw [hb, hb']
    exact untraded_agrees g last last'
  · rw [hb, hb']
    exact traded_agrees (agrees_table h hunit hx hy hg hb hb') last last'

theorem vwap?_table (hxw : ∀ o ∈ offers tf xs, o.Weighs) (hyw : ∀ o ∈ offers tf ys, o.Weighs)
    {g : Int} (hg : g ∈ grid tf unit xs) :
    ((table tf unit xs g).bind Bucket.vwap?).map Decimal.value =
      ((table tf unit ys g).bind Bucket.vwap?).map Decimal.value := by
  have hunit' := detect_perm h ▸ hunit
  have hg' := grid_perm h tf unit ▸ hg
  rcases table_perm h tf unit g with ⟨hb,hb'⟩ | ⟨b,b',hb,hb'⟩
  · rw [hb, hb']
  · have hweight := Bucket.ofTrades?_weight hb fun o ho =>
      hxw o (mem_offers_of_mem_grid hunit hg ho)
    have hweight' := Bucket.ofTrades?_weight hb' fun o ho =>
      hyw o (mem_offers_of_mem_grid hunit' hg' ho)
    rw [hx.accepted_eq hunit hg] at hweight
    rw [hy.accepted_eq hunit' hg'] at hweight'
    rw [hb, hb']
    apply Bucket.vwap?_value_congr
    · rw [hweight, hweight', ((tradesOf_perm h tf unit g).map _).sum_eq]
    · exact (agrees_table h hunit hx hy hg hb hb').quote

/-- Where weighted prices are summed up without loss too, the volume-weighted prices agree. -/
theorem sameVwap_seriesOf (hxw : ∀ o ∈ offers tf xs, o.Weighs)
    (hyw : ∀ o ∈ offers tf ys, o.Weighs) :
    List.Forall₂ (SameVwap tf xs ys) (seriesOf tf unit xs) (seriesOf tf unit ys) := by
  rw [seriesOf, seriesOf, ← grid_perm h]
  apply forall₂_series (fun last last' =>
    last.vwap.map Decimal.value = last'.vwap.map Decimal.value) _ rfl
  intro g hg last last' hlast
  have hown := vwap?_table h hunit hx hy hxw hyw hg
  have hcarry : (((table tf unit xs g).bind Bucket.vwap?).or last.vwap).map Decimal.value =
      (((table tf unit ys g).bind Bucket.vwap?).or last'.vwap).map Decimal.value := by
    rw [Option.map_or, Option.map_or, hown, hlast]
  refine ⟨?_,hcarry⟩
  rw [SameVwap, ownVwap?_candleAt hunit, ownVwap?_candleAt (detect_perm h ▸ hunit), candleAt_vwap,
    candleAt_vwap]
  refine Or.imp_right ?_ (value_getD hcarry _ _)
  rintro ⟨hnone,hnone'⟩
  rw [hnone, hnone']
  exact ⟨⟨(Option.or_eq_none_iff.mp hnone).1,rfl⟩,(Option.or_eq_none_iff.mp hnone').1,rfl⟩

end

/-- Two runs over the same trades in another order end alike, or both overflow, which hangs on the
times alone. If trades of one time keep their order they make the same candles. In any order, as
long as no trade is skipped and no sum is rounded, the candles differ at most in their open and
close, and in what is filled from a close. -/
theorem build_perm (tf : Timeframe) (h : xs.Perm ys) :
    (¬ Overflows tf xs → SameOutcome (build tf xs) (build tf ys)) ∧
    (Overflows tf xs → build tf xs = .error .overflow ∧ build tf ys = .error .overflow) ∧
    (KeepsTies xs ys → build tf xs = build tf ys) ∧
    (Lossless tf xs → Lossless tf ys → ∀ cs ds, build tf xs = .ok cs → build tf ys = .ok ds →
      List.Forall₂ Candle.Agrees cs ds ∧
      ((∀ o ∈ offers tf xs, o.Weighs) → (∀ o ∈ offers tf ys, o.Weighs) →
        List.Forall₂ (SameVwap tf xs ys) cs ds)) := by
  refine ⟨sameOutcome_perm h,?_,fun hties => hties.build_eq h tf,?_⟩
  · intro hx
    exact ⟨build_eq_overflow_iff.mpr hx,build_eq_overflow_iff.mpr (hx.perm h)⟩
  · intro hx hy cs ds hcs hds
    rcases build_eq_ok hcs with ⟨rfl,rfl⟩ | ⟨hne,unit,hunit,-,rfl⟩
    · obtain rfl := h.nil_eq
      cases hds
      exact ⟨.nil,fun _ _ => .nil⟩
    · rcases build_eq_ok hds with ⟨rfl,-⟩ | ⟨-,unit',hunit',-,rfl⟩
      · exact absurd h.eq_nil hne
      · obtain rfl : unit = unit' :=
          Except.ok.inj (hunit.symm.trans ((detect_perm h).trans hunit'))
        exact ⟨agrees_seriesOf h hunit hx hy,sameVwap_seriesOf h hunit hx hy⟩

/-- Two trades at one time, at different prices, and one two minutes later. -/
def tiedTrades : List Trade :=
  [⟨none,1704067200000,.scaled 10 0,.scaled 2 0,.scaled 20 0,false⟩,
   ⟨none,1704067200000,.scaled 115 1,.scaled 1 0,.scaled 115 1,true⟩,
   ⟨none,1704067320000,.scaled 12 0,.scaled 0 0,.scaled 0 0,false⟩]

/-- The tie the other way round. -/
def turnedTrades : List Trade :=
  [⟨none,1704067200000,.scaled 115 1,.scaled 1 0,.scaled 115 1,true⟩,
   ⟨none,1704067200000,.scaled 10 0,.scaled 2 0,.scaled 20 0,false⟩,
   ⟨none,1704067320000,.scaled 12 0,.scaled 0 0,.scaled 0 0,false⟩]

/-- The last trade first, and the tie as it was. -/
def lateFirstTrades : List Trade :=
  [⟨none,1704067320000,.scaled 12 0,.scaled 0 0,.scaled 0 0,false⟩,
   ⟨none,1704067200000,.scaled 10 0,.scaled 2 0,.scaled 20 0,false⟩,
   ⟨none,1704067200000,.scaled 115 1,.scaled 1 0,.scaled 115 1,true⟩]

theorem build_perm_tied : ∃ cs ds,
    tiedTrades.Perm turnedTrades ∧ tiedTrades.Perm lateFirstTrades ∧
    ¬ Overflows .oneMinute tiedTrades ∧
    SameOutcome (build .oneMinute tiedTrades) (build .oneMinute turnedTrades) ∧
    KeepsTies tiedTrades lateFirstTrades ∧
    build .oneMinute tiedTrades = .ok cs ∧ build .oneMinute turnedTrades = .ok ds ∧
    build .oneMinute lateFirstTrades = .ok cs ∧
    Lossless .oneMinute tiedTrades ∧ Lossless .oneMinute turnedTrades ∧
    (∀ o ∈ offers .oneMinute tiedTrades, o.Weighs) ∧
    (∀ o ∈ offers .oneMinute turnedTrades, o.Weighs) ∧
    List.Forall₂ Candle.Agrees cs ds ∧
    List.Forall₂ (SameVwap .oneMinute tiedTrades turnedTrades) cs ds ∧
    cs.map Candle.closePrice ≠ ds.map Candle.closePrice := by
  have hturned : tiedTrades.Perm turnedTrades := .swap ..
  have hlate : tiedTrades.Perm lateFirstTrades := by decide
  have hties : KeepsTies tiedTrades lateFirstTrades := by decide
  have hunit : TimeUnit.detect (tiedTrades.map (·.time)) = .ok .millis := by rfl
  have hfits : Fits .oneMinute .millis tiedTrades := ⟨by decide,by decide,by decide⟩
  have hcs := build_of_fits (by decide) hunit hfits
  have hds := build_of_fits (by decide) (detect_perm hturned ▸ hunit) (hfits.perm hturned)
  have hlossless (trades : List Trade)
      (hunit : TimeUnit.detect (trades.map (·.time)) = .ok .millis)
      (hord : trades.Pairwise fun a b => a.time ≤ b.time)
      (h : ∀ o ∈ offersIn .oneMinute (trades.map fun t => (t.time,t)),
        o.counted ∧ o.Exact ∧ o.Weighs) :
      Lossless .oneMinute trades ∧ ∀ o ∈ offers .oneMinute trades, o.Weighs := by
    have hoffers : offers .oneMinute trades =
        offersIn .oneMinute (trades.map fun t => (t.time,t)) :=
      offers_of_pairwise .oneMinute hunit hord
    rw [← hoffers] at h
    exact ⟨⟨fun o ho => (h o ho).1,fun o ho => (h o ho).2.1⟩,fun o ho => (h o ho).2.2⟩
  obtain ⟨hx,hxw⟩ := hlossless tiedTrades hunit (by decide) (by decide)
  obtain ⟨hy,hyw⟩ := hlossless turnedTrades (detect_perm hturned ▸ hunit) (by decide) (by decide)
  have hword : ¬ Overflows .oneMinute tiedTrades := by
    rw [← build_eq_overflow_iff, hcs]
    simp
  obtain ⟨hsameOutcome,-,-,hagree⟩ := build_perm .oneMinute hturned
  obtain ⟨hcandles,hvwap⟩ := hagree hx hy _ _ hcs hds
  have hsame := (build_perm .oneMinute hlate).2.2.1 hties
  have hcloses : (seriesOf .oneMinute .millis tiedTrades).map Candle.closePrice ≠
      (seriesOf .oneMinute .millis turnedTrades).map Candle.closePrice := by
    rw [← fill_ordered (by decide), ← fill_ordered (by decide), ordered_of_pairwise (by decide),
      ordered_of_pairwise (by decide)]
    decide
  exact ⟨_,_,hturned,hlate,hword,hsameOutcome hword,hties,hcs,hds,hsame ▸ hcs,hx,hy,hxw,hyw,
    hcandles,hvwap hxw hyw,hcloses⟩

/-- A trade so early that no word holds the start of its period, and one at a usual time. -/
def farTrades : List Trade :=
  [⟨none,-2 ^ 63,.scaled 1 0,.scaled 1 0,.scaled 1 0,false⟩,
   ⟨none,1704067200000,.scaled 1 0,.scaled 1 0,.scaled 1 0,false⟩]

/-- Where no word holds the start of a period there is neither outcome, in any order. -/
theorem exists_perm_overflow : farTrades.Perm farTrades.reverse ∧
    build .oneMinute farTrades = .error .overflow ∧
    ¬ SameOutcome (build .oneMinute farTrades) (build .oneMinute farTrades.reverse) := by
  have hoverflow : build .oneMinute farTrades = .error .overflow :=
    build_eq_overflow_iff.mpr ⟨.millis,rfl,fun h =>
      absurd (h.starts _ List.mem_cons_self) (by decide)⟩
  refine ⟨(List.reverse_perm _).symm,hoverflow,?_⟩
  rw [hoverflow]
  rintro ⟨⟩

end Resample
end OrderFlow
