import OrderFlow.Proofs.Latest
import OrderFlow.Proofs.Market.Offers
import OrderFlow.Proofs.Market.Refinement

/-! Prices carried over gaps. The walk carries the last close and the last volume-weighted price, of
which the second only changes at periods that have one of their own; so each candle shows what a
search backwards from it finds first. -/
namespace OrderFlow

/-- The sum of price times quote quantity over some trades; none once it has overflowed. -/
def Trade.weightedSum? (ts : List Trade) : Option Decimal :=
  ts.foldlM (fun sum t => do sum.add (← t.price.mul t.quoteQuantity)) .zero

namespace Bucket
variable {b : Bucket} {ts : List Trade}

lemma foldl_addWeighted (w : Option Decimal) (ts : List Trade) :
    ts.foldl addWeighted w =
      w.bind fun x => ts.foldlM (fun sum t => do sum.add (← t.price.mul t.quoteQuantity)) x := by
  induction ts generalizing w with
  | nil => cases w <;> rfl
  | cons t rest ih =>
    rw [List.foldl_cons, ih]
    cases w with
    | none => rfl
    | some x => rw [Option.bind_some, List.foldlM_cons]; rfl

theorem ofTrades?_weighted {openTime : Int} (hb : ofTrades? openTime ts = some b) :
    b.weighted = Trade.weightedSum? (Offer.accepted (offersOf openTime ts)) := by
  cases ts with
  | nil => cases hb
  | cons t rest =>
    rw [ofTrades?_part weighted addWeighted (fun _ _ _ _ _ => rfl) hb, foldl_addWeighted]
    rfl

end Bucket

namespace Candle

/-- A candle that stands still at a price, without volume. -/
structure Still (c : Candle) (price : Decimal) : Prop where
  openPrice : c.openPrice = price
  highPrice : c.highPrice = price
  lowPrice : c.lowPrice = price
  closePrice : c.closePrice = price
  baseVolume : c.baseVolume = .zero
  quoteVolume : c.quoteVolume = .zero
  buyVolume : c.buyVolume = .zero
  sellVolume : c.sellVolume = .zero
  tradeCount : c.tradeCount = 0

def tradedClose? (c : Candle) : Option Decimal :=
  if c.tradeCount = 0 then none else some c.closePrice

end Candle

namespace Resample
open Keyed
variable {tf : Timeframe} {unit : TimeUnit} {trades : List Trade}

section
variable {table : Int → Option Bucket}

def carriedPast (tf : Timeframe) (table : Int → Option Bucket) (last : Carried)
    (openTimes : List Int) : Carried :=
  openTimes.foldl (fun last g => last.after (candleAt tf last g (table g)) (table g)) last

lemma carriedPast_cons (last : Carried) (g : Int) (rest : List Int) :
    carriedPast tf table last (g :: rest) =
      carriedPast tf table (last.after (candleAt tf last g (table g)) (table g)) rest := rfl

/-- A candle of a series is made from what was carried past the candles before it. -/
theorem eq_candleAt_carriedPast {openTimes : List Int} {last : Carried} {before after : List Candle}
    {c : Candle}
    (hopen : ∀ g ∈ openTimes, ∀ last, (candleAt tf last g (table g)).openTime = g)
    (h : series tf table openTimes last = before ++ c :: after) :
    c = candleAt tf (carriedPast tf table last (before.map Candle.openTime)) c.openTime
      (table c.openTime) := by
  induction before generalizing openTimes last with
  | nil =>
    cases openTimes with
    | nil => cases h
    | cons g rest =>
      obtain ⟨hc,-⟩ := List.cons.inj h
      have hg := hopen g List.mem_cons_self last
      rw [hc] at hg
      rw [hg]
      exact hc.symm
  | cons d before ih =>
    cases openTimes with
    | nil => cases h
    | cons g rest =>
      obtain ⟨rfl,hrest⟩ := List.cons.inj h
      rw [List.map_cons, carriedPast_cons, hopen g List.mem_cons_self]
      exact ih (fun g' hg' => hopen g' (List.mem_cons_of_mem _ hg')) hrest

/-- The carried volume-weighted price is the latest that a period had of its own. -/
theorem carriedPast_vwap (last : Carried) (openTimes : List Int) :
    (carriedPast tf table last openTimes).vwap =
      (latest? (fun g => (table g).bind Bucket.vwap?) openTimes).or last.vwap := by
  induction openTimes generalizing last with
  | nil => rfl
  | cons g rest ih =>
    rw [carriedPast_cons, ih, latest?_cons, Option.or_assoc]
    rfl

/-- Once there is a close, the carried close is the latest of a period with trades. -/
theorem carriedPast_close {last : Carried} {price : Decimal} (h : last.close = some price)
    (openTimes : List Int) :
    (carriedPast tf table last openTimes).close =
      (latest? (fun g => (table g).map Bucket.closePrice) openTimes).or (some price) := by
  induction openTimes generalizing last price with
  | nil => exact h
  | cons g rest ih =>
    -- a candle without trades closes where the last one did, so it does not move the close
    have hstep : (last.after (candleAt tf last g (table g)) (table g)).close =
        some (((table g).map Bucket.closePrice).getD price) := by
      cases hb : table g with
      | none => simp [Carried.after, candleAt, untraded, Candle.flat, h]
      | some b => rfl
    rw [carriedPast_cons, ih hstep, latest?_cons, Option.or_assoc]
    congr 1
    cases table g <;> rfl

/-- The close comes from the first period, so nothing has to be carried into it. -/
theorem carriedPast_nothing_close {openTimes : List Int}
    (h : ∀ g ∈ openTimes.head?, (table g).isSome) :
    (carriedPast tf table .nothing openTimes).close =
      latest? (fun g => (table g).map Bucket.closePrice) openTimes := by
  cases openTimes with
  | nil => rfl
  | cons g rest =>
    obtain ⟨b,hb⟩ := Option.isSome_iff_exists.mp (h g rfl)
    rw [carriedPast_cons, latest?_cons, hb]
    exact carriedPast_close rfl rest

end

/-- The trades that a run counts in a period. -/
def countedIn (tf : Timeframe) (trades : List Trade) (openTime : Int) : List Trade :=
  Offer.accepted (fibre offerPeriod openTime (offers tf trades))

/-- The volume-weighted price that a candle has of its own: it holds trades and quote volume, the
sum of its weighted prices never overflowed, and the quotient exists. -/
def ownVwap? (tf : Timeframe) (trades : List Trade) (c : Candle) : Option Decimal :=
  if c.tradeCount = 0 ∨ c.quoteVolume.isZero then none
  else (Trade.weightedSum? (countedIn tf trades c.openTime)).bind (·.div c.quoteVolume)

/-- Candles carry prices over gaps. -/
structure FilledForward (tf : Timeframe) (trades : List Trade) (candles : List Candle) : Prop where
  /-- A candle shows its own volume-weighted price, else the latest one before it, else its
  close. -/
  vwap : ∀ before c after, candles = before ++ c :: after →
    c.vwap = ((ownVwap? tf trades c).or (latest? (ownVwap? tf trades) before)).getD c.closePrice
  /-- A candle without trades stands still at the latest close of one with trades. -/
  untraded : ∀ before c after, candles = before ++ c :: after → c.tradeCount = 0 →
    ∃ price, latest? Candle.tradedClose? before = some price ∧ c.Still price

lemma countedIn_eq (hunit : TimeUnit.detect (trades.map (·.time)) = .ok unit) (openTime : Int) :
    countedIn tf trades openTime =
      Offer.accepted (Bucket.offersOf openTime (tradesOf tf unit trades openTime)) := by
  rw [countedIn, offers, hunit]
  simp only
  rw [fibre_offersIn (inOrder_ordered tf unit trades), tradesIn_ordered]

lemma tradeCount_eq_zero_iff_table {c : Candle} (hc : c ∈ seriesOf tf unit trades) :
    c.tradeCount = 0 ↔ table tf unit trades c.openTime = none := by
  rw [tradeCount_eq_zero_iff hc, table_eq_none_iff, tradesOf_eq_nil_iff]

/-- A candle has the volume-weighted price of its bucket, whatever was carried to it. -/
lemma ownVwap?_candleAt (hunit : TimeUnit.detect (trades.map (·.time)) = .ok unit) (last : Carried)
    (g : Int) : ownVwap? tf trades (candleAt tf last g (table tf unit trades g)) =
      (table tf unit trades g).bind Bucket.vwap? := by
  cases hb : table tf unit trades g with
  | none => exact if_pos (Or.inl rfl)
  | some b =>
    have htraded : (candleAt tf last g (some b)).tradeCount ≠ 0 :=
      Bucket.ofTrades?_tradeCount_ne_zero hb
    have hopen : (candleAt tf last g (some b)).openTime = g := Bucket.ofTrades?_openTime hb
    rw [Option.bind_some, ownVwap?, hopen, countedIn_eq hunit, Bucket.vwap?,
      ← Bucket.ofTrades?_weighted hb]
    simp only [htraded, false_or]
    rfl

theorem ownVwap?_eq (hunit : TimeUnit.detect (trades.map (·.time)) = .ok unit) {c : Candle}
    (hc : c ∈ seriesOf tf unit trades) :
    ownVwap? tf trades c = (table tf unit trades c.openTime).bind Bucket.vwap? := by
  obtain ⟨g,-,last,rfl⟩ := mem_series hc
  rw [ownVwap?_candleAt hunit, candleAt_openTime]

theorem tradedClose?_eq {c : Candle} (hc : c ∈ seriesOf tf unit trades) :
    c.tradedClose? = (table tf unit trades c.openTime).map Bucket.closePrice := by
  have hzero := tradeCount_eq_zero_iff_table hc
  rcases mem_seriesOf hc with ⟨b,hb,hs⟩ | ⟨hnone,-⟩
  · rw [hb] at hzero ⊢
    have htraded : c.tradeCount ≠ 0 := by simp [hzero]
    rw [Candle.tradedClose?, if_neg htraded, hs.closePrice]
    rfl
  · rw [Candle.tradedClose?, if_pos (hzero.mpr hnone), hnone]
    rfl

lemma isSome_table_of_head {c : Candle} {rest : List Candle} (hne : trades ≠ [])
    (h : seriesOf tf unit trades = c :: rest) : (table tf unit trades c.openTime).isSome := by
  obtain ⟨n,-,hgrid⟩ := exists_map_openTime_seriesOf tf unit hne
  rw [h, List.map_cons, Timeframe.starts_succ] at hgrid
  obtain ⟨t,ht,hfirst⟩ := exists_firstStart tf unit hne
  rw [Option.isSome_iff_ne_none, Ne, table_eq_none_iff, tradesOf_eq_nil_iff]
  intro hnone
  exact hnone t ht (hfirst.trans (List.cons.inj hgrid).1.symm)

lemma candleAt_vwap (last : Carried) (openTime : Int) (bucket : Option Bucket) :
    (candleAt tf last openTime bucket).vwap =
      ((bucket.bind Bucket.vwap?).or last.vwap).getD
        (candleAt tf last openTime bucket).closePrice := by
  cases bucket <;> rfl

section
variable {before after : List Candle} {c : Candle}

lemma mem_of_eq_append (h : seriesOf tf unit trades = before ++ c :: after) :
    c ∈ seriesOf tf unit trades ∧ ∀ d ∈ before, d ∈ seriesOf tf unit trades := by
  rw [h]
  exact ⟨by simp,fun d hd => List.mem_append_left _ hd⟩

lemma vwap_carriedPast_before (hunit : TimeUnit.detect (trades.map (·.time)) = .ok unit)
    (h : seriesOf tf unit trades = before ++ c :: after) :
    (carriedPast tf (table tf unit trades) .nothing (before.map Candle.openTime)).vwap =
      latest? (ownVwap? tf trades) before := by
  have hbefore := (mem_of_eq_append h).2
  rw [carriedPast_vwap, latest?_map, latest?_congr fun d hd => ownVwap?_eq hunit (hbefore d hd)]
  exact Option.or_none ..

lemma close_carriedPast_before (hne : trades ≠ [])
    (h : seriesOf tf unit trades = before ++ c :: after) :
    (carriedPast tf (table tf unit trades) .nothing (before.map Candle.openTime)).close =
      latest? Candle.tradedClose? before := by
  have hbefore := (mem_of_eq_append h).2
  rw [carriedPast_nothing_close, latest?_map,
    latest?_congr fun d hd => tradedClose?_eq (hbefore d hd)]
  · rfl
  · cases before with
    | nil => simp
    | cons d rest => simpa using isSome_table_of_head hne h

/-- Before a candle without trades there is one with some, as the first has. -/
lemma exists_tradedClose (hne : trades ≠ []) (h : seriesOf tf unit trades = before ++ c :: after)
    (hnone : table tf unit trades c.openTime = none) :
    ∃ price, latest? Candle.tradedClose? before = some price := by
  cases before with
  | nil =>
    have hc := isSome_table_of_head hne h
    rw [hnone] at hc
    cases hc
  | cons d rest =>
    have hd := isSome_table_of_head hne h
    rw [← Option.isSome_iff_exists, isSome_latest?_iff]
    refine ⟨d,List.mem_cons_self,?_⟩
    rwa [tradedClose?_eq ((mem_of_eq_append h).2 d List.mem_cons_self), Option.isSome_map]

end

theorem filledForward_seriesOf (hne : trades ≠ [])
    (hunit : TimeUnit.detect (trades.map (·.time)) = .ok unit) :
    FilledForward tf trades (seriesOf tf unit trades) := by
  constructor
  · intro before c after h
    have hc := eq_candleAt_carriedPast (fun g _ last => candleAt_openTime last g) h
    rw [← vwap_carriedPast_before hunit h, ownVwap?_eq hunit (mem_of_eq_append h).1]
    -- only the price shown is opened, as the close on the right is of the candle itself
    conv_lhs => rw [hc, candleAt_vwap, ← hc]
  · intro before c after h hzero
    have hnone := (tradeCount_eq_zero_iff_table (mem_of_eq_append h).1).mp hzero
    have hc := eq_candleAt_carriedPast (fun g _ last => candleAt_openTime last g) h
    obtain ⟨price,hprice⟩ := exists_tradedClose hne h hnone
    refine ⟨price,hprice,?_⟩
    rw [hc, hnone, candleAt, untraded, close_carriedPast_before hne h, hprice]
    exact ⟨rfl,rfl,rfl,rfl,rfl,rfl,rfl,rfl,rfl⟩

/-- A series carries prices over gaps: a close from the latest candle with trades, and a
volume-weighted price from the latest candle that has one of its own, never a close in its place. -/
theorem build_filledForward {candles : List Candle} (hbuild : build tf trades = .ok candles) :
    FilledForward tf trades candles := by
  rcases build_eq_ok hbuild with ⟨-,rfl⟩ | ⟨hne,unit,hunit,-,rfl⟩
  · constructor <;> simp
  · exact filledForward_seriesOf hne hunit

/-- Trades in three minutes of five, of which only the one in the middle has volume. -/
def thinTrades : List Trade :=
  [⟨none,1704067200000,.scaled 7 0,.scaled 0 0,.scaled 0 0,false⟩,
   ⟨none,1704067320000,.scaled 10 0,.scaled 2 0,.scaled 20 0,false⟩,
   ⟨none,1704067440000,.scaled 20 0,.scaled 0 0,.scaled 0 0,true⟩]

theorem build_filledForward_thin : ∃ candles, build .oneMinute thinTrades = .ok candles ∧
    candles.length = 5 ∧ FilledForward .oneMinute thinTrades candles := by
  have hunit : TimeUnit.detect (thinTrades.map (·.time)) = .ok .millis := by rfl
  have hfits : Fits .oneMinute .millis thinTrades := ⟨by decide,by decide,by decide⟩
  have hbuild := build_of_fits (by decide) hunit hfits
  have hgrid := congrArg List.length (map_openTime_seriesOf .oneMinute .millis thinTrades)
  rw [List.length_map] at hgrid
  exact ⟨_,hbuild,hgrid.trans (by decide),build_filledForward hbuild⟩

end Resample
end OrderFlow
