import Mathlib.Algebra.BigOperators.Group.List.Basic
import OrderFlow.Market.Bucket
import OrderFlow.Proofs.Decimal.Value

/-! What a bucket holds after trades were offered to it in turn. A trade is counted as a whole or
left out as a whole, so every total of the bucket is a total over the counted trades. -/
namespace OrderFlow

/-- A trade offered to a bucket as it then was. -/
structure Offer where
  bucket : Bucket
  trade : Trade

/-- Does the bucket count the trade, or is the trade skipped because a volume overflows? -/
def Offer.counted (o : Offer) : Bool := (o.bucket.add? o.trade).isSome

/-- The three sums that count the trade lose nothing. -/
structure Offer.Exact (o : Offer) : Prop where
  base : o.bucket.baseVolume.AddsExactly o.trade.quantity
  quote : o.bucket.quoteVolume.AddsExactly o.trade.quoteQuantity
  side : (o.bucket.sideVolume o.trade).AddsExactly o.trade.quoteQuantity

instance (o : Offer) : Decidable o.Exact :=
  decidable_of_iff (o.bucket.baseVolume.AddsExactly o.trade.quantity ∧
    o.bucket.quoteVolume.AddsExactly o.trade.quoteQuantity ∧
    (o.bucket.sideVolume o.trade).AddsExactly o.trade.quoteQuantity)
    ⟨fun ⟨hb,hq,hs⟩ => ⟨hb,hq,hs⟩,fun h => ⟨h.base,h.quote,h.side⟩⟩

namespace Offer

def accepted (os : List Offer) : List Trade := (os.filter counted).map trade

def skipped (os : List Offer) : List Trade := (os.filter fun o => !o.counted).map trade

lemma accepted_cons_of {o : Offer} (h : o.counted = true) (os : List Offer) :
    accepted (o :: os) = o.trade :: accepted os := by simp [accepted, h]

lemma accepted_cons_of_not {o : Offer} (h : o.counted = false) (os : List Offer) :
    accepted (o :: os) = accepted os := by simp [accepted, h]

end Offer

namespace Bucket
variable {b b' : Bucket} {t : Trade} {ts : List Trade}

/-- A bucket that has counted a trade, given its new volumes. -/
def counting (b : Bucket) (t : Trade) (base quote side : Decimal) : Bucket where
  openTime := b.openTime
  openPrice := b.openPrice
  highPrice := maxOn Decimal.value b.highPrice t.price
  lowPrice := minOn Decimal.value b.lowPrice t.price
  closePrice := t.price
  baseVolume := base
  quoteVolume := quote
  buyVolume := if t.isTakerBuy then side else b.buyVolume
  sellVolume := if t.isTakerBuy then b.sellVolume else side
  tradeCount := b.tradeCount + 1
  weighted := addWeighted b.weighted t

lemma higher_eq (x y : Decimal) : (if x.lt y then y else x) = maxOn Decimal.value x y := by
  by_cases h : y.value ≤ x.value
  · rw [maxOn_eq_left h, if_neg]
    rw [Decimal.lt_iff]
    exact not_lt.mpr h
  · rw [maxOn_eq_right h, if_pos]
    rw [Decimal.lt_iff]
    exact not_le.mp h

lemma lower_eq (x y : Decimal) : (if y.lt x then y else x) = minOn Decimal.value x y := by
  by_cases h : x.value ≤ y.value
  · rw [minOn_eq_left h, if_neg]
    rw [Decimal.lt_iff]
    exact not_lt.mpr h
  · rw [minOn_eq_right h, if_pos]
    rw [Decimal.lt_iff]
    exact not_le.mp h

/-- A trade is counted exactly if all three volumes have a sum. -/
theorem add?_eq_some_iff : b.add? t = some b' ↔ ∃ base quote side,
    b.baseVolume.add t.quantity = some base ∧ b.quoteVolume.add t.quoteQuantity = some quote ∧
    (b.sideVolume t).add t.quoteQuantity = some side ∧ b' = b.counting t base quote side := by
  simp only [add?, higher_eq, lower_eq, Option.bind_eq_bind, Option.bind_eq_some_iff,
    Option.pure_def, Option.some.injEq]
  constructor
  · rintro ⟨base,hb,quote,hq,side,hs,rfl⟩
    exact ⟨base,quote,side,hb,hq,hs,rfl⟩
  · rintro ⟨base,quote,side,hb,hq,hs,rfl⟩
    exact ⟨base,hb,quote,hq,side,hs,rfl⟩

lemma accept_of_counted (h : (⟨b,t⟩ : Offer).counted) : ∃ base quote side,
    b.baseVolume.add t.quantity = some base ∧ b.quoteVolume.add t.quoteQuantity = some quote ∧
    (b.sideVolume t).add t.quoteQuantity = some side ∧
    b.accept t = b.counting t base quote side := by
  obtain ⟨b',hb'⟩ := Option.isSome_iff_exists.mp h
  obtain ⟨base,quote,side,hb,hq,hs,rfl⟩ := add?_eq_some_iff.mp hb'
  exact ⟨base,quote,side,hb,hq,hs,by rw [accept, hb', Option.getD_some]⟩

lemma accept_of_not_counted (h : (⟨b,t⟩ : Offer).counted = false) : b.accept t = b := by
  rw [Offer.counted, Option.isSome_eq_false_iff, Option.isNone_iff_eq_none] at h
  rw [accept, h, Option.getD_none]

@[simp] theorem accept_openTime (b : Bucket) (t : Trade) : (b.accept t).openTime = b.openTime := by
  cases h : (⟨b,t⟩ : Offer).counted with
  | false => rw [accept_of_not_counted h]
  | true =>
    obtain ⟨base,quote,side,-,-,-,he⟩ := accept_of_counted h
    rw [he, counting]

@[simp] theorem start_openTime (openTime : Int) (t : Trade) :
    (start openTime t).openTime = openTime := accept_openTime ..

/-- The offers of trades to a bucket in turn. -/
def offers (b : Bucket) : List Trade → List Offer
  | [] => []
  | t :: rest => ⟨b,t⟩ :: (b.accept t).offers rest

/-- Each trade is offered once, in turn. -/
lemma map_trade_offers (b : Bucket) (ts : List Trade) : (b.offers ts).map Offer.trade = ts := by
  induction ts generalizing b with
  | nil => rfl
  | cons t rest ih => rw [offers, List.map_cons, ih]

lemma trade_mem_of_mem_offers {o : Offer} (h : o ∈ b.offers ts) : o.trade ∈ ts := by
  rw [← map_trade_offers b ts]
  exact List.mem_map_of_mem h

/-- A bucket without volume counts any trade: sums that start from zero do not overflow. -/
theorem fresh_counts (openTime : Int) (price : Decimal) (t : Trade) :
    (⟨fresh openTime price,t⟩ : Offer).counted := by
  simp [Offer.counted, add?, fresh, sideVolume]

/-- What counting a trade keeps is kept over all offers. -/
lemma foldl_accept_keeps {P : Bucket → Prop} (hb : P b)
    (h : ∀ o ∈ b.offers ts, o.counted → P o.bucket → P (o.bucket.accept o.trade)) :
    P (ts.foldl accept b) := by
  induction ts generalizing b with
  | nil => exact hb
  | cons t rest ih =>
    refine ih ?_ fun o ho => h o (List.mem_cons_of_mem _ ho)
    cases hc : (⟨b,t⟩ : Offer).counted with
    | false =>
      rw [accept_of_not_counted hc]
      exact hb
    | true => exact h ⟨b,t⟩ List.mem_cons_self hc hb

/-- What each counted trade does to a part of the bucket, the counted trades do to it in turn. -/
theorem foldl_accept {β : Type*} (part : Bucket → β) (step : β → Trade → β)
    (h : ∀ o ∈ b.offers ts, o.counted →
      part (o.bucket.accept o.trade) = step (part o.bucket) o.trade) :
    part (ts.foldl accept b) = (Offer.accepted (b.offers ts)).foldl step (part b) := by
  induction ts generalizing b with
  | nil => rfl
  | cons t rest ih =>
    have hr := ih fun o ho => h o (List.mem_cons_of_mem _ ho)
    rw [List.foldl_cons, hr, offers]
    cases hc : (⟨b,t⟩ : Offer).counted with
    | false => rw [Offer.accepted_cons_of_not hc, accept_of_not_counted hc]
    | true =>
      have ht := h ⟨b,t⟩ List.mem_cons_self hc
      rw [Offer.accepted_cons_of hc, List.foldl_cons, ← ht]

theorem foldl_accept_sum {M : Type*} [AddCommMonoid M] (part : Bucket → M) (weight : Trade → M)
    (h : ∀ o ∈ b.offers ts, o.counted →
      part (o.bucket.accept o.trade) = part o.bucket + weight o.trade) :
    part (ts.foldl accept b) =
      part b + ((Offer.accepted (b.offers ts)).map weight).sum := by
  rw [foldl_accept part (fun m t => m + weight t) h, ← List.foldl_map (f := weight),
    List.foldl_eq_apply_foldr (x := part b), ← List.sum_eq_foldr]

/-- The bucket of some trades: the first opens it, the others are offered in turn. -/
def ofTrades? (openTime : Int) : List Trade → Option Bucket
  | [] => none
  | t :: rest => some (rest.foldl accept (.start openTime t))

/-- The offers by which the bucket of some trades comes about. -/
def offersOf (openTime : Int) : List Trade → List Offer
  | [] => []
  | t :: rest => (fresh openTime t.price).offers (t :: rest)

lemma map_trade_offersOf (openTime : Int) (ts : List Trade) :
    (offersOf openTime ts).map Offer.trade = ts := by
  cases ts with
  | nil => rfl
  | cons t rest => exact map_trade_offers ..

theorem ofTrades?_cons (openTime : Int) (t : Trade) (rest : List Trade) :
    ofTrades? openTime (t :: rest) = some ((t :: rest).foldl accept (fresh openTime t.price)) := rfl

/-- The first trade of a bucket is counted, whatever comes after it. -/
lemma accepted_offersOf_cons (openTime : Int) (t : Trade) (rest : List Trade) :
    Offer.accepted (offersOf openTime (t :: rest)) =
      t :: Offer.accepted ((start openTime t).offers rest) := by
  rw [offersOf, offers, Offer.accepted_cons_of (fresh_counts openTime t.price t), start]

/-- A part of the bucket that each counted trade changes in one way, whatever the new volumes are,
comes about from the counted trades in turn. -/
theorem ofTrades?_part {β : Type*} (part : Bucket → β) (step : β → Trade → β)
    (h : ∀ b t base quote side, part (counting b t base quote side) = step (part b) t)
    {openTime : Int} (hb : ofTrades? openTime (t :: ts) = some b) :
    part b = (Offer.accepted (offersOf openTime (t :: ts))).foldl step
      (part (fresh openTime t.price)) := by
  rw [ofTrades?_cons, Option.some.injEq] at hb
  rw [← hb, offersOf]
  apply foldl_accept
  rintro ⟨b,u⟩ - hc
  obtain ⟨base,quote,side,-,-,-,he⟩ := accept_of_counted hc
  rw [he, h]

theorem ofTrades?_openTime {openTime : Int} (hb : ofTrades? openTime ts = some b) :
    b.openTime = openTime := by
  cases ts with
  | nil => cases hb
  | cons t rest =>
    rw [ofTrades?_part Bucket.openTime (fun s _ => s) (fun _ _ _ _ _ => rfl) hb, List.foldl_fixed]
    rfl

/-- The prices and the number of some trades. -/
structure Prices (b : Bucket) (ts : List Trade) : Prop where
  openPrice : ts.head?.map Trade.price = some b.openPrice
  closePrice : ts.getLast?.map Trade.price = some b.closePrice
  highPrice : (ts.map Trade.price).maxOn? Decimal.value = some b.highPrice
  lowPrice : (ts.map Trade.price).minOn? Decimal.value = some b.lowPrice
  tradeCount : b.tradeCount = ts.length

/-- The volumes of some trades, split by the side that took them. -/
structure Sums (b : Bucket) (ts : List Trade) : Prop where
  base : b.baseVolume.value = (ts.map fun t => t.quantity.value).sum
  quote : b.quoteVolume.value = (ts.map fun t => t.quoteQuantity.value).sum
  buy : b.buyVolume.value =
    ((ts.filter fun t => t.isTakerBuy).map fun t => t.quoteQuantity.value).sum
  sell : b.sellVolume.value =
    ((ts.filter fun t => !t.isTakerBuy).map fun t => t.quoteQuantity.value).sum

lemma foldl_price (p : Decimal) (ts : List Trade) :
    ts.foldl (fun _ t => t.price) p = (ts.getLast?.map Trade.price).getD p := by
  induction ts generalizing p with
  | nil => rfl
  | cons t rest ih =>
    rw [List.foldl_cons, ih, List.getLast?_cons]
    cases rest.getLast? <;> rfl

theorem ofTrades?_prices {openTime : Int} (hb : ofTrades? openTime ts = some b) :
    b.Prices (Offer.accepted (offersOf openTime ts)) := by
  cases ts with
  | nil => cases hb
  | cons t rest =>
    have first := ofTrades?_part Bucket.openPrice (fun p _ => p) (fun _ _ _ _ _ => rfl) hb
    have close := ofTrades?_part closePrice (fun _ u => u.price) (fun _ _ _ _ _ => rfl) hb
    have high := ofTrades?_part highPrice (fun p u => maxOn Decimal.value p u.price)
      (fun _ _ _ _ _ => rfl) hb
    have low := ofTrades?_part lowPrice (fun p u => minOn Decimal.value p u.price)
      (fun _ _ _ _ _ => rfl) hb
    have count := ofTrades?_part tradeCount (fun n _ => n+1) (fun _ _ _ _ _ => rfl) hb
    rw [accepted_offersOf_cons] at *
    refine ⟨?_,?_,?_,?_,?_⟩
    · rw [first, List.foldl_fixed]
      rfl
    · rw [close, foldl_price, List.getLast?_cons]
      rfl
    · rw [high, List.foldl_cons, fresh, maxOn_self, ← List.foldl_map (f := Trade.price)]
      rfl
    · rw [low, List.foldl_cons, fresh, minOn_self, ← List.foldl_map (f := Trade.price)]
      rfl
    · rw [count, List.foldl_add_const]
      simp [fresh]

/-- A bucket counts its first trade at least. -/
theorem ofTrades?_tradeCount_ne_zero {openTime : Int} (hb : ofTrades? openTime ts = some b) :
    b.tradeCount ≠ 0 := by
  cases ts with
  | nil => cases hb
  | cons t rest =>
    rw [(ofTrades?_prices hb).tradeCount, accepted_offersOf_cons]
    exact Nat.succ_ne_zero _

/-- The sides of the volume are disjoint and together all of it. -/
theorem Sums.buy_add_sell (h : b.Sums ts) :
    b.buyVolume.value + b.sellVolume.value = b.quoteVolume.value := by
  rw [h.buy, h.sell, h.quote, ← List.sum_append, ← List.map_append]
  exact ((List.filter_append_perm _ ts).map _).sum_eq

lemma sum_filter (side : Trade → Bool) (weight : Trade → ℚ) (ts : List Trade) :
    ((ts.filter side).map weight).sum = (ts.map fun t => if side t then weight t else 0).sum := by
  induction ts with
  | nil => rfl
  | cons t rest ih => cases h : side t <;> simp [h, ih]

lemma ofTrades?_sum {M : Type*} [AddCommMonoid M] {openTime : Int}
    (hb : ofTrades? openTime (t :: ts) = some b) (part : Bucket → M) (weight : Trade → M)
    (h0 : part (fresh openTime t.price) = 0)
    (h : ∀ o ∈ offersOf openTime (t :: ts), o.counted →
      part (o.bucket.accept o.trade) = part o.bucket + weight o.trade) :
    part b = ((Offer.accepted (offersOf openTime (t :: ts))).map weight).sum := by
  rw [ofTrades?_cons, Option.some.injEq] at hb
  rw [← hb, foldl_accept_sum part weight h, h0, zero_add]
  rfl

/-- Where no sum was rounded, the volumes are the sums over the counted trades. -/
theorem ofTrades?_sums {openTime : Int} (hb : ofTrades? openTime ts = some b)
    (hexact : ∀ o ∈ offersOf openTime ts, o.counted → o.Exact) :
    b.Sums (Offer.accepted (offersOf openTime ts)) := by
  cases ts with
  | nil => cases hb
  | cons t rest =>
    have zero : (fresh openTime t.price).baseVolume.value = 0 := Decimal.value_zero
    refine ⟨?_,?_,?_,?_⟩
    · apply ofTrades?_sum hb (fun b => b.baseVolume.value) _ zero
      rintro ⟨b,u⟩ ho hc
      obtain ⟨base,quote,side,hbase,-,-,he⟩ := accept_of_counted hc
      rw [he]
      exact (hexact _ ho hc).base base hbase
    · apply ofTrades?_sum hb (fun b => b.quoteVolume.value) _ zero
      rintro ⟨b,u⟩ ho hc
      obtain ⟨base,quote,side,-,hquote,-,he⟩ := accept_of_counted hc
      rw [he]
      exact (hexact _ ho hc).quote quote hquote
    · rw [sum_filter]
      apply ofTrades?_sum hb (fun b => b.buyVolume.value) _ zero
      rintro ⟨b,u⟩ ho hc
      obtain ⟨base,quote,side,-,-,hside,he⟩ := accept_of_counted hc
      have hex := (hexact _ ho hc).side side hside
      cases hu : u.isTakerBuy <;> simp_all [counting, sideVolume]
    · rw [sum_filter]
      apply ofTrades?_sum hb (fun b => b.sellVolume.value) _ zero
      rintro ⟨b,u⟩ ho hc
      obtain ⟨base,quote,side,-,-,hside,he⟩ := accept_of_counted hc
      have hex := (hexact _ ho hc).side side hside
      cases hu : u.isTakerBuy <;> simp_all [counting, sideVolume]

end Bucket
end OrderFlow
