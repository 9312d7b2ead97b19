import Mathlib.Tactic.GCongr
import OrderFlow.Proofs.Market.Soundness

/-! The volume-weighted price as a mean. Every trade that is counted adds its volume and its volume
at its own price, so the sum of weighted prices stays between the volume at the lowest price and the
volume at the highest one, also when these move later. -/
namespace OrderFlow

namespace Decimal

/-- A product loses nothing: where there is one, its value is the product of the values. -/
def MultipliesExactly (x y : Decimal) : Prop := ∀ z ∈ x.mul y, z.value = x.value * y.value

theorem multipliesExactly_iff {x y : Decimal} : x.MultipliesExactly y ↔ ∀ z ∈ x.mul y,
    z.coefficient * (10 ^ x.scale * 10 ^ y.scale) =
      x.coefficient * y.coefficient * 10 ^ z.scale := by
  have pow_ne (s : Nat) : (10 : ℚ) ^ s ≠ 0 := by positivity
  apply forall₂_congr
  intro z _
  rw [value, value, value, div_mul_div_comm,
    div_eq_div_iff (pow_ne _) (mul_ne_zero (pow_ne _) (pow_ne _))]
  exact_mod_cast Iff.rfl

instance (x y : Decimal) : Decidable (x.MultipliesExactly y) :=
  decidable_of_iff' _ multipliesExactly_iff

end Decimal

/-- The quote quantity of a trade at its price. -/
def Trade.worth (t : Trade) : ℚ := t.price.value * t.quoteQuantity.value

/-- Nothing is rounded where the trade is counted and weighed. -/
structure Offer.WeighsExactly (o : Offer) : Prop where
  volume : o.bucket.quoteVolume.AddsExactly o.trade.quoteQuantity
  product : o.trade.price.MultipliesExactly o.trade.quoteQuantity
  sum : ∀ sum ∈ o.bucket.weighted, ∀ product ∈ o.trade.price.mul o.trade.quoteQuantity,
    sum.AddsExactly product

instance (o : Offer) : Decidable o.WeighsExactly :=
  decidable_of_iff (o.bucket.quoteVolume.AddsExactly o.trade.quoteQuantity ∧
    o.trade.price.MultipliesExactly o.trade.quoteQuantity ∧
    ∀ sum ∈ o.bucket.weighted, ∀ product ∈ o.trade.price.mul o.trade.quoteQuantity,
      sum.AddsExactly product)
    ⟨fun ⟨hv,hp,hs⟩ => ⟨hv,hp,hs⟩,fun h => ⟨h.volume,h.product,h.sum⟩⟩

namespace Bucket
variable {b : Bucket} {o : Offer} {t : Trade} {ts : List Trade} {sum : Decimal}

lemma addWeighted_eq_some_iff {w : Option Decimal} : addWeighted w t = some sum ↔
    ∃ old product, w = some old ∧ t.price.mul t.quoteQuantity = some product ∧
      old.add product = some sum := by
  simp [addWeighted, Option.bind_eq_some_iff]

/-- A counted trade adds what it moved to the sum of weighted prices, unless that overflows. -/
lemma weighted_of_counted (hc : o.counted) (hexact : o.WeighsExactly)
    (h : (o.bucket.accept o.trade).weighted = some sum) :
    ∃ old, o.bucket.weighted = some old ∧ sum.value = old.value + o.trade.worth := by
  obtain ⟨base,quote,side,-,-,-,he⟩ := accept_of_counted hc
  rw [he] at h
  obtain ⟨old,product,hold,hproduct,hsum⟩ := addWeighted_eq_some_iff.mp h
  refine ⟨old,hold,?_⟩
  rw [hexact.sum old hold product hproduct sum hsum, hexact.product product hproduct, Trade.worth]

/-- The sum of weighted prices is what the counted trades moved, as long as it has not
overflowed. -/
theorem weighted_foldl_accept (hexact : ∀ o ∈ b.offers ts, o.counted → o.WeighsExactly)
    (h : (ts.foldl accept b).weighted = some sum) :
    ∃ old, b.weighted = some old ∧
      sum.value = old.value + ((Offer.accepted (b.offers ts)).map Trade.worth).sum := by
  induction ts generalizing b with
  | nil => exact ⟨sum,h,by simp [offers, Offer.accepted]⟩
  | cons t rest ih =>
    obtain ⟨next,hnext,hsum⟩ := ih (fun o ho => hexact o (List.mem_cons_of_mem _ ho)) h
    rw [offers]
    cases hc : (⟨b,t⟩ : Offer).counted with
    | false =>
      rw [accept_of_not_counted hc] at hnext hsum ⊢
      exact ⟨next,hnext,by rw [Offer.accepted_cons_of_not hc, hsum]⟩
    | true =>
      obtain ⟨old,hold,hvalue⟩ :=
        weighted_of_counted hc (hexact ⟨b,t⟩ List.mem_cons_self hc) hnext
      refine ⟨old,hold,?_⟩
      rw [Offer.accepted_cons_of hc, List.map_cons, List.sum_cons, hsum, hvalue, add_assoc]

/-- Once the sum of weighted prices has overflowed, no trade brings it back. -/
theorem weighted_foldl_accept_eq_none (h : b.weighted = none) (ts : List Trade) :
    (ts.foldl accept b).weighted = none := by
  refine foldl_accept_keeps (P := fun b => b.weighted = none) h fun o _ hc hnone => ?_
  obtain ⟨base,quote,side,-,-,-,he⟩ := accept_of_counted hc
  rw [he, counting, hnone]
  rfl

/-- The volume at the lowest and at the highest price bounds the sum of weighted prices. -/
structure Spans (b : Bucket) : Prop where
  volume : 0 ≤ b.quoteVolume.value
  low : ∀ sum ∈ b.weighted, b.lowPrice.value * b.quoteVolume.value ≤ sum.value
  high : ∀ sum ∈ b.weighted, sum.value ≤ b.highPrice.value * b.quoteVolume.value

lemma fresh_spans (openTime : Int) (price : Decimal) : (fresh openTime price).Spans := by
  refine ⟨Decimal.value_zero.ge,?_,?_⟩ <;>
  · rintro _ ⟨⟩
    simp [fresh]

/-- The range of prices takes the new one in, so the volume counted before is still weighed
inside it, and the new volume is weighed at a price inside it. -/
lemma Spans.accept (h : o.bucket.Spans) (hc : o.counted) (hexact : o.WeighsExactly)
    (hvalid : o.trade.isValid = true) : (o.bucket.accept o.trade).Spans := by
  obtain ⟨-,-,hquantity,-⟩ := Trade.isValid_iff.mp hvalid
  have hweighted : ∀ sum, (o.bucket.accept o.trade).weighted = some sum →
      ∃ old, o.bucket.weighted = some old ∧ sum.value = old.value + o.trade.worth :=
    fun _ => weighted_of_counted hc hexact
  obtain ⟨base,quote,side,-,hquote,-,he⟩ := accept_of_counted hc
  have hvolume := hexact.volume quote hquote
  have hold := h.volume
  rw [he] at hweighted ⊢
  refine ⟨?_,fun sum hsum => ?_,fun sum hsum => ?_⟩
  · rw [counting, hvolume]
    exact add_nonneg hold hquantity
  · obtain ⟨old,hw,hvalue⟩ := hweighted sum hsum
    rw [hvalue, counting, hvolume, mul_add]
    calc
      _ ≤ o.bucket.lowPrice.value * o.bucket.quoteVolume.value + o.trade.worth := by
        rw [Trade.worth]
        gcongr
        · exact apply_minOn_le_left
        · exact apply_minOn_le_right
      _ ≤ old.value + o.trade.worth := by
        gcongr
        exact h.low old hw
  · obtain ⟨old,hw,hvalue⟩ := hweighted sum hsum
    rw [hvalue, counting, hvolume, mul_add]
    calc
      old.value + o.trade.worth
          ≤ o.bucket.highPrice.value * o.bucket.quoteVolume.value + o.trade.worth := by
        gcongr
        exact h.high old hw
      _ ≤ _ := by
        rw [Trade.worth]
        gcongr
        · exact left_le_apply_maxOn
        · exact right_le_apply_maxOn

theorem Spans.foldl_accept (h : b.Spans) (hvalid : ∀ t ∈ ts, t.isValid = true)
    (hexact : ∀ o ∈ b.offers ts, o.counted → o.WeighsExactly) : (ts.foldl Bucket.accept b).Spans :=
  foldl_accept_keeps h fun o ho hc hspans =>
    hspans.accept hc (hexact o ho hc) (hvalid _ (trade_mem_of_mem_offers ho))

/-- Where there is volume, the sum divided by it lies in the range of prices. -/
lemma Spans.quotient (h : b.Spans) (hweighted : b.weighted = some sum)
    (hvolume : b.quoteVolume.isZero = false) :
    b.lowPrice.value ≤ sum.value / b.quoteVolume.value ∧
      sum.value / b.quoteVolume.value ≤ b.highPrice.value := by
  have hne : b.quoteVolume.value ≠ 0 := by
    rw [Ne, ← Decimal.isZero_iff, hvolume]
    decide
  have hpos : 0 < b.quoteVolume.value := lt_of_le_of_ne h.volume hne.symm
  rw [le_div_iff₀ hpos, div_le_iff₀ hpos]
  exact ⟨h.low sum hweighted,h.high sum hweighted⟩

lemma vwap?_eq_some_iff {price : Decimal} : b.vwap? = some price ↔
    b.quoteVolume.isZero = false ∧ ∃ sum, b.weighted = some sum ∧
      sum.div b.quoteVolume = some price := by
  simp [vwap?, Option.bind_eq_some_iff]

/-- The sum of weighted prices of some trades, which weighs each of them inside the range. -/
structure IsWeightedSum (b : Bucket) (ts : List Trade) (sum : Decimal) : Prop where
  value : sum.value = (ts.map Trade.worth).sum
  low : b.lowPrice.value * b.quoteVolume.value ≤ sum.value
  high : sum.value ≤ b.highPrice.value * b.quoteVolume.value

/-- Where nothing is rounded, the sum of weighted prices is that of the counted trades, and the
volume-weighted price is a quotient between the lowest and the highest price. Once the sum has
overflowed, there is no such price for the rest of the period. -/
theorem ofTrades?_weightedMean {openTime : Int} (hb : ofTrades? openTime ts = some b) :
    ((∀ t ∈ ts, t.isValid = true) →
      (∀ o ∈ offersOf openTime ts, o.counted → o.WeighsExactly) →
        (∀ sum, b.weighted = some sum →
          b.IsWeightedSum (Offer.accepted (offersOf openTime ts)) sum) ∧
        ∀ price, b.vwap? = some price → ∃ sum, b.weighted = some sum ∧
          sum.div b.quoteVolume = some price ∧
          b.lowPrice.value ≤ sum.value / b.quoteVolume.value ∧
          sum.value / b.quoteVolume.value ≤ b.highPrice.value) ∧
    (b.weighted = none → ∀ later : List Trade, (later.foldl accept b).vwap? = none) := by
  constructor
  · intro hvalid hexact
    cases ts with
    | nil => cases hb
    | cons t rest =>
      rw [ofTrades?_cons, Option.some.injEq] at hb
      have hspans : b.Spans := hb ▸ (fresh_spans openTime t.price).foldl_accept hvalid hexact
      constructor
      · intro sum hsum
        refine ⟨?_,hspans.low sum hsum,hspans.high sum hsum⟩
        rw [← hb] at hsum
        obtain ⟨old,⟨⟩,hvalue⟩ := weighted_foldl_accept hexact hsum
        rw [hvalue, Decimal.value_zero, zero_add]
        rfl
      · intro price hprice
        obtain ⟨hvolume,sum,hsum,hdiv⟩ := vwap?_eq_some_iff.mp hprice
        exact ⟨sum,hsum,hdiv,hspans.quotient hsum hvolume⟩
  · intro hnone later
    rw [vwap?, weighted_foldl_accept_eq_none hnone]
    exact ite_self none

/-- Two trades, and a third at a lower price whose volume no longer fits. -/
def skewedTrades : List Trade :=
  [⟨none,1704067200000,.scaled 115 1,.scaled 1 0,.scaled 115 1,true⟩,
   ⟨none,1704067201000,.scaled 10 0,.scaled 2 0,.scaled 20 0,false⟩,
   ⟨none,1704067202000,.scaled 9 0,.scaled 1 0,.scaled 79228162514264337593543950335 0,false⟩]

/-- A trade whose weighted price does not fit. -/
def heavyTrade : Trade :=
  ⟨none,1704067200000,.scaled 2 0,.scaled 1 0,.scaled 79228162514264337593543950335 0,false⟩

theorem ofTrades?_weightedMean_skewed : ∃ b sum price heavy,
    ofTrades? 1704067200000 skewedTrades = some b ∧ (∀ t ∈ skewedTrades, t.isValid = true) ∧
    (∀ o ∈ offersOf 1704067200000 skewedTrades, o.counted → o.WeighsExactly) ∧
    (Offer.accepted (offersOf 1704067200000 skewedTrades)).length = 2 ∧
    b.weighted = some sum ∧ b.vwap? = some price ∧
    b.IsWeightedSum (Offer.accepted (offersOf 1704067200000 skewedTrades)) sum ∧
    b.lowPrice.value ≤ sum.value / b.quoteVolume.value ∧
    sum.value / b.quoteVolume.value ≤ b.highPrice.value ∧
    ofTrades? 1704067200000 [heavyTrade] = some heavy ∧ heavy.weighted = none ∧
    (skewedTrades.foldl accept heavy).vwap? = none := by
  have hsome : (skewedTrades.foldl accept (fresh 1704067200000 (.scaled 115 1))).vwap?.isSome := by
    decide +kernel
  obtain ⟨price,hprice⟩ := Option.isSome_iff_exists.mp hsome
  have hvalid : ∀ t ∈ skewedTrades, t.isValid = true := by decide
  have hexact : ∀ o ∈ offersOf 1704067200000 skewedTrades, o.counted → o.WeighsExactly := by decide
  have hcounted : (Offer.accepted (offersOf 1704067200000 skewedTrades)).length = 2 := by decide
  have hb : ofTrades? 1704067200000 skewedTrades = some _ := ofTrades?_cons ..
  have hheavy : ofTrades? 1704067200000 [heavyTrade] = some _ := ofTrades?_cons ..
  obtain ⟨hmean,-⟩ := ofTrades?_weightedMean hb
  obtain ⟨hsum,hquotient⟩ := hmean hvalid hexact
  obtain ⟨sum,hweighted,-,hlow,hhigh⟩ := hquotient price hprice
  have hnone := (ofTrades?_weightedMean hheavy).2 (by decide) skewedTrades
  exact ⟨_,sum,price,_,hb,hvalid,hexact,hcounted,hweighted,hprice,hsum sum hweighted,hlow,hhigh,
    hheavy,by decide,hnone⟩

end Bucket
end OrderFlow
