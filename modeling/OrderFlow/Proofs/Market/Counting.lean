import OrderFlow.Proofs.Decimal.Sum
import OrderFlow.Proofs.Market.Buckets

/-! Counting is all or nothing. A trade is left out exactly if one of its three sums overflows, and
then nothing of it is in the bucket; otherwise all of it is. So a bucket is what the counted trades
alone make of it. -/
namespace OrderFlow.Bucket
variable {b b' : Bucket} {t : Trade}

/-- One of the volumes that a trade adds to overflows: the base volume, the quote volume, or the
quote volume of the side that took the trade. -/
def Overflows (b : Bucket) (t : Trade) : Prop :=
  b.baseVolume.Overflows t.quantity ∨ b.quoteVolume.Overflows t.quoteQuantity ∨
    (b.sideVolume t).Overflows t.quoteQuantity

/-- The quote volume of the side that did not take the trade. -/
def otherVolume (b : Bucket) (t : Trade) : Decimal :=
  if t.isTakerBuy then b.sellVolume else b.buyVolume

/-- The second bucket is the first with a trade counted. The sum of weighted prices goes its own
way: it can be lost with the trade counted all the same. -/
structure Counts (b : Bucket) (t : Trade) (b' : Bucket) : Prop where
  openTime : b'.openTime = b.openTime
  openPrice : b'.openPrice = b.openPrice
  highPrice : b'.highPrice = maxOn Decimal.value b.highPrice t.price
  lowPrice : b'.lowPrice = minOn Decimal.value b.lowPrice t.price
  closePrice : b'.closePrice = t.price
  tradeCount : b'.tradeCount = b.tradeCount + 1
  base : b.baseVolume.add t.quantity = some b'.baseVolume
  quote : b.quoteVolume.add t.quoteQuantity = some b'.quoteVolume
  side : (b.sideVolume t).add t.quoteQuantity = some (b'.sideVolume t)
  other : b'.otherVolume t = b.otherVolume t
  weighted : b'.weighted = addWeighted b.weighted t

theorem add?_eq_none_iff : b.add? t = none ↔ b.Overflows t := by
  rw [Overflows, ← Decimal.add_eq_none_iff, ← Decimal.add_eq_none_iff, ← Decimal.add_eq_none_iff]
  constructor
  · intro h
    by_contra hsums
    simp only [not_or, ← ne_eq, Option.ne_none_iff_exists'] at hsums
    obtain ⟨⟨base,hb⟩,⟨quote,hq⟩,⟨side,hs⟩⟩ := hsums
    rw [add?_eq_some_iff.mpr ⟨base,quote,side,hb,hq,hs,rfl⟩] at h
    cases h
  · intro h
    rw [Option.eq_none_iff_forall_ne_some]
    intro b' hb'
    obtain ⟨base,quote,side,hb,hq,hs,-⟩ := add?_eq_some_iff.mp hb'
    rw [hb, hq, hs] at h
    simp at h

lemma counts_counting {base quote side : Decimal} (hb : b.baseVolume.add t.quantity = some base)
    (hq : b.quoteVolume.add t.quoteQuantity = some quote)
    (hs : (b.sideVolume t).add t.quoteQuantity = some side) :
    b.Counts t (b.counting t base quote side) := by
  refine ⟨rfl,rfl,rfl,rfl,rfl,rfl,hb,hq,?_,?_,rfl⟩
  · cases ht : t.isTakerBuy <;> simpa [sideVolume, counting, ht] using hs
  · cases ht : t.isTakerBuy <;> simp [otherVolume, counting, ht]

/-- Nothing of the new bucket is left open. -/
theorem add?_eq_some_iff_counts : b.add? t = some b' ↔ b.Counts t b' := by
  constructor
  · intro h
    obtain ⟨base,quote,side,hb,hq,hs,rfl⟩ := add?_eq_some_iff.mp h
    exact counts_counting hb hq hs
  · intro h
    have hbuy : b'.buyVolume = if t.isTakerBuy then b'.sideVolume t else b.buyVolume := by
      cases ht : t.isTakerBuy with
      | false => simpa [otherVolume, ht] using h.other
      | true => simp [sideVolume, ht]
    have hsell : b'.sellVolume = if t.isTakerBuy then b.sellVolume else b'.sideVolume t := by
      cases ht : t.isTakerBuy with
      | false => simp [sideVolume, ht]
      | true => simpa [otherVolume, ht] using h.other
    refine add?_eq_some_iff.mpr ⟨_,_,_,h.base,h.quote,h.side,?_⟩
    cases b'
    rw [counting, mk.injEq]
    exact ⟨h.openTime,h.openPrice,h.highPrice,h.lowPrice,h.closePrice,rfl,rfl,hbuy,hsell,
      h.tradeCount,h.weighted⟩

/-- The counted trades are counted again where only they are offered. -/
theorem foldlM_accepted (b : Bucket) (ts : List Trade) :
    (Offer.accepted (b.offers ts)).foldlM add? b = some (ts.foldl accept b) := by
  induction ts generalizing b with
  | nil => rfl
  | cons t rest ih =>
    rw [offers, List.foldl_cons, ← ih]
    cases hc : (⟨b,t⟩ : Offer).counted with
    | false => rw [Offer.accepted_cons_of_not hc, accept_of_not_counted hc]
    | true =>
      obtain ⟨b',hb'⟩ := Option.isSome_iff_exists.mp hc
      rw [Offer.accepted_cons_of hc, List.foldlM_cons, hb', accept, hb', Option.getD_some]
      rfl

/-- A trade is left out exactly where one of its sums overflows, and then the bucket stays as it is;
otherwise the trade is counted as a whole. So the trades left out could as well not have been
offered. The trade that opens a bucket is never left out. -/
theorem add?_allOrNothing :
    (∀ (b : Bucket) (t : Trade),
      (b.add? t = none ↔ b.Overflows t) ∧ (b.add? t = none → b.accept t = b) ∧
      ∀ b', (b.add? t = some b' ↔ b.Counts t b') ∧ (b.add? t = some b' → b.accept t = b')) ∧
    (∀ (b : Bucket) (ts : List Trade),
      ts.foldl accept b = (Offer.accepted (b.offers ts)).foldl accept b ∧
      (Offer.accepted (b.offers ts)).foldlM add? b = some (ts.foldl accept b)) ∧
    ∀ openTime t, (fresh openTime t.price).add? t = some (start openTime t) := by
  refine ⟨fun b t => ⟨add?_eq_none_iff,fun h => ?_,fun b' => ⟨add?_eq_some_iff_counts,fun h => ?_⟩⟩,
    fun b ts => ⟨?_,foldlM_accepted b ts⟩,fun openTime t => ?_⟩
  · rw [accept, h, Option.getD_none]
  · rw [accept, h, Option.getD_some]
  · exact foldl_accept id accept fun _ _ _ => rfl
  · obtain ⟨b,hb⟩ := Option.isSome_iff_exists.mp (fresh_counts openTime t.price t)
    rw [start, accept, hb, Option.getD_some]

/-- A trade of the greatest volume. -/
def largestTrade : Trade :=
  ⟨none,1704067200000,.scaled 2 0,.scaled 1 0,.scaled 79228162514264337593543950335 0,false⟩

/-- As much volume taken by the other side. Beside the first it fits that side, but not the total. -/
def excessTrade : Trade :=
  ⟨none,1704067201000,.scaled 5 0,.scaled 1 0,.scaled 79228162514264337593543950335 0,true⟩

/-- A trade that moves nothing. -/
def idleTrade : Trade :=
  ⟨none,1704067202000,.scaled 3 0,.scaled 0 0,.scaled 0 0,true⟩

/-- The bucket that a trade of the greatest volume opens. -/
def fullBucket : Bucket := start 1704067200000 largestTrade

theorem add?_allOrNothing_full : ∃ b,
    (fresh 1704067200000 largestTrade.price).add? largestTrade = some fullBucket ∧
    fullBucket.add? excessTrade = none ∧ fullBucket.Overflows excessTrade ∧
    fullBucket.accept excessTrade = fullBucket ∧
    fullBucket.add? idleTrade = some b ∧ fullBucket.Counts idleTrade b ∧
    fullBucket.accept idleTrade = b ∧ b.weighted = none ∧
    [excessTrade,idleTrade].foldl accept fullBucket = [idleTrade].foldl accept fullBucket := by
  have hskipped : fullBucket.add? excessTrade = none := by decide
  obtain ⟨b,hb⟩ : ∃ b, fullBucket.add? idleTrade = some b :=
    Option.isSome_iff_exists.mp (by decide)
  have haccepted : Offer.accepted (fullBucket.offers [excessTrade,idleTrade]) = [idleTrade] := by
    decide
  obtain ⟨hoffer,hfold,hfirst⟩ := add?_allOrNothing
  obtain ⟨hoverflows,hstays,-⟩ := hoffer fullBucket excessTrade
  obtain ⟨-,-,hcounted⟩ := hoffer fullBucket idleTrade
  obtain ⟨hcounts,hafter⟩ := hcounted b
  have hfold := (hfold fullBucket [excessTrade,idleTrade]).1
  have hlost : b.weighted = none := by
    rw [(hcounts.mp hb).weighted]
    decide
  rw [haccepted] at hfold
  exact ⟨b,hfirst _ _,hskipped,hoverflows.mp hskipped,hstays hskipped,hb,hcounts.mp hb,hafter hb,
    hlost,hfold⟩

end OrderFlow.Bucket
