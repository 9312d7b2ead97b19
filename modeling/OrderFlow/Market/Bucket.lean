import OrderFlow.Market.Candle

/-! The running totals of one period. A trade whose volumes no longer fit is left out as a whole. -/
namespace OrderFlow

structure Bucket where
  openTime : Int
  openPrice : Decimal
  highPrice : Decimal
  lowPrice : Decimal
  closePrice : Decimal
  baseVolume : Decimal
  quoteVolume : Decimal
  buyVolume : Decimal
  sellVolume : Decimal
  tradeCount : Nat
  /-- The sum of price times quote quantity, until it overflows. -/
  weighted : Option Decimal
  deriving DecidableEq

namespace Bucket

/-- A bucket at a trade's price that has not counted the trade yet. -/
def fresh (openTime : Int) (price : Decimal) : Bucket where
  openTime
  openPrice := price
  highPrice := price
  lowPrice := price
  closePrice := price
  baseVolume := .zero
  quoteVolume := .zero
  buyVolume := .zero
  sellVolume := .zero
  tradeCount := 0
  weighted := some .zero

/-- The quote volume of the side that took the trade. -/
def sideVolume (b : Bucket) (t : Trade) : Decimal :=
  if t.isTakerBuy then b.buyVolume else b.sellVolume

def addWeighted (w : Option Decimal) (t : Trade) : Option Decimal := do
  let sum ← w
  let product ← t.price.mul t.quoteQuantity
  sum.add product

/-- Counts a trade; none when one of the volumes overflows. -/
def add? (b : Bucket) (t : Trade) : Option Bucket := do
  let base ← b.baseVolume.add t.quantity
  let quote ← b.quoteVolume.add t.quoteQuantity
  let side ← (b.sideVolume t).add t.quoteQuantity
  return {
    b with
    highPrice := if b.highPrice.lt t.price then t.price else b.highPrice
    lowPrice := if t.price.lt b.lowPrice then t.price else b.lowPrice
    closePrice := t.price
    baseVolume := base
    quoteVolume := quote
    buyVolume := if t.isTakerBuy then side else b.buyVolume
    sellVolume := if t.isTakerBuy then b.sellVolume else side
    tradeCount := b.tradeCount + 1
    weighted := addWeighted b.weighted t }

/-- Counts a trade, or leaves the bucket as it is. -/
def accept (b : Bucket) (t : Trade) : Bucket := (b.add? t).getD b

/-- The bucket that a trade opens. -/
def start (openTime : Int) (t : Trade) : Bucket := (fresh openTime t.price).accept t

/-- The volume-weighted price; none without volume, or where it cannot be computed. -/
def vwap? (b : Bucket) : Option Decimal :=
  if b.quoteVolume.isZero then none else b.weighted.bind (·.div b.quoteVolume)

def toCandle (b : Bucket) (timeframe : Timeframe) (vwap : Decimal) : Candle where
  openTime := b.openTime
  timeframe
  openPrice := b.openPrice
  highPrice := b.highPrice
  lowPrice := b.lowPrice
  closePrice := b.closePrice
  baseVolume := b.baseVolume
  quoteVolume := b.quoteVolume
  buyVolume := b.buyVolume
  sellVolume := b.sellVolume
  tradeCount := b.tradeCount
  vwap
  depth := .absent

end Bucket
end OrderFlow
