import OrderFlow.Market.Depth
import OrderFlow.Market.Timeframe
import OrderFlow.Market.Trade

/-! Candles with order flow: prices, volumes split by aggressor, and the depth of the book. -/
namespace OrderFlow

structure Candle where
  /-- Start of the period, in milliseconds. -/
  openTime : Int
  timeframe : Timeframe
  openPrice : Decimal
  highPrice : Decimal
  lowPrice : Decimal
  closePrice : Decimal
  baseVolume : Decimal
  quoteVolume : Decimal
  /-- Quote volume of aggressive buys. -/
  buyVolume : Decimal
  /-- Quote volume of aggressive sells. -/
  sellVolume : Decimal
  tradeCount : Nat
  vwap : Decimal
  depth : Depth
  deriving Inhabited

namespace Candle

/-- A candle without trades at one price. -/
def flat (openTime : Int) (timeframe : Timeframe) (price vwap : Decimal) : Candle where
  openTime
  timeframe
  openPrice := price
  highPrice := price
  lowPrice := price
  closePrice := price
  baseVolume := .zero
  quoteVolume := .zero
  buyVolume := .zero
  sellVolume := .zero
  tradeCount := 0
  vwap
  depth := .absent

/-- Aggressive buying less aggressive selling; none where no decimal holds it. -/
def delta? (c : Candle) : Option Decimal := c.buyVolume.sub c.sellVolume

/-- The share of the quote volume that was aggressive buying; zero without volume. -/
def imbalance (c : Candle) : Float :=
  let buy := c.buyVolume.toFloat
  let sell := c.sellVolume.toFloat
  buy / (buy + sell + 1e-12)

/-- The high is the highest and the low the lowest price, and no volume is negative. -/
def isConsistent (c : Candle) : Bool :=
  c.openPrice.le c.highPrice && c.closePrice.le c.highPrice && c.lowPrice.le c.highPrice &&
    c.lowPrice.le c.openPrice && c.lowPrice.le c.closePrice && !c.baseVolume.isNegative &&
    !c.quoteVolume.isNegative

/-- A candle that can have happened: consistent, with positive prices. -/
def isValid (c : Candle) : Bool :=
  c.openPrice.isPositive && c.highPrice.isPositive && c.lowPrice.isPositive &&
    c.closePrice.isPositive && c.isConsistent

end Candle
end OrderFlow
