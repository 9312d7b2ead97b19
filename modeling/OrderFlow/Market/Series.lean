import OrderFlow.Document.Books
import OrderFlow.Document.Trades
import OrderFlow.Market.DepthMerge
import OrderFlow.Market.Resample

/-! The candles of a symbol from its market documents. -/
namespace OrderFlow

structure Series where
  symbol : String
  timeframe : Timeframe
  candles : List Candle
  fileCount : Nat
  tradeCount : Nat

/-- Builds the series of some documents, with or without the depth they hold. -/
def Series.build (tf : Timeframe) (symbol : String) (docs : List Json) (withDepth : Bool) :
    Except Cause Series := do
  let trades := Document.trades docs
  if trades.isEmpty then throw (.noTrades symbol)
  let candles ← Resample.build tf trades
  if candles.isEmpty then throw (.noCandles symbol)
  let candles ←
    if withDepth then
      match DepthMerge.merge? tf (Document.books docs) candles with
      | some merged => pure merged
      | none => throw .overflow
    else pure candles
  return {
    symbol
    timeframe := tf
    candles
    fileCount := docs.length
    tradeCount := trades.length }

end OrderFlow
