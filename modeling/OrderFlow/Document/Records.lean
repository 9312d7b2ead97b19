import OrderFlow.Document.Scalar
import OrderFlow.Feature.Scaler
import OrderFlow.Market.Candle

/-! Exact JSON forms of trades, candles and scalers. Decimals are written as text. -/
namespace OrderFlow
open Json

/-- Plain text of a double, as a decimal is read from a number. -/
def Decimal.ofJson? : Json → Option Decimal
  | .string s => Decimal.ofText? s
  | .integer i => Decimal.of? i 0
  | .float x => Decimal.ofPlain? (Binary.plain.text x).toList
  | _ => none

def Decimal.toJson (x : Decimal) : Json := .string x.toText

def Timeframe.toJson (tf : Timeframe) : Json := .string tf.label

def Timeframe.ofJson? (j : Json) : Option Timeframe := j.asString?.bind Timeframe.ofText?

def Json.floats? (j : Json) : Option (List Float) := do (← j.asArray?).mapM asFloat?

def Json.strings? (j : Json) : Option (List String) := do (← j.asArray?).mapM asString?

/-- A value that may be missing or null. -/
def optional? {α : Type} (read : Json → Option α) : Option Json → Option (Option α)
  | none => some none
  | some .null => some none
  | some j => (read j).map some

namespace Trade

def fieldNames : List String := ["id", "time", "price", "qty", "quote_qty", "is_buyer_maker"]

def toJson (t : Trade) : Json :=
  .object (fieldNames.zip [
    t.id.elim .null .integer, .integer t.time, t.price.toJson, t.quantity.toJson,
    t.quoteQuantity.toJson, .bool t.buyerIsMaker])

def ofJson? (j : Json) : Option Trade := do
  match ← j.fields? fieldNames with
  | [id, time, price, quantity, quote, maker] =>
    return {
      id := ← optional? asInt64? id
      time := ← (← time).asInt64?
      price := ← Decimal.ofJson? (← price)
      quantity := ← Decimal.ofJson? (← quantity)
      quoteQuantity := ← Decimal.ofJson? (← quote)
      buyerIsMaker := ← (← maker).asBool? }
  | _ => none

end Trade

namespace Depth

def fieldNames : List String := ["bid_liq", "ask_liq", "depth_imbalance", "spread", "mid_price"]

def toJson (d : Depth) : Json := .object (fieldNames.zip (d.toList.map .float))

def ofJson? (j : Json) : Option Depth := do
  match ← (← j.fields? fieldNames).mapM fun f => f.bind asFloat? with
  | [bid, ask, imbalance, spread, mid] => return ⟨bid, ask, imbalance, spread, mid⟩
  | _ => none

end Depth

namespace Candle

def fieldNames : List String :=
  ["open_time", "timeframe", "open", "high", "low", "close", "volume_base", "quote_volume",
    "buy_quote_volume", "sell_quote_volume", "trade_count", "vwap", "depth"]

def toJson (c : Candle) : Json :=
  .object (fieldNames.zip [
    .integer c.openTime, c.timeframe.toJson, c.openPrice.toJson, c.highPrice.toJson,
    c.lowPrice.toJson, c.closePrice.toJson, c.baseVolume.toJson, c.quoteVolume.toJson,
    c.buyVolume.toJson, c.sellVolume.toJson, .integer c.tradeCount, c.vwap.toJson,
    c.depth.toJson])

/-- Reads a candle; one without depth has none. -/
def ofJson? (j : Json) : Option Candle := do
  match ← j.fields? fieldNames with
  | [time, tf, o, h, l, c, base, quote, buy, sell, count, vwap, depth] =>
    return {
      openTime := ← (← time).asInt64?
      timeframe := ← Timeframe.ofJson? (← tf)
      openPrice := ← Decimal.ofJson? (← o)
      highPrice := ← Decimal.ofJson? (← h)
      lowPrice := ← Decimal.ofJson? (← l)
      closePrice := ← Decimal.ofJson? (← c)
      baseVolume := ← Decimal.ofJson? (← base)
      quoteVolume := ← Decimal.ofJson? (← quote)
      buyVolume := ← Decimal.ofJson? (← buy)
      sellVolume := ← Decimal.ofJson? (← sell)
      tradeCount := ← (← count).asNat64?
      vwap := ← Decimal.ofJson? (← vwap)
      depth := ← depth.elim (some .absent) Depth.ofJson? }
  | _ => none

end Candle

namespace Scaler

def fieldNames : List String := ["columns", "mean", "scale"]

def toJson (s : Scaler) : Json :=
  .object (fieldNames.zip [
    .array (s.columns.map .string), .array (s.mean.map .float), .array (s.scale.map .float)])

def ofJson? (j : Json) : Option Scaler := do
  match ← j.fields? fieldNames with
  | [columns, mean, scale] =>
    return ⟨← strings? (← columns), ← floats? (← mean), ← floats? (← scale)⟩
  | _ => none

end Scaler
end OrderFlow
