import OrderFlow.Document.Scalar
import OrderFlow.Market.Trade

/-! Trades in market documents. A document is an object with a list of trades, or such a list. -/
namespace OrderFlow.Document
open Json

/-- The keys under which an object may keep its trades. -/
def tradeListKeys : List String := ["trades", "trade", "Trades", "aggTrades", "aggrTrades"]

def idKeys : List String := ["id", "tradeId"]

def timeKeys : List String := ["time", "timestamp", "ts"]

/-- The first positive time under any of the keys, or zero. -/
def tradeTime (ms : Members) : Int :=
  ((timeKeys.filterMap fun k => (get? ms k).bind looseInteger?).find? (0 < ·)).getD 0

/-- The trade without its identifier. The quote quantity is the written one, or price times
quantity. -/
def unnamedTrade? (ms : Members) : Option Trade := do
  let price ← (← get? ms "price").looseDecimal?
  let quantity ← (← get? ms "qty").looseDecimal?
  let time := tradeTime ms
  let maker := ((get? ms "isBuyerMaker").map truthy).getD false
  match (get? ms "quoteQty").filter (!·.isNull) with
  | some quote => return ⟨none, time, price, quantity, ← quote.looseDecimal?, maker⟩
  | none => Trade.of? time price quantity maker

/-- The trade that an object describes; none without a usable price and quantity. -/
def trade? (j : Json) : Option Trade := do
  let ms ← j.asObject?
  let t ← unnamedTrade? ms
  return { t with id := (firstPresent? ms idKeys).bind looseInteger? }

/-- The list of trades of a document. -/
def tradeList : Json → List Json
  | .object ms => (firstFilled? ms tradeListKeys).getD []
  | .array items => items
  | _ => []

/-- The valid trades of documents in the order they are written. -/
def writtenTrades (docs : List Json) : List Trade :=
  docs.flatMap fun d => (tradeList d).filterMap fun j => (trade? j).filter Trade.isValid

/-- The valid trades of documents in order of time; trades of one time as they are written. -/
def trades (docs : List Json) : List Trade :=
  (writtenTrades docs).mergeSort fun a b => a.time ≤ b.time

end OrderFlow.Document
