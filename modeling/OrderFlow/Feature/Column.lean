import OrderFlow.Market.Candle
import OrderFlow.Text.Blank

/-! The numeric columns of a candle. -/
namespace OrderFlow

inductive Column where
  | openPrice
  | highPrice
  | lowPrice
  | closePrice
  | baseVolume
  | quoteVolume
  | buyVolume
  | sellVolume
  | delta
  | imbalance
  | vwap
  | tradeCount
  | bidLiquidity
  | askLiquidity
  | depthImbalance
  | spread
  | midPrice
  deriving DecidableEq, Repr

namespace Column

/-- All columns in the order of exports. -/
def all : List Column :=
  [openPrice, highPrice, lowPrice, closePrice, baseVolume, quoteVolume, buyVolume, sellVolume,
    delta, imbalance, vwap, tradeCount, bidLiquidity, askLiquidity, depthImbalance, spread,
    midPrice]

/-- Inputs of the future-range dataset. -/
def range : List Column := [closePrice, quoteVolume, delta, imbalance, vwap]

/-- Inputs of the next-candle models. -/
def sequence : List Column :=
  range ++ [bidLiquidity, askLiquidity, depthImbalance, spread, midPrice]

/-- Targets of the next-candle models, in output order. -/
def body : List Column := [openPrice, closePrice]

def name : Column → String
  | openPrice => "open"
  | highPrice => "high"
  | lowPrice => "low"
  | closePrice => "close"
  | baseVolume => "volume_base"
  | quoteVolume => "quote_volume"
  | buyVolume => "buy_quote_volume"
  | sellVolume => "sell_quote_volume"
  | delta => "delta_usdt"
  | imbalance => "imbalance"
  | vwap => "vwap"
  | tradeCount => "trade_count"
  | bidLiquidity => "bid_liq"
  | askLiquidity => "ask_liq"
  | depthImbalance => "depth_imbalance"
  | spread => "spread"
  | midPrice => "mid_price"

def ofName? (s : String) : Option Column := all.find? (·.name == s)

def ofName (s : String) : Except Cause Column :=
  match ofName? s with
  | some c => .ok c
  | none => .error (.unknownColumn s)

/-- The value of a column; there is none only for a difference that no decimal holds. -/
def value? (column : Column) (c : Candle) : Option Float :=
  match column with
  | openPrice => some c.openPrice.toFloat
  | highPrice => some c.highPrice.toFloat
  | lowPrice => some c.lowPrice.toFloat
  | closePrice => some c.closePrice.toFloat
  | baseVolume => some c.baseVolume.toFloat
  | quoteVolume => some c.quoteVolume.toFloat
  | buyVolume => some c.buyVolume.toFloat
  | sellVolume => some c.sellVolume.toFloat
  | delta => c.delta?.map Decimal.toFloat
  | imbalance => some c.imbalance
  | vwap => some c.vwap.toFloat
  | tradeCount => some (Binary.nearest false c.tradeCount 1)
  | bidLiquidity => some c.depth.bidLiquidity
  | askLiquidity => some c.depth.askLiquidity
  | depthImbalance => some c.depth.imbalance
  | spread => some c.depth.spread
  | midPrice => some c.depth.midPrice

abbrev Row := List Float

def row? (columns : List Column) (c : Candle) : Option Row := columns.mapM (·.value? c)

/-- One row per candle. -/
def matrix? (columns : List Column) (candles : List Candle) : Option (List Row) :=
  candles.mapM (row? columns)

/-- The names in a list separated by commas, blanks around them and empty items left out. -/
def items (s : String) : List String :=
  (((Text.pieces ',' s.toList).map Text.trimmed).filter (!·.isEmpty)).map String.ofList

/-- The columns that a list of names stands for; the first unknown name is reported. -/
def parseList (s : String) : Except Cause (List Column) := (items s).mapM ofName

def joinNames (names : List String) : String := ",".intercalate names

@[simp] theorem ofName?_name (c : Column) : ofName? c.name = some c := by cases c <;> decide

end Column
end OrderFlow
