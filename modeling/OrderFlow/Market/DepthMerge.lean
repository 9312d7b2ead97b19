import OrderFlow.Market.Candle

/-! Book summaries attached to candles: the first record of a period counts, and a period without
one takes what the last period had. -/
namespace OrderFlow.DepthMerge

/-- The first record of the period that starts at a time. -/
def firstOf (tf : Timeframe) (records : List DepthRecord) (openTime : Int) : Option Depth :=
  (records.find? fun r => tf.periodStart r.time = openTime).map (·.depth)

/-- Attaches depth to the candles in turn, given the last depth found. -/
def attach (tf : Timeframe) (records : List DepthRecord) (last : Option Depth) :
    List Candle → List Candle
  | [] => []
  | c :: rest =>
    let found := (firstOf tf records c.openTime).or last
    { c with depth := found.getD .absent } :: attach tf records found rest

def merge (tf : Timeframe) (records : List DepthRecord) (candles : List Candle) : List Candle :=
  attach tf records none candles

/-- Attaches depth, if the starts of the periods of all records are times. -/
def merge? (tf : Timeframe) (records : List DepthRecord) (candles : List Candle) :
    Option (List Candle) :=
  if candles.isEmpty || records.all fun r => isSigned (tf.periodStart r.time) then
    some (merge tf records candles)
  else none

end OrderFlow.DepthMerge
