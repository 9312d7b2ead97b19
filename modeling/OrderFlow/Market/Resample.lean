import OrderFlow.Market.Bucket

/-! Trades to candles. Trades are put in order of time and gathered into buckets; then every
period from the first to the last gets a candle, the empty ones at the last close. -/
namespace OrderFlow.Resample

/-- A trade with its time in milliseconds. -/
abbrev Timed := Int × Trade

/-- Trades in order of time; trades of one time keep their order. -/
def ordered (unit : TimeUnit) (trades : List Trade) : List Timed :=
  (trades.map fun t => (unit.toMillis t.time, t)).mergeSort fun a b => a.1 ≤ b.1

/-- Gathers trades into the current bucket while they fall into its period. -/
def gather (tf : Timeframe) (current : Bucket) : List Timed → List Bucket
  | [] => [current]
  | (time, t) :: rest =>
    let start := tf.periodStart time
    if current.openTime = start then gather tf (current.accept t) rest
    else current :: gather tf (.start start t) rest

def buckets (tf : Timeframe) : List Timed → List Bucket
  | [] => []
  | (time, t) :: rest => gather tf (.start (tf.periodStart time) t) rest

/-- The last close and the last volume-weighted price seen. -/
structure Carried where
  close : Option Decimal
  vwap : Option Decimal

def Carried.nothing : Carried := ⟨none, none⟩

/-- The candle of a period with trades. Without a price of its own it takes the last one seen, or
its close. -/
def traded (tf : Timeframe) (last : Carried) (b : Bucket) : Candle :=
  b.toCandle tf ((b.vwap?.or last.vwap).getD b.closePrice)

/-- The candle of a period without trades. -/
def untraded (tf : Timeframe) (last : Carried) (openTime : Int) : Candle :=
  let close := last.close.getD .zero
  .flat openTime tf close (last.vwap.getD close)

/-- The candles of the next periods, given the buckets still to come. -/
def walk (tf : Timeframe) : Nat → Int → List Bucket → Carried → List Candle
  | 0, _, _, _ => []
  | n + 1, openTime, [], last =>
    let c := untraded tf last openTime
    c :: walk tf n (openTime + tf.millis) [] ⟨some c.closePrice, last.vwap⟩
  | n + 1, openTime, b :: rest, last =>
    if b.openTime = openTime then
      let c := traded tf last b
      c :: walk tf n (openTime + tf.millis) rest ⟨some c.closePrice, b.vwap?.or last.vwap⟩
    else
      let c := untraded tf last openTime
      c :: walk tf n (openTime + tf.millis) (b :: rest) ⟨some c.closePrice, last.vwap⟩

/-- The candles of all periods from the first bucket to the last. -/
def fill (tf : Timeframe) (bs : List Bucket) : List Candle :=
  match bs.head?, bs.getLast? with
  | some first, some last =>
    walk tf (tf.periodsBetween first.openTime last.openTime) first.openTime bs .nothing
  | _, _ => []

/-- Are the times of the candles words, and is the time from the first to the last? -/
def isTimely (tf : Timeframe) (timed : List Timed) : Bool :=
  let starts := timed.map fun p => tf.periodStart p.1
  timed.all (fun p => isSigned p.1) && starts.all isSigned &&
    isSigned (starts.getLastD 0 - starts.headD 0)

/-- The gap-free candles of some trades; no trades have none. -/
def build (tf : Timeframe) (trades : List Trade) : Except Cause (List Candle) :=
  if trades.isEmpty then .ok []
  else do
    let unit ← TimeUnit.detect (trades.map (·.time))
    let timed := ordered unit trades
    if isTimely tf timed then return fill tf (buckets tf timed) else throw .overflow

end OrderFlow.Resample
