import OrderFlow.Binary.Layout
import OrderFlow.Calendar
import OrderFlow.Csv.Row
import OrderFlow.Feature.FutureRange

/-! Candles as a table: the open time, every column, and if asked for the excursions ahead. -/
namespace OrderFlow.CandleTable

/-- The excursions to write, one entry per candle as far as they go, and their horizon. -/
structure Labels where
  ranges : List (Option FutureRange)
  horizon : Nat

def header (labels : Option Labels) : List String :=
  "open_time" :: Column.all.map Column.name ++
    (labels.map fun l => FutureRange.names l.horizon).getD []

def timeText (c : Candle) : String :=
  (Calendar.millisText? c.openTime).getD (Text.intText c.openTime)

/-- The excursions of the candle at a position, or as many empty fields. -/
def labelFields (labels : Option Labels) (i : Nat) : List String :=
  match labels with
  | none => []
  | some l =>
    match l.ranges[i]?.join with
    | some r => r.toList.map Binary.plain.text
    | none => List.replicate (2 * l.horizon) ""

/-- The fields of a candle; none where a column cannot be computed. -/
def fields? (labels : Option Labels) (i : Nat) (c : Candle) : Option (List String) :=
  (Column.row? Column.all c).map fun values =>
    timeText c :: values.map Binary.plain.text ++ labelFields labels i

/-- The rows from a position on, each as wide as the header. -/
def rows (labels : Option Labels) (width i : Nat) : List Candle → Outcome (List String)
  | [] => .ok []
  | c :: rest => do
    match fields? labels i c with
    | none => fail .overflow
    | some fs =>
      if fs.length = width then return Csv.row fs :: (← rows labels width (i + 1) rest)
      else fail (.other ("Failed to write candle row " ++ Text.natText i))

/-- The whole table. There is none with more columns than memory holds. -/
def text (candles : List Candle) (labels : Option Labels) : Outcome String := do
  if labels.any (FutureRange.horizonLimit ≤ ·.horizon) then fail .overflow
  let head := header labels
  let rs ← rows labels head.length 0 candles
  return String.join (Csv.row head :: rs)

end OrderFlow.CandleTable
