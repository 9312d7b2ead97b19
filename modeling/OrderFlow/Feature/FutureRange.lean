import OrderFlow.Feature.Column
import OrderFlow.Word

/-! How far prices go after a candle: the largest rise of the high and the largest drop of the low
over the next `1, 2, …, n` candles, relative to the close. -/
namespace OrderFlow

/-- `up` and `down` hold one excursion for each horizon. -/
structure FutureRange where
  up : List Float
  down : List Float

namespace FutureRange

def horizon (r : FutureRange) : Nat := r.up.length

/-- All rises, then all drops. -/
def toList (r : FutureRange) : List Float := r.up ++ r.down

def isFinite (r : FutureRange) : Bool := r.toList.all Binary.isFinite

/-- Horizons from here on have more entries than memory holds. -/
def horizonLimit : Nat := 2 ^ 57

def names (n : Nat) : List String :=
  (List.range n).map (fun k => "future_up_" ++ Text.natText (k + 1)) ++
    (List.range n).map (fun k => "future_down_" ++ Text.natText (k + 1))

/-- The excursions over growing windows of the candles ahead, given the extremes so far. Past the
last candle the extremes stay. -/
def excursions (close high low : Float) : Nat → List Candle → List (Float × Float)
  | 0, _ => []
  | n + 1, [] => ((high - close) / close, (close - low) / close) :: excursions close high low n []
  | n + 1, c :: rest =>
    let high := Binary.larger high c.highPrice.toFloat
    let low := Binary.smaller low c.lowPrice.toFloat
    ((high - close) / close, (close - low) / close) :: excursions close high low n rest

/-- The excursions of a candle, given the candles after it. -/
def ofCandle (n : Nat) (c : Candle) (ahead : List Candle) : FutureRange :=
  let es := excursions c.closePrice.toFloat (Binary.infinity true) (Binary.infinity false) n ahead
  ⟨es.map (·.1), es.map (·.2)⟩

/-- The excursions of every candle but the last, which has nothing ahead. -/
def build (n : Nat) : List Candle → List (Option FutureRange)
  | [] => []
  | c :: rest => (if rest.isEmpty then none else some (ofCandle n c rest)) :: build n rest

/-- The names of all entries, if memory holds them. -/
def names? (n : Nat) : Option (List String) := if n < horizonLimit then some (names n) else none

/-- The excursions of every candle, if memory holds them. One candle alone has none. -/
def build? (n : Nat) (candles : List Candle) : Option (List (Option FutureRange)) :=
  if n < horizonLimit ∨ candles.length < 2 then some (build n candles) else none

end FutureRange
end OrderFlow
