import OrderFlow.Feature.FutureRange

/-! Samples for training: windows of consecutive rows, each with the target of the row after it. -/
namespace OrderFlow

/-- The rows before a target, oldest first. -/
structure Sample where
  window : List Column.Row
  target : Column.Row

/-- Samples of one shape, in order of time. -/
structure Dataset where
  samples : List Sample
  lookback : Nat
  featureCount : Nat
  targetCount : Nat

namespace Dataset

def empty (lookback featureCount targetCount : Nat) : Dataset :=
  ⟨[], lookback, featureCount, targetCount⟩

def size (d : Dataset) : Nat := d.samples.length

def windows (d : Dataset) : List (List Column.Row) := d.samples.map (·.window)

def targets (d : Dataset) : List Column.Row := d.samples.map (·.target)

/-- The rows of each window joined, for models without a time axis. -/
def flattened (d : Dataset) : List Column.Row := d.windows.map List.flatten

/-- One entry of every target, if all have it. -/
def targetColumn? (d : Dataset) (i : Nat) : Option (List Float) := d.targets.mapM (·[i]?)

/-- How many samples lie before the cut at a fraction of the whole, the fraction held between
zero and one. Not a number cuts at the start. -/
def cut (d : Dataset) (fraction : Float) : Nat :=
  let held := if fraction < 0.0 then 0.0 else if 1.0 < fraction then 1.0 else fraction
  let position := Binary.nearest false d.size 1 * held
  min (Binary.truncate 0 (2 ^ 64 - 1) position).toNat d.size

/-- The samples before and after the cut at a fraction. -/
def split (d : Dataset) (fraction : Float) : Dataset × Dataset :=
  ({ d with samples := d.samples.take (d.cut fraction) },
    { d with samples := d.samples.drop (d.cut fraction) })

/-- The first `n` elements from each position on; fewer near the end. -/
def slices {α : Type} (n : Nat) : List α → List (List α)
  | [] => []
  | a :: rest => (a :: rest).take n :: slices n rest

/-- Each row from the `lookback`-th on with the `lookback` rows before it. -/
def preceded {α β : Type} (lookback : Nat) (rows : List α) (targets : List β) :
    List (List α × β) :=
  (slices lookback rows).zip (targets.drop lookback)

/-- Samples of the excursions of candles: those that have all horizons ahead, and only numbers.
There are none where a column cannot be computed or a count is no word. -/
def ofRanges? (columns : List Column) (lookback horizon : Nat) (candles : List Candle)
    (labels : List (Option FutureRange)) : Option Dataset :=
  let shape := empty lookback columns.length (2 * horizon)
  let n := min candles.length labels.length
  if wordSize ≤ 2 * horizon ∨ (lookback ≠ 0 ∧ wordSize ≤ lookback + horizon) then none
  else if lookback = 0 ∨ n < lookback + horizon then some shape
  else
    (Column.matrix? columns (candles.take n)).map fun rows =>
      let usable (label : Option FutureRange) :=
        label.filter fun r => r.horizon == horizon && r.isFinite
      { shape with
        samples := (preceded lookback rows (labels.take (n - horizon))).filterMap fun (window, label) =>
          (usable label).map fun r => ⟨window, r.toList⟩ }

/-- Samples of rows and the targets of the rows after them; targets that are not all numbers are
left out. -/
def ofRows (lookback : Nat) (features targets : List Column.Row) : Dataset :=
  let shape := empty lookback (features.head?.elim 0 List.length) (targets.head?.elim 0 List.length)
  let n := min features.length targets.length
  if lookback = 0 ∨ n ≤ lookback then shape
  else
    { shape with
      samples := (preceded lookback features (targets.take n)).filterMap fun (window, target) =>
        if target.all Binary.isFinite then some ⟨window, target⟩ else none }

end Dataset
end OrderFlow
