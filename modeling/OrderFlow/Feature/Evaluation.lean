import OrderFlow.Failure
import OrderFlow.Feature.Column

/-! Errors of a forecast over samples. -/
namespace OrderFlow.Evaluation
open Column (Row)

/-- Mean squared and mean absolute error. -/
structure Scores where
  squared : Float
  absolute : Float

/-- Sums of squared and absolute differences, and their number. -/
structure Sums where
  squared : Float
  absolute : Float
  count : Nat

def Sums.zero : Sums := ⟨0.0, 0.0, 0⟩

def Sums.add (s : Sums) (p t : Float) : Sums :=
  let d := p - t
  ⟨s.squared + d * d, s.absolute + d.abs, s.count + 1⟩

def Sums.addRow (s : Sums) (predicted target : Row) : Sums :=
  (predicted.zip target).foldl (fun s (p, t) => s.add p t) s

/-- Sums over windows and targets, with the forecaster's own failure if it has one. -/
def sums (predict : List Row → Outcome Row) (s : Sums) : List (List Row × Row) → Outcome Sums
  | [] => .ok s
  | (window, target) :: rest => do
    let predicted ← predict window
    sums predict (s.addRow predicted target) rest

/-- The errors of a forecaster; none over nothing. -/
def evaluate (predict : List Row → Outcome Row) (windows : List (List Row)) (targets : List Row) :
    Outcome (Option Scores) := do
  let s ← sums predict .zero (windows.zip targets)
  if s.count = 0 then return none
  else
    let n := Binary.nearest false s.count 1
    return some ⟨s.squared / n, s.absolute / n⟩

end OrderFlow.Evaluation
