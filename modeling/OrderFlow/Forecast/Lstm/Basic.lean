import OrderFlow.Failure
import OrderFlow.Feature.Column
import OrderFlow.Forecast.Lstm.Signal
import OrderFlow.Word

/-! A recurrent network with one layer of long short-term memory, a dense layer cut off at zero,
and a linear head. -/
namespace OrderFlow
open Column (Row)

namespace Lstm

/-- The numbers of inputs, of memory cells and of outputs. -/
structure Shape where
  features : Nat
  hidden : Nat
  targets : Nat

/-- The count of numbers in the largest layer. -/
def Shape.largest (s : Shape) : Nat := s.hidden * max (4 * max s.features s.hidden) s.targets

/-- Layers from this size on are more than memory holds. -/
def layerLimit : Nat := 2 ^ 61

/-- Fails where no network has a shape: without inputs or cells, or beyond what memory holds. -/
def Shape.checked (s : Shape) : Outcome Unit :=
  if wordSize ≤ 4 * s.hidden then fail .overflow
  else if s.hidden = 0 ∨ s.features = 0 then fail .emptyLayer
  else if layerLimit ≤ s.largest then fail .overflow
  else .ok ()

/-- All that is learned. The rows of the first four belong to the input, forget, cell and output
gates, in this order. -/
structure Weights where
  input : Grid
  recurrent : Grid
  inputBias : Signal
  recurrentBias : Signal
  dense : Grid
  denseBias : Signal
  head : Grid
  headBias : Signal

namespace Weights

/-- Combines two sets of weights number by number. -/
def zip (f : Float32 → Float32 → Float32) (a b : Weights) : Weights where
  input := List.zipWith (List.zipWith f) a.input b.input
  recurrent := List.zipWith (List.zipWith f) a.recurrent b.recurrent
  inputBias := List.zipWith f a.inputBias b.inputBias
  recurrentBias := List.zipWith f a.recurrentBias b.recurrentBias
  dense := List.zipWith (List.zipWith f) a.dense b.dense
  denseBias := List.zipWith f a.denseBias b.denseBias
  head := List.zipWith (List.zipWith f) a.head b.head
  headBias := List.zipWith f a.headBias b.headBias

def map (f : Float32 → Float32) (a : Weights) : Weights := zip (fun x _ => f x) a a

def add (a b : Weights) : Weights := zip (· + ·) a b

end Weights

/-- The values of one step through time, kept for learning. -/
structure Step where
  input : Signal
  hiddenBefore : Signal
  cellBefore : Signal
  inputGate : Signal
  forgetGate : Signal
  candidate : Signal
  outputGate : Signal
  cell : Signal

def Step.hidden (s : Step) : Signal := s.outputGate.mul (s.cell.map Float32.tanh)

/-- The `i`-th of four equal parts. -/
def quarter (hidden i : Nat) (v : Signal) : Signal := (v.drop (i * hidden)).take hidden

def step (hidden : Nat) (w : Weights) (h c x : Signal) : Step :=
  let gates := ((w.input.apply x).add w.inputBias).add ((w.recurrent.apply h).add w.recurrentBias)
  let inputGate := (quarter hidden 0 gates).map sigmoid
  let forgetGate := (quarter hidden 1 gates).map sigmoid
  let candidate := (quarter hidden 2 gates).map Float32.tanh
  { input := x
    hiddenBefore := h
    cellBefore := c
    inputGate
    forgetGate
    candidate
    outputGate := (quarter hidden 3 gates).map sigmoid
    cell := (Signal.mul forgetGate c).add (Signal.mul inputGate candidate) }

/-- The steps over a sequence, the last one first. -/
def steps (hidden : Nat) (w : Weights) (xs : List Signal) : List Step :=
  xs.foldl (fun done x =>
    let (h, c) := match done with
      | [] => (Signal.zero hidden, Signal.zero hidden)
      | last :: _ => (last.hidden, last.cell)
    step hidden w h c x :: done) []

/-- The dense layer before it is cut off at zero. -/
def denseInput (w : Weights) (h : Signal) : Signal := (w.dense.apply h).add w.denseBias

def cutOff (x : Float32) : Float32 := if 0 < x then x else 0

def output (w : Weights) (h : Signal) : Signal :=
  (w.head.apply ((denseInput w h).map cutOff)).add w.headBias

end Lstm

structure LstmModel where
  shape : Lstm.Shape
  weights : Lstm.Weights

namespace LstmModel
open Lstm

def parameterCount (m : LstmModel) : Nat :=
  let s := m.shape
  4 * s.hidden * (s.features + s.hidden + 2) + s.hidden * (s.hidden + 1) + s.targets * (s.hidden + 1)

/-- A row in single precision, if it has the right width. -/
def narrow (width : Nat) (row : Row) : Outcome Signal :=
  if row.length = width then .ok (row.map Float.toFloat32)
  else fail (.tensorWidth width row.length)

/-- The outputs for a sequence of inputs. -/
def run (m : LstmModel) (xs : List Signal) : Outcome Signal :=
  match steps m.shape.hidden m.weights xs with
  | [] => fail .emptySequence
  | last :: _ => .ok (output m.weights last.hidden)

/-- The targets forecast from a window. -/
def predict (m : LstmModel) (window : List Row) : Outcome Row := do
  let xs ← window.mapM (narrow m.shape.features)
  return (← m.run xs).map Float32.toFloat

end LstmModel
end OrderFlow
