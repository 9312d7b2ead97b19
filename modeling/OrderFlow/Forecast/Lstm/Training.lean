import OrderFlow.Feature.Windows
import OrderFlow.Forecast.Epoch
import OrderFlow.Forecast.Lstm.Gradient
import OrderFlow.Random
import OrderFlow.Settings.Basic

/-! Fitting the network to samples by steps against the gradient of the mean squared error. The
steps are sized by running means of the gradient and of its square. -/
namespace OrderFlow
namespace Lstm

/-- Running means of the gradient and of its square, after a number of steps. -/
structure Momentum where
  count : Nat
  mean : Weights
  square : Weights

namespace Momentum

def start (s : Shape) : Momentum := ⟨0, .zero s, .zero s⟩

def meanDecay : Float := 0.9

def squareDecay : Float := 0.999

/-- Added to the root of the mean square, which may be zero. -/
def guard : Float := 1.0e-8

/-- Takes a gradient into the means. -/
def update (m : Momentum) (g : Weights) : Momentum :=
  let blend (decay : Float) (old new : Float32) : Float32 :=
    old * decay.toFloat32 + new * (1.0 - decay).toFloat32
  { count := m.count + 1
    mean := m.mean.zip (blend meanDecay) g
    square := m.square.zip (fun old new => blend squareDecay old (new * new)) g }

/-- What makes up for a mean that started from zero. -/
def correction (decay : Float) (count : Nat) : Float32 :=
  (1.0 / (1.0 - Binary.power decay count)).toFloat32

/-- The weights after a step. -/
def apply (m : Momentum) (rate : Float) (w : Weights) : Weights :=
  let meanScale := correction meanDecay m.count
  let squareScale := correction squareDecay m.count
  let direction := m.mean.zip (fun mean square =>
    mean * meanScale / ((square * squareScale).sqrt + guard.toFloat32)) m.square
  w.zip (fun x d => x - d * rate.toFloat32) direction

end Momentum

/-- A sample in single precision. -/
structure Example where
  inputs : List Signal
  target : Signal

def Example.of (s : Shape) (sample : Sample) : Outcome Example := do
  let inputs ← sample.window.mapM (LstmModel.narrow s.features)
  return ⟨inputs, ← LstmModel.narrow s.targets sample.target⟩

/-- Squared and absolute errors summed, and the gradient of the mean squared error. -/
structure Learned where
  squares : Float32
  gradient : Weights

/-- The errors of a batch and the gradient of their mean square. -/
def learn (s : Shape) (w : Weights) (batch : List Example) : Learned :=
  let share := (1.0 / Binary.nearest false (batch.length * s.targets) 1).toFloat32
  batch.foldl (fun acc e =>
    let done := steps s.hidden w e.inputs
    let errors := match done with
      | [] => []
      | last :: _ => (output w last.hidden).sub e.target
    ⟨acc.squares + Signal.sum (Signal.mul errors errors),
      acc.gradient.add (gradient s w done (errors.map fun x => share * x * 2))⟩)
    ⟨0, .zero s⟩

/-- Batches of at most `size` elements, in order. -/
def batches {α : Type} (size : Nat) : Nat → List α → List (List α)
  | 0, _ => []
  | fuel + 1, xs => if xs.isEmpty then [] else xs.take size :: batches size fuel (xs.drop size)

end Lstm

namespace LstmModel
open Lstm

/-- Sums of squared and of absolute errors. -/
structure ErrorSums where
  squares : Float
  absolutes : Float

/-- The errors of a batch added to those before it. -/
def addErrors (m : LstmModel) (sums : ErrorSums) (batch : List Sample) : Outcome ErrorSums := do
  let examples ← batch.mapM (Example.of m.shape)
  let errors ← examples.mapM fun e => return (← m.run e.inputs).sub e.target
  let all : Signal := errors.flatten
  return {
    squares := sums.squares + (all.mul all).sum.toFloat
    absolutes := sums.absolutes + (Signal.sum (all.map Float32.abs)).toFloat }

/-- Mean squared and mean absolute error over samples; none over no samples. -/
def evaluate (m : LstmModel) (data : Dataset) (batchSize : Nat) :
    Outcome (Option (Float × Float)) := do
  if data.size = 0 then return none
  let sums ← (batches (max 1 batchSize) data.size data.samples).foldlM m.addErrors ⟨0.0, 0.0⟩
  let n := Binary.nearest false (data.size * m.shape.targets) 1
  return some (sums.squares / n, sums.absolutes / n)

/-- A model in training, with the losses of an epoch so far, each times its batch. -/
structure Progress where
  model : LstmModel
  momentum : Momentum
  losses : Float

/-- Learns from one batch. -/
def learnBatch (rate : Float) (p : Progress) (batch : List Sample) : Outcome Progress := do
  let shape := p.model.shape
  let examples ← batch.mapM (Example.of shape)
  let learned := learn shape p.model.weights examples
  let share := (1.0 / Binary.nearest false (batch.length * shape.targets) 1).toFloat32
  let momentum := p.momentum.update learned.gradient
  return {
    model := { p.model with weights := momentum.apply rate p.model.weights }
    momentum
    losses := p.losses +
      (learned.squares * share).toFloat * Binary.nearest false batch.length 1 }

/-- Learns from batches in turn, up to the first that cannot be learned from. -/
def learnBatches (rate : Float) : List (List Sample) → Progress → Progress × Outcome Unit
  | [], p => (p, .ok ())
  | batch :: rest, p =>
    match learnBatch rate p batch with
    | .ok p => learnBatches rate rest p
    | .error f => (p, .error f)

/-- The epochs from a number on, `n` of them: each passes over all samples in a shuffled order.
The model is the one as far as it got, also where learning fails. -/
def learnEpochs (settings : LstmSettings) (train val : Dataset) :
    Nat → Nat → Progress → Random → LstmModel × Outcome (List EpochStats)
  | 0, _, p, _ => (p.model, .ok [])
  | n + 1, epoch, p, r =>
    let (order, r) := r.shuffled train.samples
    let (p, learned) := learnBatches settings.learningRate
      (batches (max 1 settings.batchSize) train.size order) { p with losses := 0.0 }
    let stats : Outcome EpochStats := do
      learned
      let onVal ← p.model.evaluate val settings.batchSize
      let loss := p.losses / Binary.nearest false train.size 1
      return ⟨epoch, loss, onVal.map (·.1), onVal.map (·.2)⟩
    match stats with
    | .error f => (p.model, .error f)
    | .ok s =>
      let (last, rest) := learnEpochs settings train val n (epoch + 1) p r
      (last, rest.map (s :: ·))

/-- From here on there are more passes than memory has entries for. -/
def epochLimit : Nat := 2 ^ 57

/-- Fits the model, with one entry for each pass over the samples. -/
def fit (m : LstmModel) (settings : LstmSettings) (train val : Dataset) (r : Random) :
    LstmModel × Outcome (List EpochStats) :=
  if train.size = 0 then (m, fail .emptyTrainingSet)
  else if epochLimit ≤ settings.epochs then (m, fail .overflow)
  else learnEpochs settings train val settings.epochs 1 ⟨m, .start m.shape, 0.0⟩ r

/-- A grid of numbers drawn between `-bound` and `bound`. -/
def randomGrid (bound : Float) (rows columns : Nat) (r : Random) : Grid × Random :=
  Random.many (fun r =>
    let (row, r) := Random.many (Random.within bound) columns r
    (row.map Float.toFloat32, r)) rows r

/-- A model to start from. Its numbers are smaller the more cells there are. -/
def random (s : Shape) (r : Random) : LstmModel × Random :=
  let bound := 1.0 / (Binary.nearest false s.hidden 1).sqrt
  let (input, r) := randomGrid bound (4 * s.hidden) s.features r
  let (recurrent, r) := randomGrid bound (4 * s.hidden) s.hidden r
  let (dense, r) := randomGrid bound s.hidden s.hidden r
  let (head, r) := randomGrid bound s.targets s.hidden r
  (⟨s, { Weights.zero s with input, recurrent, dense, head }⟩, r)

end LstmModel
end OrderFlow
