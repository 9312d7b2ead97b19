import OrderFlow.Forecast.Lstm.Basic

/-! How the outputs of the network depend on its weights. The sweep goes back from the output to
the first step, with what later steps ask of the hidden values and of the cells. -/
namespace OrderFlow.Lstm

/-- Weights that are all zero. -/
def Weights.zero (s : Shape) : Weights where
  input := List.replicate (4 * s.hidden) (.zero s.features)
  recurrent := List.replicate (4 * s.hidden) (.zero s.hidden)
  inputBias := .zero (4 * s.hidden)
  recurrentBias := .zero (4 * s.hidden)
  dense := List.replicate s.hidden (.zero s.hidden)
  denseBias := .zero s.hidden
  head := List.replicate s.targets (.zero s.hidden)
  headBias := .zero s.targets

/-- `x (1 - x)`, the slope of a sigmoid by its value. -/
def sigmoidSlope (x : Float32) : Float32 := x * (1 - x)

/-- `1 - x^2`, the slope of a hyperbolic tangent by its value. -/
def tanhSlope (x : Float32) : Float32 := 1 - x * x

/-- What is asked of the hidden values and of the cells of a step. -/
structure Demand where
  hidden : Signal
  cell : Signal

/-- What a step asks of the sums before its gates, and of the cells before it. -/
def gateDemand (s : Step) (d : Demand) : Signal × Signal :=
  let shown := s.cell.map Float32.tanh
  let cell := d.cell.add ((d.hidden.mul s.outputGate).mul (shown.map tanhSlope))
  let gates :=
    (cell.mul s.candidate).mul (s.inputGate.map sigmoidSlope) ++
      (cell.mul s.cellBefore).mul (s.forgetGate.map sigmoidSlope) ++
      (cell.mul s.inputGate).mul (s.candidate.map tanhSlope) ++
      (d.hidden.mul shown).mul (s.outputGate.map sigmoidSlope)
  (gates, cell.mul s.forgetGate)

/-- Sweeps back over steps, the last one first, adding to the gradient of the gates. -/
def sweep (hidden : Nat) (w : Weights) : List Step → Demand → Weights → Weights
  | [], _, acc => acc
  | s :: rest, d, acc =>
    let (gates, cellBefore) := gateDemand s d
    let acc := { acc with
      input := List.zipWith Signal.add acc.input (Grid.outer gates s.input)
      recurrent := List.zipWith Signal.add acc.recurrent (Grid.outer gates s.hiddenBefore)
      inputBias := acc.inputBias.add gates
      recurrentBias := acc.recurrentBias.add gates }
    sweep hidden w rest ⟨w.recurrent.applyTransposed hidden gates, cellBefore⟩ acc

/-- The gradient of one sample, given its steps and what is asked of its outputs. -/
def gradient (s : Shape) (w : Weights) (done : List Step) (asked : Signal) : Weights :=
  match done with
  | [] => .zero s
  | last :: _ =>
    let before := denseInput w last.hidden
    let after := before.map cutOff
    let denseAsked := List.zipWith (fun x d => if 0 ≤ x then d else 0) before
      (w.head.applyTransposed s.hidden asked)
    let acc := { Weights.zero s with
      dense := Grid.outer denseAsked last.hidden
      denseBias := denseAsked
      head := Grid.outer asked after
      headBias := asked }
    sweep s.hidden w done ⟨w.dense.applyTransposed s.hidden denseAsked, .zero s.hidden⟩ acc

end OrderFlow.Lstm
