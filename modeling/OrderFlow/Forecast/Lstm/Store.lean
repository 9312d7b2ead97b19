import OrderFlow.Files.Storing
import OrderFlow.Forecast.Lstm.Basic
import OrderFlow.Forecast.Lstm.TensorFile

/-! Weights of the network as named tensors, and in files. -/
namespace OrderFlow

namespace Lstm

def bias (name : String) (v : Signal) : Tensor := ⟨name, [v.length], v⟩

def grid (name : String) (columns : Nat) (g : Grid) : Tensor := ⟨name, [g.length, columns], g.flatten⟩

/-- The weights by name, in order of the names. -/
def Weights.tensors (s : Shape) (w : Weights) : List Tensor :=
  [bias "dense.bias" w.denseBias, grid "dense.weight" s.hidden w.dense,
    bias "head.bias" w.headBias, grid "head.weight" s.hidden w.head,
    bias "lstm.bias_hh_l0" w.recurrentBias, bias "lstm.bias_ih_l0" w.inputBias,
    grid "lstm.weight_hh_l0" s.hidden w.recurrent, grid "lstm.weight_ih_l0" s.features w.input]

/-- Cuts numbers into rows. -/
def rowsOf (columns : Nat) : Nat → Signal → Grid
  | 0, _ => []
  | n + 1, v => v.take columns :: rowsOf columns n (v.drop columns)

/-- The numbers of a tensor, if there is one of the name and the shape. -/
def find? (ts : List Tensor) (name : String) (shape : List Nat) : Option Signal :=
  ((ts.find? (·.name == name)).filter (·.shape == shape)).map (·.values)

def findGrid? (ts : List Tensor) (name : String) (rows columns : Nat) : Option Grid :=
  (find? ts name [rows, columns]).map (rowsOf columns rows)

/-- The weights of a shape among some tensors. -/
def Weights.ofTensors? (s : Shape) (ts : List Tensor) : Option Weights := do
  let gates := 4 * s.hidden
  return {
    input := ← findGrid? ts "lstm.weight_ih_l0" gates s.features
    recurrent := ← findGrid? ts "lstm.weight_hh_l0" gates s.hidden
    inputBias := ← find? ts "lstm.bias_ih_l0" [gates]
    recurrentBias := ← find? ts "lstm.bias_hh_l0" [gates]
    dense := ← findGrid? ts "dense.weight" s.hidden s.hidden
    denseBias := ← find? ts "dense.bias" [s.hidden]
    head := ← findGrid? ts "head.weight" s.targets s.hidden
    headBias := ← find? ts "head.bias" [s.targets] }

end Lstm

namespace LstmModel
open Lstm

def save (m : LstmModel) (p : Path) : Storing Unit :=
  Storing.change (.tensorFile p)
    (·.write? p (.bytes (TensorFile.bytes (m.weights.tensors m.shape))))

/-- Reads a model of a shape, which is not trained where there is none. -/
def load (t : FileTree) (p : Path) (s : Shape) : Outcome LstmModel := do
  if !t.exists? p then fail (.notTrained p)
  s.checked
  let weights := do Weights.ofTensors? s (← TensorFile.ofBytes? (← t.content? p).toBytes)
  match weights with
  | some w => return ⟨s, w⟩
  | none => fail (.corrupt p)

end LstmModel
end OrderFlow
