import OrderFlow.Settings.Basic
import OrderFlow.Toml.Reader
import OrderFlow.Word

/-! Settings in a file: a table of data settings and a table of model settings, each key optional,
no other key allowed. A section may also be an array of its values in order. -/
namespace OrderFlow

structure DataSection where
  directory : Option String
  searchDepth : Option Nat
  interval : Option Timeframe

def DataSection.empty : DataSection := ⟨none, none, none⟩

structure ModelSection where
  directory : Option String
  kind : Option ModelKind
  lookback : Option Nat
  horizon : Option Nat
  trainSplit : Option Float
  epochs : Option Nat
  batchSize : Option Nat
  hiddenSize : Option Nat
  learningRate : Option Float
  trees : Option Nat
  maxDepth : Option Nat
  minSplit : Option Nat

def ModelSection.empty : ModelSection :=
  ⟨none, none, none, none, none, none, none, none, none, none, none, none⟩

structure FileSettings where
  data : DataSection
  model : ModelSection

def FileSettings.empty : FileSettings := ⟨.empty, .empty⟩

namespace FileSettings
open Toml (Value Entries)

def text? : Value → Option String
  | .string s => some s
  | _ => none

/-- A whole number below a limit. -/
def natural? (limit : Nat) : Value → Option Nat
  | .integer i => if 0 ≤ i ∧ i < limit then some i.toNat else none
  | _ => none

def real? : Value → Option Float
  | .integer i => if -2 ^ 63 ≤ i ∧ i < 2 ^ 64 then some (Binary.ofInt i) else none
  | .float x => some x
  | _ => none

def interval? (v : Value) : Option Timeframe := (text? v).bind Timeframe.ofText?

/-- A kind by its exact name, which may also be the only key of a table with nothing under it. -/
def kind? : Value → Option ModelKind
  | .string s => ModelKind.ofName? s
  | .table _ [(s, .table _ [])] => ModelKind.ofName? s
  | .table _ [(s, .array [])] => ModelKind.ofName? s
  | _ => none

/-- The values of a section by name. -/
def fields? (names : List String) : Value → Option (List (Option Value))
  | .table _ es =>
    if es.all fun e => names.contains e.1 then some (names.map (es.lookup ·)) else none
  | .array vs => some (names.mapIdx fun i _ => vs[i]?)
  | _ => none

/-- Reads a value that may be missing. -/
def optional? {α : Type} (read : Value → Option α) : Option Value → Option (Option α)
  | none => some none
  | some v => (read v).map some

def data? (v : Value) : Option DataSection := do
  match ← fields? ["data_dir", "search_depth", "candle_interval"] v with
  | [directory, depth, interval] =>
    return ⟨← optional? text? directory, ← optional? (natural? wordSize) depth,
      ← optional? interval? interval⟩
  | _ => none

def modelKeys : List String :=
  ["model_dir", "kind", "lookback", "n_future", "train_split", "epochs", "batch_size",
    "hidden_size", "learning_rate", "forest_trees", "forest_max_depth", "forest_min_split"]

def model? (v : Value) : Option ModelSection := do
  match ← fields? modelKeys v with
  | [directory, kind, lookback, horizon, split, epochs, batch, hidden, rate, trees, depth, min] =>
    let count := optional? (natural? wordSize)
    return {
      directory := ← optional? text? directory
      kind := ← optional? kind? kind
      lookback := ← count lookback
      horizon := ← count horizon
      trainSplit := ← optional? real? split
      epochs := ← count epochs
      batchSize := ← count batch
      hiddenSize := ← count hidden
      learningRate := ← optional? real? rate
      trees := ← count trees
      maxDepth := ← optional? (natural? (2 ^ 16)) depth
      minSplit := ← count min }
  | _ => none

/-- The settings that a document holds. -/
def ofText? (s : String) : Option FileSettings := do
  match ← fields? ["data", "model"] (.table .header (← Toml.document? s)) with
  | [data, model] =>
    return ⟨(← optional? data? data).getD .empty, (← optional? model? model).getD .empty⟩
  | _ => none

end FileSettings
end OrderFlow
