import OrderFlow.Forecast.Forest.Training
import OrderFlow.Forecast.Kind
import OrderFlow.Forecast.Lstm.Store
import OrderFlow.Forecast.Lstm.Training
import OrderFlow.Store.Metadata

/-! A model of either kind. -/
namespace OrderFlow
open Column (Row)

inductive Forecaster where
  | lstm (model : LstmModel)
  | forest (model : ForestModel)

namespace Forecaster

def kind : Forecaster → ModelKind
  | lstm _ => .lstm
  | forest _ => .forest

def name : Forecaster → String
  | lstm _ => "lstm"
  | forest _ => "SmartCore Random Forest"

/-- The number of learned parameters, where it is fixed by the shape. -/
def parameterCount? : Forecaster → Option Nat
  | lstm m => some m.parameterCount
  | forest _ => none

/-- The scaled targets of the candle after a window of scaled rows. -/
def predict : Forecaster → List Row → Outcome Row
  | lstm m, window => m.predict window
  | forest m, window => m.predict window

def save : Forecaster → Path → Storing Unit
  | lstm m, p => m.save p
  | forest m, p => m.save p

/-- Fits a new model to samples. -/
def fit (settings : TrainingSettings) (train val : Dataset) (r : Random) :
    Outcome (Forecaster × List EpochStats) :=
  match settings.kind with
  | .lstm => do
    let shape : Lstm.Shape := ⟨train.featureCount, settings.lstm.hiddenSize, train.targetCount⟩
    shape.checked
    let (start, r) := LstmModel.random shape r
    let (m, history) := start.fit settings.lstm train val r
    return (lstm m, ← history)
  | .forest => do
    let (m, history) ← ForestModel.fit settings.forest train val r
    return (forest m, history)

/-- Reads the model that metadata describe. -/
def load (t : FileTree) (p : Path) (metadata : ModelMetadata) (features targets : Nat) :
    Outcome Forecaster :=
  match metadata.kind with
  | .lstm => (LstmModel.load t p ⟨features, metadata.hiddenSize, targets⟩).map lstm
  | .forest => (ForestModel.load t p).map forest

end Forecaster
end OrderFlow
