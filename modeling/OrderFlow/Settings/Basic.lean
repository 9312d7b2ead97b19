import OrderFlow.Binary.Layout
import OrderFlow.Forecast.Kind
import OrderFlow.Market.Timeframe

/-! Settings, their built-in values and what they must satisfy. -/
namespace OrderFlow

/-- Hyper-parameters of the recurrent model. -/
structure LstmSettings where
  hiddenSize : Nat
  epochs : Nat
  batchSize : Nat
  learningRate : Float

def LstmSettings.standard : LstmSettings := ⟨1024, 50, 64, 0.001⟩

/-- Hyper-parameters of the random forest. -/
structure ForestSettings where
  trees : Nat
  maxDepth : Nat
  minSplit : Nat

def ForestSettings.standard : ForestSettings := ⟨100, 10, 5⟩

/-- How a model is trained. -/
structure TrainingSettings where
  kind : ModelKind
  lookback : Nat
  trainSplit : Float
  lstm : LstmSettings
  forest : ForestSettings

def TrainingSettings.standard : TrainingSettings :=
  ⟨.lstm, 5, 0.8, .standard, .standard⟩

structure DataSettings where
  /-- Where the market files are; searched for when not set. -/
  directory : Option String
  searchDepth : Nat
  interval : Timeframe

def DataSettings.standard : DataSettings := ⟨none, 6, .oneMinute⟩

structure ModelSettings where
  directory : String
  /-- How many candles ahead the excursions look. -/
  horizon : Nat
  training : TrainingSettings

def ModelSettings.standard : ModelSettings := ⟨"models", 5, .standard⟩

structure Settings where
  data : DataSettings
  model : ModelSettings

def Settings.standard : Settings := ⟨.standard, .standard⟩

namespace ModelSettings

/-- The first requirement that the settings break, in words. -/
def complaint? (s : ModelSettings) : Option String :=
  let t := s.training
  if t.lookback = 0 then some "LOOKBACK must be at least 1"
  else if s.horizon = 0 then some "N_FUTURE must be at least 1"
  else if t.lstm.batchSize = 0 then some "BATCH_SIZE must be at least 1"
  else if t.lstm.hiddenSize = 0 then some "HIDDEN_SIZE must be at least 1"
  else if !(0.0 < t.trainSplit && t.trainSplit < 1.0) then
    some ("TRAIN_SPLIT must be in (0, 1), got " ++ Binary.plain.text t.trainSplit)
  else if !(0.0 < t.lstm.learningRate) then
    some ("LEARNING_RATE must be positive, got " ++ Binary.plain.text t.lstm.learningRate)
  else none

/-- The settings themselves, if they break no requirement. -/
def validated (s : ModelSettings) : Outcome ModelSettings :=
  match s.complaint? with
  | some words => fail (.other words)
  | none => .ok s

end ModelSettings
end OrderFlow
