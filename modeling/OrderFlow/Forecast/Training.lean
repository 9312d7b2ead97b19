import OrderFlow.Feature.Scaler
import OrderFlow.Forecast.Forecaster
import OrderFlow.Market.Series
import OrderFlow.Store.Models

/-! Training a model on the candles of a symbol, and keeping it. Nothing is written before there
are samples to fit. -/
namespace OrderFlow

namespace Training
open Column (Row)

/-- The rows needed beyond the lookback. -/
def spareRows : Nat := 10

/-- The feature and target rows of candles, without those that are not all numbers. -/
def cleanRows (features targets : List Column) (candles : List Candle) :
    Except Cause (List (Row × Row)) :=
  match Column.matrix? features candles, Column.matrix? targets candles with
  | some xs, some ys =>
    .ok ((xs.zip ys).filter fun (x, y) => x.all Binary.isFinite && y.all Binary.isFinite)
  | _, _ => .error .overflow

/-- Scaled samples, cut in two, and the scalers they come from. -/
structure Prepared where
  featureScaler : Scaler
  targetScaler : Scaler
  sampleCount : Nat
  train : Dataset
  val : Dataset

def lookback (settings : TrainingSettings) : Nat := max settings.lookback 1

/-- Scales the rows of candles and cuts them into samples. -/
def prepare (settings : TrainingSettings) (candles : List Candle) : Except Cause Prepared := do
  let rows ← cleanRows Column.sequence Column.body candles
  let required := lookback settings + spareRows
  if wordSize ≤ required then throw .overflow
  if rows.length < required then throw (.notEnoughRows required rows.length)
  let features := rows.map (·.1)
  let targets := rows.map (·.2)
  let featureScaler ← Scaler.fit features (Column.sequence.map Column.name)
  let targetScaler ← Scaler.fit targets (Column.body.map Column.name)
  let samples := Dataset.ofRows (lookback settings) (← featureScaler.transform features)
    (← targetScaler.transform targets)
  let (train, val) := samples.split settings.trainSplit
  if train.size = 0 then throw .emptyTrainingSet
  return ⟨featureScaler, targetScaler, samples.size, train, val⟩

end Training

/-- What came of a training. -/
structure TrainingReport where
  symbol : String
  kind : ModelKind
  sampleCount : Nat
  trainCount : Nat
  valCount : Nat
  parameterCount : Option Nat
  history : List EpochStats
  weightsPath : Path
  historyPath : Path

namespace ModelStore
open Training

/-- What is noted down of a trained model. -/
def metadataOf (settings : TrainingSettings) (series : Series) (p : Prepared) (now : Instant) :
    ModelMetadata where
  symbol := series.symbol
  kind := settings.kind
  lookback := lookback settings
  hiddenSize := settings.lstm.hiddenSize
  timeframe := series.timeframe
  features := p.featureScaler.columns
  targets := p.targetScaler.columns
  trainedAt := now

/-- Trains a model on a series and writes its weights, scalers, metadata and history. -/
def train (s : ModelStore) (settings : TrainingSettings) (now : Instant) (r : Random)
    (series : Series) : Storing TrainingReport := do
  let p ← Storing.of ((prepare settings series.candles).mapError Failure.ofCause)
  s.ensure
  let weightsPath := s.path (Artifact.weights settings.kind) series.symbol
  let (model, history) ← Storing.of (Forecaster.fit settings p.train p.val r)
  model.save weightsPath
  s.saveScalers series.symbol p.featureScaler p.targetScaler
  s.saveMetadata (metadataOf settings series p now)
  Storing.attempting "Failed to write training history" (s.writeHistory series.symbol history)
  return {
    symbol := series.symbol
    kind := settings.kind
    sampleCount := p.sampleCount
    trainCount := p.train.size
    valCount := p.val.size
    parameterCount := model.parameterCount?
    history
    weightsPath
    historyPath := s.path .history series.symbol }

end ModelStore
end OrderFlow
