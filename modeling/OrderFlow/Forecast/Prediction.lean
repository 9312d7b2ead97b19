import OrderFlow.Forecast.Training
import OrderFlow.Store.MarketFiles

/-! The body of the candle after the last one, forecast by the saved model of the symbol. -/
namespace OrderFlow.ModelStore
open Training

/-- The metadata of a symbol, if the model was trained with the lookback asked for. -/
def checkedMetadata (s : ModelStore) (t : FileTree) (symbol : String) (lookback : Option Nat) :
    Outcome ModelMetadata := do
  let metadata ← s.loadMetadata t symbol
  match lookback with
  | none => return metadata
  | some n =>
    if n = metadata.lookback then return metadata
    else fail (.lookbackMismatch metadata.lookback n)

/-- The last `n` of some rows. -/
def lastRows {α : Type} (n : Nat) (rows : List α) : List α := rows.drop (rows.length - n)

/-- The forecast of the model that metadata describe. -/
def forecast (s : ModelStore) (t : FileTree) (series : Series) (metadata : ModelMetadata) :
    Outcome BodyForecast := do
  let columns ← (Column.parseList (Column.joinNames metadata.features)).mapError Failure.ofCause
  let (featureScaler, targetScaler) ← s.loadScalers t series.symbol
  let rows ← (cleanRows columns Column.body series.candles).mapError Failure.ofCause
  if rows.length < metadata.lookback then
    fail (.notEnoughRows metadata.lookback rows.length)
  let last := lastRows metadata.lookback (rows.map (·.1))
  let window ← (featureScaler.transform last).mapError Failure.ofCause
  let weightsPath := s.path (Artifact.weights metadata.kind) metadata.symbol
  let model ← Forecaster.load t weightsPath metadata columns.length targetScaler.width
  let scaled ← model.predict window
  let values ← (targetScaler.inverseRow scaled).mapError Failure.ofCause
  match BodyForecast.ofList? values with
  | some body => return body
  | none => fail (.shapeMismatch 2 values.length)

/-- The forecast for a series. -/
def predictOn (s : ModelStore) (t : FileTree) (series : Series) (lookback : Option Nat) :
    Outcome BodyForecast := do
  let metadata ← s.checkedMetadata t series.symbol lookback
  s.forecast t series metadata

/-- The forecast for the market files of a symbol; a missing model is reported first. -/
def predict (s : ModelStore) (t : FileTree) (data : Path) (tf : Timeframe) (symbol : String)
    (lookback : Option Nat) : Outcome BodyForecast := do
  let metadata ← s.checkedMetadata t symbol lookback
  s.forecast t (← MarketFiles.series t data tf symbol) metadata

end OrderFlow.ModelStore
