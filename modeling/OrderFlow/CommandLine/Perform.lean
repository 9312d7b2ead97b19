import OrderFlow.CommandLine.Command
import OrderFlow.EnvironmentFile.Statement
import OrderFlow.Export.CandleTable
import OrderFlow.Forecast.Prediction
import OrderFlow.Settings.File

/-! Commands carried out on a tree of files. Each gives what it shows. -/
namespace OrderFlow.CommandLine
open Settings (Environment)

/-- What a run is given besides its arguments and the files. -/
structure Context where
  environment : Environment
  now : Instant
  random : Random

/-- What a command shows, and why it broke off after that, if it did. -/
structure Shown where
  text : String
  brokeOff : Option Cause

namespace Shown

def whole (text : String) : Shown := ⟨text, none⟩

def nothing : Shown := whole ""

end Shown

def environmentFileName : String := ".env"

/-- The path from the root to where relative paths start. -/
def startPath (t : FileTree) : Path := "/" ++ "/".intercalate t.start.reverse

/-- The places of an environment file: beside the start and every directory above it. -/
def environmentFiles (t : FileTree) : List Path :=
  ((startPath t).ancestors (t.start.length + 1)).map (Path.join · environmentFileName)

/-- The environment with the variables of the nearest environment file. -/
def extendedEnvironment (t : FileTree) (env : Environment) : Outcome Environment :=
  match ((environmentFiles t).find? t.isFile).bind t.text? with
  | some text => EnvironmentFile.load env text
  | none => .ok env

/-- The settings in force, locations from the command line above all. -/
def settings (t : FileTree) (env : Environment) (l : Locations) : Outcome Settings := do
  let file ← match l.settingsFile with
    | some p => Settings.ofFile p (t.text? p)
    | none => .ok .empty
  let s ← Settings.resolve file env
  return {
    data := { s.data with directory := l.dataDirectory.or s.data.directory }
    model := { s.model with directory := l.modelDirectory.getD s.model.directory } }

/-- Symbols are written in upper case. -/
def symbolOf (s : String) : String := Text.upper (Text.trim s)

/-- Where market files are: as set, or the nearest data directory. -/
def dataDirectory (t : FileTree) (s : DataSettings) : Outcome Path :=
  match s.directory with
  | some p => .ok p
  | none => (MarketFiles.findData t (startPath t) s.searchDepth).mapError Failure.ofCause

def series (t : FileTree) (s : Settings) (symbol : String) : Outcome Series := do
  MarketFiles.series t (← dataDirectory t s.data) s.data.interval symbol

def modelStore (s : Settings) : ModelStore := ⟨s.model.directory⟩

/-- The settings of a model with the values given on the command line. -/
def trainingSettings (m : ModelSettings) (lookback epochs batchSize : Option Nat)
    (kind : Option ModelKind) : ModelSettings :=
  let t := m.training
  { m with
    training := { t with
      kind := kind.getD t.kind
      lookback := lookback.getD t.lookback
      lstm := { t.lstm with
        epochs := epochs.getD t.lstm.epochs
        batchSize := batchSize.getD t.lstm.batchSize } } }

/-- The forecast in words; a missing model is reported before market files are looked for. -/
def forecastText (t : FileTree) (s : Settings) (symbol : String) (lookback : Option Nat) :
    Outcome String := do
  let _ ← (modelStore s).loadMetadata t symbol
  let f ← (modelStore s).predict t (← dataDirectory t s.data) s.data.interval symbol lookback
  return "Predicted next open: " ++ Binary.fixed 6 f.openPrice ++ "   next close: " ++
    Binary.fixed 6 f.closePrice ++ "\n"

/-- The excursions of candles, where they can be held. -/
def excursions (horizon : Nat) (candles : List Candle) : Outcome (List (Option FutureRange)) :=
  match FutureRange.build? horizon candles with
  | some labels => .ok labels
  | none => fail .overflow

/-- Numbers between parentheses. -/
def shapeText (ns : List Nat) : String := "(" ++ ", ".intercalate (ns.map Text.natText) ++ ")"

/-- The shape of the samples of excursions, and what their entries are. Shapes are also told
where the names of the entries are more than memory holds. -/
def datasetText (t : FileTree) (s : Settings) (symbol : String) (lookback horizon : Nat) :
    Outcome Shown := do
  let series ← series t s symbol
  let labels ← excursions horizon series.candles
  match Dataset.ofRanges? Column.range lookback horizon series.candles labels with
  | none => fail .overflow
  | some d =>
    let shapes := "X shape: " ++ shapeText [d.size, d.lookback, d.featureCount] ++
      "\ny shape: " ++ shapeText [d.size, d.targetCount] ++
      "\nFeatures: " ++ ", ".intercalate (Column.range.map Column.name) ++ "\n"
    match FutureRange.names? horizon with
    | some names => return .whole (shapes ++ "Labels: " ++ ", ".intercalate names ++ "\n")
    | none => return ⟨shapes, some .overflow⟩

/-- Carries out a command. A file for candles is created before its text is made. -/
def Command.perform (c : Context) (s : Settings) : Command → Storing Shown
  | .train symbol lookback epochs batchSize kind => do
    let m ← Storing.of (trainingSettings s.model lookback epochs batchSize kind).validated
    let series ← Storing.reading fun t => series t s (symbolOf symbol)
    let _ ← (modelStore s).train m.training c.now c.random series
    return .nothing
  | .predict symbol lookback =>
    Storing.reading fun t => (forecastText t s (symbolOf symbol) lookback).map .whole
  | .candles symbol output horizon => do
    let horizon := horizon.getD s.model.horizon
    let series ← Storing.reading fun t => series t s (symbolOf symbol)
    let labels ← Storing.of (excursions horizon series.candles)
    let table := CandleTable.text series.candles (some ⟨labels, horizon⟩)
    match output with
    | none => return .whole (← Storing.of table)
    | some p =>
      JsonFile.create p (.text "")
      JsonFile.create p (.text (← Storing.of table))
      return .nothing
  | .dataset symbol lookback horizon =>
    Storing.reading fun t => datasetText t s (symbolOf symbol)
      (lookback.getD s.model.training.lookback) (horizon.getD s.model.horizon)

/-- Carries out a command under the settings that its locations and the environment give. -/
def perform (c : Context) (l : Locations) (command : Command) : Storing Shown := do
  let s ← Storing.reading fun t => settings t c.environment l
  command.perform c s

end OrderFlow.CommandLine
