import OrderFlow.Binary.Reader
import OrderFlow.Settings.File
import OrderFlow.Text.Blank

/-! Settings in layers: the built-in values, then a file, then the environment. -/
namespace OrderFlow.Settings
open Text

/-- The value of each variable that is set. -/
abbrev Environment := String → Option String

/-- The variables that settings are taken from. -/
def variableNames : List String :=
  ["DATA_DIR", "DATA_SEARCH_DEPTH", "CANDLE_INTERVAL", "MODEL_DIR", "MODEL_KIND", "LOOKBACK",
    "N_FUTURE", "TRAIN_SPLIT", "EPOCHS", "BATCH_SIZE", "HIDDEN_SIZE", "LEARNING_RATE",
    "FOREST_TREES", "FOREST_MAX_DEPTH", "FOREST_MIN_SPLIT"]

/-- Digits read into a number below a limit; the first that is none, or does not fit, decides. -/
def naturalDigits (limit n : Nat) : List Char → Except String Nat
  | [] => .ok n
  | c :: r =>
    if !isDigit c then .error "invalid digit found in string"
    else
      let next := 10 * n + digitValue c
      if next < limit then naturalDigits limit next r
      else .error "number too large to fit in target type"

/-- A whole number below a limit, with an optional plus. -/
def natural (limit : Nat) (s : String) : Except String Nat :=
  match s.toList with
  | [] => .error "cannot parse integer from empty string"
  | '+' :: c :: r => naturalDigits limit 0 (c :: r)
  | cs => naturalDigits limit 0 cs

def real (s : String) : Except String Float :=
  match Binary.ofText? s with
  | some x => .ok x
  | none =>
    .error (if s.isEmpty then "cannot parse float from empty string" else "invalid float literal")

def interval (s : String) : Except String Timeframe :=
  match Timeframe.ofText? s with
  | some tf => .ok tf
  | none => .error (Timeframe.unknown s).message

/-- The value of a variable without the blanks around it, or another value when it is not set. -/
def lookUp {α : Type} (env : Environment) (read : String → Except String α) (name : String)
    (otherwise : α) : Outcome α :=
  match env name with
  | none => .ok otherwise
  | some raw =>
    match read (trim raw) with
    | .ok a => .ok a
    | .error words => .error ⟨["Failed to parse " ++ name], .other words⟩

/-- The value of a variable as it stands, unless it is blank. -/
def directory (env : Environment) (name : String) : Option String :=
  (env name).filter fun d => !(trim d).isEmpty

/-- The kind in the environment, blanks around it included. -/
def kind (env : Environment) (otherwise : ModelKind) : Outcome ModelKind :=
  match env "MODEL_KIND" with
  | none => .ok otherwise
  | some raw => ModelKind.parse raw

def resolveData (file : DataSection) (env : Environment) : Outcome DataSettings := do
  let base := DataSettings.standard
  return {
    directory := (directory env "DATA_DIR").or file.directory
    searchDepth := ← lookUp env (natural (2 ^ 64)) "DATA_SEARCH_DEPTH"
      (file.searchDepth.getD base.searchDepth)
    interval := ← lookUp env interval "CANDLE_INTERVAL" (file.interval.getD base.interval) }

def resolveModel (file : ModelSection) (env : Environment) : Outcome ModelSettings := do
  let base := ModelSettings.standard
  let t := base.training
  let count (name : String) (set : Option Nat) (otherwise : Nat) :=
    lookUp env (natural (2 ^ 64)) name (set.getD otherwise)
  let kind ← kind env (file.kind.getD t.kind)
  let lookback ← count "LOOKBACK" file.lookback t.lookback
  let horizon ← count "N_FUTURE" file.horizon base.horizon
  let trainSplit ← lookUp env real "TRAIN_SPLIT" (file.trainSplit.getD t.trainSplit)
  let epochs ← count "EPOCHS" file.epochs t.lstm.epochs
  let batchSize ← count "BATCH_SIZE" file.batchSize t.lstm.batchSize
  let hiddenSize ← count "HIDDEN_SIZE" file.hiddenSize t.lstm.hiddenSize
  let learningRate ←
    lookUp env real "LEARNING_RATE" (file.learningRate.getD t.lstm.learningRate)
  let trees ← count "FOREST_TREES" file.trees t.forest.trees
  let maxDepth ← lookUp env (natural (2 ^ 16)) "FOREST_MAX_DEPTH"
    (file.maxDepth.getD t.forest.maxDepth)
  let minSplit ← count "FOREST_MIN_SPLIT" file.minSplit t.forest.minSplit
  ModelSettings.validated {
    directory := (directory env "MODEL_DIR").getD (file.directory.getD base.directory)
    horizon
    training := {
      kind, lookback, trainSplit
      lstm := ⟨hiddenSize, epochs, batchSize, learningRate⟩
      forest := ⟨trees, maxDepth, minSplit⟩ } }

/-- The settings in force, given a file and the environment. -/
def resolve (file : FileSettings) (env : Environment) : Outcome Settings := do
  let data ← attempting "Failed to load data config" (resolveData file.data env)
  let model ← attempting "Failed to load model config" (resolveModel file.model env)
  return ⟨data, model⟩

/-- The settings of a file, given its text if it can be read. -/
def ofFile (path : String) (text : Option String) : Outcome FileSettings :=
  match text with
  | none => fail (.other ("Failed to read config file: " ++ path))
  | some s =>
    match FileSettings.ofText? s with
    | some file => .ok file
    | none => fail (.other ("Failed to parse config TOML: " ++ path))

end OrderFlow.Settings
