import OrderFlow.Forecast.Kind
import OrderFlow.Files.Path
import OrderFlow.Settings.Environment

/-! What can be asked for on the command line, and the options that go with it. -/
namespace OrderFlow.CommandLine

/-- An option; each takes a value. -/
inductive Flag where
  | settingsFile
  | dataDirectory
  | modelDirectory
  | lookback
  | epochs
  | batchSize
  | model
  | output
  | horizon
  deriving DecidableEq, Repr

namespace Flag

def all : List Flag :=
  [settingsFile, dataDirectory, modelDirectory, lookback, epochs, batchSize, model, output, horizon]

def name : Flag → String
  | settingsFile => "config"
  | dataDirectory => "data-dir"
  | modelDirectory => "model-dir"
  | lookback => "lookback"
  | epochs => "epochs"
  | batchSize => "batch-size"
  | model => "model"
  | output => "output"
  | horizon => "n-future"

/-- The single letter that some options also go by. -/
def letter? : Flag → Option Char
  | output => some 'o'
  | _ => none

/-- Options that every command takes, and that may also stand before it. -/
def general : List Flag := [settingsFile, dataDirectory, modelDirectory]

end Flag

inductive Verb where
  | train
  | predict
  | candles
  | dataset
  deriving DecidableEq, Repr

namespace Verb

def all : List Verb := [train, predict, candles, dataset]

def name : Verb → String
  | train => "train"
  | predict => "predict"
  | candles => "candles"
  | dataset => "dataset"

def ofName? (s : String) : Option Verb := all.find? (·.name == s)

/-- The options of a command besides the general ones. -/
def ownFlags : Verb → List Flag
  | train => [.lookback, .epochs, .batchSize, .model]
  | predict => [.lookback]
  | candles => [.output, .horizon]
  | dataset => [.lookback, .horizon]

def flags (v : Verb) : List Flag := v.ownFlags ++ Flag.general

@[simp] theorem ofName?_name (v : Verb) : ofName? v.name = some v := by cases v <;> decide

end Verb

/-- Why arguments are refused. -/
inductive Misuse where
  | unknownOption (text : String)
  | unexpectedValue (text : String)
  | missingValue (f : Flag)
  | badValue (f : Flag) (text : String)
  | repeated (f : Flag)
  | unknownCommand (text : String)
  | unexpectedArgument (text : String)
  | missingCommand
  | missingSymbol
  deriving DecidableEq, Repr

def Misuse.message : Misuse → String
  | unknownOption text => "unexpected argument '" ++ text ++ "' found"
  | unexpectedValue text => "unexpected value in '" ++ text ++ "'"
  | missingValue f => "a value is required for '--" ++ f.name ++ "'"
  | badValue f text => "invalid value '" ++ text ++ "' for '--" ++ f.name ++ "'"
  | repeated f => "'--" ++ f.name ++ "' cannot be used multiple times"
  | unknownCommand text => "unrecognized subcommand '" ++ text ++ "'"
  | unexpectedArgument text => "unexpected argument '" ++ text ++ "' found"
  | missingCommand => "a subcommand is required"
  | missingSymbol => "a symbol is required"

/-- The values of options. -/
structure Options where
  settingsFile : Option Path
  dataDirectory : Option Path
  modelDirectory : Option Path
  lookback : Option Nat
  epochs : Option Nat
  batchSize : Option Nat
  model : Option ModelKind
  output : Option Path
  horizon : Option Nat
  deriving DecidableEq, Repr

namespace Options

def none : Options := ⟨.none, .none, .none, .none, .none, .none, .none, .none, .none⟩

/-- A path has at least one character. -/
def path? (s : String) : Option Path := if s.isEmpty then .none else some s

def count? (s : String) : Option Nat := (Settings.natural (2 ^ 64) s).toOption

/-- Reads the value of an option that has none yet. -/
def first {α : Type} (f : Flag) (read : String → Option α) (old : Option α) (s : String) :
    Except Misuse (Option α) :=
  match old, read s with
  | some _, _ => .error (.repeated f)
  | .none, .none => .error (.badValue f s)
  | .none, some a => .ok (some a)

/-- The options with the value of one more. -/
def give (o : Options) (f : Flag) (s : String) : Except Misuse Options :=
  let path (old : Option Path) := first f path? old s
  let count (old : Option Nat) := first f count? old s
  match f with
  | .settingsFile => return { o with settingsFile := ← path o.settingsFile }
  | .dataDirectory => return { o with dataDirectory := ← path o.dataDirectory }
  | .modelDirectory => return { o with modelDirectory := ← path o.modelDirectory }
  | .lookback => return { o with lookback := ← count o.lookback }
  | .epochs => return { o with epochs := ← count o.epochs }
  | .batchSize => return { o with batchSize := ← count o.batchSize }
  | .model => return { o with model := ← first f ModelKind.ofText? o.model s }
  | .output => return { o with output := ← path o.output }
  | .horizon => return { o with horizon := ← count o.horizon }

end Options

/-- The directories and the settings file named on the command line. -/
structure Locations where
  settingsFile : Option Path
  dataDirectory : Option Path
  modelDirectory : Option Path
  deriving DecidableEq, Repr

/-- The locations given after a command win over those before it. -/
def Locations.merge (before after : Options) : Locations where
  settingsFile := after.settingsFile.or before.settingsFile
  dataDirectory := after.dataDirectory.or before.dataDirectory
  modelDirectory := after.modelDirectory.or before.modelDirectory

/-- What to do with the market of a symbol. What is not given follows the settings. -/
inductive Command where
  | train (symbol : String) (lookback epochs batchSize : Option Nat) (model : Option ModelKind)
  | predict (symbol : String) (lookback : Option Nat)
  | candles (symbol : String) (output : Option Path) (horizon : Option Nat)
  | dataset (symbol : String) (lookback horizon : Option Nat)
  deriving DecidableEq, Repr

def Verb.command (symbol : String) (o : Options) : Verb → Command
  | train => .train symbol o.lookback o.epochs o.batchSize o.model
  | predict => .predict symbol o.lookback
  | candles => .candles symbol o.output o.horizon
  | dataset => .dataset symbol o.lookback o.horizon

end OrderFlow.CommandLine
