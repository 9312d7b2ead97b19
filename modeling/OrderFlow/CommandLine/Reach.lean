import OrderFlow.CommandLine.Arguments
import OrderFlow.CommandLine.Perform

/-! What a run may look at of the files and variables around it, so that they can be read
beforehand, and which files it left changed. -/
namespace OrderFlow.CommandLine

/-- A path, and how many levels of what is inside it matter. -/
structure Source where
  path : Path
  levels : Nat

namespace Source

def alone (p : Path) : Source := ⟨p, 0⟩

/-- The files that settle the settings. -/
def ofSetup (t : FileTree) (args : List String) : List Source :=
  let file := match request args with
    | .ok (.run l _) => l.settingsFile
    | _ => none
  ((environmentFiles t) ++ file.toList).map alone

/-- The market files of a symbol in a data directory: days, and the files in them. -/
def ofMarket (symbol : String) (data : Path) : List Source :=
  [alone data, ⟨data.join symbol, 2⟩]

def ofModel (store : ModelStore) (symbol : String) : List Source :=
  alone store.directory :: Artifact.all.map fun a => alone (store.path a symbol)

def ofOutput (p : Path) : List Source := (p.parent?).toList.map alone ++ [alone p]

end Source

namespace Command

def symbol : Command → String
  | .train s .. | .predict s .. | .candles s .. | .dataset s .. => symbolOf s

def output? : Command → Option Path
  | .candles _ output _ => output
  | _ => none

/-- The files that a command may look at under some settings. -/
def sources (t : FileTree) (s : Settings) (c : Command) : List Source :=
  let data := match s.data.directory with
    | some p => [p]
    | none => ((startPath t).ancestors s.data.searchDepth).map (Path.join · MarketFiles.directoryName)
  data.flatMap (Source.ofMarket c.symbol) ++ Source.ofModel (modelStore s) c.symbol ++
    c.output?.toList.flatMap Source.ofOutput

end Command

/-- The files that a run may look at, once those of its setup are read. -/
def sources (c : Context) (args : List String) (t : FileTree) : List Source :=
  match request args with
  | .ok (.run l command) =>
    match (extendedEnvironment t c.environment).bind fun env => settings t env l with
    | .ok s => command.sources t s
    | .error _ => []
  | _ => []

/-- The longest runs of characters of one class. -/
def runs (isPart : Char → Bool) (s : String) : List String :=
  (s.splitToList (!isPart ·)).filter (!·.isEmpty)

/-- The variables that a run may ask for: those of the settings, and what may be a name in an
environment file. -/
def variableNames (t : FileTree) : List String :=
  let texts := (environmentFiles t).filterMap t.text?
  Settings.variableNames ++ texts.flatMap (runs Text.isAlphanumeric) ++
    texts.flatMap (runs EnvironmentFile.isNameChar)

/-- What stands in a tree and did not stand there before. -/
def changes (old new : FileTree) : List (Place × Entry) :=
  new.entries.filter fun (p, e) =>
    match e, old.at? p with
    | .directory, none => true
    | .directory, some _ => false
    | .file c, some (.file d) => c.toBytes != d.toBytes
    | .file _, _ => true

end OrderFlow.CommandLine
