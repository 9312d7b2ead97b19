import OrderFlow.Store.History
import OrderFlow.Store.JsonFile
import OrderFlow.Store.Metadata

/-! Where trained models are kept: one directory, with the files of a symbol told apart by how
their names end. -/
namespace OrderFlow

/-- What is kept of a trained model. -/
inductive Artifact where
  | lstmWeights
  | forestWeights
  | metadata
  | featureScaler
  | targetScaler
  | history
  deriving DecidableEq, Repr

namespace Artifact

def all : List Artifact :=
  [lstmWeights, forestWeights, metadata, featureScaler, targetScaler, history]

/-- What follows the symbol in the name of the file. -/
def ending : Artifact → String
  | lstmWeights => "_model.safetensors"
  | forestWeights => "_forest.json"
  | metadata => "_model.json"
  | featureScaler => "_scaler_x.json"
  | targetScaler => "_scaler_y.json"
  | history => "_history.csv"

def weights : ModelKind → Artifact
  | .lstm => lstmWeights
  | .forest => forestWeights

end Artifact

structure ModelStore where
  directory : Path

namespace ModelStore

def path (s : ModelStore) (a : Artifact) (symbol : String) : Path :=
  s.directory.join (symbol ++ a.ending)

/-- Makes the directory where it is missing. -/
def ensure (s : ModelStore) : Storing Unit :=
  Storing.changeThrough (.other ("Failed to create model dir " ++ s.directory))
    (·.makeDirectories s.directory)

def saveMetadata (s : ModelStore) (m : ModelMetadata) : Storing Unit :=
  JsonFile.write (s.path .metadata m.symbol) m.toJson

/-- The metadata of a symbol, which is not trained where there is none. -/
def loadMetadata (s : ModelStore) (t : FileTree) (symbol : String) : Outcome ModelMetadata :=
  let p := s.path .metadata symbol
  if t.exists? p then JsonFile.read t p ModelMetadata.ofJson? else fail (.notTrained p)

def saveScalers (s : ModelStore) (symbol : String) (features targets : Scaler) :
    Storing Unit := do
  JsonFile.write (s.path .featureScaler symbol) features.toJson
  JsonFile.write (s.path .targetScaler symbol) targets.toJson

/-- The scalers of features and targets. -/
def loadScalers (s : ModelStore) (t : FileTree) (symbol : String) : Outcome (Scaler × Scaler) := do
  let features ← JsonFile.read t (s.path .featureScaler symbol) Scaler.ofJson?
  let targets ← JsonFile.read t (s.path .targetScaler symbol) Scaler.ofJson?
  return (features, targets)

/-- Replaces the history of a symbol. The directory has to exist. -/
def writeHistory (s : ModelStore) (symbol : String) (history : List EpochStats) : Storing Unit :=
  JsonFile.create (s.path .history symbol) (.text (History.text history))

def readHistory (s : ModelStore) (t : FileTree) (symbol : String) : Outcome (List EpochStats) :=
  let p := s.path .history symbol
  match t.get? p with
  | none => fail (JsonFile.cannotOpen p)
  | some e =>
    match History.ofEntry? e with
    | some history => .ok history
    | none => fail (.other "Malformed history row")

end ModelStore
end OrderFlow
