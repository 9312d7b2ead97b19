import OrderFlow.Feature.Evaluation
import OrderFlow.Feature.Windows
import OrderFlow.Forecast.Epoch
import OrderFlow.Forecast.Forest.Document
import OrderFlow.Forecast.Forest.Grow
import OrderFlow.Store.JsonFile

/-! Fitting forests to samples, and keeping them in files. -/
namespace OrderFlow.ForestModel

/-- Fits a forest to one target after the other. -/
def fitTargets (settings : ForestSettings) (rows : List (Array Float)) :
    List (List Float) → Random → List Forest × Random
  | [], r => ([], r)
  | target :: rest, r =>
    let (f, r) := Forest.fit settings rows r target
    let (fs, r) := fitTargets settings rows rest r
    (f :: fs, r)

/-- How well the model does on the samples it was fitted to and on others. -/
def stats (m : ForestModel) (train val : Dataset) : Outcome EpochStats := do
  let onTrain ← Evaluation.evaluate m.predict train.windows train.targets
  let onVal ← Evaluation.evaluate m.predict val.windows val.targets
  return {
    epoch := 1
    trainLoss := onTrain.elim Binary.nan (·.squared)
    valLoss := onVal.map (·.squared)
    valError := onVal.map (·.absolute) }

/-- Fits one forest to each target. The first row says how many columns count; every other row
must have them. -/
def fit (settings : ForestSettings) (train val : Dataset) (r : Random) :
    Outcome (ForestModel × List EpochStats) := do
  if train.size = 0 then fail .emptyTrainingSet
  let rows := train.flattened.map List.toArray
  let columns := rows.head?.elim 0 Array.size
  if columns = 0 then fail (.forest "Matrix error")
  if rows.any (·.size < columns) then fail .incompleteForest
  match (List.range train.targetCount).mapM train.targetColumn? with
  | none => fail .incompleteForest
  | some targets =>
    let m : ForestModel := ⟨(fitTargets settings rows targets r).1⟩
    return (m, [← m.stats train val])

/-- Writes the model; a failure is one of the forest. -/
def save (m : ForestModel) (p : Path) : Storing Unit :=
  ExceptT.mk fun t =>
    let (o, t) := ExceptT.run (JsonFile.write p m.toJson) t
    (o.mapError fun f => .ofCause (.forest f.message), t)

/-- Reads a model, which is not trained where there is none. -/
def load (t : FileTree) (p : Path) : Outcome ForestModel :=
  if t.exists? p then JsonFile.read t p ofJson? else fail (.notTrained p)

end OrderFlow.ForestModel
