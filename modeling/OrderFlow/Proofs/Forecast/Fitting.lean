import Mathlib.Tactic.Common
import OrderFlow.Forecast.Training
import OrderFlow.Proofs.Failing

/-! What fitting, saving and noting down a model can fail for. A training that has samples never
fails there for a cause of its preparation. -/
namespace OrderFlow

/-- Is it a cause for which a training ends while its samples are prepared? -/
def Cause.isEarly : Cause → Bool
  | notEnoughRows _ _ | shapeMismatch _ _ | emptyTrainingSet => true
  | _ => false

/-- A cause that comes up after the preparation, or is none of its own. -/
def Cause.IsLate (c : Cause) : Prop := c.isEarly = false

open Column (Row)
open Cause (IsLate)

namespace Lstm
variable {s : Shape}

lemma failsFor_checked (s : Shape) : FailsFor IsLate s.checked := by
  rw [Shape.checked]
  split_ifs
  exacts [failsFor_fail rfl,failsFor_fail rfl,failsFor_fail rfl,failsWith_ok _ ()]

end Lstm

namespace LstmModel
open Lstm
variable {m : LstmModel} {settings : LstmSettings} {train val : Dataset} {samples : List Sample}

lemma failsFor_narrow (width : Nat) (row : Row) : FailsFor IsLate (narrow width row) := by
  rw [narrow]
  split_ifs
  exacts [failsWith_ok _ _,failsFor_fail rfl]

lemma failsFor_run (m : LstmModel) (xs : List Signal) : FailsFor IsLate (m.run xs) := by
  rw [run]
  split
  exacts [failsFor_fail rfl,failsWith_ok _ _]

lemma failsFor_examples (s : Shape) (samples : List Sample) :
    FailsFor IsLate (samples.mapM (Example.of s)) :=
  failsWith_mapM fun _ _ => (failsWith_mapM fun _ _ => failsFor_narrow ..).bind fun _ _ =>
    (failsFor_narrow ..).bind fun _ _ => failsWith_pure _ _

lemma failsFor_evaluate (m : LstmModel) (data : Dataset) (batchSize : Nat) :
    FailsFor IsLate (m.evaluate data batchSize) := by
  have hbatch (sums : ErrorSums) (batch : List Sample) : FailsFor IsLate (m.addErrors sums batch) :=
    (failsFor_examples ..).bind fun _ _ =>
      (failsWith_mapM fun _ _ => (failsFor_run ..).bind fun _ _ => failsWith_pure _ _).bind
        fun _ _ => failsWith_pure _ _
  rw [evaluate]
  split_ifs
  · exact failsWith_pure _ none
  · exact (failsWith_foldlM (fun sums batch _ => hbatch sums batch) _).bind
      fun _ _ => failsWith_pure _ _

lemma failsFor_learnBatches (rate : Float) (batches : List (List Sample)) (p : Progress) :
    FailsFor IsLate (learnBatches rate batches p).2 := by
  induction batches generalizing p with
  | nil => exact failsWith_ok _ ()
  | cons batch rest ih =>
    have hbatch : FailsFor IsLate (learnBatch rate p batch) :=
      (failsFor_examples ..).bind fun _ _ => failsWith_pure _ _
    rw [learnBatches]
    split
    · exact ih _
    · next f hf => exact failsWith_error (hbatch.error f hf)

lemma failsFor_learnEpochs (settings : LstmSettings) (train val : Dataset) (n epoch : Nat)
    (p : Progress) (r : Random) :
    FailsFor IsLate (learnEpochs settings train val n epoch p r).2 := by
  induction n generalizing epoch p r with
  | zero => exact failsWith_ok _ []
  | succ n ih =>
    rw [learnEpochs]
    dsimp only
    split
    · next f hf =>
      refine failsWith_error (FailsWith.error (P := fun f => IsLate f.cause) ?_ f hf)
      exact (failsFor_learnBatches ..).bind fun _ _ =>
        (failsFor_evaluate ..).bind fun _ _ => failsWith_pure _ _
    · exact (ih ..).map _

/-- With samples, fitting the recurrent model fails only late. -/
theorem failsFor_fit (h : train.size ≠ 0) (r : Random) :
    FailsFor IsLate (m.fit settings train val r).2 := by
  rw [fit, if_neg h]
  split_ifs
  · exact failsFor_fail rfl
  · exact failsFor_learnEpochs ..

end LstmModel

namespace ForestModel
variable {m : ForestModel} {settings : ForestSettings} {train val : Dataset}

lemma failsFor_predict (m : ForestModel) (window : List Row) :
    FailsFor IsLate (m.predict window) := by
  rw [predict]
  split_ifs
  · exact failsFor_fail rfl
  · split
    exacts [failsWith_ok _ _,failsFor_fail rfl]

lemma failsFor_sums (m : ForestModel) (sums : Evaluation.Sums) (pairs : List (List Row × Row)) :
    FailsFor IsLate (Evaluation.sums m.predict sums pairs) := by
  induction pairs generalizing sums with
  | nil => exact failsWith_ok _ _
  | cons pair rest ih => exact (failsFor_predict ..).bind fun _ _ => ih _

lemma failsFor_stats (m : ForestModel) (train val : Dataset) :
    FailsFor IsLate (m.stats train val) := by
  have hevaluate (d : Dataset) :
      FailsFor IsLate (Evaluation.evaluate m.predict d.windows d.targets) := by
    refine (failsFor_sums ..).bind fun s _ => ?_
    split_ifs
    exacts [failsWith_pure _ _,failsWith_pure _ _]
  exact (hevaluate _).bind fun _ _ => (hevaluate _).bind fun _ _ => failsWith_pure _ _

/-- With samples, fitting the forest fails only late. -/
theorem failsFor_fit (h : train.size ≠ 0) (r : Random) :
    FailsFor IsLate (fit settings train val r) := by
  rw [fit, if_neg h]
  refine failsFor_guard rfl (failsFor_guard rfl ?_)
  split
  · exact failsFor_fail rfl
  · exact (failsFor_stats ..).bind fun _ _ => failsWith_pure _ _

end ForestModel

namespace JsonFile
variable {p : Path}

lemma stepFailsFor_create (p : Path) (c : Content) : Storing.StepFailsFor IsLate (create p c) :=
  Storing.stepFailsFor_change rfl

lemma stepFailsFor_write (p : Path) (j : Json) : Storing.StepFailsFor IsLate (write p j) := by
  refine Storing.StepFailsFor.bind ?_ fun _ _ _ _ => stepFailsFor_create _ _
  rw [makeParents]
  split
  · exact Storing.stepFailsFor_pure _ ()
  · exact Storing.stepFailsFor_changeThrough rfl

end JsonFile

namespace Forecaster
variable {settings : TrainingSettings} {train val : Dataset}

/-- With samples, fitting a model of either kind fails only late. -/
theorem failsFor_fit (h : train.size ≠ 0) (r : Random) :
    FailsFor IsLate (fit settings train val r) := by
  rw [fit]
  split
  · exact (Lstm.failsFor_checked _).bind fun _ _ =>
      (LstmModel.failsFor_fit h _).bind fun _ _ => failsWith_pure _ _
  · exact (ForestModel.failsFor_fit h r).bind fun _ _ => failsWith_pure _ _

lemma stepFailsFor_save (m : Forecaster) (p : Path) :
    Storing.StepFailsFor IsLate (m.save p) := by
  cases m with
  | lstm m => exact Storing.stepFailsFor_change rfl
  | forest m =>
    -- a failure of the file becomes one of the forest
    exact fun t => FailsWith.mapError (x := (Storing.result (JsonFile.write p m.toJson) t).1)
      ⟨fun _ _ => rfl⟩

end Forecaster
end OrderFlow
