import Mathlib.Tactic.Lemma
import OrderFlow.Forecast.Forecaster
import OrderFlow.Proofs.Files.Writing
import OrderFlow.Proofs.Outcome

/-! Models that are saved and read again. What is read depends on the file at the model's path
alone. -/
namespace OrderFlow
open Column (Row)
open Storing
variable {t t' : FileTree} {p : Path} {metadata : ModelMetadata} {features targets : Nat}

namespace Forecaster
variable {model : Forecaster}

/-- Saved at any path, a model is read from there by its metadata, and what is read forecasts every
target from each window of the metadata's lookback and of rows with all features. -/
def Serves (model : Forecaster) (metadata : ModelMetadata) (features targets : Nat) : Prop :=
  ∀ p t t', Succeeds (model.save p) t () t' →
    ∃ reloaded, load t' p metadata features targets = .ok reloaded ∧
      ∀ window : List Row, window.length = metadata.lookback →
        (∀ row ∈ window, row.length = features) →
        ∃ values, reloaded.predict window = .ok values ∧ values.length = targets

lemma load_congr (h : t.get? p = t'.get? p) :
    load t p metadata features targets = load t' p metadata features targets := by
  rw [load, load, LstmModel.load, LstmModel.load, ForestModel.load, ForestModel.load,
    FileTree.exists?_congr h, FileTree.content?_congr h, JsonFile.read_congr h]

/-- A model is read only where there is a file. -/
lemma exists_get?_of_load (h : load t p metadata features targets = .ok model) :
    ∃ e, t.get? p = some e := by
  have hexists : t.exists? p = true := by
    rw [load] at h
    split at h
    · rw [LstmModel.load, map_eq_ok_iff] at h
      obtain ⟨_,h,-⟩ := h
      simpa using (guard_fail_eq_ok_iff.mp h).1
    · rw [ForestModel.load, map_eq_ok_iff] at h
      obtain ⟨_,h,-⟩ := h
      split at h
      · assumption
      · cases h
  exact Option.isSome_iff_exists.mp hexists

end Forecaster
end OrderFlow
