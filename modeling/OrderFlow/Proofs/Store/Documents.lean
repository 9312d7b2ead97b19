import OrderFlow.Proofs.Calendar.Instants
import OrderFlow.Proofs.Json.Records
import OrderFlow.Store.Metadata

/-! Scalers and metadata are read back from the JSON text they are written as. -/
namespace OrderFlow
open Json

namespace Scaler
variable {s : Scaler}

lemma fits_toJson (s : Scaler) : fits s.toJson = true := by
  rw [toJson, fits]
  refine fitsMembers_zip ?_
  simp [fits, fitsItems_eq]

/-- The scaler that is read from the text of one. -/
def reread (s : Scaler) : Scaler where
  columns := s.columns
  mean := s.mean.map rereadDouble
  scale := s.scale.map rereadDouble

/-- A scaler of finite values is read back, its values as their digits are read. -/
theorem ofJson?_reread (hmean : ∀ x ∈ s.mean, Binary.isFinite x = true)
    (hscale : ∀ x ∈ s.scale, Binary.isFinite x = true) :
    ofJson? (Json.reread s.toJson) = some s.reread := by
  rw [toJson, ofJson?, fields?_reread (by decide) rfl]
  simp only [List.map_cons, List.map_nil, Option.bind_eq_bind, Option.bind_some, strings?_reread,
    floats?_reread hmean, floats?_reread hscale]
  rfl

end Scaler

namespace ModelMetadata
variable {m : ModelMetadata}

/-- Metadata that can be written: sizes that fit words, and a time in the calendar. -/
structure IsWritable (m : ModelMetadata) : Prop where
  lookback : m.lookback < wordSize
  hiddenSize : m.hiddenSize < wordSize
  trainedAt : m.trainedAt.IsWritable

lemma IsWritable.fits (h : m.IsWritable) : fits m.toJson = true := by
  have hlookback := h.lookback
  have hhidden := h.hiddenSize
  rw [wordSize] at hlookback hhidden
  rw [toJson, Json.fits]
  refine fitsMembers_zip ?_
  simp [Json.fits, fitsItems_eq, Timeframe.toJson, Instant.toJson]
  omega

/-- Metadata are read back as they were. -/
theorem IsWritable.ofJson?_reread (h : m.IsWritable) : ofJson? (reread m.toJson) = some m := by
  have hkind : ModelKind.ofJson? (reread (.string m.kind.name)) = some m.kind := by
    rw [reread_string, ModelKind.ofJson?, ModelKind.ofName?_name]
  have htimeframe : Timeframe.ofJson? (reread m.timeframe.toJson) = some m.timeframe := by
    rw [Timeframe.toJson, Timeframe.ofJson?, asString?_reread, Option.bind_some,
      Timeframe.ofText?_label]
  have htime : Instant.ofJson? (reread m.trainedAt.toJson) = some m.trainedAt := by
    rw [Instant.toJson, Instant.ofJson?, asString?_reread, Option.bind_some,
      Instant.ofText?_text h.trainedAt]
  have hfields : (reread m.toJson).fields? fieldNames =
      some [some (reread (.string m.symbol)),some (reread (.string m.kind.name)),
        some (reread (.integer m.lookback)),some (reread (.integer m.hiddenSize)),
        some (reread m.timeframe.toJson),some (reread (.array (m.features.map .string))),
        some (reread (.array (m.targets.map .string))),some (reread m.trainedAt.toJson)] :=
    fields?_reread (by decide) rfl
  rw [ofJson?, hfields]
  dsimp only [Option.bind_eq_bind, Option.bind_some]
  rw [asString?_reread, hkind, htimeframe, htime, asNat64?_reread h.lookback,
    asNat64?_reread h.hiddenSize, strings?_reread, strings?_reread]
  rfl

end ModelMetadata
end OrderFlow
