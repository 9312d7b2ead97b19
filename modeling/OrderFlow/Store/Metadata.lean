import OrderFlow.Calendar.Instant
import OrderFlow.Document.Records
import OrderFlow.Forecast.Kind

/-! What has to be known of a trained model to use it again, and its JSON form. -/
namespace OrderFlow

structure ModelMetadata where
  symbol : String
  kind : ModelKind
  lookback : Nat
  hiddenSize : Nat
  timeframe : Timeframe
  features : List String
  targets : List String
  trainedAt : Instant

namespace ModelKind

/-- A kind by its exact name, which may also be the only key of an object, over null. -/
def ofJson? : Json → Option ModelKind
  | .string s => ofName? s
  | .object [(s, .null)] => ofName? s
  | _ => none

end ModelKind

namespace Instant

def toJson (t : Instant) : Json := .string (t.text "Z")

def ofJson? (j : Json) : Option Instant := j.asString?.bind ofText?

end Instant

namespace ModelMetadata

def fieldNames : List String :=
  ["symbol", "kind", "lookback", "hidden_size", "timeframe", "features", "targets", "trained_at"]

def toJson (m : ModelMetadata) : Json :=
  .object (fieldNames.zip [
    .string m.symbol, .string m.kind.name, .integer m.lookback, .integer m.hiddenSize,
    m.timeframe.toJson, .array (m.features.map .string), .array (m.targets.map .string),
    m.trainedAt.toJson])

def ofJson? (j : Json) : Option ModelMetadata := do
  match ← j.fields? fieldNames with
  | [symbol, kind, lookback, hidden, tf, features, targets, time] =>
    return {
      symbol := ← (← symbol).asString?
      kind := ← ModelKind.ofJson? (← kind)
      lookback := ← (← lookback).asNat64?
      hiddenSize := ← (← hidden).asNat64?
      timeframe := ← Timeframe.ofJson? (← tf)
      features := ← Json.strings? (← features)
      targets := ← Json.strings? (← targets)
      trainedAt := ← Instant.ofJson? (← time) }
  | _ => none

end ModelMetadata
end OrderFlow
