import OrderFlow.Failure
import OrderFlow.Text.Case

/-! The kinds of forecasting models. -/
namespace OrderFlow

inductive ModelKind where
  | lstm
  | forest
  deriving DecidableEq, Repr, Inhabited

namespace ModelKind

def name : ModelKind → String
  | lstm => "lstm"
  | forest => "forest"

/-- The kind of an exact name. -/
def ofName? (s : String) : Option ModelKind := [lstm, forest].find? (·.name == s)

/-- The kind that a text names, in any case. -/
def ofText? (s : String) : Option ModelKind :=
  match Text.lower s with
  | "lstm" => some lstm
  | "forest" | "random_forest" => some forest
  | _ => none

def parse (s : String) : Outcome ModelKind :=
  match ofText? s with
  | some k => .ok k
  | none => fail (.unknownModelKind s)

@[simp] theorem ofName?_name (k : ModelKind) : ofName? k.name = some k := by cases k <;> decide

end ModelKind

/-- The body of the candle to come. -/
structure BodyForecast where
  openPrice : Float
  closePrice : Float

/-- The first two values of a forecast. -/
def BodyForecast.ofList? : List Float → Option BodyForecast
  | o :: c :: _ => some ⟨o, c⟩
  | _ => none

def BodyForecast.toList (f : BodyForecast) : List Float := [f.openPrice, f.closePrice]

end OrderFlow
