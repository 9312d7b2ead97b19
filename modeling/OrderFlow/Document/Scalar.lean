import OrderFlow.Binary.Reader
import OrderFlow.Decimal.Text
import OrderFlow.Json.Printer
import OrderFlow.Text.Blank

/-! Lenient readings of JSON values in market documents: a number may stand as a number or as
text, and members may go by several names. -/
namespace OrderFlow.Json
open OrderFlow.Text

/-- The bounds of times and identifiers. -/
def int64Low : Int := -2 ^ 63

def int64High : Int := 2 ^ 63 - 1

/-- The whole part of a double, held within 64 bits. -/
def saturate (x : Float) : Int := Binary.truncate int64Low int64High x

/-- Digits with an optional sign, within 64 bits. -/
def int64OfText? (cs : List Char) : Option Int :=
  let (negative, ds) := takeSign cs
  if ds.isEmpty || !ds.all isDigit then none
  else
    let i : Int := if negative then -(digitsValue ds : Int) else digitsValue ds
    if int64Low ≤ i ∧ i ≤ int64High then some i else none

/-- A finite number. -/
def looseFloat? (j : Json) : Option Float :=
  (match j with
    | .integer i => some (Binary.ofInt i)
    | .float x => some x
    | .string s => Binary.ofText? (trim s)
    | _ => none).filter Binary.isFinite

/-- The text that a number or a string stands for. -/
def looseText? : Json → Option String
  | .integer i => some (intText i)
  | .float x => some (String.ofList (floatChars x))
  | .string s => some (trim s)
  | _ => none

/-- A decimal, exactly as written. -/
def looseDecimal? (j : Json) : Option Decimal := (looseText? j).bind Decimal.ofText?

/-- A whole number; fractions are cut off and sizes held within 64 bits. -/
def looseInteger? : Json → Option Int
  | .integer i => if i ≤ int64High then some i else some (saturate (Binary.ofInt i))
  | .float x => some (saturate x)
  | .string s =>
    (int64OfText? (trimmed s.toList)).or ((Binary.ofText? (trim s)).map saturate)
  | _ => none

/-- True, a number other than zero, or the text `true` or `1`. -/
def truthy : Json → Bool
  | .bool b => b
  | .integer i => i != 0
  | .float x => x != 0.0
  | .string s => lower (trim s) == "true" || lower (trim s) == "1"
  | _ => false

/-- The first of some keys with a value that is not null. -/
def firstPresent? (ms : Members) (keys : List String) : Option Json :=
  (keys.filterMap (get? ms)).find? (!·.isNull)

/-- The first of some keys with an array that is not empty. -/
def firstFilled? (ms : Members) (keys : List String) : Option (List Json) :=
  (keys.filterMap fun k => (get? ms k).bind asArray?).find? (!·.isEmpty)

end OrderFlow.Json
