import OrderFlow.Binary.Basic
import OrderFlow.Text.Digits
import OrderFlow.Text.Case

/-! Doubles read from text with correct rounding: an optional sign, then `inf`, `infinity`,
`nan` in any case, or digits with at most one point and an optional exponent. -/
namespace OrderFlow.Binary
open OrderFlow.Text

/-- `± m · 10^e`, correctly rounded. Exponents far beyond the range are settled by size. -/
def ofScaled (negative : Bool) (m : Nat) (e : Int) : Float :=
  let top := ((natDigits m).length : Int) + e
  if m = 0 then withSign negative 0
  else if 400 < top then infinity negative
  else if top < -400 then withSign negative 0
  else if 0 ≤ e then nearest negative (m * 10 ^ e.toNat) 1
  else nearest negative m (10 ^ (-e).toNat)

/-- Reads `e`, an optional sign and at least one digit, to the end of the text. -/
def exponentOf? : List Char → Option Int
  | [] => some 0
  | c :: r =>
    if lowerAscii c = 'e' then
      let (negative, ds) := takeSign r
      if ds.isEmpty || !ds.all isDigit then none
      else some (if negative then -(digitsValue ds : Int) else digitsValue ds)
    else none

/-- The fraction after a point, with what follows it; without a point there is none. -/
def fractionOf : List Char → List Char × List Char
  | '.' :: r => (r.takeWhile isDigit, r.dropWhile isDigit)
  | r => ([], r)

def magnitudeOf? (negative : Bool) (cs : List Char) : Option Float :=
  match String.ofList (cs.map lowerAscii) with
  | "inf" | "infinity" => some (infinity negative)
  | "nan" => some nan
  | _ =>
    let whole := cs.takeWhile isDigit
    let (fraction, rest) := fractionOf (cs.dropWhile isDigit)
    if whole.isEmpty && fraction.isEmpty then none
    else (exponentOf? rest).map fun e =>
      ofScaled negative (digitsValue (whole ++ fraction)) (e - fraction.length)

/-- The double that a text writes. -/
def ofText? (s : String) : Option Float :=
  let (negative, cs) := takeSign s.toList
  magnitudeOf? negative cs

end OrderFlow.Binary
