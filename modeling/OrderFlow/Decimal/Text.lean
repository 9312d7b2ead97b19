import OrderFlow.Decimal.Basic
import OrderFlow.Text.Digits

/-! Decimals as text. Writing keeps every place. Reading takes a sign, digits with `_` between
them and one point, and rounds away what does not fit after the point; failing that, such a text
with an exponent, which is rounded in the same way. -/
namespace OrderFlow.Decimal
open OrderFlow.Text

def magnitudeDigits (n s : Nat) : List Char :=
  if s = 0 then natDigits n
  else
    let ds := paddedDigits (s + 1) n
    ds.take (ds.length - s) ++ '.' :: ds.drop (ds.length - s)

def toChars (x : Decimal) : List Char :=
  (if x.coefficient < 0 then ['-'] else []) ++ magnitudeDigits x.coefficient.natAbs x.scale

/-- The sign, the whole digits, and the places after a point. -/
def toText (x : Decimal) : String := String.ofList (toChars x)

/-- A coefficient with its number of places. -/
abbrev Parts := Nat × Nat

/-- The places are full and `next` is the first digit left out: from 5 on it rounds up, and a
coefficient that no longer fits loses one more place. -/
def roundOff (c s next : Nat) : Option Parts :=
  if next < 5 then some (c, s)
  else if c + 1 < 2 ^ 96 then some (c + 1, s)
  else if s = 0 then none
  else some ((c + 5) / 10, s - 1)

/-- Reads unsigned digits. `point` tells that the point has been passed, `some` digit has been
read when `seen`. -/
def scan (c s : Nat) (point seen : Bool) : List Char → Option Parts
  | [] => if seen then some (c, s) else none
  | ch :: r =>
    if isDigit ch then
      let next := 10 * c + digitValue ch
      if s = 28 ∨ 2 ^ 96 ≤ next then
        if point && r.all (fun d => isDigit d || d = '_') then roundOff c s (digitValue ch)
        else none
      else scan next (if point then s + 1 else s) point true r
    else if ch = '.' && !point then scan c s true seen r
    else if ch = '_' && seen then scan c s point true r
    else none

def ofParts? (negative : Bool) (p : Parts) : Option Decimal :=
  of? (if negative then -(p.1 : Int) else p.1) p.2

/-- Reads a decimal without an exponent. -/
def ofPlain? (cs : List Char) : Option Decimal :=
  let (negative, r) := takeSign cs
  (scan 0 0 false false r).bind (ofParts? negative)

/-- An unsigned number of at most 32 bits, with an optional plus. -/
def exponentDigits? (cs : List Char) : Option Nat :=
  let ds := match cs with
    | '+' :: r => r
    | r => r
  if ds.isEmpty || !ds.all isDigit then none
  else
    let n := digitsValue ds
    if n < 2 ^ 32 then some n else none

/-- The coefficient with `k` places fewer, a half going away from zero. -/
def droppingPlaces (k : Nat) (c : Int) : Int :=
  let n := (2 * c.natAbs + 10 ^ k) / (2 * 10 ^ k)
  if c < 0 then -n else n

/-- Moves the point by an exponent of at most 28 digits either way. To the left it rounds what lies
beyond 28 places; to the right the coefficient has to hold the result. -/
def scaleBy? (x : Decimal) (exponent : List Char) : Option Decimal := do
  match exponent with
  | '-' :: r =>
    let e ← exponentDigits? r
    if 28 < e then none
    else if x.scale + e ≤ 28 then of? x.coefficient (x.scale + e)
    else of? (droppingPlaces (x.scale + e - 28) x.coefficient) 28
  | r =>
    let e ← exponentDigits? r
    if 28 < e then none
    else if e ≤ x.scale then of? x.coefficient (x.scale - e)
    else of? (x.coefficient * 10 ^ (e - x.scale)) 0

def isExponentMark (c : Char) : Bool := c = 'e' || c = 'E'

/-- Reads a decimal with an exponent. -/
def ofScientific? (cs : List Char) : Option Decimal :=
  match cs.dropWhile (fun c => !isExponentMark c) with
  | [] => none
  | _ :: exponent =>
    (ofPlain? (cs.takeWhile (fun c => !isExponentMark c))).bind (scaleBy? · exponent)

/-- The decimal that a text writes, with or without an exponent. -/
def ofText? (s : String) : Option Decimal := (ofPlain? s.toList).or (ofScientific? s.toList)

end OrderFlow.Decimal
