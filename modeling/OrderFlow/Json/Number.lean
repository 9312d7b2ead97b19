import OrderFlow.Json.Value
import OrderFlow.Text.Digits

/-! Numbers in JSON text. A number without fraction and exponent that fits 64 bits is whole;
otherwise as many digits as fit an unsigned 64-bit significand are kept, and one power of ten is
multiplied in or divided out. -/
namespace OrderFlow.Json
open OrderFlow.Text

/-- Appends digits to a significand while it fits 64 bits; also the digits left over. -/
def absorb (significand : Nat) : List Char → Nat × List Char
  | [] => (significand, [])
  | c :: r =>
    let next := 10 * significand + digitValue c
    if next < 2 ^ 64 then absorb next r else (significand, c :: r)

/-- `x · 10^e` in doubles; none where it overflows. Below `10^-308` it divides in steps. -/
def timesPower (x : Float) (e : Int) : Nat → Option Float
  | 0 => some x
  | fuel + 1 =>
    if e.natAbs ≤ 308 then
      let power := Binary.nearest false (10 ^ e.natAbs) 1
      if 0 ≤ e then
        let y := x * power
        if Binary.isFinite y then some y else none
      else some (x / power)
    else if x == 0.0 then some x
    else if 0 ≤ e then none
    else timesPower (x / Binary.nearest false (10 ^ 308) 1) (e + 308) fuel

def floatNumber (negative : Bool) (significand : Nat) (e : Int) : Json :=
  match timesPower (Binary.nearest false significand 1) e 4 with
  | none => .unreadable
  | some x => .float (if negative then -x else x)

/-- The value of a number without fraction and exponent. -/
def wholeNumber (negative : Bool) (significand : Nat) : Json :=
  if !negative then .integer significand
  else if significand = 0 ∨ 2 ^ 63 < significand then
    .float (-(Binary.nearest false significand 1))
  else .integer (-significand)

/-- Reads the exponent's sign and digits after its mark. An exponent beyond 32 bits is out of
range, except that zero stays zero. -/
def exponentNumber (negative : Bool) (significand : Nat) (start : Int) (cs : List Char) :
    Option (Json × List Char) :=
  let (down, r) := takeSign cs
  let ds := r.takeWhile isDigit
  let rest := r.dropWhile isDigit
  let e := digitsValue ds
  if ds.isEmpty then none
  else if 2 ^ 31 ≤ e ∧ significand ≠ 0 ∧ !down then some (.unreadable, rest)
  else if 2 ^ 31 ≤ e then some (.float (Binary.withSign negative 0), rest)
  else some (floatNumber negative significand (if down then start - e else start + e), rest)

/-- Finishes a number at its exponent mark or its end. -/
def scaledNumber (negative : Bool) (significand : Nat) (e : Int) :
    List Char → Option (Json × List Char)
  | 'e' :: r => exponentNumber negative significand e r
  | 'E' :: r => exponentNumber negative significand e r
  | r => some (floatNumber negative significand e, r)

def unsignedNumber (negative : Bool) (cs : List Char) : Option (Json × List Char) :=
  let whole := cs.takeWhile isDigit
  let rest := cs.dropWhile isDigit
  let (significand, dropped) := absorb 0 whole
  if whole.isEmpty || (whole.head? == some '0' && 1 < whole.length) then none
  else
    match rest with
    | '.' :: r =>
      let fraction := r.takeWhile isDigit
      let (significand, left) := absorb significand fraction
      if fraction.isEmpty then none
      else
        scaledNumber negative significand
          ((dropped.length : Int) - (fraction.length - left.length : Nat)) (r.dropWhile isDigit)
    | c :: r =>
      if c = 'e' ∨ c = 'E' then exponentNumber negative significand dropped.length r
      else if dropped.isEmpty then some (wholeNumber negative significand, c :: r)
      else some (floatNumber negative significand dropped.length, c :: r)
    | [] =>
      if dropped.isEmpty then some (wholeNumber negative significand, [])
      else some (floatNumber negative significand dropped.length, [])

/-- Reads a number from the front of a text. -/
def number (cs : List Char) : Option (Json × List Char) :=
  match cs with
  | '-' :: r => unsignedNumber true r
  | r => unsignedNumber false r

end OrderFlow.Json
