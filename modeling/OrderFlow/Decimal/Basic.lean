import OrderFlow.Rounding
import OrderFlow.Binary.Basic

/-! Decimals of 96 bits: a signed coefficient and a number of decimal places, at most 28, that is
kept as written (`1.50` is not `1.5`). There is one zero for each number of places. -/
namespace OrderFlow

structure Decimal where
  coefficient : Int
  scale : Nat
  coefficient_lt : coefficient.natAbs < 2 ^ 96
  scale_le : scale ≤ 28
  deriving DecidableEq

namespace Decimal

def zero : Decimal := ⟨0, 0, by decide, by decide⟩

instance : Inhabited Decimal := ⟨zero⟩

/-- `c · 10^-s`, if it is a decimal. -/
def of? (c : Int) (s : Nat) : Option Decimal :=
  if h : c.natAbs < 2 ^ 96 ∧ s ≤ 28 then some ⟨c, s, h.1, h.2⟩ else none

def isZero (x : Decimal) : Bool := x.coefficient = 0

/-- Comparison is by value: both coefficients are brought to the same power of ten. -/
def le (x y : Decimal) : Bool :=
  x.coefficient * 10 ^ y.scale ≤ y.coefficient * 10 ^ x.scale

def lt (x y : Decimal) : Bool := !le y x

def isPositive (x : Decimal) : Bool := 0 < x.coefficient

def isNegative (x : Decimal) : Bool := x.coefficient < 0

/-- The double nearest to a decimal's value up to two roundings: the fraction is divided first,
added to the whole part, and the sum is brought back to the written number of places. -/
def toFloat (x : Decimal) : Float :=
  let n := x.coefficient.natAbs
  let d := 10 ^ x.scale
  let negate (v : Float) := if x.coefficient < 0 then -v else v
  if x.scale = 0 then Binary.ofInt x.coefficient
  else
    let whole := Binary.nearest false (n / d) 1
    let fraction := Binary.nearest false (n % d) 1 / Binary.nearest false d 1
    if fraction == 0.0 then negate whole
    else
      let places := Binary.power 10.0 x.scale
      negate (((whole + fraction) * places).round / places)

@[simp] theorem of?_coefficient_scale (x : Decimal) : of? x.coefficient x.scale = some x :=
  dif_pos ⟨x.coefficient_lt, x.scale_le⟩

end Decimal
end OrderFlow
