import OrderFlow.Rounding

/-! Doubles seen exactly: every finite double is `± m · 2^s` units of `2^-1074`, and every
ratio of naturals has one nearest double, ties going to the even significand. -/
namespace OrderFlow.Binary

/-- What a double stands for. A finite one is `± mantissa · 2^shift`, counted in units of
`2^-1074`, the smallest positive double. -/
inductive Exact where
  | finite (negative : Bool) (mantissa shift : Nat)
  | infinite (negative : Bool)
  | nan
  deriving DecidableEq, Repr

/-- The exact meaning of a 64-bit pattern. -/
def exactOfBits (bits : Nat) : Exact :=
  let negative := decide (2 ^ 63 ≤ bits)
  let exponent := bits / 2 ^ 52 % 2 ^ 11
  let fraction := bits % 2 ^ 52
  if exponent = 2047 then
    if fraction = 0 then .infinite negative else .nan
  else if exponent = 0 then .finite negative fraction 0
  else .finite negative (2 ^ 52 + fraction) (exponent - 1)

def exact (x : Float) : Exact := exactOfBits x.toBits.toNat

def isFinite (x : Float) : Bool :=
  match exact x with
  | .finite .. => true
  | _ => false

/-- The bit pattern of the double nearest to `n / d`; too large a ratio becomes infinity. -/
def nearestBits (n d : Nat) : Nat :=
  let units := n * 2 ^ 1074
  let shift := (units / d).log2 - 52
  min (shift * 2 ^ 52 + halfEven units (d * 2 ^ shift)) (2047 * 2 ^ 52)

def withSign (negative : Bool) (bits : Nat) : Float :=
  Float.ofBits (UInt64.ofNat (if negative then 2 ^ 63 + bits else bits))

/-- The double nearest to `± n / d`. -/
def nearest (negative : Bool) (n d : Nat) : Float := withSign negative (nearestBits n d)

/-- The double nearest to an integer. -/
def ofInt (i : Int) : Float := nearest (decide (i < 0)) i.natAbs 1

def infinity (negative : Bool) : Float := withSign negative (2047 * 2 ^ 52)

def nan : Float := withSign false (2047 * 2 ^ 52 + 2 ^ 51)

/-- The integer part of a double, toward zero, held between `low` and `high`. Not a number
counts as zero. -/
def truncate (low high : Int) (x : Float) : Int :=
  match exact x with
  | .finite negative m s =>
    let whole : Int := (m * 2 ^ s / 2 ^ 1074 : Nat)
    max low (min high (if negative then -whole else whole))
  | .infinite negative => if negative then low else high
  | .nan => 0

/-- The larger of two doubles, a number before what is not one. -/
def larger (x y : Float) : Float :=
  if x.isNaN then y else if y.isNaN then x else if x < y then y else x

/-- The smaller of two doubles, a number before what is not one. -/
def smaller (x y : Float) : Float :=
  if x.isNaN then y else if y.isNaN then x else if y < x then y else x

/-- `x` multiplied by itself `n` times, by repeated squaring from the lowest bit. -/
def power (x : Float) (n : Nat) : Float :=
  go n x 1.0 n
where
  go : Nat → Float → Float → Nat → Float
    | 0, _, acc, _ => acc
    | fuel + 1, base, acc, k =>
      let acc := if k % 2 = 1 then acc * base else acc
      if k / 2 = 0 then acc else go fuel (base * base) acc (k / 2)

example : nearest false 1 10 = 0.1 := by decide +kernel
example : nearestBits 1 (2 ^ 1074) = 1 ∧ nearestBits (2 ^ 1024) 1 = 2047 * 2 ^ 52 := by decide +kernel

end OrderFlow.Binary
