import OrderFlow.Binary.Basic
import OrderFlow.Text.Digits

/-! The fewest decimal digits that single out a double. The digits are looked for on coarser
grids first; of two neighbours on one grid the nearer is taken. -/
namespace OrderFlow.Binary
open OrderFlow.Text

/-- The digits of `0.d₁d₂… · 10^point`, most significant first, without trailing zeros. -/
structure Digits where
  digits : List Nat
  point : Int
  deriving DecidableEq, Repr

/-- `n · 10^-k / d` as a ratio of naturals. -/
def shiftDown (n d : Nat) (k : Int) : Nat × Nat :=
  if 0 ≤ k then (n, d * 10 ^ k.toNat) else (n * 10 ^ (-k).toNat, d)

/-- The least `e` with `n / d < 10^e`, climbing at most `fuel` steps from a lower bound. -/
def climb (n d : Nat) : Nat → Int → Int
  | 0, e => e
  | fuel + 1, e =>
    let r := shiftDown n d e
    if r.1 < r.2 then e else climb n d fuel (e + 1)

/-- The least `e` with `n / d < 10^e`, for positive `n`. -/
def magnitude (n d : Nat) : Int :=
  climb n d 5 ((((n.log2 : Int) - d.log2 - 1) * 30103) / 100000 - 1)

/-- The interval of ratios that round to `m · 2^s`, as numerators over `2^1076`, together with
the numerator of the double itself. Its ends belong to it when `m` is even. -/
structure Neighbourhood where
  low : Nat
  value : Nat
  high : Nat
  closed : Bool

def Neighbourhood.of (m s : Nat) : Neighbourhood where
  low := if m = 2 ^ 52 ∧ 0 < s then (4 * m - 1) * 2 ^ s else (4 * m - 2) * 2 ^ s
  value := 4 * m * 2 ^ s
  high := (4 * m + 2) * 2 ^ s
  closed := m % 2 = 0

/-- Is `t · 10^k` inside? -/
def Neighbourhood.holds (h : Neighbourhood) (t : Nat) (k : Int) : Bool :=
  let x := t * 10 ^ k.toNat * 2 ^ 1076
  let scale := 10 ^ (-k).toNat
  if h.closed then h.low * scale ≤ x && x ≤ h.high * scale
  else h.low * scale < x && x < h.high * scale

/-- The point of the grid `10^k` that stands for the double, if one of its two neighbours there
rounds back to it. A tie between them goes up when `tieUp` says so, else to the even one. -/
def Neighbourhood.onGrid (h : Neighbourhood) (tieUp : Bool) (k : Int) : Option Nat :=
  let r := shiftDown h.value (2 ^ 1076) k
  let t := r.1 / r.2
  let rest := r.1 % r.2
  match h.holds t k, h.holds (t + 1) k with
  | true, true =>
    if 2 * rest < r.2 then some t
    else if r.2 < 2 * rest then some (t + 1)
    else if tieUp || t % 2 = 1 then some (t + 1) else some t
  | true, false => some t
  | false, true => some (t + 1)
  | false, false => none

def dropTrailingZeros (ds : List Nat) : List Nat := (ds.reverse.dropWhile (· = 0)).reverse

/-- The shortest digits of `m · 2^s` units; no digits for zero. -/
def shortest (tieUp : Bool) (m s : Nat) : Digits :=
  if m = 0 then ⟨[], 0⟩
  else
    let h := Neighbourhood.of m s
    let e := magnitude h.value (2 ^ 1076)
    let found := (List.range 17).findSome? fun (i : Nat) =>
      let k := e - (i + 1 : Nat)
      (h.onGrid tieUp k).map fun t => (t, k)
    match found with
    | none => ⟨[], 0⟩
    | some (t, k) =>
      let ds := (natDigits t).map digitValue
      ⟨dropTrailingZeros ds, ds.length + k⟩

end OrderFlow.Binary
