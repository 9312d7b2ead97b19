import OrderFlow.Decimal.Basic

/-! Sums, differences, products and quotients of decimals. A result that needs more than 96 bits
or 28 places is rounded, a half going to the even neighbour, at the largest number of places that
fits; where not even the whole part fits there is none. -/
namespace OrderFlow.Decimal

def signed (negative : Bool) (n : Nat) : Int := if negative then -n else n

/-- `± n / d` with at most the given number of places. -/
def fit (negative : Bool) (n d : Nat) : Nat → Option Decimal
  | 0 => of? (signed negative (halfEven n d)) 0
  | s + 1 =>
    (of? (signed negative (halfEven (n * 10 ^ (s + 1)) d)) (s + 1)).or (fit negative n d s)

/-- The sum at the larger number of places; adding zero changes nothing, not even the places. -/
def add (x y : Decimal) : Option Decimal :=
  if x.isZero then some y
  else if y.isZero then some x
  else
    let s := max x.scale y.scale
    let sum := x.coefficient * 10 ^ (s - x.scale) + y.coefficient * 10 ^ (s - y.scale)
    fit (decide (sum < 0)) sum.natAbs (10 ^ s) s

def neg (x : Decimal) : Decimal :=
  ⟨-x.coefficient, x.scale, by simpa using x.coefficient_lt, x.scale_le⟩

def sub (x y : Decimal) : Option Decimal := add x y.neg

/-- The product has the places of both factors together. A zero factor gives plain zero, and so
does a product of two coefficients of at most 32 bits that would need more than 47 places. -/
def mul (x y : Decimal) : Option Decimal :=
  let m := x.coefficient.natAbs
  let n := y.coefficient.natAbs
  let s := x.scale + y.scale
  if m = 0 ∨ n = 0 then some zero
  else if m < 2 ^ 32 ∧ n < 2 ^ 32 ∧ 47 < s then some zero
  else fit (decide (x.coefficient * y.coefficient < 0)) (m * n) (10 ^ s) (min 28 s)

/-- The most places, up to nine, that a coefficient can take on at a number of places. -/
def room (q : Nat) (s : Int) : Nat :=
  ((List.range 9).map (· + 1)).foldl (fun (best k : Nat) =>
    if s + (k : Int) ≤ 28 ∧ q * 10 ^ k < 2 ^ 96 then k else best) 0

/-- One place fewer, a half going to the even neighbour unless something lay beyond. -/
def dropPlace (q : Nat) (beyond : Bool) (s : Int) : Option (Nat × Int) :=
  let r := q % 10
  let up := 5 < r ∨ (r = 5 ∧ (beyond ∨ q / 10 % 2 = 1))
  if s ≤ 0 then none else some (if up then q / 10 + 1 else q / 10, s - 1)

/-- Rounds by the remainder where no place is left. -/
def roundLast (d q r : Nat) (s : Int) : Option (Nat × Int) :=
  if d < 2 * r ∨ (2 * r = d ∧ q % 2 = 1) then
    if q + 1 < 2 ^ 96 then some (q + 1, s) else dropPlace (q + 1) true s
  else some (q, s)

/-- Develops the quotient `q` with remainder `r` by `d`, nine places at a time while they fit,
until it is exact at no negative number of places or no place is left. -/
def develop (d : Nat) : Nat → Nat → Nat → Int → Option (Nat × Int)
  | 0, _, _, _ => none
  | fuel + 1, q, r, s =>
    if r = 0 ∧ 0 ≤ s then some (q, s)
    else
      let k := if r = 0 then min 9 (-s).toNat else room q s
      if r ≠ 0 ∧ k < 9 ∧ s + k < 0 then none
      else if k = 0 then roundLast d q r s
      else if 2 ^ 96 ≤ q * 10 ^ k then none
      else
        let next := q * 10 ^ k + r * 10 ^ k / d
        let rest := r * 10 ^ k % d
        if next < 2 ^ 96 then develop d fuel next rest (s + k)
        else dropPlace next (rest ≠ 0) (s + k)

/-- Divides out `10^k` if that leaves a whole coefficient with enough places. -/
def shorten (k : Nat) (p : Nat × Nat) : Nat × Nat :=
  if p.1 % 10 ^ k = 0 ∧ k ≤ p.2 then (p.1 / 10 ^ k, p.2 - k) else p

/-- Drops trailing zeros in groups: eights while the coefficient's low 32 bits are clear, then at
most one group each of four, two and one. -/
def shortened : Nat → Nat × Nat → Nat × Nat
  | 0, p => p
  | fuel + 1, p =>
    if p.1 % 2 ^ 32 = 0 ∧ p.1 % 10 ^ 8 = 0 ∧ 8 ≤ p.2 then shortened fuel (shorten 8 p)
    else shorten 1 (shorten 2 (shorten 4 p))

/-- The quotient. Where the coefficients divide and the places do not become negative it keeps
the difference of the places; otherwise it takes as many places as fit, and trailing zeros are
dropped in groups. There is none for a zero divisor. -/
def div (x y : Decimal) : Option Decimal :=
  let m := x.coefficient.natAbs
  let n := y.coefficient.natAbs
  if n = 0 then none
  else if m = 0 then some zero
  else do
    let (q, s) ← develop n 60 (m / n) (m % n) ((x.scale : Int) - y.scale)
    let (q, s) := if m % n = 0 then (q, s.toNat) else shortened 4 (q, s.toNat)
    of? (signed (decide (x.coefficient * y.coefficient < 0)) q) s

end OrderFlow.Decimal
