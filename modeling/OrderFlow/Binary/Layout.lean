import OrderFlow.Binary.Shortest

/-! Text of doubles. A `Layout` holds the decisions of one output format; the digits are always
the shortest ones. -/
namespace OrderFlow.Binary
open OrderFlow.Text

/-- How one output format writes doubles. -/
structure Layout where
  /-- Positional notation is used when the point stands after more than `.1` and at most `.2`
  places; `none` uses it always. -/
  positional : Option (Int × Int)
  /-- Written after a whole number in positional notation. -/
  wholeMark : String
  /-- Written before a positive exponent. -/
  exponentMark : String
  /-- Does a tie between two shortest candidates go up, or to the even one? -/
  tieUp : Bool
  nan : String
  infinity : String

def digitChars (ds : List Nat) : List Char := ds.map digitChar

def Layout.positionalChars (l : Layout) (d : Digits) : List Char :=
  let ds := digitChars d.digits
  if ds.isEmpty then '0' :: l.wholeMark.toList
  else if d.point ≤ 0 then '0' :: '.' :: zeros (-d.point).toNat ++ ds
  else
    let whole := d.point.toNat
    if ds.length ≤ whole then ds ++ zeros (whole - ds.length) ++ l.wholeMark.toList
    else ds.take whole ++ '.' :: ds.drop whole

def intChars (i : Int) : List Char := (if i < 0 then ['-'] else []) ++ natDigits i.natAbs

def Layout.exponentChars (l : Layout) (d : Digits) : List Char :=
  let e := d.point - 1
  let ds := digitChars d.digits
  ds.take 1 ++ (if (ds.drop 1).isEmpty then [] else '.' :: ds.drop 1) ++
    'e' :: (if 0 ≤ e then l.exponentMark.toList else []) ++ intChars e

def Layout.digitsChars (l : Layout) (d : Digits) : List Char :=
  match l.positional with
  | none => l.positionalChars d
  | some (low, high) =>
    if d.digits.isEmpty ∨ (low < d.point ∧ d.point ≤ high) then l.positionalChars d
    else l.exponentChars d

def Layout.exactChars (l : Layout) : Exact → List Char
  | .finite negative m s =>
    (if negative then ['-'] else []) ++ l.digitsChars (shortest l.tieUp m s)
  | .infinite negative => (if negative then ['-'] else []) ++ l.infinity.toList
  | .nan => l.nan.toList

/-- The text of a double in a layout. -/
def Layout.text (l : Layout) (x : Float) : String := String.ofList (l.exactChars (exact x))

/-- Plain decimals without an exponent, however long. -/
def plain : Layout where
  positional := none
  wholeMark := ""
  exponentMark := ""
  tieUp := true
  nan := "NaN"
  infinity := "inf"

/-- A magnitude with exactly `places` decimals, a half going to the even neighbour. -/
def fixedChars (places m s : Nat) : List Char :=
  let n := halfEven (m * 2 ^ s * 10 ^ places) (2 ^ 1074)
  let whole := natDigits (n / 10 ^ places)
  if places = 0 then whole else whole ++ '.' :: paddedDigits places (n % 10 ^ places)

/-- A double with exactly `places` decimals; a negative one keeps its sign even when it rounds
to zero. -/
def fixed (places : Nat) (x : Float) : String :=
  match exact x with
  | .finite negative m s =>
    String.ofList ((if negative then ['-'] else []) ++ fixedChars places m s)
  | .infinite negative => if negative then "-inf" else "inf"
  | .nan => "NaN"

end OrderFlow.Binary
