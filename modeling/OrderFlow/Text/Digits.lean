/-! Decimal digits in text. -/
namespace OrderFlow.Text

def isDigit (c : Char) : Bool := '0' ≤ c ∧ c ≤ '9'

def digitValue (c : Char) : Nat := c.toNat - 48

/-- The value of a hexadecimal digit in either case. -/
def hexValue? (c : Char) : Option Nat :=
  if isDigit c then some (digitValue c)
  else if 'a' ≤ c ∧ c ≤ 'f' then some (c.toNat - 87)
  else if 'A' ≤ c ∧ c ≤ 'F' then some (c.toNat - 55)
  else none

def digitChar (d : Nat) : Char := Char.ofNat (48 + d)

/-- The number that a run of digits writes. -/
def digitsValue (ds : List Char) : Nat := ds.foldl (fun n c => 10 * n + digitValue c) 0

def zeros (n : Nat) : List Char := List.replicate n '0'

/-- The digits of a natural number, most significant first, at least one of them. -/
def natDigits (n : Nat) : List Char :=
  if _h : n < 10 then [digitChar n] else natDigits (n / 10) ++ [digitChar (n % 10)]

def natText (n : Nat) : String := String.ofList (natDigits n)

def intText (i : Int) : String := (if i < 0 then "-" else "") ++ natText i.natAbs

/-- The digits of `n`, filled with zeros on the left to at least `width`. -/
def paddedDigits (width n : Nat) : List Char :=
  let ds := natDigits n
  zeros (width - ds.length) ++ ds

/-- Splits off a leading sign; true for minus. -/
def takeSign : List Char → Bool × List Char
  | '-' :: r => (true, r)
  | '+' :: r => (false, r)
  | r => (false, r)

@[simp] theorem takeSign_minus (r : List Char) : takeSign ('-' :: r) = (true, r) := rfl

example : natDigits 0 = ['0'] ∧ natDigits 105 = ['1', '0', '5'] := by decide +kernel

end OrderFlow.Text
