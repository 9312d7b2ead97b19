import OrderFlow.Calendar.Instant

/-! The written form of dates and times in TOML: a date, a time of day, or both of them with an
optional offset from universal time. -/
namespace OrderFlow.Toml
open OrderFlow.Text

/-- Takes a run of exactly `width` digits. -/
def fixedDigits? (width : Nat) (cs : List Char) : Option (Nat × List Char) :=
  let ds := cs.takeWhile isDigit
  if ds.length = width then some (digitsValue ds, cs.drop width) else none

/-- What follows a mark at the front of a text. -/
def afterMark? (mark : Char) : List Char → Option (List Char)
  | c :: r => if c = mark then some r else none
  | [] => none

/-- What follows a year, a month and a day that the calendar has. -/
def afterDate? (cs : List Char) : Option (List Char) := do
  let (year, cs) ← fixedDigits? 4 cs
  let (month, cs) ← fixedDigits? 2 (← afterMark? '-' cs)
  let (day, cs) ← fixedDigits? 2 (← afterMark? '-' cs)
  if Instant.isDate ⟨year, month, day⟩ then some cs else none

/-- What follows a fraction of a second, if there is one. -/
def afterFraction? : List Char → Option (List Char)
  | '.' :: r => if (r.takeWhile isDigit).isEmpty then none else some (r.dropWhile isDigit)
  | r => some r

/-- What follows the seconds of a time of day, which may be left out. A leap second counts. -/
def afterSeconds? : List Char → Option (List Char)
  | ':' :: r => do
    let (second, r) ← fixedDigits? 2 r
    if second ≤ 60 then afterFraction? r else none
  | r => some r

def afterClock? (cs : List Char) : Option (List Char) := do
  let (hour, cs) ← fixedDigits? 2 cs
  let (minute, cs) ← fixedDigits? 2 (← afterMark? ':' cs)
  if hour < 24 && minute < 60 then afterSeconds? cs else none

/-- Hours and minutes alone, as in an offset. -/
def isOffsetClock (cs : List Char) : Bool :=
  cs.length = 5 && afterClock? cs = some []

/-- An offset from universal time, which may be left out. -/
def isOffset : List Char → Bool
  | [] | ['Z'] | ['z'] => true
  | '+' :: r | '-' :: r => isOffsetClock r
  | _ => false

/-- Is the text a date, a time of day, or a date with a time of day after `T` or a space? -/
def isMoment (cs : List Char) : Bool :=
  match afterDate? cs with
  | some [] => true
  | some (c :: r) => (c = 'T' || c = 't' || c = ' ') && (afterClock? r).any isOffset
  | none => afterClock? cs = some []

example : isMoment "1979-05-27 07:32:00.5-07:00".toList = true := by decide +kernel
example : isMoment "1979-02-29".toList = false ∧ isMoment "24:00:00".toList = false := by
  decide +kernel

end OrderFlow.Toml
