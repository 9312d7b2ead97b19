import OrderFlow.Calendar
import OrderFlow.Power
import OrderFlow.Text.Blank

/-! Points in time to the nanosecond, and their written form: date, time of day and offset from
universal time. Reading is lenient about blanks and leading zeros. -/
namespace OrderFlow

/-- Seconds after the epoch and nanoseconds within the second. A leap second counts as more
nanoseconds of the second before it. -/
structure Instant where
  seconds : Int
  nanos : Nat
  deriving DecidableEq, Repr

namespace Instant
open Text Calendar

def billion : Nat := 1000000000

/-- The fewest of no, three, six or nine digits that write the fraction of a second. -/
def fractionChars (nanos : Nat) : List Char :=
  if nanos = 0 then []
  else if nanos % 1000000 = 0 then '.' :: paddedDigits 3 (nanos / 1000000)
  else if nanos % 1000 = 0 then '.' :: paddedDigits 6 (nanos / 1000)
  else '.' :: paddedDigits 9 nanos

/-- Date and time of day in universal time. A leap second is written as second 60. -/
def chars (t : Instant) : List Char :=
  let s := (t.seconds % secondsPerDay).toNat
  let leap := t.nanos / billion
  dateChars (dateOfDays (t.seconds / secondsPerDay)) ++ 'T' :: paddedDigits 2 (s / 3600) ++
    ':' :: paddedDigits 2 (s / 60 % 60) ++ ':' :: paddedDigits 2 (s % 60 + leap) ++
    fractionChars (t.nanos % billion)

/-- The written form with a mark for universal time at the end. -/
def text (mark : String) (t : Instant) : String := String.ofList (t.chars ++ mark.toList)

def skipBlank (cs : List Char) : List Char := cs.dropWhile isBlank

/-- Reads at least one and at most `width` digits. -/
def digits? (width : Nat) (cs : List Char) : Option (Nat × List Char) :=
  let ds := (cs.take width).takeWhile isDigit
  if ds.isEmpty then none else some (digitsValue ds, cs.drop ds.length)

/-- A number after blanks. -/
def number? (width : Nat) (cs : List Char) : Option (Nat × List Char) := digits? width (skipBlank cs)

/-- A year: four digits at most, or a sign and any number of them. -/
def year? (cs : List Char) : Option (Int × List Char) :=
  match skipBlank cs with
  | '-' :: r => (digits? r.length r).map fun (n, r) => (-(n : Int), r)
  | '+' :: r => (digits? r.length r).map fun (n, r) => ((n : Int), r)
  | r => (digits? 4 r).map fun (n, r) => ((n : Int), r)

/-- A mark after blanks. -/
def mark? (c : Char) (cs : List Char) : Option (List Char) :=
  match skipBlank cs with
  | d :: r => if d = c then some r else none
  | [] => none

def date? (cs : List Char) : Option (Date × List Char) := do
  let (year, cs) ← year? cs
  let (month, cs) ← number? 2 (← mark? '-' cs)
  let (day, cs) ← number? 2 (← mark? '-' cs)
  return (⟨year, month, day⟩, cs)

/-- Nine digits of a fraction, missing ones zero, further ones dropped. -/
def fraction? : List Char → Option (Nat × List Char)
  | '.' :: r =>
    let ds := r.takeWhile isDigit
    if ds.isEmpty then none
    else
      let nine := ds.take 9
      some (digitsValue nine * 10 ^ (9 - nine.length), r.drop ds.length)
  | r => some (0, r)

/-- A time of day in seconds and nanoseconds. -/
structure Clock where
  hour : Nat
  minute : Nat
  second : Nat
  nanos : Nat

def clock? (cs : List Char) : Option (Clock × List Char) := do
  let (hour, cs) ← number? 2 cs
  let (minute, cs) ← number? 2 (← mark? ':' cs)
  let (second, cs) ← number? 2 (← mark? ':' cs)
  let (nanos, cs) ← fraction? cs
  return (⟨hour, minute, second, nanos⟩, cs)

/-- Two digits of hours, two of minutes, and what may stand between them. -/
def hoursAndMinutes? (cs : List Char) : Option (Nat × List Char) := do
  let (hours, ds) ← digits? 2 cs
  let ds := ds.dropWhile fun c => c = ':' || isBlank c
  let (minutes, rest) ← digits? 2 ds
  if (cs.take 2).all isDigit && 2 ≤ cs.length && (ds.take 2).all isDigit && 2 ≤ ds.length &&
      minutes < 60 then
    return (hours * 3600 + minutes * 60, rest)
  else none

/-- The offset in seconds: `Z`, `UTC` in any case, or a sign with hours and minutes. -/
def offset? (cs : List Char) : Option (Int × List Char) :=
  match cs with
  | 'Z' :: r | 'z' :: r => some (0, r)
  | '+' :: r => (hoursAndMinutes? r).map fun (n, r) => ((n : Int), r)
  | '-' :: r | '−' :: r => (hoursAndMinutes? r).map fun (n, r) => (-(n : Int), r)
  | _ =>
    if (cs.take 3).map (fun c => if 'a' ≤ c ∧ c ≤ 'z' then Char.ofNat (c.toNat - 32) else c) =
        ['U', 'T', 'C'] then some (0, cs.drop 3)
    else none

/-- Is there such a day in the calendar? -/
def isDate (d : Date) : Bool :=
  -262143 ≤ d.year && d.year ≤ 262142 && 1 ≤ d.month && d.month ≤ 12 && 1 ≤ d.day &&
    d.day ≤ 31 && dateOfDays (daysOfDate d) == d

/-- The instant of a date and a time of day at an offset. -/
def of? (d : Date) (c : Clock) (offset : Int) : Option Instant :=
  if isDate d && c.hour < 24 && c.minute < 60 && c.second ≤ 60 && offset.natAbs < 86400 then
    let leap := c.second / 60
    let seconds := daysOfDate d * secondsPerDay +
      (c.hour * 3600 + c.minute * 60 + (c.second - leap) : Nat) - offset
    if earliest ≤ seconds * 1000 ∧ seconds * 1000 ≤ latest then
      some ⟨seconds, c.nanos + leap * billion⟩
    else none
  else none

/-- The instant that a text writes. -/
def ofText? (s : String) : Option Instant := do
  let (date, cs) ← date? s.toList
  match cs with
  | c :: cs =>
    if c = 'T' || c = 't' || c = ' ' then
      let (clock, cs) ← clock? cs
      let (offset, rest) ← offset? (skipBlank cs)
      if (skipBlank rest).isEmpty then of? date clock offset else none
    else none
  | [] => none

example : (ofText? "2024-02-29T23:30:00.000000001+02:00").map (text "Z") =
    some "2024-02-29T21:30:00.000000001Z" := by decide +kernel
example : ofText? "1969-12-31T23:59:59.5Z" = some ⟨-1, 500000000⟩ := by decide +kernel
example : ofText? "2024-02-30T00:00:00Z" = none ∧ ofText? "2024-01-01T00:00:00" = none := by
  decide +kernel

end Instant
end OrderFlow
