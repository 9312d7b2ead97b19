import OrderFlow.Text.Digits

/-! Dates of the proleptic Gregorian calendar and their written form with a time of day. -/
namespace OrderFlow.Calendar
open Text

structure Date where
  year : Int
  month : Nat
  day : Nat
  deriving DecidableEq, Repr

/-- The date a number of days after 1970-01-01. Years are counted from March, in eras of 400. -/
def dateOfDays (days : Int) : Date :=
  let z := days + 719468
  let era := z / 146097
  let dayOfEra := (z % 146097).toNat
  let yearOfEra :=
    (dayOfEra - dayOfEra / 1460 + dayOfEra / 36524 - dayOfEra / 146096) / 365
  let dayOfYear := dayOfEra - (365 * yearOfEra + yearOfEra / 4 - yearOfEra / 100)
  let m := (5 * dayOfYear + 2) / 153
  let day := dayOfYear - (153 * m + 2) / 5 + 1
  let month := if m < 10 then m + 3 else m - 9
  ⟨yearOfEra + era * 400 + (if month ≤ 2 then 1 else 0), month, day⟩

/-- The number of days from 1970-01-01 to a date. -/
def daysOfDate (d : Date) : Int :=
  let year := if d.month ≤ 2 then d.year - 1 else d.year
  let era := year / 400
  let yearOfEra := year % 400
  let m : Int := if 2 < d.month then d.month - 3 else d.month + 9
  let dayOfYear := (153 * m + 2) / 5 + d.day - 1
  era * 146097 + (yearOfEra * 365 + yearOfEra / 4 - yearOfEra / 100 + dayOfYear) - 719468

/-- Four digits within the years 0 to 9999, elsewhere a sign and at least four digits. -/
def yearChars (year : Int) : List Char :=
  if 0 ≤ year ∧ year ≤ 9999 then paddedDigits 4 year.toNat
  else (if year < 0 then '-' else '+') :: paddedDigits 4 year.natAbs

def dateChars (d : Date) : List Char :=
  yearChars d.year ++ '-' :: paddedDigits 2 d.month ++ '-' :: paddedDigits 2 d.day

def secondsPerDay : Int := 86400

/-- Date and time of day, to the second. -/
def secondsChars (seconds : Int) : List Char :=
  let s := (seconds % secondsPerDay).toNat
  dateChars (dateOfDays (seconds / secondsPerDay)) ++ 'T' :: paddedDigits 2 (s / 3600) ++
    ':' :: paddedDigits 2 (s / 60 % 60) ++ ':' :: paddedDigits 2 (s % 60)

/-- The first and last milliseconds whose date can be written. -/
def earliest : Int := daysOfDate ⟨-262143, 1, 1⟩ * 86400000

def latest : Int := daysOfDate ⟨262142, 12, 31⟩ * 86400000 + 86399999

/-- Universal time of some milliseconds, with a fraction of three digits unless it is zero. -/
def millisChars? (millis : Int) : Option (List Char) :=
  if earliest ≤ millis ∧ millis ≤ latest then
    let fraction := (millis % 1000).toNat
    some (secondsChars (millis / 1000) ++
      (if fraction = 0 then [] else '.' :: paddedDigits 3 fraction) ++ "+00:00".toList)
  else none

def millisText? (millis : Int) : Option String := (millisChars? millis).map String.ofList

example : dateOfDays 0 = ⟨1970, 1, 1⟩ ∧ dateOfDays (-1) = ⟨1969, 12, 31⟩ := by decide
example : daysOfDate ⟨2024, 2, 29⟩ = 19782 ∧ dateOfDays 19782 = ⟨2024, 2, 29⟩ := by decide

end OrderFlow.Calendar
