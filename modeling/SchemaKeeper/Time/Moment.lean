/-
Moments in universal time.

A `Moment` is a day, counted from 1970-01-01, a second of the day and
nanoseconds; a leap second is the second before it with more than a billion
nanoseconds.  Dates are those of the Gregorian calendar, extended to all years.

* `dayNumber` and `ofDayNumber` go between dates and day numbers,
* `Moment.text` writes a moment with an offset mark, `Moment.stamp` writes it in
  seventeen digits.
-/
import SchemaKeeper.Number.Integer

namespace SchemaKeeper

open Number

/-- A date of the Gregorian calendar. -/
structure Date where
  year : Int
  month : Nat
  day : Nat
deriving Repr, DecidableEq

namespace Date

def isLeapYear (year : Int) : Bool :=
  year % 4 = 0 && (year % 100 != 0 || year % 400 = 0)

def daysInMonth (year : Int) (month : Nat) : Nat :=
  if month = 2 then (if isLeapYear year then 29 else 28)
  else if month = 4 ∨ month = 6 ∨ month = 9 ∨ month = 11 then 30
  else 31

/-- The years that dates can have. -/
def minYear : Int := -262143

def maxYear : Int := 262142

/-- The date of a year, a month and a day, if there is one. -/
def ofParts? (year : Int) (month day : Nat) : Option Date :=
  if minYear ≤ year ∧ year ≤ maxYear ∧ 1 ≤ month ∧ month ≤ 12 ∧ 1 ≤ day ∧
      day ≤ daysInMonth year month then
    some ⟨year, month, day⟩
  else none

/-- The number of days from 1970-01-01.  Years are counted from March, so that a leap day comes
last. -/
def dayNumber (d : Date) : Int :=
  let y := if d.month ≤ 2 then d.year - 1 else d.year
  let monthFromMarch := (d.month + 9) % 12
  let dayOfYear := (153 * monthFromMarch + 2) / 5 + d.day - 1
  y * 365 + y / 4 - y / 100 + y / 400 + dayOfYear - 719468

/-- The date of a day number. -/
def ofDayNumber (n : Int) : Date :=
  let z := n + 719468
  let era := z / 146097
  let dayOfEra := (z % 146097).toNat
  let yearOfEra := (dayOfEra - dayOfEra / 1460 + dayOfEra / 36524 - dayOfEra / 146096) / 365
  let dayOfYear := dayOfEra - (365 * yearOfEra + yearOfEra / 4 - yearOfEra / 100)
  let monthFromMarch := (5 * dayOfYear + 2) / 153
  let month := if monthFromMarch < 10 then monthFromMarch + 3 else monthFromMarch - 9
  { year := era * 400 + yearOfEra + (if month ≤ 2 then 1 else 0)
    month := month
    day := dayOfYear - (153 * monthFromMarch + 2) / 5 + 1 }

end Date

/-- A moment in universal time. -/
structure Moment where
  /-- Days from 1970-01-01. -/
  day : Int
  /-- Seconds of the day. -/
  second : Nat
  /-- Nanoseconds; a billion and more in a leap second. -/
  nanos : Nat
deriving Repr, DecidableEq

namespace Moment

/-- A billion, the nanoseconds of a second. -/
def secondNanos : Nat := 1000000000

def secondsPerDay : Nat := 86400

/-- The moment that is given by a date, a time of the day and an offset from universal time in
seconds. -/
def ofLocal (date : Date) (second nanos : Nat) (offset : Int) : Moment :=
  let s := (second : Int) - offset
  { day := date.dayNumber + s / secondsPerDay
    second := (s % secondsPerDay).toNat
    nanos := nanos }

/-- Nanoseconds from one moment to a later one.  A leap second in between counts if it is one of the
two moments. -/
def nanosUntil (first last : Moment) : Int :=
  let leap : Int :=
    if first.second < last.second ∧ secondNanos ≤ first.nanos then 1
    else if last.second < first.second ∧ secondNanos ≤ last.nanos then -1
    else 0
  let seconds := (last.day - first.day) * secondsPerDay + last.second - first.second + leap
  seconds * secondNanos + last.nanos - first.nanos

/-- Milliseconds from one moment to another, without the fraction. -/
def millisUntil (first last : Moment) : Int :=
  Int.tdiv (nanosUntil first last) 1000000

/-! ### Text -/

/-- The digits of a number with zeros in front up to a width. -/
def padded (width n : Nat) : String :=
  String.ofList (List.replicate (width - (digits n).length) '0' ++ digits n)

/-- A year in four digits; one that does not fit has a sign. -/
def yearText (year : Int) : String :=
  if 0 ≤ year ∧ year ≤ 9999 then padded 4 year.toNat
  else (if year < 0 then "-" else "+") ++ padded 4 year.natAbs

/-- Fractions of a second in as few of 0, 3, 6 or 9 digits as are exact. -/
def fractionText (nanos : Nat) : String :=
  if nanos = 0 then ""
  else if nanos % 1000000 = 0 then "." ++ padded 3 (nanos / 1000000)
  else if nanos % 1000 = 0 then "." ++ padded 6 (nanos / 1000)
  else "." ++ padded 9 nanos

/-- The text of a moment, with a mark for the offset of universal time. -/
def text (offsetMark : String) (m : Moment) : String :=
  let date := Date.ofDayNumber m.day
  let isLeap := secondNanos ≤ m.nanos
  let second := m.second % 60 + (if isLeap then 1 else 0)
  let nanos := if isLeap then m.nanos - secondNanos else m.nanos
  yearText date.year ++ "-" ++ padded 2 date.month ++ "-" ++ padded 2 date.day ++ "T" ++
    padded 2 (m.second / 3600) ++ ":" ++ padded 2 (m.second / 60 % 60) ++ ":" ++
    padded 2 second ++ fractionText nanos ++ offsetMark

/-- The text with a numeric offset, as ledgers keep it. -/
def toText (m : Moment) : String :=
  m.text "+00:00"

/-- Date, time and milliseconds in digits alone. -/
def stamp (m : Moment) : String :=
  let date := Date.ofDayNumber m.day
  let isLeap := secondNanos ≤ m.nanos
  yearText date.year ++ padded 2 date.month ++ padded 2 date.day ++ padded 2 (m.second / 3600) ++
    padded 2 (m.second / 60 % 60) ++ padded 2 (m.second % 60 + (if isLeap then 1 else 0)) ++
    padded 3 (m.nanos % secondNanos / 1000000)

end Moment

end SchemaKeeper
