/-
Reading moments.

Three notations are read.

* `Moment.read?` takes a timestamp with an offset as the internet standard has
  it, `2024-01-02T03:04:05.5+01:00`.
* `Moment.readLoose?` also takes blanks between the parts, a year with a sign,
  parts of one digit and the word `UTC`.
* `Moment.readPlain` takes a literal of SQL, `2024-01-02 03:04:05`, in universal
  time, and says what is wrong with any other text.

A reader (`TimeReader`) consumes the start of a text.  The parts of a timestamp are
checked against their ranges as they are read, the day against its month at the
end.
-/
import SchemaKeeper.Text.Ascii
import SchemaKeeper.Text.Blank
import SchemaKeeper.Time.Moment

namespace SchemaKeeper

open Text Number

/-- What is wrong with the text of a moment. -/
inductive TimeFault where
  | invalid
  | tooShort
  | tooLong
  | outOfRange
deriving Repr, DecidableEq

/-- The fault in words. -/
def TimeFault.message : TimeFault → String
  | invalid => "input contains invalid characters"
  | tooShort => "premature end of input"
  | tooLong => "trailing input"
  | outOfRange => "input is out of range"

/-- A reader of the start of a text, which also gives what is left. -/
abbrev TimeReader (α : Type) := StateT (List Char) (Except TimeFault) α

namespace TimeReader

/-- A number of at least `least` and at most `most` digits. -/
def number (least most : Nat) : TimeReader Nat := fun s =>
  let found := (s.take most).takeWhile Char.isDigit
  if found.length < least then
    .error (if s.length < least then .tooShort else .invalid)
  else .ok (Nat.ofDigitChars 10 found 0, s.drop found.length)

/-- A number whose value lies between bounds. -/
def numberIn (least most low high : Nat) : TimeReader Nat := do
  let n ← number least most
  if low ≤ n ∧ n ≤ high then return n else throw .outOfRange

/-- One given character. -/
def char (c : Char) : TimeReader Unit
  | [] => .error .tooShort
  | x :: r => if x = c then .ok ((), r) else .error .invalid

/-- One character of a class. -/
def oneOf (cs : List Char) : TimeReader Unit
  | [] => .error .tooShort
  | x :: r => if x ∈ cs then .ok ((), r) else .error .invalid

/-- Blanks, as many as there are. -/
def blanks : TimeReader Unit := fun s =>
  .ok ((), trimStart s)

/-- Nanoseconds after a point, if there is one.  Digits beyond the ninth are passed over. -/
def fraction : TimeReader Nat
  | '.' :: r => do
    let found := (r.take 9).takeWhile Char.isDigit
    if found.isEmpty then .error (if r.isEmpty then .tooShort else .invalid)
    else .ok (Nat.ofDigitChars 10 found 0 * power 10 (9 - found.length), r.dropWhile Char.isDigit)
  | s => .ok (0, s)

/-- A year of up to four digits, or of any number of digits after a sign. -/
def signedYear : TimeReader Int
  | '-' :: r => (fun p => (-(p.1 : Int), p.2)) <$> number 1 r.length r
  | '+' :: r => (fun p => ((p.1 : Int), p.2)) <$> number 1 r.length r
  | s => (fun p => ((p.1 : Int), p.2)) <$> number 1 4 s

/-- The sign of an offset; the mathematical minus sign counts as one. -/
def offsetSign : TimeReader Bool
  | [] => .error .tooShort
  | c :: r =>
    if c = '+' then .ok (false, r)
    else if c = '-' ∨ c = '\u2212' then .ok (true, r)
    else .error .invalid

/-- An offset in seconds: a sign, hours, a separator, minutes. -/
def numericOffset (separator : TimeReader Unit) : TimeReader Int := do
  let negative ← offsetSign
  let hours ← number 2 2
  separator
  let minutes ← numberIn 2 2 0 59
  let seconds : Int := hours * 3600 + minutes * 60
  return if negative then -seconds else seconds

/-- An offset in seconds, or the letter that stands for none. -/
def offset (separator : TimeReader Unit) : TimeReader Int := fun s =>
  match s with
  | 'Z' :: r => .ok (0, r)
  | 'z' :: r => .ok (0, r)
  | _ => numericOffset separator s

/-- The word that stands for no offset, in letters of either case, or an offset. -/
def namedOffset (separator : TimeReader Unit) : TimeReader Int := fun s =>
  if sameLetters (s.take 3) "UTC".toList then .ok (0, s.drop 3) else offset separator s

end TimeReader

namespace Moment

open TimeReader

/-- A date and a time of the day as they are read, with no regard to the length of the month. -/
structure Parts where
  year : Int
  month : Nat
  day : Nat
  hour : Nat
  minute : Nat
  /-- Up to sixty, which is a leap second. -/
  second : Nat
  nanos : Nat := 0

/-- Whether the year of a moment is one that dates can have. -/
def isDated (m : Moment) : Bool :=
  let year := (Date.ofDayNumber m.day).year
  Date.minYear ≤ year ∧ year ≤ Date.maxYear

/-- The moment of a date and a time at an offset, if there is such a date. -/
def ofParts (p : Parts) (offset : Int) : Except TimeFault Moment :=
  match Date.ofParts? p.year p.month p.day with
  | none => .error .outOfRange
  | some date =>
    let isLeap := p.second = 60
    let second := p.hour * 3600 + p.minute * 60 + (if isLeap then 59 else p.second)
    let m := ofLocal date second (if isLeap then p.nanos + secondNanos else p.nanos) offset
    if m.isDated then .ok m else .error .outOfRange

/-- Hours, minutes and seconds in two digits each, and a fraction of a second. -/
def strictTime (year : Int) (month day : Nat) : TimeReader Parts := do
  let hour ← numberIn 2 2 0 23
  char ':'
  let minute ← numberIn 2 2 0 59
  char ':'
  let second ← numberIn 2 2 0 60
  let nanos ← fraction
  return { year, month, day, hour, minute, second, nanos }

/-- A timestamp in the notation of the internet standard. -/
def strict : TimeReader (Parts × Int) := do
  let year ← number 4 4
  char '-'
  let month ← numberIn 2 2 1 12
  char '-'
  let day ← numberIn 2 2 1 31
  oneOf ['T', 't', ' ']
  let parts ← strictTime year month day
  let o ← offset (char ':')
  return (parts, o)

/-- A part of one or two digits with blanks before it. -/
def loosePart (low high : Nat) : TimeReader Nat := do
  blanks
  numberIn 1 2 low high

/-- A year, perhaps with a sign, that a date can have. -/
def looseYear : TimeReader Int := do
  blanks
  let year ← signedYear
  if -2147483648 ≤ year ∧ year ≤ 2147483647 then return year else throw .outOfRange

/-- A character with blanks before it. -/
def looseChar (c : Char) : TimeReader Unit := do
  blanks
  char c

/-- The separator in a loose offset: colons and blanks, as many as there are. -/
def looseSeparator : TimeReader Unit := fun s =>
  .ok ((), s.dropWhile fun c => c == ':' || isBlank c)

/-- A timestamp with blanks between its parts. -/
def loose : TimeReader (Parts × Int) := do
  let year ← looseYear
  looseChar '-'
  let month ← loosePart 1 12
  looseChar '-'
  let day ← loosePart 1 31
  oneOf ['T', 't', ' ']
  let hour ← loosePart 0 23
  looseChar ':'
  let minute ← loosePart 0 59
  looseChar ':'
  let second ← loosePart 0 60
  let nanos ← fraction
  blanks
  let o ← namedOffset looseSeparator
  blanks
  return ({ year, month, day, hour, minute, second, nanos }, o)

/-- A literal of SQL in universal time. -/
def plain : TimeReader (Parts × Int) := do
  let year ← looseYear
  char '-'
  let month ← loosePart 1 12
  char '-'
  let day ← loosePart 1 31
  blanks
  let hour ← loosePart 0 23
  char ':'
  let minute ← loosePart 0 59
  char ':'
  let second ← loosePart 0 60
  return ({ year, month, day, hour, minute, second }, 0)

/-- The moment that a reader finds in a whole text. -/
def readWith (reader : TimeReader (Parts × Int)) (text : String) : Except TimeFault Moment := do
  let ((parts, offset), rest) ← reader text.toList
  if rest.isEmpty then
    if offset.natAbs < secondsPerDay then ofParts parts offset else throw .outOfRange
  else throw .tooLong

/-- The moment of a timestamp in the notation of the internet standard. -/
def read? (text : String) : Option Moment :=
  (readWith strict text).toOption

/-- The moment of a timestamp with blanks between its parts. -/
def readLoose? (text : String) : Option Moment :=
  (readWith loose text).toOption

/-- The moment of a literal of SQL, or what is wrong with the text. -/
def readPlain (text : String) : Except TimeFault Moment :=
  readWith plain text

end Moment

end SchemaKeeper
