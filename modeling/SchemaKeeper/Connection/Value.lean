/-
Values and rows.

A `Value` is what a database takes as a bind value and gives as a cell; a `Row`
is a list of named cells.  Columns are found by name without regard to the case
of ASCII letters, because catalogs spell their columns differently.
-/
import SchemaKeeper.Number.Shortest
import SchemaKeeper.Text.Blank
import SchemaKeeper.Text.Utf8

namespace SchemaKeeper

open Text Number

/-- A value of SQL. -/
inductive Value where
  | null
  | integer (n : Int64)
  | real (x : Binary64)
  | text (s : String)
  | blob (bytes : List UInt8)
deriving Repr, DecidableEq

namespace Value

def isNull : Value → Bool
  | null => true
  | _ => false

/-- The value as an integer.  A real loses its fraction, and a text may hold digits between
blanks. -/
def toInt? : Value → Option Int64
  | integer n => some n
  | real x => some x.toInt64
  | text s => int64? (trim s.toList)
  | null | blob _ => none

/-- The value as a text. -/
def toText? : Value → Option String
  | text s => some s
  | integer n => some (integerText n.toInt)
  | real x => some x.text
  | blob bytes => some (decodeLossy bytes)
  | null => none

/-- The value as a flag: an integer other than zero, or a word that affirms. -/
def isTrue : Value → Bool
  | integer n => n != 0
  | text s => ["YES", "TRUE", "T", "1", "Y"].contains (String.ofList (upper (trim s.toList)))
  | _ => false

end Value

/-- A row: cells with the names of their columns, in order. -/
abbrev Row := List (String × Value)

namespace Row

def columns (row : Row) : List String :=
  row.map (·.1)

/-- The cell of a column. -/
def cell? (row : Row) (column : String) : Option Value :=
  (row.find? fun c => sameName c.1 column).map (·.2)

/-- The cell of a column as a text; there is none for NULL. -/
def text? (row : Row) (column : String) : Option String :=
  (row.cell? column).bind Value.toText?

/-- The cell of a column as an integer. -/
def int? (row : Row) (column : String) : Option Int64 :=
  (row.cell? column).bind Value.toInt?

/-- The cell of a column as a flag. -/
def isTrue (row : Row) (column : String) : Bool :=
  (row.cell? column).any Value.isTrue

end Row

end SchemaKeeper
