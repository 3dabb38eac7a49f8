/-
Defaults written in tags.

A tag writes a default loosely: a word, a number, a quoted or an unquoted text.
`normalizeDefault` turns it into a literal of SQL.  What comes out is one of
`NULL`, `CURRENT_TIMESTAMP`, a decimal literal, or a text between single quotes
with the quotes inside doubled.
-/
import SchemaKeeper.Number.Decimal
import SchemaKeeper.Text.Ascii
import SchemaKeeper.Text.Blank
import SchemaKeeper.Text.Quoted

namespace SchemaKeeper

open Text

/-- The literal for a word that stands for a value of SQL, in letters of either case. -/
def keywordDefault? (word : String) : Option String :=
  match word with
  | "null" => some "NULL"
  | "true" => some "1"
  | "false" => some "0"
  | "current_timestamp" | "current_timestamp()" | "now()" => some "CURRENT_TIMESTAMP"
  | _ => none

/-- The text as a literal between single quotes.  A text that is one already stays as it is; of a
text between quotes whose inner quotes are not doubled, what is inside becomes the literal. -/
def quotedDefault (value : List Char) : List Char :=
  match inner? '\'' value with
  | none => enclose '\'' value
  | some inside =>
    if (decode '\'' inside).isSome then value else enclose '\'' inside

/-- The literal of SQL for a default without outer blanks. -/
def defaultLiteral (value : List Char) : List Char :=
  match keywordDefault? (String.ofList (lower value)) with
  | some keyword => keyword.toList
  | none => if Number.Decimal.isLiteral value then value else quotedDefault value

/-- The literal of SQL for a default as a tag writes it. -/
def normalizeDefault (value : String) : String :=
  String.ofList (defaultLiteral (trim value.toList))

end SchemaKeeper
