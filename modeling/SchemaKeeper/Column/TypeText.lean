/-
Type texts as a database declares them.

A declared type is a name with parameters somewhere in parentheses, such as
`varchar(50)` or `timestamp(6) without time zone`.

* `base` is the name alone, in upper case and with single spaces,
* `parameters` are the numbers in the first pair of parentheses.
-/
import SchemaKeeper.Number.Integer
import SchemaKeeper.Text.Ascii
import SchemaKeeper.Text.Blank
import SchemaKeeper.Text.Cut

namespace SchemaKeeper.TypeText

open Text

/-- The characters outside parentheses, where `depth` pairs are open at the start.  A closing
parenthesis without an opening one is dropped.  Texts in which `2 ^ 32` or more are open, so that
32 bits do not hold the depth, are left out of account. -/
def outside (depth : Nat) : List Char → List Char
  | [] => []
  | c :: r =>
    if c = '(' then outside (depth + 1) r
    else if c = ')' then outside (depth - 1) r
    else if depth = 0 then c :: outside depth r
    else outside depth r

/-- The name of a declared type: what stands outside parentheses, in upper case and with one space
between words. -/
def base (raw : List Char) : List Char :=
  spaced (upper (outside 0 raw))

/-- The text between the first opening and the first closing parenthesis, if they come in this
order. -/
def parenthesised? (raw : List Char) : Option (List Char) :=
  match cutAt? '(' raw with
  | none => none
  | some (before, rest) => if ')' ∈ before then none else (cutAt? ')' rest).map (·.1)

/-- The numbers between the first parentheses; what is no number of 32 bits is passed over. -/
def parameters (raw : List Char) : List UInt32 :=
  match parenthesised? raw with
  | none => []
  | some inside => (inside.splitOn ',').filterMap fun p => Number.uint32? (trim p)

/-- `base` on strings. -/
def baseName (raw : String) : String :=
  String.ofList (base raw.toList)

end SchemaKeeper.TypeText
