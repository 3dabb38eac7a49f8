/-
Decimal literals.

A decimal literal is an optional sign, digits with at most one point among or
around them, and an optional exponent (`1`, `-0.5`, `.5`, `5.`, `1e-3`).  `Decimal`
is the exact number such a literal writes.  `read?` accepts exactly the literals,
and `isLiteral` tells them apart from other texts.
-/
import SchemaKeeper.Number.Integer

namespace SchemaKeeper.Number

/-- The number `±coefficient · 10 ^ exponent`. -/
structure Decimal where
  /-- Whether the literal has a minus sign; a negative zero is kept apart. -/
  negative : Bool
  /-- All digits of the literal, read as one number. -/
  coefficient : Nat
  /-- The power of ten that the digits are scaled by. -/
  exponent : Int
deriving Repr, DecidableEq

namespace Decimal

/-- The part of a literal from its exponent mark on; no mark stands for exponent zero. -/
def exponent? : List Char → Option Int
  | [] => some 0
  | c :: r => if c = 'e' ∨ c = 'E' then signed? r else none

/-- The digits after the point, if the text goes on with one, and what follows them. -/
def splitFraction : List Char → List Char × List Char
  | '.' :: r => (r.takeWhile Char.isDigit, r.dropWhile Char.isDigit)
  | r => ([], r)

/-- A literal without its sign. -/
def magnitude? (negative : Bool) (s : List Char) : Option Decimal :=
  let whole := s.takeWhile Char.isDigit
  let (fraction, rest) := splitFraction (s.dropWhile Char.isDigit)
  if whole.isEmpty && fraction.isEmpty then none
  else (exponent? rest).map fun e =>
    ⟨negative, Nat.ofDigitChars 10 (whole ++ fraction) 0, e - fraction.length⟩

/-- The number that a decimal literal writes. -/
def read? (s : List Char) : Option Decimal :=
  magnitude? (splitSign s).1 (splitSign s).2

/-- Whether the text is a decimal literal. -/
def isLiteral (s : List Char) : Bool :=
  (read? s).isSome

end Decimal

end SchemaKeeper.Number
