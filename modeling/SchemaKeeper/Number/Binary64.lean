/-
Floating point numbers of 64 bits.

A `Binary64` is a floating point number of 53 significant bits, an infinity, or
no number at all.  Finite ones are kept exactly, as a coefficient times a power
of two, in the one form in which the coefficient has 53 bits or the exponent is
the least one.

* `ofDecimal` rounds a decimal number to the nearest value, ties to the even
  coefficient,
* `read?` reads a decimal literal or the name of a special value,
* `numEq` is numerical equality: both zeros are equal, and what is not a number
  equals nothing,
* `toInt64` drops the fraction and stops at the ends of the 64-bit range.
-/
import SchemaKeeper.Number.Decimal
import SchemaKeeper.Text.Ascii

namespace SchemaKeeper.Number

/-- The quotient rounded to the nearest integer, ties to the even one. -/
def roundDiv (num den : Nat) : Nat :=
  let q := num / den
  let r := num % den
  if den < 2 * r ∨ (2 * r = den ∧ q % 2 = 1) then q + 1 else q

/-- A floating point number of 64 bits. -/
inductive Binary64 where
  | nan
  | infinite (negative : Bool)
  | finite (negative : Bool) (coefficient : Nat) (exponent : Int)
deriving Repr, DecidableEq

namespace Binary64

/-- The exponent of the smallest positive value. -/
def minExponent : Int := -1074

/-- The exponent of the largest finite values. -/
def maxExponent : Int := 971

/-- Zero with a sign. -/
def zero (negative : Bool) : Binary64 :=
  .finite negative 0 minExponent

/-- The exponent of the binade of the positive number `num / den`. -/
def floorLog2 (num den : Nat) : Int :=
  let l : Int := (Nat.log2 num : Int) - (Nat.log2 den : Int)
  if num * power 2 (-l) < den * power 2 l then l - 1 else l

/-- The value nearest to the positive number `num / den`. -/
def ofRatio (negative : Bool) (num den : Nat) : Binary64 :=
  let e := max (floorLog2 num den - 52) minExponent
  let m := roundDiv (num * power 2 (-e)) (den * power 2 e)
  let (m, e) := if m = power 2 53 then (power 2 52, e + 1) else (m, e)
  if maxExponent < e then .infinite negative else .finite negative m e

/-- The value nearest to a decimal number.  A number of which the leading digit alone shows that
it is too large or too small is settled without its power of ten. -/
def ofDecimal (d : Decimal) : Binary64 :=
  let top := d.exponent + (digits d.coefficient).length
  if d.coefficient = 0 ∨ top < -330 then zero d.negative
  else if 310 < top then .infinite d.negative
  else ofRatio d.negative (d.coefficient * power 10 d.exponent) (power 10 (-d.exponent))

/-- A special value by its name, in letters of either case. -/
def special? (negative : Bool) (s : List Char) : Option Binary64 :=
  if Text.sameLetters s "nan".toList then some .nan
  else if Text.sameLetters s "inf".toList || Text.sameLetters s "infinity".toList then
    some (.infinite negative)
  else none

/-- The value of a decimal literal or of a special name with an optional sign. -/
def read? (s : List Char) : Option Binary64 :=
  match Decimal.read? s with
  | some d => some (ofDecimal d)
  | none => special? (splitSign s).1 (splitSign s).2

/-- Numerical equality. -/
def numEq : Binary64 → Binary64 → Bool
  | .nan, _ => false
  | _, .nan => false
  | .infinite n, .infinite n' => n == n'
  | .finite n m e, .finite n' m' e' => (m == 0 && m' == 0) || (n == n' && m == m' && e == e')
  | _, _ => false

/-- The value without its fraction, or the end of the 64-bit range it lies beyond; zero stands for
what is not a number. -/
def toInt64 : Binary64 → Int64
  | .nan => 0
  | .infinite negative => if negative then Int64.minValue else Int64.maxValue
  | .finite negative m e =>
    let n : Nat := m * power 2 e / power 2 (-e)
    clampInt64 (if negative then -(n : Int) else n)

end Binary64

end SchemaKeeper.Number
