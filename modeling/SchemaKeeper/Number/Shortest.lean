/-
The shortest decimal text of a floating point number.

A value is written with the fewest digits that read back as the same value; of
several such numbers the one nearest to the value is taken, and of two equally
near ones the larger.  The digits are laid out positionally whatever the size of
the number, and a number without fraction has no point.

The fewest digits are found by trial: on the grid of decimals with one digit,
then two, and so on, the two grid points beside the value are tested for lying in
the interval of numbers that round to the value.
-/
import SchemaKeeper.Number.Binary64

namespace SchemaKeeper.Number.Binary64

/-- The numbers that round to a value, as bounds and centre in units of `2 ^ exponent`. -/
structure Interval where
  low : Nat
  centre : Nat
  high : Nat
  exponent : Int
  /-- Whether the bounds themselves round to the value. -/
  closed : Bool

/-- The interval that rounds to `m · 2 ^ e`.  Below a power of two the next value is half as far. -/
def interval (m : Nat) (e : Int) : Interval where
  low := 4 * m - (if m = power 2 52 ∧ minExponent < e then 1 else 2)
  centre := 4 * m
  high := 4 * m + 2
  exponent := e - 2
  closed := m % 2 = 0

/-- The number of digits before the point of `num / den`; below one, less the zeros that follow the
point. -/
def pointPosition (num den : Nat) : Int :=
  if den ≤ num then ((digits (num / den)).length : Int)
  else 1 - ((digits ((den + num - 1) / num - 1)).length : Int)

/-- The grid point `c · 10 ^ s` nearest to the centre that lies in the interval, of the two beside
the centre. -/
def gridPoint? (i : Interval) (s : Int) : Option Nat :=
  let a := power 10 s * power 2 (-i.exponent)
  let b := power 2 i.exponent * power 10 (-s)
  let inside := fun c : Nat =>
    if i.closed then i.low * b ≤ c * a ∧ c * a ≤ i.high * b
    else i.low * b < c * a ∧ c * a < i.high * b
  let below := i.centre * b / a
  let rest := i.centre * b % a
  if inside below ∧ (¬ inside (below + 1) ∨ 2 * rest < a) then some below
  else if inside (below + 1) then some (below + 1)
  else none

/-- The fewest digits that read back as `m · 2 ^ e`, and the power of ten they are scaled by. -/
def shortest (m : Nat) (e : Int) : Nat × Int :=
  let i := interval m e
  let position := pointPosition (m * power 2 e) (power 2 (-e))
  let found := (List.range 17).findSome? fun n : Nat =>
    let s := position - (n + 1 : Nat)
    (gridPoint? i s).map fun c => (c, s)
  found.getD (m, 0)

/-- The digits of `c · 10 ^ s`, with a point if there is a fraction. -/
def positional (c : Nat) (s : Int) : List Char :=
  if 0 ≤ s then digits c ++ List.replicate s.toNat '0'
  else
    let places := (-s).toNat
    let all := digits c
    let padded := List.replicate (places + 1 - all.length) '0' ++ all
    let whole := padded.take (padded.length - places)
    let fraction := (padded.drop (padded.length - places)).reverse.dropWhile (· == '0') |>.reverse
    if fraction.isEmpty then whole else whole ++ '.' :: fraction

/-- The text of a value. -/
def text : Binary64 → String
  | .nan => "NaN"
  | .infinite negative => if negative then "-inf" else "inf"
  | .finite negative m e =>
    let body := if m = 0 then ['0'] else
      let (c, s) := shortest m e
      positional c s
    String.ofList (if negative then '-' :: body else body)

end SchemaKeeper.Number.Binary64
