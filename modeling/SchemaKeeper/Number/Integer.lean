/-
Integers in decimal digits.

* `unsigned?` reads digits with an optional plus sign, `signed?` with an optional
  sign of either kind; blanks and other characters are refused,
* `uint32?` and `int64?` also refuse what the type cannot hold,
* `digits` writes a natural number; what it writes is read back
  (`natural?_digits`).
-/

namespace SchemaKeeper.Number

/-- The decimal digits of a natural number. -/
def digits (n : Nat) : List Char :=
  Nat.toDigits 10 n

/-- A power of a number; it is one for a negative exponent. -/
def power (base : Nat) (exponent : Int) : Nat :=
  Nat.pow base exponent.toNat

/-- The number written by a nonempty run of digits. -/
def natural? (s : List Char) : Option Nat :=
  if !s.isEmpty && s.all Char.isDigit then some (Nat.ofDigitChars 10 s 0) else none

/-- Whether a minus sign leads the text, and the text after the sign. -/
def splitSign : List Char → Bool × List Char
  | '-' :: r => (true, r)
  | '+' :: r => (false, r)
  | r => (false, r)

/-- A natural number, perhaps with a plus sign. -/
def unsigned? : List Char → Option Nat
  | '+' :: r => natural? r
  | r => natural? r

/-- An integer, perhaps with a sign. -/
def signed? (s : List Char) : Option Int :=
  (natural? (splitSign s).2).map fun n => if (splitSign s).1 then -(n : Int) else n

/-- A number of 32 bits. -/
def uint32? (s : List Char) : Option UInt32 :=
  (unsigned? s).bind fun n => if n < UInt32.size then some (UInt32.ofNat n) else none

/-- An integer of 64 bits. -/
def int64? (s : List Char) : Option Int64 :=
  (signed? s).bind fun n =>
    if Int64.minValue.toInt ≤ n ∧ n ≤ Int64.maxValue.toInt then some (Int64.ofInt n) else none

/-- The integer nearest to `n` that 64 bits hold. -/
def clampInt64 (n : Int) : Int64 :=
  Int64.ofInt (max Int64.minValue.toInt (min n Int64.maxValue.toInt))

/-- The decimal digits of a number of 32 bits. -/
def uint32Digits (n : UInt32) : String :=
  String.ofList (digits n.toNat)

/-- The decimal digits of an integer, with a minus sign if it is negative. -/
def integerText (n : Int) : String :=
  String.ofList (if n < 0 then '-' :: digits n.natAbs else digits n.natAbs)

theorem natural?_digits (n : Nat) : natural? (digits n) = some n := by
  have hd : (Nat.toDigits 10 n).all Char.isDigit = true := by
    simp only [List.all_eq_true]
    exact fun c hc => Nat.isDigit_of_mem_toDigits (by decide) (by decide) hc
  simp [natural?, digits, hd, Nat.toDigits_ne_nil, Nat.ofDigitChars_toDigits]

end SchemaKeeper.Number
