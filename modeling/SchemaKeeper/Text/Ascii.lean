/-
Letter case of the ASCII letters.

Keywords, type names and catalog answers are compared without regard to the
case of the letters `a` to `z`; every other character stands for itself.

* `lower` and `upper` change those letters only,
* `sameLetters` compares two texts up to them.
-/

namespace SchemaKeeper.Text

/-- The text with `A` to `Z` replaced by `a` to `z`. -/
def lower (s : List Char) : List Char :=
  s.map Char.toLower

/-- The text with `a` to `z` replaced by `A` to `Z`. -/
def upper (s : List Char) : List Char :=
  s.map Char.toUpper

/-- Equality up to the case of the ASCII letters. -/
def sameLetters (s t : List Char) : Bool :=
  lower s == lower t

/-- `lower` on strings. -/
def lowered (s : String) : String :=
  String.ofList (lower s.toList)

/-- `sameLetters` on strings. -/
def sameName (s t : String) : Bool :=
  sameLetters s.toList t.toList

theorem lower_append (s t : List Char) : lower (s ++ t) = lower s ++ lower t :=
  List.map_append ..

theorem sameLetters_refl (s : List Char) : sameLetters s s = true := by
  simp [sameLetters]

end SchemaKeeper.Text
