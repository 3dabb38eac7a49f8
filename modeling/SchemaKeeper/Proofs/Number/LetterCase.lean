/-
Decimal literals in letters of either case.

A decimal literal has one letter at most, the mark of its exponent, so it writes the same
number in letters of either case (`read?_of_sameLetters`).
-/
import SchemaKeeper.Number.Decimal
import SchemaKeeper.Proofs.Column.Type
import SchemaKeeper.Proofs.Text.LetterCase

namespace SchemaKeeper.Number

open Text

theorem lower_of_digits {s : List Char} (h : ∀ c ∈ s, c.isDigit = true) : lower s = s :=
  (List.map_congr_left fun c hc => toLower_of_isDigit (h c hc)).trans (List.map_id _)

theorem takeWhile_isDigit_lower (s : List Char) :
    (lower s).takeWhile Char.isDigit = s.takeWhile Char.isDigit := by
  rw [takeWhile_lower isDigit_toLower]
  exact lower_of_digits fun c hc => List.all_eq_true.mp List.all_takeWhile c hc

theorem natural?_lower (s : List Char) : natural? (lower s) = natural? s := by
  have hall : (lower s).all Char.isDigit = s.all Char.isDigit := by
    rw [lower, List.all_map]
    exact congrArg s.all (funext isDigit_toLower)
  have hempty : (lower s).isEmpty = s.isEmpty := List.isEmpty_map ..
  unfold natural?
  rw [hall, hempty]
  by_cases hdigits : s.all Char.isDigit = true
  · rw [lower_of_digits (List.all_eq_true.mp hdigits)]
  · simp [hdigits]

theorem splitSign_cons (c : Char) (r : List Char) :
    splitSign (c :: r) =
      if c = '-' then (true, r) else if c = '+' then (false, r) else (false, c :: r) := by
  by_cases hminus : c = '-'
  · rw [if_pos hminus, hminus]
    rfl
  · by_cases hplus : c = '+'
    · rw [if_neg hminus, if_pos hplus, hplus]
      rfl
    · rw [if_neg hminus, if_neg hplus]
      unfold splitSign
      split
      · next h => exact absurd (List.cons.inj h).1 hminus
      · next h => exact absurd (List.cons.inj h).1 hplus
      · rfl

theorem splitSign_lower (s : List Char) :
    splitSign (lower s) = ((splitSign s).1, lower (splitSign s).2) := by
  cases s with
  | nil => rfl
  | cons c r =>
    show splitSign (c.toLower :: lower r) = _
    rw [splitSign_cons, splitSign_cons]
    simp only [toLower_eq_iff (d := '-') (.inl (by decide)),
      toLower_eq_iff (d := '+') (.inl (by decide))]
    split
    · rfl
    · split <;> rfl

theorem signed?_lower (s : List Char) : signed? (lower s) = signed? s := by
  unfold signed?
  rw [splitSign_lower]
  dsimp only
  rw [natural?_lower]

namespace Decimal

/-- The mark of an exponent may be a capital or a small letter. -/
theorem isMark_toLower (c : Char) : (c.toLower = 'e' ∨ c.toLower = 'E') ↔ (c = 'e' ∨ c = 'E') := by
  rcases toLower_cases c with ⟨hlow, hhigh, hlower⟩ | hsame
  · have htoNat : ∀ d : Char, c.toLower = d → c.toNat + 32 = d.toNat := by
      rintro d rfl
      exact hlower.symm
    constructor
    · rintro (h | h)
      · right
        have := htoNat 'e' h
        exact Char.toNat_inj.mp (by simpa using this)
      · have hE : c.toNat + 32 = 69 := htoNat 'E' h
        omega
    · rintro (rfl | rfl)
      · exact .inl rfl
      · exact .inl rfl
  · rw [hsame]

theorem exponent?_lower (s : List Char) : exponent? (lower s) = exponent? s := by
  cases s with
  | nil => rfl
  | cons c r =>
    show (if c.toLower = 'e' ∨ c.toLower = 'E' then signed? (lower r) else none) = _
    simp only [isMark_toLower, signed?_lower]
    rfl

theorem splitFraction_cons (c : Char) (r : List Char) :
    splitFraction (c :: r) =
      if c = '.' then (r.takeWhile Char.isDigit, r.dropWhile Char.isDigit) else ([], c :: r) := by
  by_cases hpoint : c = '.'
  · rw [if_pos hpoint, hpoint]
    rfl
  · rw [if_neg hpoint]
    unfold splitFraction
    split
    · next h => exact absurd (List.cons.inj h).1 hpoint
    · rfl

theorem splitFraction_lower (s : List Char) :
    splitFraction (lower s) = ((splitFraction s).1, lower (splitFraction s).2) := by
  cases s with
  | nil => rfl
  | cons c r =>
    show splitFraction (c.toLower :: lower r) = _
    rw [splitFraction_cons, splitFraction_cons]
    simp only [toLower_eq_iff (d := '.') (.inl (by decide))]
    split
    · rw [takeWhile_isDigit_lower, dropWhile_lower isDigit_toLower]
    · rfl

/-- A literal writes the same number in lower case. -/
theorem read?_lower (s : List Char) : read? (lower s) = read? s := by
  unfold read? magnitude?
  rw [splitSign_lower]
  dsimp only
  rw [takeWhile_isDigit_lower, dropWhile_lower isDigit_toLower, splitFraction_lower]
  dsimp only
  rw [exponent?_lower]

theorem read?_of_sameLetters {s t : List Char} (h : sameLetters s t = true) :
    read? s = read? t := by
  rw [← read?_lower s, ← read?_lower t, beq_iff_eq.mp h]

end Decimal

end SchemaKeeper.Number
