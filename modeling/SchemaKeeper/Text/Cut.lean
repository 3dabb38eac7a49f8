/-
Cutting texts at characters and fragments.

* `cutAt? c s` parts `s` at its first `c`, `cutLast? c s` at its last one,
* `afterLast? f s` is what follows the last occurrence of the fragment `f`,
* `hasFragment f s` tells whether `f` occurs in `s`,
* `depthAfter` counts the parentheses that are open, for those who cut outside of them.

A cut loses nothing but the character it is at (`eq_of_cutAt?`).
-/

namespace SchemaKeeper.Text

/-- The parts before and after the first `c`. -/
def cutAt? (c : Char) : List Char → Option (List Char × List Char)
  | [] => none
  | x :: r => if x = c then some ([], r) else (cutAt? c r).map fun p => (x :: p.1, p.2)

/-- The parts before and after the last `c`. -/
def cutLast? (c : Char) : List Char → Option (List Char × List Char)
  | [] => none
  | x :: r =>
    match cutLast? c r with
    | some p => some (x :: p.1, p.2)
    | none => if x = c then some ([], r) else none

/-- Whether the fragment occurs in the text; the empty fragment occurs everywhere. -/
def hasFragment (f : List Char) : List Char → Bool
  | [] => f.isEmpty
  | x :: r => f.isPrefixOf (x :: r) || hasFragment f r

/-- What follows the last occurrence of the fragment, if there is one. -/
def afterLast? (f : List Char) : List Char → Option (List Char)
  | [] => if f.isEmpty then some [] else none
  | x :: r =>
    match afterLast? f r with
    | some t => some t
    | none => if f.isPrefixOf (x :: r) then some ((x :: r).drop f.length) else none

/-- The number of open parentheses after a character; one that closes none is passed over. -/
def depthAfter (depth : Nat) (c : Char) : Nat :=
  if c = '(' then depth + 1 else if c = ')' then depth - 1 else depth

theorem eq_of_cutAt? {c : Char} {s l r : List Char} (h : cutAt? c s = some (l, r)) :
    s = l ++ c :: r := by
  induction s generalizing l with
  | nil => simp [cutAt?] at h
  | cons x t ih =>
    simp only [cutAt?] at h
    split at h
    · simp_all
    · simp only [Option.map_eq_some_iff, Prod.mk.injEq] at h
      obtain ⟨p, hp, rfl, rfl⟩ := h
      simp [ih hp]

end SchemaKeeper.Text
