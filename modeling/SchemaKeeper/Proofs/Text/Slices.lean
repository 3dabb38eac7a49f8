/-
Fragments of texts and the positions where they stand.

`afterLast?` looks for the last occurrence of a fragment.  What stands before that occurrence
is of no account (`afterLast?_append_of_some`), and neither is a text that has not the first
character of the fragment (`afterLast?_append`).

A position in a text counts the bytes before it.  A slice between two positions is there only
if both are between characters and the first is not after the second: `slice?` gives nothing
otherwise.

* `slice?_eq`: a part of a text is the slice between its ends,
* `firstByte?_append`, `lastByte?_spec`: where the first occurrence of a character and the last
  occurrence of a fragment stand, in terms of `cutAt?` and `afterLast?`.
-/
import Mathlib.Data.List.Infix
import SchemaKeeper.Proofs.Column.Type

namespace SchemaKeeper.Text

variable {c : Char} {f p s t r : List Char}

/-! ### The last occurrence of a fragment -/

theorem afterLast?_cons (f : List Char) (x : Char) (r : List Char) :
    afterLast? f (x :: r) =
      (afterLast? f r).or (if f.isPrefixOf (x :: r) then some ((x :: r).drop f.length) else none) := by
  rw [afterLast?]
  cases afterLast? f r <;> rfl

/-- What stands before the last occurrence is of no account. -/
theorem afterLast?_append_of_some (h : afterLast? f t = some r) (s : List Char) :
    afterLast? f (s ++ t) = some r := by
  induction s with
  | nil => exact h
  | cons x s ih => rw [List.cons_append, afterLast?_cons, ih, Option.some_or]

/-- A fragment does not start within a text that has not its first character. -/
theorem afterLast?_append (h : c ∉ p) (f s : List Char) :
    afterLast? (c :: f) (p ++ s) = afterLast? (c :: f) s := by
  induction p with
  | nil => rfl
  | cons x p ih =>
    obtain ⟨hx, hp⟩ : c ≠ x ∧ c ∉ p := by simpa using h
    have hstart : (c :: f).isPrefixOf (x :: (p ++ s)) = false := by
      rw [List.isPrefixOf_cons_cons, beq_false_of_ne hx, Bool.false_and]
    rw [List.cons_append, afterLast?_cons, ih hp, hstart]
    exact Option.or_none

theorem afterLast?_eq_none (h : c ∉ s) (f : List Char) : afterLast? (c :: f) s = none := by
  have happend := afterLast?_append h f []
  rw [List.append_nil] at happend
  exact happend

theorem afterLast?_self (hne : f ≠ []) (h : afterLast? f (f.tail ++ r) = none) :
    afterLast? f (f ++ r) = some r := by
  cases f with
  | nil => exact absurd rfl hne
  | cons c f =>
    rw [List.tail_cons] at h
    have hstart : (c :: f).isPrefixOf (c :: (f ++ r)) = true :=
      List.isPrefixOf_iff_prefix.mpr ⟨r, rfl⟩
    rw [List.cons_append, afterLast?_cons, h, hstart, Option.none_or, if_pos rfl]
    simp

/-! ### Slices at byte positions -/

/-- The number of bytes of a text. -/
def byteLength : List Char → Nat
  | [] => 0
  | c :: s => c.utf8Size + byteLength s

/-- The parts of a text before and after a byte position, if the position is between two
characters. -/
def cutAtByte? : Nat → List Char → Option (List Char × List Char)
  | 0, s => some ([], s)
  | _ + 1, [] => none
  | n + 1, c :: s =>
    if c.utf8Size ≤ n + 1 then
      (cutAtByte? (n + 1 - c.utf8Size) s).map fun parts => (c :: parts.1, parts.2)
    else none

/-- The slice of a text from one byte position to another. -/
def slice? (i j : Nat) (s : List Char) : Option (List Char) := do
  let front ← cutAtByte? j s
  let part ← cutAtByte? i front.1
  some part.2

/-- The position of the first `c`. -/
def firstByte? (c : Char) : List Char → Option Nat
  | [] => none
  | x :: r => if x = c then some 0 else (firstByte? c r).map (x.utf8Size + ·)

/-- The position of the last occurrence of a fragment. -/
def lastByte? (f : List Char) : List Char → Option Nat
  | [] => if f.isEmpty then some 0 else none
  | x :: r =>
    match lastByte? f r with
    | some n => some (x.utf8Size + n)
    | none => if f.isPrefixOf (x :: r) then some 0 else none

@[simp] theorem byteLength_nil : byteLength [] = 0 := rfl

@[simp] theorem byteLength_cons (c : Char) (s : List Char) :
    byteLength (c :: s) = c.utf8Size + byteLength s := rfl

@[simp] theorem byteLength_append (s t : List Char) :
    byteLength (s ++ t) = byteLength s + byteLength t := by
  induction s with
  | nil => exact (Nat.zero_add _).symm
  | cons c s ih => rw [List.cons_append, byteLength_cons, ih, byteLength_cons, Nat.add_assoc]

theorem cutAtByte?_append (s t : List Char) : cutAtByte? (byteLength s) (s ++ t) = some (s, t) := by
  induction s with
  | nil => simp [cutAtByte?]
  | cons c s ih =>
    obtain ⟨n, hn⟩ : ∃ n, c.utf8Size + byteLength s = n + 1 :=
      Nat.exists_eq_add_one.mpr (Nat.add_pos_left c.utf8Size_pos _)
    rw [byteLength_cons, hn, List.cons_append, cutAtByte?, if_pos (by omega), ← hn,
      Nat.add_sub_cancel_left, ih]
    rfl

/-- A part of a text is the slice between its ends. -/
theorem slice?_eq {i j : Nat} {a b e : List Char} (hs : s = a ++ b ++ e) (hi : i = byteLength a)
    (hj : j = byteLength a + byteLength b) : slice? i j s = some b := by
  subst hs hi
  rw [hj, ← byteLength_append, slice?, cutAtByte?_append, Option.bind_eq_bind, Option.bind_some,
    cutAtByte?_append]
  rfl

theorem slice?_zero (s t : List Char) : slice? 0 (byteLength s) (s ++ t) = some s :=
  slice?_eq rfl byteLength_nil.symm (Nat.zero_add _).symm

theorem firstByte?_append (h : c ∉ s) (t : List Char) :
    firstByte? c (s ++ c :: t) = some (byteLength s) := by
  induction s with
  | nil => simp [firstByte?]
  | cons x s ih =>
    obtain ⟨hx, hs⟩ : c ≠ x ∧ c ∉ s := by simpa using h
    rw [List.cons_append, firstByte?, if_neg (Ne.symm hx), ih hs, byteLength_cons]
    rfl

theorem firstByte?_eq_none (h : c ∉ s) : firstByte? c s = none := by
  induction s with
  | nil => rfl
  | cons x s ih =>
    obtain ⟨hx, hs⟩ : c ≠ x ∧ c ∉ s := by simpa using h
    rw [firstByte?, if_neg (Ne.symm hx), ih hs]
    rfl

/-- The last occurrence of a fragment is at the end of what stands before it. -/
theorem lastByte?_spec (f s : List Char) :
    (lastByte? f s = none ∧ afterLast? f s = none) ∨
    ∃ a r, s = a ++ f ++ r ∧ lastByte? f s = some (byteLength a) ∧ afterLast? f s = some r := by
  induction s with
  | nil =>
    cases f with
    | nil => exact .inr ⟨[], [], rfl, rfl, rfl⟩
    | cons c f => exact .inl ⟨rfl, rfl⟩
  | cons x s ih =>
    rw [lastByte?, afterLast?]
    rcases ih with ⟨hbyte, hafter⟩ | ⟨a, r, rfl, hbyte, hafter⟩
    · rw [hbyte, hafter]
      by_cases hstart : f.isPrefixOf (x :: s) = true
      · obtain ⟨r, hr⟩ := List.isPrefixOf_iff_prefix.mp hstart
        refine .inr ⟨[], r, hr.symm, if_pos hstart, ?_⟩
        rw [← hr, if_pos (hr ▸ hstart), List.drop_left]
      · exact .inl ⟨if_neg hstart, if_neg hstart⟩
    · rw [hbyte, hafter]
      exact .inr ⟨x :: a, r, rfl, rfl, rfl⟩

end SchemaKeeper.Text
