/-
Blanks and the cuts made at them.

The characters that count as white space in every text this library reads are
those with the Unicode property White_Space (`isBlank`).  On top of the class
stand the three ways the library drops blanks:

* `trim` removes them at both ends,
* `squeeze` removes them everywhere,
* `words` cuts a text at runs of them (`words_append_blank`).
-/

namespace SchemaKeeper.Text

/-- The Unicode property White_Space. -/
def isBlank (c : Char) : Bool :=
  (9 ≤ c.toNat && c.toNat ≤ 13) || c.toNat == 0x20 || c.toNat == 0x85 || c.toNat == 0xA0 ||
  c.toNat == 0x1680 || (0x2000 ≤ c.toNat && c.toNat ≤ 0x200A) || c.toNat == 0x2028 ||
  c.toNat == 0x2029 || c.toNat == 0x202F || c.toNat == 0x205F || c.toNat == 0x3000

/-- Blanks removed at the start. -/
def trimStart (s : List Char) : List Char :=
  s.dropWhile isBlank

/-- Blanks removed at the end. -/
def trimEnd (s : List Char) : List Char :=
  (s.reverse.dropWhile isBlank).reverse

/-- Blanks removed at both ends. -/
def trim (s : List Char) : List Char :=
  trimEnd (trimStart s)

/-- Blanks removed everywhere. -/
def squeeze (s : List Char) : List Char :=
  s.filter fun c => !isBlank c

/-- The maximal runs of characters that are not blank, in order. -/
def words (s : List Char) : List (List Char) :=
  (s.splitOnP isBlank).filter fun w => !w.isEmpty

/-- The words of a text with one space between neighbours. -/
def spaced (s : List Char) : List Char :=
  [' '].intercalate (words s)

/-- `trim` on strings. -/
def trimmed (s : String) : String :=
  String.ofList (trim s.toList)

@[simp] theorem toList_trimmed (s : String) : (trimmed s).toList = trim s.toList :=
  String.toList_ofList

theorem trimStart_cons {c : Char} (hc : isBlank c = false) (r : List Char) :
    trimStart (c :: r) = c :: r := by
  simp [trimStart, hc]

/-- Only what follows the last character that is no blank can be lost at the end. -/
theorem trimEnd_append_cons {c : Char} (hc : isBlank c = false) (s t : List Char) :
    trimEnd (s ++ c :: t) = s ++ c :: trimEnd t := by
  have hcut : ∀ r : List Char, (r ++ c :: s.reverse).dropWhile isBlank =
      r.dropWhile isBlank ++ c :: s.reverse := by
    intro r
    induction r with
    | nil => simp [hc]
    | cons x r ih => by_cases hx : isBlank x <;> simp [hx, ih]
  simp [trimEnd, hcut]

/-- A blank parts the words before it from those after it. -/
theorem words_append_blank {c : Char} (hc : isBlank c = true) (s t : List Char) :
    words (s ++ c :: t) = words s ++ words t := by
  rw [words, List.splitOnP_append_cons s t hc, List.filter_append]
  rfl

theorem squeeze_append (s t : List Char) : squeeze (s ++ t) = squeeze s ++ squeeze t :=
  List.filter_append ..

end SchemaKeeper.Text
