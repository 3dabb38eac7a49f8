/-
Quoted texts in which the quote is doubled.

SQL writes identifiers and string literals between quote characters and doubles
every quote inside (`enclose`).  Reading goes back in two ways: `decode` refuses
a quote that stands alone, `undouble` lets it pass.

* `decode_encode`: what `encode` writes, `decode` reads back, and it reads nothing
  else (`eq_encode_of_decode`),
* `inner?_enclose`: the text between the quotes of an enclosed text is its
  encoding.
-/

namespace SchemaKeeper.Text

/-- Every quote `q` of the text doubled. -/
def encode (q : Char) : List Char → List Char
  | [] => []
  | c :: r => if c = q then q :: q :: encode q r else c :: encode q r

/-- The text between quotes, with its own quotes doubled. -/
def enclose (q : Char) (s : List Char) : List Char :=
  q :: (encode q s ++ [q])

/-- Pairs of quotes made single; nothing is read from a text with a quote that stands alone. -/
def decode (q : Char) : List Char → Option (List Char)
  | [] => some []
  | [c] => if c = q then none else some [c]
  | c :: d :: r =>
    if c = q then
      if d = q then (decode q r).map (q :: ·) else none
    else (decode q (d :: r)).map (c :: ·)

/-- Pairs of quotes made single, left to right; a quote that stands alone stays. -/
def undouble (q : Char) : List Char → List Char
  | [] => []
  | [c] => [c]
  | c :: d :: r => if c = q ∧ d = q then q :: undouble q r else c :: undouble q (d :: r)

/-- The text between a quote at the start and another one at the end. -/
def inner? (q : Char) : List Char → Option (List Char)
  | [] => none
  | c :: r => if c = q ∧ r.getLast? = some q then some r.dropLast else none

/-- A string between quotes, with its own quotes doubled. -/
def quoted (q : Char) (s : String) : String :=
  String.ofList (enclose q s.toList)

/-- A string literal of SQL. -/
def literal (s : String) : String :=
  quoted '\'' s

@[simp] theorem toList_quoted (q : Char) (s : String) :
    (quoted q s).toList = enclose q s.toList :=
  String.toList_ofList

theorem decode_encode (q : Char) (s : List Char) : decode q (encode q s) = some s := by
  induction s with
  | nil => rfl
  | cons c r ih =>
    by_cases h : c = q
    · simp [encode, decode, h, ih]
    · cases hr : encode q r with
      | nil =>
        have : r = [] := by
          rw [hr] at ih
          simpa [decode, eq_comm] using ih
        simp [encode, decode, h, this]
      | cons d t =>
        rw [hr] at ih
        simp [encode, decode, h, hr, ih]

theorem eq_encode_of_decode {q : Char} {s u : List Char} (h : decode q s = some u) :
    s = encode q u := by
  fun_induction decode q s generalizing u with
  | case1 =>
    cases h
    rfl
  | case2 => cases h
  | case3 c hc =>
    cases h
    simp [encode, hc]
  | case4 r ih =>
    obtain ⟨v, hv, rfl⟩ := Option.map_eq_some_iff.mp h
    simp [encode, ih hv]
  | case5 => cases h
  | case6 c d r hc ih =>
    obtain ⟨v, hv, rfl⟩ := Option.map_eq_some_iff.mp h
    rw [encode, if_neg hc, ih hv]

/-- A text with an inside is that inside between quotes. -/
theorem eq_of_inner? {q : Char} {s inside : List Char} (h : inner? q s = some inside) :
    s = q :: (inside ++ [q]) := by
  cases s with
  | nil => cases h
  | cons c r =>
    rw [inner?] at h
    split at h
    · next hq =>
      obtain ⟨rfl, hlast⟩ := hq
      obtain ⟨r', rfl⟩ := List.getLast?_eq_some_iff.mp hlast
      cases h
      rw [List.dropLast_concat]
    · cases h

theorem inner?_enclose (q : Char) (s : List Char) : inner? q (enclose q s) = some (encode q s) := by
  simp [inner?, enclose]

theorem inner?_eq_some {q : Char} {s inside : List Char} :
    inner? q s = some inside ↔ s = q :: (inside ++ [q]) := by
  refine ⟨eq_of_inner?, ?_⟩
  rintro rfl
  simp [inner?]

theorem inner?_eq_none {q : Char} {s : List Char} :
    inner? q s = none ↔ ¬ ∃ inside, s = q :: (inside ++ [q]) := by
  simp only [← inner?_eq_some, not_exists, Option.eq_none_iff_forall_ne_some, ne_eq]

/-- A text between quotes is longer than the text. -/
theorem length_lt_length_enclose (q : Char) (s : List Char) : s.length < (enclose q s).length := by
  have hencode : s.length ≤ (encode q s).length := by
    induction s with
    | nil => exact Nat.le_refl _
    | cons c r ih =>
      rw [encode]
      split <;> simp only [List.length_cons] <;> omega
  simp only [enclose, List.length_cons, List.length_append]
  omega

theorem enclose_inj {q : Char} {s t : List Char} : enclose q s = enclose q t ↔ s = t := by
  refine ⟨fun h => ?_, fun h => by rw [h]⟩
  have hencode : encode q s = encode q t := by simpa [enclose] using h
  exact Option.some.inj (by rw [← decode_encode q s, hencode, decode_encode])

end SchemaKeeper.Text
