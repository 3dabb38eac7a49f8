/-
The literals of defaults.

A default that a tag gives is written into statements as it stands, so it matters which
characters it may have.

* `isNumeral_of_isLiteral`: a decimal literal has digits, signs, points and marks of an
  exponent, and nothing else,
* `defaultLiteral_cases`: a default is a keyword, a decimal literal, or a text between
  single quotes with the quotes inside doubled,
* `defaultLiteral_enclose`: a text that stands between quotes already is left as it is.
-/
import SchemaKeeper.Model.Default

namespace SchemaKeeper

open Text

namespace Number.Decimal

/-! ### Characters of decimal literals -/

/-- A character that decimal literals are made of. -/
def isNumeral (c : Char) : Bool :=
  c.isDigit || c == '+' || c == '-' || c == '.' || c == 'e' || c == 'E'

variable {s : List Char} {c : Char}

theorem isNumeral_of_isDigit (h : c.isDigit = true) : isNumeral c = true := by
  simp [isNumeral, h]

theorem isNumeral_of_natural? {n : Nat} (h : natural? s = some n) (hc : c ∈ s) :
    isNumeral c = true := by
  unfold natural? at h
  split at h
  · next hdigits =>
    rw [Bool.and_eq_true, List.all_eq_true] at hdigits
    exact isNumeral_of_isDigit (hdigits.2 c hc)
  · cases h

/-- A sign is a numeral, so that it is enough to look at the text without its sign. -/
theorem isNumeral_of_splitSign (h : ∀ c ∈ (splitSign s).2, isNumeral c = true) (hc : c ∈ s) :
    isNumeral c = true := by
  unfold splitSign at h
  split at h
  · rcases List.mem_cons.mp hc with rfl | hc
    · rfl
    · exact h c hc
  · rcases List.mem_cons.mp hc with rfl | hc
    · rfl
    · exact h c hc
  · exact h c hc

theorem isNumeral_of_exponent? {e : Int} (h : exponent? s = some e) (hc : c ∈ s) :
    isNumeral c = true := by
  cases s with
  | nil => cases hc
  | cons mark r =>
    rw [exponent?] at h
    split at h
    · next hmark =>
      rcases List.mem_cons.mp hc with rfl | hc
      · rcases hmark with rfl | rfl <;> rfl
      · obtain ⟨z, hz, -⟩ := Option.map_eq_some_iff.mp h
        obtain ⟨n, hn, -⟩ := Option.bind_eq_some_iff.mp hz
        exact isNumeral_of_splitSign (fun c hc => isNumeral_of_natural? hn hc) hc
    · cases h

/-- A digit is a numeral, so that it is enough to look at what follows a run of digits. -/
theorem isNumeral_of_dropWhile (h : ∀ c ∈ s.dropWhile Char.isDigit, isNumeral c = true)
    (hc : c ∈ s) : isNumeral c = true := by
  rw [← List.takeWhile_append_dropWhile (p := Char.isDigit) (l := s)] at hc
  rcases List.mem_append.mp hc with hc | hc
  · exact isNumeral_of_isDigit (List.all_eq_true.mp List.all_takeWhile c hc)
  · exact h c hc

theorem isNumeral_of_splitFraction (h : ∀ c ∈ (splitFraction s).2, isNumeral c = true)
    (hc : c ∈ s) : isNumeral c = true := by
  unfold splitFraction at h
  split at h
  · rcases List.mem_cons.mp hc with rfl | hc
    · rfl
    · exact isNumeral_of_dropWhile h hc
  · exact h c hc

theorem isNumeral_of_isLiteral (h : isLiteral s = true) (hc : c ∈ s) : isNumeral c = true := by
  obtain ⟨x, hx⟩ := Option.isSome_iff_exists.mp h
  refine isNumeral_of_splitSign (fun c hc => ?_) hc
  refine isNumeral_of_dropWhile (fun c hc => ?_) hc
  refine isNumeral_of_splitFraction (fun c hc => ?_) hc
  rw [read?, magnitude?] at hx
  dsimp only at hx
  split at hx
  · cases hx
  · obtain ⟨e, he, -⟩ := Option.map_eq_some_iff.mp hx
    exact isNumeral_of_exponent? he hc

theorem ne_nil_of_isLiteral (h : isLiteral s = true) : s ≠ [] := by
  rintro rfl
  cases h

end Number.Decimal

/-! ### Defaults -/

theorem keywordDefault?_cases {word keyword : String} (h : keywordDefault? word = some keyword) :
    keyword = "NULL" ∨ keyword = "CURRENT_TIMESTAMP" ∨
      Number.Decimal.isLiteral keyword.toList = true := by
  unfold keywordDefault? at h
  split at h <;> cases h <;> decide

/-- Quotes are put around a text that has none, and stay around one that has them. -/
theorem exists_quotedDefault_eq (value : List Char) :
    ∃ inside, quotedDefault value = enclose '\'' inside := by
  unfold quotedDefault
  split
  · exact ⟨value, rfl⟩
  · next inside hinside =>
    split
    · next hdecodes =>
      obtain ⟨u, hu⟩ := Option.isSome_iff_exists.mp hdecodes
      refine ⟨u, ?_⟩
      rw [enclose, ← eq_encode_of_decode hu]
      exact eq_of_inner? hinside
    · exact ⟨inside, rfl⟩

/-- A default is a keyword, a decimal literal or a text between single quotes. -/
theorem defaultLiteral_cases (value : List Char) :
    defaultLiteral value = "NULL".toList ∨ defaultLiteral value = "CURRENT_TIMESTAMP".toList ∨
      Number.Decimal.isLiteral (defaultLiteral value) = true ∨
      ∃ inside, defaultLiteral value = enclose '\'' inside := by
  unfold defaultLiteral
  split
  · next hkeyword =>
    rcases keywordDefault?_cases hkeyword with rfl | rfl | hliteral
    · exact .inl rfl
    · exact .inr (.inl rfl)
    · exact .inr (.inr (.inl hliteral))
  · split
    · next hliteral => exact .inr (.inr (.inl hliteral))
    · exact .inr (.inr (.inr (exists_quotedDefault_eq value)))

/-- No keyword starts with a quote. -/
theorem keywordDefault?_quote (r : List Char) :
    keywordDefault? (String.ofList ('\'' :: r)) = none := by
  have hne : ∀ word : String, word.toList.head? ≠ some '\'' → String.ofList ('\'' :: r) ≠ word := by
    rintro _ h rfl
    simp at h
  unfold keywordDefault?
  split <;> first | rfl | next h => exact absurd h (hne _ (by decide))

/-- A text between quotes is a default as it stands. -/
theorem defaultLiteral_enclose (s : List Char) :
    defaultLiteral (enclose '\'' s) = enclose '\'' s := by
  have hword : keywordDefault? (String.ofList (lower (enclose '\'' s))) = none :=
    keywordDefault?_quote _
  have hnumber : Number.Decimal.isLiteral (enclose '\'' s) = false := rfl
  rw [defaultLiteral, hword]
  simp [hnumber, quotedDefault, inner?_enclose, decode_encode]

end SchemaKeeper
