/-
Defaults in their normal form.

A tag may give one default in many ways, and `normalizeDefault` brings each into a form
that statements can hold as it stands (`NormalDefault`).

* `normalDefault_normalizeDefault`: what comes out is in normal form,
* `normalizeDefault_of_normal`: what is in normal form stays as it is, so that a default
  may be normalized again,
* `normalizeDefault_eq_literal`: a text that is no special word, no number and not in
  quotes becomes the literal of itself,
* `normalizeDefault_normalForm`: all of this together, and a literal is one token of every
  dialect.
-/
import SchemaKeeper.Proofs.Dialect.Phrases
import SchemaKeeper.Proofs.Dialect.ReportedDefaults
import SchemaKeeper.Proofs.Model.Written

namespace SchemaKeeper

open Text Number

/-! ### Special words -/

/-- The words that a tag has for values of SQL, in lower case. -/
def specialWords : List String :=
  ["null", "true", "false", "current_timestamp", "current_timestamp()", "now()"]

theorem keywordDefault?_eq_none {word : String} :
    keywordDefault? word = none ↔ word ∉ specialWords := by
  constructor
  · rintro h hmem
    simp only [specialWords, List.mem_cons, List.not_mem_nil, or_false] at hmem
    rcases hmem with rfl | rfl | rfl | rfl | rfl | rfl <;> cases h
  · intro h
    simp only [specialWords, List.mem_cons, List.not_mem_nil, or_false, not_or] at h
    unfold keywordDefault?
    split <;> simp_all

theorem isNumeral_toLower {c : Char} (h : Decimal.isNumeral c = true) :
    Decimal.isNumeral c.toLower = true := by
  have hcases := h
  simp only [Decimal.isNumeral, Bool.or_eq_true, beq_iff_eq] at hcases
  rcases hcases with ((((hdigit | rfl) | rfl) | rfl) | rfl) | rfl
  · rwa [toLower_of_isDigit hdigit]
  · rfl
  · rfl
  · rfl
  · rfl
  · rfl

/-- Every special word has a letter that no number has. -/
theorem not_mem_specialWords_of_isLiteral {s : List Char} (h : Decimal.isLiteral s = true) :
    String.ofList (lower s) ∉ specialWords := by
  intro hmem
  have hnumerals : (String.ofList (lower s)).toList.all Decimal.isNumeral = true := by
    rw [String.toList_ofList, List.all_eq_true]
    intro c hc
    obtain ⟨c', hc', rfl⟩ := List.mem_map.mp hc
    exact isNumeral_toLower (Decimal.isNumeral_of_isLiteral h hc')
  have hletters : ∀ word ∈ specialWords, word.toList.all Decimal.isNumeral = false := by
    decide
  rw [hletters _ hmem] at hnumerals
  cases hnumerals

/-! ### The normal form -/

/-- A default as statements hold it. -/
inductive NormalDefault : String → Prop
  | null : NormalDefault "NULL"
  | now : NormalDefault "CURRENT_TIMESTAMP"
  | number {s : String} (isLiteral : Decimal.isLiteral s.toList = true) : NormalDefault s
  /-- A text between single quotes, with its own quotes doubled. -/
  | text (s : String) : NormalDefault (literal s)

theorem normalDefault_normalizeDefault (v : String) : NormalDefault (normalizeDefault v) := by
  unfold normalizeDefault
  rcases defaultLiteral_cases (trim v.toList) with h | h | h | ⟨inside, h⟩
  · rw [h, String.ofList_toList]
    exact .null
  · rw [h, String.ofList_toList]
    exact .now
  · refine .number ?_
    rwa [String.toList_ofList]
  · have hliteral : String.ofList (enclose '\'' inside) = literal (String.ofList inside) := by
      rw [literal, quoted, String.toList_ofList]
    rw [h, hliteral]
    exact .text _

/-- A number is no special word, so it stays as it is. -/
theorem defaultLiteral_of_isLiteral {s : List Char} (h : Decimal.isLiteral s = true) :
    defaultLiteral s = s := by
  rw [defaultLiteral, keywordDefault?_eq_none.mpr (not_mem_specialWords_of_isLiteral h)]
  exact if_pos h

theorem normalizeDefault_literal (s : String) : normalizeDefault (literal s) = literal s := by
  rw [normalizeDefault, literal, toList_quoted, trim_enclose, defaultLiteral_enclose, quoted]

/-- What is in normal form stays as it is. -/
theorem normalizeDefault_of_normal {s : String} (h : NormalDefault s) : normalizeDefault s = s := by
  cases h with
  | null => decide
  | now => decide
  | number hliteral =>
    have htrim : trim s.toList = s.toList :=
      Dialect.trim_of_isAtom (.inl (Dialect.isWord_of_isLiteral hliteral))
    rw [normalizeDefault, htrim, defaultLiteral_of_isLiteral hliteral, String.ofList_toList]
  | text text => exact normalizeDefault_literal text

/-! ### Literals of texts -/

/-- A literal is one token of every dialect. -/
theorem read?_literal (d : Dialect) (text : String) :
    Sql.read? d.quoteChar (literal text).toList = some [.literal text] := by
  have hlegible : Sql.Legible d.quoteChar [.literal text] :=
    ⟨.singleton _, fun c hc => by cases List.mem_singleton.mp hc⟩
  have hread := Sql.read?_write (Dialect.quoteChar_ne d) hlegible
  simpa [Sql.write, Sql.Token.chars, literal] using hread

/-- A text that is no special word, no number and not in quotes becomes the literal of itself. -/
theorem normalizeDefault_eq_literal {v : String} (hword : lowered (trimmed v) ∉ specialWords)
    (hnumber : Decimal.isLiteral (trimmed v).toList = false)
    (hquotes : ¬ ∃ inside, (trimmed v).toList = '\'' :: (inside ++ ['\''])) :
    normalizeDefault v = literal (trimmed v) := by
  rw [lowered] at hword
  rw [toList_trimmed] at hword hnumber hquotes
  rw [normalizeDefault, defaultLiteral, keywordDefault?_eq_none.mpr hword]
  simp only [hnumber, Bool.false_eq_true, if_false]
  rw [quotedDefault, inner?_eq_none.mpr hquotes, literal, quoted, toList_trimmed]

/-- **A default has one form in statements.**  It is NULL, the current time, a number or a literal,
and a literal is one token, whatever text it is of.  To normalize a default again changes nothing,
and a literal that is given as a default stays as it is.  A text that is no special word, no number
and not in quotes is read back from between the quotes that it gets. -/
theorem normalizeDefault_normalForm (v : String) :
    NormalDefault (normalizeDefault v) ∧
    (∀ (d : Dialect) (text : String), normalizeDefault v = literal text →
      Sql.read? d.quoteChar (normalizeDefault v).toList = some [.literal text]) ∧
    normalizeDefault (normalizeDefault v) = normalizeDefault v ∧
    (∀ s, normalizeDefault (literal s) = literal s) ∧
    (lowered (trimmed v) ∉ specialWords → Decimal.isLiteral (trimmed v).toList = false →
      (¬ ∃ inside, (trimmed v).toList = '\'' :: (inside ++ ['\''])) →
      ∃ inside, (normalizeDefault v).toList = '\'' :: (inside ++ ['\'']) ∧
        undouble '\'' inside = (trimmed v).toList) := by
  have hnormal := normalDefault_normalizeDefault v
  refine ⟨hnormal, fun d text htext => ?_, normalizeDefault_of_normal hnormal,
    normalizeDefault_literal, fun hword hnumber hquotes => ?_⟩
  · rw [htext]
    exact read?_literal d text
  · refine ⟨encode '\'' (trimmed v).toList, ?_, undouble_encode _ _⟩
    rw [normalizeDefault_eq_literal hword hnumber hquotes, literal, toList_quoted]
    rfl

/-- A quote at the start alone does not put a text in quotes, so it is doubled like the other one. -/
theorem normalizeDefault_normalForm_of_sample :
    let v := " 'tis the writer's day "
    lowered (trimmed v) ∉ specialWords ∧ Decimal.isLiteral (trimmed v).toList = false ∧
      (¬ ∃ inside, (trimmed v).toList = '\'' :: (inside ++ ['\''])) ∧
      normalizeDefault v = literal "'tis the writer's day" ∧
      Sql.read? '\x60' (normalizeDefault v).toList = some [.literal "'tis the writer's day"] ∧
      ∃ inside, (normalizeDefault v).toList = '\'' :: (inside ++ ['\'']) ∧
        undouble '\'' inside = "'tis the writer's day".toList := by
  intro v
  have htrimmed : trimmed v = "'tis the writer's day" := by decide
  have hword : lowered (trimmed v) ∉ specialWords := by
    rw [htrimmed]
    decide
  have hnumber : Decimal.isLiteral (trimmed v).toList = false := by
    rw [htrimmed]
    decide
  have hquotes : ¬ ∃ inside, (trimmed v).toList = '\'' :: (inside ++ ['\'']) := by
    rintro ⟨inside, h⟩
    have hlast : "'tis the writer's day".toList.getLast? = some 'y' := by decide
    rw [← htrimmed, h, ← List.cons_append, List.getLast?_concat] at hlast
    cases hlast
  have hliteral : normalizeDefault v = literal "'tis the writer's day" := by
    rw [normalizeDefault_eq_literal hword hnumber hquotes, htrimmed]
  obtain ⟨-, hread, -, -, hback⟩ := normalizeDefault_normalForm v
  refine ⟨hword, hnumber, hquotes, hliteral, hread .mysql _ hliteral, ?_⟩
  rw [← htrimmed]
  exact hback hword hnumber hquotes

end SchemaKeeper
