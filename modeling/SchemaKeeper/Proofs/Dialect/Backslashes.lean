/-
Backslashes in literals of MySQL.

Literals are written with their quotes doubled, as SQL has it.  MySQL also reads a
backslash together with the character after it, and no literal is written with regard
to that: a backslash may hide a quote, and then the literal does not end where it was
meant to.

* `shuts` tells of a text whether each backslash, read from left to right, escapes a
  character other than a quote, and `Keeps` whether it stands before a wildcard, where
  MySQL keeps it,
* `closeEscaped?_iff`: the literal of a text ends at its own last quote exactly if the
  text shuts, and is read back as the text exactly if the text keeps its backslashes,
* `mysqlLiteral?_definition`: so it is with the comment and the default in the definition
  of a column,
* `mysqlLiteral?_definition_hidden`: a comment that does not shut leaves a part of itself
  to be read as SQL, or takes the rest of the statement with it.
-/
import Mathlib.Data.List.Chain
import SchemaKeeper.Dialect.Definition
import SchemaKeeper.Model.Default

namespace SchemaKeeper

open Text

namespace Sql

/-! ### Reading -/

/-- A wildcard of LIKE. -/
def isWildcard (c : Char) : Bool :=
  c == '%' || c == '_'

/-- What a backslash and the character after it stand for.  The backslash stays before a
wildcard. -/
def escaped (c : Char) : List Char :=
  match c with
  | '0' => ['\x00']
  | 'b' => ['\x08']
  | 'n' => ['\n']
  | 'r' => ['\r']
  | 't' => ['\t']
  | 'Z' => ['\x1a']
  | '%' => ['\\', '%']
  | '_' => ['\\', '_']
  | c => [c]

/-- The text before the quote that closes a literal of MySQL, and what follows that quote. -/
def closeEscaped? : List Char → Option (List Char × List Char)
  | [] => none
  | [c] => if c = '\'' then some ([], []) else none
  | c :: d :: r =>
    if c = '\\' then (closeEscaped? r).map fun p => (escaped d ++ p.1, p.2)
    else if c = '\'' then
      if d = '\'' then (closeEscaped? r).map fun p => ('\'' :: p.1, p.2) else some ([], d :: r)
    else (closeEscaped? (d :: r)).map fun p => (c :: p.1, p.2)

/-- The text of the literal of MySQL with which a text starts, and what follows the literal. -/
def mysqlLiteral? : List Char → Option (List Char × List Char)
  | [] => none
  | c :: r => if c = '\'' then closeEscaped? r else none

/-- Whether every backslash, read from left to right with the character that it escapes, has such a
character, and the character is no quote. -/
def shuts : List Char → Bool
  | [] => true
  | [c] => c != '\\'
  | c :: d :: r => if c = '\\' then d != '\'' && shuts r else shuts (d :: r)

/-- What the literal of a text is read as, if it ends at its own last quote. -/
def unescaped : List Char → List Char
  | [] => []
  | [c] => if c = '\\' then [] else [c]
  | c :: d :: r => if c = '\\' then escaped d ++ unescaped r else c :: unescaped (d :: r)

/-- Every backslash stands before a wildcard. -/
structure Keeps (s : List Char) : Prop where
  before : s.IsChain fun c d => c = '\\' → isWildcard d = true
  last : s.getLast? ≠ some '\\'

section

variable {s rest text : List Char} {c d : Char}

/-! ### Where literals end -/

/-- What is put before a text does not change what follows it. -/
theorem exists_of_map_fst {o : Option (List Char × List Char)} {f : List Char → List Char}
    (h : (o.map fun p => (f p.1, p.2)) = some (text, rest)) : ∃ text', o = some (text', rest) := by
  obtain ⟨⟨text', rest'⟩, ho, heq⟩ := Option.map_eq_some_iff.mp h
  cases heq
  exact ⟨text', ho⟩

theorem length_of_closeEscaped? (h : closeEscaped? s = some (text, rest)) :
    rest.length < s.length := by
  fun_induction closeEscaped? s generalizing text with
  | case1 => cases h
  | case2 =>
    cases h
    simp
  | case3 => cases h
  | case4 d r ih =>
    obtain ⟨text', hr⟩ := exists_of_map_fst h
    have := ih hr
    simp only [List.length_cons]
    omega
  | case5 r _ ih =>
    obtain ⟨text', hr⟩ := exists_of_map_fst h
    have := ih hr
    simp only [List.length_cons]
    omega
  | case6 =>
    cases h
    simp
  | case7 c d r _ _ ih =>
    obtain ⟨text', hr⟩ := exists_of_map_fst h
    have := ih hr
    simp only [List.length_cons] at *
    omega

theorem closeEscaped?_backslash (d : Char) (r : List Char) :
    closeEscaped? ('\\' :: d :: r) = (closeEscaped? r).map fun p => (escaped d ++ p.1, p.2) := by
  simp [closeEscaped?]

theorem closeEscaped?_pair (r : List Char) :
    closeEscaped? ('\'' :: '\'' :: r) = (closeEscaped? r).map fun p => ('\'' :: p.1, p.2) := by
  simp [closeEscaped?]

theorem closeEscaped?_quote (h : s.head? ≠ some '\'') : closeEscaped? ('\'' :: s) = some ([], s) := by
  cases s with
  | nil => rfl
  | cons d r =>
    have hd : d ≠ '\'' := by simpa using h
    simp [closeEscaped?, hd]

theorem closeEscaped?_plain (hc : c ≠ '\\' ∧ c ≠ '\'') (s : List Char) :
    closeEscaped? (c :: s) = (closeEscaped? s).map fun p => (c :: p.1, p.2) := by
  cases s with
  | nil => simp [closeEscaped?, hc]
  | cons d r => simp [closeEscaped?, hc]

/-- A text that shuts ends at its own last quote. -/
theorem closeEscaped?_of_shuts (h : shuts s = true) (hrest : rest.head? ≠ some '\'') :
    closeEscaped? (encode '\'' s ++ '\'' :: rest) = some (unescaped s, rest) := by
  fun_induction shuts s with
  | case1 => exact closeEscaped?_quote hrest
  | case2 c =>
    have hc : c ≠ '\\' := by simpa using h
    by_cases hquote : c = '\''
    · subst hquote
      simp [encode, unescaped, closeEscaped?_pair, closeEscaped?_quote hrest]
    · simp [encode, unescaped, hc, hquote, closeEscaped?_plain, closeEscaped?_quote hrest]
  | case3 d r ih =>
    obtain ⟨hd, hr⟩ : d ≠ '\'' ∧ shuts r = true := by simpa using h
    simp [encode, unescaped, hd, closeEscaped?_backslash, ih hr]
  | case4 c d r hc ih =>
    have ih := ih h
    by_cases hquote : c = '\''
    · subst hquote
      rw [encode, if_pos rfl, unescaped, if_neg hc, List.cons_append, List.cons_append,
        closeEscaped?_pair, ih]
      rfl
    · rw [encode, if_neg hquote, unescaped, if_neg hc, List.cons_append,
        closeEscaped?_plain ⟨hc, hquote⟩, ih]
      rfl

/-- After a quote that has been left over, a literal does not end at its own last quote. -/
theorem closeEscaped?_leftOver (s : List Char) :
    closeEscaped? ('\'' :: (encode '\'' s ++ '\'' :: rest)) ≠ some (text, rest) := by
  intro h
  induction s generalizing text with
  | nil =>
    rw [encode, List.nil_append, closeEscaped?_pair] at h
    obtain ⟨text', hr⟩ := exists_of_map_fst h
    exact absurd (length_of_closeEscaped? hr) (Nat.lt_irrefl _)
  | cons c r ih =>
    by_cases hquote : c = '\''
    · rw [encode, if_pos hquote, List.cons_append, List.cons_append, closeEscaped?_pair] at h
      obtain ⟨text', hr⟩ := exists_of_map_fst h
      exact ih hr
    · rw [encode, if_neg hquote, List.cons_append, closeEscaped?_quote (by simpa using hquote)] at h
      have hlength := congrArg (fun p => p.2.length) (Option.some.inj h)
      simp only [List.length_cons, List.length_append] at hlength
      omega

/-- A text that does not shut never ends at its own last quote. -/
theorem shuts_of_closeEscaped? (h : closeEscaped? (encode '\'' s ++ '\'' :: rest) = some (text, rest)) :
    shuts s = true := by
  fun_induction shuts s generalizing text with
  | case1 => rfl
  | case2 c =>
    have hc : c ≠ '\\' := by
      rintro rfl
      -- the quote at the end is hidden, so that the literal ends within the rest at best
      obtain ⟨text', hr⟩ := exists_of_map_fst ((closeEscaped?_backslash '\'' rest).symm.trans h)
      exact absurd (length_of_closeEscaped? hr) (Nat.lt_irrefl _)
    simpa using hc
  | case3 d r ih =>
    by_cases hquote : d = '\''
    · subst hquote
      obtain ⟨text', hr⟩ := exists_of_map_fst ((closeEscaped?_backslash _ _).symm.trans h)
      exact absurd hr (closeEscaped?_leftOver r)
    · rw [encode, if_neg (by decide), encode, if_neg hquote, List.cons_append, List.cons_append,
        closeEscaped?_backslash] at h
      obtain ⟨text', hr⟩ := exists_of_map_fst h
      simpa [hquote] using ih hr
  | case4 c d r hc ih =>
    by_cases hquote : c = '\''
    · rw [encode, if_pos hquote, List.cons_append, List.cons_append, closeEscaped?_pair] at h
      obtain ⟨text', hr⟩ := exists_of_map_fst h
      exact ih hr
    · rw [encode, if_neg hquote, List.cons_append, closeEscaped?_plain ⟨hc, hquote⟩] at h
      obtain ⟨text', hr⟩ := exists_of_map_fst h
      exact ih hr

/-! ### What literals are read as -/

theorem escaped_of_isWildcard (h : isWildcard c = true) : escaped c = ['\\', c] := by
  have hc : c = '%' ∨ c = '_' := by simpa [isWildcard] using h
  rcases hc with rfl | rfl <;> rfl

theorem length_escaped (h : isWildcard c = false) : (escaped c).length = 1 := by
  unfold escaped
  split <;> first | rfl | cases h

theorem length_escaped_le (c : Char) : (escaped c).length ≤ 2 := by
  unfold escaped
  split <;> simp

theorem length_unescaped_le (s : List Char) : (unescaped s).length ≤ s.length := by
  fun_induction unescaped s with
  | case1 => simp
  | case2 => simp
  | case3 => simp
  | case4 d r ih =>
    have := length_escaped_le d
    simp only [List.length_append, List.length_cons]
    omega
  | case5 c d r _ ih =>
    simp only [List.length_cons] at *
    omega

theorem keeps_nil : Keeps [] :=
  ⟨.nil, by simp⟩

theorem keeps_singleton : Keeps [c] ↔ c ≠ '\\' := by
  constructor
  · intro h hc
    exact h.last (by simp [hc])
  · exact fun h => ⟨.singleton c, by simpa using h⟩

theorem keeps_cons_cons {r : List Char} :
    Keeps (c :: d :: r) ↔ (c = '\\' → isWildcard d = true) ∧ Keeps (d :: r) := by
  constructor
  · intro h
    have hchain := List.isChain_cons_cons.mp h.before
    exact ⟨hchain.1, hchain.2, by simpa using h.last⟩
  · rintro ⟨hc, h⟩
    exact ⟨List.isChain_cons_cons.mpr ⟨hc, h.before⟩, by simpa using h.last⟩

theorem keeps_cons_of_ne (hc : c ≠ '\\') : Keeps (c :: s) ↔ Keeps s := by
  cases s with
  | nil => exact iff_of_true (keeps_singleton.mpr hc) keeps_nil
  | cons d r => simp [keeps_cons_cons, hc]

/-- A text is read back exactly if it keeps its backslashes. -/
theorem unescaped_eq_self_iff : unescaped s = s ↔ Keeps s := by
  fun_induction unescaped s with
  | case1 => exact iff_of_true rfl keeps_nil
  | case2 => simp [keeps_singleton]
  | case3 c hc => simp [keeps_singleton, hc]
  | case4 d r ih =>
    rw [keeps_cons_cons]
    by_cases hd : isWildcard d = true
    · have hne : d ≠ '\\' := by
        rintro rfl
        cases hd
      rw [escaped_of_isWildcard hd, keeps_cons_of_ne hne, ← ih]
      simp [hd]
    · rw [Bool.not_eq_true] at hd
      refine iff_of_false (fun h => ?_) fun h => ?_
      · have hlength := congrArg List.length h
        have hone := length_escaped hd
        have hle := length_unescaped_le r
        simp only [List.length_append, List.length_cons] at hlength
        omega
      · rw [h.1 rfl] at hd
        cases hd
  | case5 c d r hc ih => simp [keeps_cons_cons, hc, ih]

theorem Keeps.shuts (h : Keeps s) : shuts s = true := by
  fun_induction Sql.shuts s with
  | case1 => rfl
  | case2 c => simpa using keeps_singleton.mp h
  | case3 d r ih =>
    obtain ⟨hd, h⟩ := keeps_cons_cons.mp h
    have hwildcard := hd rfl
    have hquote : d ≠ '\'' := by
      rintro rfl
      cases hwildcard
    have hne : d ≠ '\\' := by
      rintro rfl
      cases hwildcard
    simpa [hquote] using ih ((keeps_cons_of_ne hne).mp h)
  | case4 c d r _ ih => exact ih (keeps_cons_cons.mp h).2

/-- Where the literal of a text ends, and when it is read back as the text. -/
theorem closeEscaped?_iff (s : List Char) (hrest : rest.head? ≠ some '\'') :
    ((∃ text, closeEscaped? (encode '\'' s ++ '\'' :: rest) = some (text, rest)) ↔
      shuts s = true) ∧
    (closeEscaped? (encode '\'' s ++ '\'' :: rest) = some (s, rest) ↔ Keeps s) := by
  have hends : shuts s = true →
      closeEscaped? (encode '\'' s ++ '\'' :: rest) = some (unescaped s, rest) :=
    fun h => closeEscaped?_of_shuts h hrest
  refine ⟨⟨fun ⟨text, h⟩ => shuts_of_closeEscaped? h, fun h => ⟨_, hends h⟩⟩, ?_⟩
  rw [← unescaped_eq_self_iff]
  constructor
  · intro h
    have hread := hends (shuts_of_closeEscaped? h)
    rw [h] at hread
    exact (congrArg Prod.fst (Option.some.inj hread)).symm
  · intro h
    rw [hends (unescaped_eq_self_iff.mp h).shuts, h]

end

end Sql

namespace Dialect

open Sql

/-! ### Definitions of columns -/

/-- Where a literal ends in a statement, and when it is read back. -/
theorem mysqlLiteral?_iff (text : String) {rest : List Char} (hrest : rest.head? ≠ some '\'') :
    ((∃ read, mysqlLiteral? ((literal text).toList ++ rest) = some (read, rest)) ↔
      shuts text.toList = true) ∧
    (mysqlLiteral? ((literal text).toList ++ rest) = some (text.toList, rest) ↔
      Keeps text.toList) := by
  have hopen : mysqlLiteral? ((literal text).toList ++ rest) =
      closeEscaped? (encode '\'' text.toList ++ '\'' :: rest) := by
    simp [literal, enclose, mysqlLiteral?]
  rw [hopen]
  exact closeEscaped?_iff text.toList hrest

/-- What follows the default in a definition. -/
def mysqlAfterDefault (c : ModelColumn) (withKeys : Bool) : String :=
  textIf c.autoIncrement mysql.autoIncrementWord ++ textIf withKeys (mysqlKeyPart c) ++
    mysqlCommentPart c

theorem head?_mysqlAfterDefault (c : ModelColumn) (withKeys : Bool) :
    (mysqlAfterDefault c withKeys).toList.head? ≠ some '\'' := by
  have hcomment : (mysqlCommentPart c).toList.head? ≠ some '\'' := by
    unfold mysqlCommentPart
    split <;> simp
  simp only [mysqlAfterDefault, mysqlKeyPart, textIf, autoIncrementWord]
  split_ifs <;> simp [hcomment]

/-- **A comment or a default of MySQL ends at its own last quote exactly if it shuts**, and a comment
is read back exactly if each backslash in it stands before a wildcard, whatever follows in the
statement. -/
theorem mysqlLiteral?_definition (c : ModelColumn) (withKeys : Bool) :
    (∀ comment, c.comment? = some comment →
      (∃ before, mysqlDefinition c withKeys = before ++ " COMMENT " ++ literal comment) ∧
      ∀ rest : List Char, rest.head? ≠ some '\'' →
        ((∃ read, mysqlLiteral? ((literal comment).toList ++ rest) = some (read, rest)) ↔
          shuts comment.toList = true) ∧
        (mysqlLiteral? ((literal comment).toList ++ rest) = some (comment.toList, rest) ↔
          Keeps comment.toList)) ∧
    ∀ value text, c.default? = some (normalizeDefault value) → normalizeDefault value = literal text →
      (∃ before after, mysqlDefinition c withKeys = before ++ " DEFAULT " ++ literal text ++ after ∧
        after.toList.head? ≠ some '\'') ∧
      ∀ rest : List Char, rest.head? ≠ some '\'' →
        ((∃ read, mysqlLiteral? ((literal text).toList ++ rest) = some (read, rest)) ↔
          shuts text.toList = true) := by
  constructor
  · intro comment hcomment
    have hpart : mysqlCommentPart c = " COMMENT " ++ literal comment := by
      rw [mysqlCommentPart, hcomment]
    have hdefinition : ∃ before, mysqlDefinition c withKeys = before ++ mysqlCommentPart c :=
      ⟨_, rfl⟩
    rw [hpart] at hdefinition
    exact ⟨by simpa only [String.append_assoc] using hdefinition,
      fun rest hrest => mysqlLiteral?_iff comment hrest⟩
  · intro value text hdefault htext
    refine ⟨⟨mysql.head c ++ textIf c.notNull " NOT NULL", mysqlAfterDefault c withKeys, ?_,
      head?_mysqlAfterDefault c withKeys⟩, fun rest hrest => (mysqlLiteral?_iff text hrest).1⟩
    have hwrite : mysql.writeDefault c.type (literal text) = literal text := rfl
    rw [mysqlDefinition, defaultPart, hdefault, htext]
    simp only [hwrite, mysqlAfterDefault, String.append_assoc]

/-- Quotes are no harm, and neither is a backslash before a wildcard. -/
theorem mysqlLiteral?_definition_of_sample :
    let comment := "50\\% of 'gross'"
    let c : ModelColumn :=
      { name := "tax", type := .varchar 20, default? := some (normalizeDefault "'net's'")
        comment? := some comment }
    c.comment? = some comment ∧ normalizeDefault "'net's'" = literal "net's" ∧
      mysqlLiteral? ((literal comment).toList ++ ",\n".toList) =
        some (comment.toList, ",\n".toList) ∧
      ∃ read, mysqlLiteral? ((literal "net's").toList ++ " COMMENT".toList) =
        some (read, " COMMENT".toList) := by
  intro comment c
  have hdefault : normalizeDefault "'net's'" = literal "net's" := by decide
  have hkeeps : Keeps comment.toList := ⟨by decide, by decide⟩
  obtain ⟨hcomment, hvalue⟩ := mysqlLiteral?_definition c true
  exact ⟨rfl, hdefault, (((hcomment comment rfl).2 _ (by decide)).2).mpr hkeeps,
    ((hvalue "'net's'" "net's" rfl hdefault).2 _ (by decide)).mpr (by decide)⟩

/-- A backslash at the end of a comment hides the quote that should end it, and the rest of the
statement becomes a part of the comment.  A backslash before a quote lets a comment end early, and
what follows the quote is read as SQL. -/
theorem mysqlLiteral?_definition_hidden :
    let late : ModelColumn := { name := "path", type := .text, comment? := some "C:\\" }
    let early : ModelColumn :=
      { name := "path", type := .text, comment? := some "\\', DROP COLUMN secret -- " }
    mysql.definition late = "\x60path\x60 TEXT COMMENT " ++ literal "C:\\" ∧
      mysqlLiteral? ((literal "C:\\").toList ++ ",\n    \x60size\x60 INT\n)".toList) = none ∧
      mysql.definition early =
        "\x60path\x60 TEXT COMMENT " ++ literal "\\', DROP COLUMN secret -- " ∧
      mysqlLiteral? (literal "\\', DROP COLUMN secret -- ").toList =
        some ("'".toList, ", DROP COLUMN secret -- '".toList) := by
  decide

end Dialect

end SchemaKeeper
