/-
Phrases of statements.

A phrase is a text that is written by tokens which no comma parts (`Phrase`).  Names,
comments and literals are phrases whatever stands in them, because their quotes are
doubled; types, constraints and actions are phrases because they have no quotes at all.

* `phrase_quoteAll`: names in parentheses are a phrase,
* `isPhrase_columnTypeText` and `isPhrase_defaultPart`: so are the type of a column and,
  if a tag gives it, its default,
* `phrase_definition`: the definition of a column is a phrase that starts with the name of
  the column.
-/
import SchemaKeeper.Dialect.Definition
import SchemaKeeper.Proofs.Column.Type
import SchemaKeeper.Proofs.Model.Literals
import SchemaKeeper.Proofs.Sql.Body

namespace SchemaKeeper

open Text Sql

namespace Dialect

/-! ### Phrases -/

/-- A character that is no quote of any dialect, no parenthesis and no comma. -/
def isOrdinary (c : Char) : Bool :=
  c != '\'' && c != '"' && c != '\x60' && c != '(' && c != ')' && c != ','

theorem quoteChar_ne (d : Dialect) : d.quoteChar ≠ '\'' := by
  cases d <;> decide

theorem ne_quoteChar_of_isOrdinary (d : Dialect) {c : Char} (h : isOrdinary c = true) :
    c ≠ d.quoteChar ∧ c ≠ '\'' := by
  simp only [isOrdinary, Bool.and_eq_true, bne_iff_ne] at h
  cases d <;> simp [quoteChar, h]

theorem isOrdinary_of_isNumeral {c : Char} (h : Number.Decimal.isNumeral c = true) :
    isOrdinary c = true := by
  simp only [Number.Decimal.isNumeral, Bool.or_eq_true, beq_iff_eq] at h
  rcases h with ((((h | rfl) | rfl) | rfl) | rfl) | rfl
  · have hne : ∀ q : Char, q.isDigit = false → c ≠ q := fun _ => Number.ne_of_isDigit h
    simp [isOrdinary, hne '\'' rfl, hne '"' rfl, hne '\x60' rfl, hne '(' rfl, hne ')' rfl,
      hne ',' rfl]
  · rfl
  · rfl
  · rfl
  · rfl
  · rfl

/-- The text is written by tokens that make up one piece. -/
structure Phrase (d : Dialect) (s : List Char) (ts : List Token) : Prop where
  spells : Spells d.quoteChar s ts
  isPiece : IsPiece ts

variable {d : Dialect} {s s' : List Char} {ts ts' : List Token}

theorem Phrase.append (h : Phrase d s ts) (h' : Phrase d s' ts') :
    Phrase d (s ++ s') (ts ++ ts') :=
  ⟨h.spells.append h'.spells, h.isPiece.append h'.isPiece⟩

theorem spells_ordinary (d : Dialect) (h : s.all isOrdinary = true) :
    Spells d.quoteChar s (plainText s) :=
  spells_plainText fun c hc => ne_quoteChar_of_isOrdinary d (List.all_eq_true.mp h c hc)

theorem not_isParenthesis_of_isOrdinary {c : Char} (h : isOrdinary c = true) :
    (Token.plain c).isParenthesis = false := by
  simp only [isOrdinary, Bool.and_eq_true, bne_iff_ne] at h
  simp [Token.isParenthesis, h]

theorem isPiece_ordinary (h : s.all isOrdinary = true) : IsPiece (plainText s) := by
  refine isPiece_of_flat fun t ht => ?_
  obtain ⟨c, hc, rfl⟩ := mem_plainText.mp ht
  have hc := List.all_eq_true.mp h c hc
  refine ⟨not_isParenthesis_of_isOrdinary hc, ?_⟩
  rintro ⟨⟩
  cases hc

theorem phrase_ordinary (d : Dialect) (h : s.all isOrdinary = true) : Phrase d s (plainText s) :=
  ⟨spells_ordinary d h, isPiece_ordinary h⟩

/-- A text between quotes after a word. -/
theorem phrase_quoted (d : Dialect) (h : s.all isOrdinary = true) (hne : s ≠ []) {t : Token}
    (ht : t.isQuoted = true) : Phrase d (s ++ t.chars d.quoteChar) (plainText s ++ [t]) := by
  refine ⟨(spells_ordinary d h).concat hne t ht, (isPiece_ordinary h).append ?_⟩
  refine isPiece_of_flat fun u hu => ?_
  rw [List.mem_singleton.mp hu]
  cases t with
  | plain => cases ht
  | _ => simp [Token.isParenthesis]

/-- Whatever stands in a pair of parentheses, there is one piece. -/
theorem phrase_parentheses (h : Spells d.quoteChar ('(' :: s) (.plain '(' :: ts))
    (hflat : ∀ t ∈ ts, t.isParenthesis = false) :
    Phrase d ('(' :: s ++ [')']) (.plain '(' :: (ts ++ [.plain ')'])) := by
  have hclose : Spells d.quoteChar [')'] [.plain ')'] :=
    spells_plainText (by cases d <;> simp [quoteChar])
  exact ⟨h.append hclose, isPiece_parentheses hflat⟩

/-! ### Names in parentheses -/

/-- Names as identifiers, with commas between them. -/
def nameTokens (names : List String) : List Token :=
  List.intercalate (plainText ", ".toList) (names.map fun name => [.identifier name])

/-- Names as identifiers in parentheses. -/
def listTokens (names : List String) : List Token :=
  .plain '(' :: (nameTokens names ++ [.plain ')'])

theorem not_isParenthesis_of_mem_nameTokens {names : List String} {t : Token}
    (h : t ∈ nameTokens names) : t.isParenthesis = false := by
  unfold nameTokens at h
  induction names with
  | nil => cases h
  | cons name r ih =>
    cases r with
    | nil =>
      obtain rfl : t = .identifier name := by simpa using h
      rfl
    | cons next r =>
      simp only [List.map_cons, List.intercalate_cons_cons, List.mem_append,
        List.mem_singleton] at h
      rcases h with (rfl | h) | h
      · rfl
      · obtain ⟨c, hc, rfl⟩ := mem_plainText.mp h
        have hsep : c = ',' ∨ c = ' ' := by simpa using hc
        rcases hsep with rfl | rfl <;> rfl
      · exact ih h

theorem toList_quoteAll (d : Dialect) (names : List String) :
    (d.quoteAll names).toList = List.intercalate ", ".toList
      (names.map fun name => (Token.identifier name).chars d.quoteChar) := by
  rw [quoteAll, String.toList_intercalate, List.map_map]
  congr 2
  funext name
  exact toList_quoted _ _

/-- Names may follow characters outside quotes. -/
theorem spells_quoteAll {lead : List Char} (h : Spells d.quoteChar lead (plainText lead))
    (hne : lead ≠ []) (names : List String) :
    Spells d.quoteChar (lead ++ (d.quoteAll names).toList) (plainText lead ++ nameTokens names) := by
  rw [toList_quoteAll, nameTokens]
  induction names generalizing lead with
  | nil => simpa using h
  | cons name r ih =>
    have hfirst := h.concat hne (.identifier name) rfl
    cases r with
    | nil => simpa using hfirst
    | cons next r =>
      have hsep : Spells d.quoteChar ", ".toList (plainText ", ".toList) :=
        spells_plainText (by cases d <;> simp [quoteChar])
      have hrest := ih hsep (by simp)
      simp only [List.map_cons, List.intercalate_cons_cons] at hrest ⊢
      have hboth := hfirst.append hrest
      simpa only [List.append_assoc] using hboth

theorem phrase_quoteAll (d : Dialect) (names : List String) :
    Phrase d ('(' :: (d.quoteAll names).toList ++ [')']) (listTokens names) := by
  have hopen : Spells d.quoteChar ['('] (plainText ['(']) :=
    spells_plainText (by cases d <;> simp [quoteChar])
  exact phrase_parentheses (spells_quoteAll hopen (by simp) names) fun t ht =>
    not_isParenthesis_of_mem_nameTokens ht

/-! ### Parts of definitions -/

/-- The text is a phrase, whatever its tokens are. -/
def IsPhrase (d : Dialect) (s : String) : Prop :=
  ∃ ts, Phrase d s.toList ts

theorem IsPhrase.append {s s' : String} (h : d.IsPhrase s) (h' : d.IsPhrase s') :
    d.IsPhrase (s ++ s') := by
  obtain ⟨ts, h⟩ := h
  obtain ⟨ts', h'⟩ := h'
  exact ⟨ts ++ ts', by simpa using h.append h'⟩

theorem isPhrase_word (d : Dialect) {s : String} (h : s.toList.all isOrdinary = true) :
    d.IsPhrase s :=
  ⟨_, phrase_ordinary d h⟩

theorem isPhrase_textIf (b : Bool) {s : String} (h : d.IsPhrase s) : d.IsPhrase (textIf b s) := by
  cases b with
  | true => exact h
  | false => exact isPhrase_word d rfl

/-- A character that may stand among sizes in parentheses. -/
def isOfSizes (c : Char) : Bool :=
  isOrdinary c || c == ','

theorem isOfSizes_cases {c : Char} (h : isOfSizes c = true) : isOrdinary c = true ∨ c = ',' := by
  simpa [isOfSizes] using h

/-- A word with sizes in parentheses. -/
theorem isPhrase_sized (d : Dialect) (name sizes : String) (hname : name.toList.all isOrdinary = true)
    (hsizes : sizes.toList.all isOfSizes = true) : d.IsPhrase (name ++ "(" ++ sizes ++ ")") := by
  have hplain : ∀ c ∈ '(' :: sizes.toList, c ≠ d.quoteChar ∧ c ≠ '\'' := by
    intro c hc
    rcases List.mem_cons.mp hc with rfl | hc
    · cases d <;> simp [quoteChar]
    · rcases isOfSizes_cases (List.all_eq_true.mp hsizes c hc) with h | rfl
      · exact ne_quoteChar_of_isOrdinary d h
      · cases d <;> simp [quoteChar]
  have hflat : ∀ t ∈ plainText sizes.toList, t.isParenthesis = false := by
    intro t ht
    obtain ⟨c, hc, rfl⟩ := mem_plainText.mp ht
    rcases isOfSizes_cases (List.all_eq_true.mp hsizes c hc) with h | rfl
    · exact not_isParenthesis_of_isOrdinary h
    · rfl
  have hboth := (phrase_ordinary d hname).append (phrase_parentheses (spells_plainText hplain) hflat)
  exact ⟨_, by simpa using hboth⟩

theorem all_isOfSizes_uint32Digits (n : UInt32) :
    (Number.uint32Digits n).toList.all isOfSizes = true := by
  rw [Number.uint32Digits, String.toList_ofList, List.all_eq_true]
  intro c hc
  have hdigit := Number.isDigit_of_mem_digits hc
  have hordinary := isOrdinary_of_isNumeral (Number.Decimal.isNumeral_of_isDigit hdigit)
  rw [isOfSizes, hordinary, Bool.true_or]

/-- A type with a length. -/
theorem isPhrase_length (d : Dialect) (name : String) (hname : name.toList.all isOrdinary = true)
    (n : UInt32) : d.IsPhrase (name ++ "(" ++ Number.uint32Digits n ++ ")") :=
  isPhrase_sized d name _ hname (all_isOfSizes_uint32Digits n)

/-- A type with a precision and a scale. -/
theorem isPhrase_precision (d : Dialect) (name sep : String)
    (hname : name.toList.all isOrdinary = true) (hsep : sep.toList.all isOfSizes = true)
    (p s : UInt32) :
    d.IsPhrase (name ++ "(" ++ Number.uint32Digits p ++ sep ++ Number.uint32Digits s ++ ")") := by
  have hsizes : (Number.uint32Digits p ++ sep ++ Number.uint32Digits s).toList.all isOfSizes =
      true := by
    simp only [String.toList_append, List.all_append, all_isOfSizes_uint32Digits, hsep,
      Bool.and_self]
  have hsized := isPhrase_sized d name _ hname hsizes
  simpa only [String.append_assoc] using hsized

theorem isPhrase_toText (d : Dialect) (t : ColumnType) : d.IsPhrase t.toText := by
  cases t with
  | decimal p s => exact isPhrase_precision d "DECIMAL" "," rfl rfl p s
  | varchar n => exact isPhrase_length d "VARCHAR" rfl n
  | char n => exact isPhrase_length d "CHAR" rfl n
  | _ => exact isPhrase_word d rfl

theorem isPhrase_typeText (d : Dialect) (t : ColumnType) : d.IsPhrase (d.typeText t) := by
  cases d with
  | sqlite =>
    simp only [typeText, sqliteTypeText]
    split <;> exact isPhrase_word _ rfl
  | postgres =>
    cases t with
    | decimal p s => exact isPhrase_precision _ "DECIMAL" ", " rfl rfl p s
    | varchar n => exact isPhrase_length _ "VARCHAR" rfl n
    | char n => exact isPhrase_length _ "CHAR" rfl n
    | _ => exact isPhrase_word _ rfl
  | mysql =>
    by_cases hboolean : t = .boolean
    · subst hboolean
      exact isPhrase_sized _ "TINYINT" "1" rfl rfl
    · rw [show mysql.typeText t = t.toText by cases t <;> first | rfl | exact absurd rfl hboolean]
      exact isPhrase_toText _ t

theorem isPhrase_columnTypeText (d : Dialect) (c : ModelColumn) :
    d.IsPhrase (d.columnTypeText c) := by
  have htype := isPhrase_typeText d c.type
  cases d with
  | postgres =>
    rw [columnTypeText]
    split
    · cases hserial : serialType? c.type with
      | none => exact htype
      | some serial =>
        rw [Option.getD_some]
        unfold serialType? at hserial
        split at hserial <;> cases hserial <;> exact isPhrase_word _ rfl
    · exact htype
  | _ => exact htype

/-- A literal after a word. -/
theorem isPhrase_literal (d : Dialect) {s : String} (h : s.toList.all isOrdinary = true)
    (hne : s ≠ "") (text : String) : d.IsPhrase (s ++ literal text) := by
  have hquoted := phrase_quoted d (t := .literal text) h (by simpa using hne) rfl
  exact ⟨_, by simpa [literal, Token.chars] using hquoted⟩

/-- A default that a tag gives. -/
theorem isPhrase_default (d : Dialect) (type : ColumnType) (value : String) :
    d.IsPhrase (" DEFAULT " ++ d.writeDefault type (normalizeDefault value)) := by
  have hword : d.IsPhrase " DEFAULT " := isPhrase_word d rfl
  have hplain : d.IsPhrase (" DEFAULT " ++ normalizeDefault value) := by
    rcases defaultLiteral_cases (trim value.toList) with h | h | h | ⟨inside, h⟩
    · rw [normalizeDefault, h]
      exact isPhrase_word d rfl
    · rw [normalizeDefault, h]
      exact isPhrase_word d rfl
    · refine hword.append (isPhrase_word d ?_)
      rw [normalizeDefault, String.toList_ofList, List.all_eq_true]
      exact fun c hc => isOrdinary_of_isNumeral (Number.Decimal.isNumeral_of_isLiteral h hc)
    · have hliteral := isPhrase_literal (s := " DEFAULT ") d rfl (by decide) (String.ofList inside)
      rwa [literal, quoted, String.toList_ofList, ← h] at hliteral
  unfold writeDefault
  split
  · exact isPhrase_word _ rfl
  · exact isPhrase_word _ rfl
  · exact hplain

/-- The default of the column is one that a tag gives. -/
def Tagged (c : ModelColumn) : Prop :=
  ∀ literal, c.default? = some literal → ∃ value, literal = normalizeDefault value

theorem isPhrase_defaultPart {c : ModelColumn} (h : Tagged c) : d.IsPhrase (d.defaultPart c) := by
  unfold defaultPart
  split
  · next literal hliteral =>
    obtain ⟨value, rfl⟩ := h literal hliteral
    exact isPhrase_default d c.type value
  · exact isPhrase_word d rfl

theorem isPhrase_autoIncrementWord (d d' : Dialect) : d.IsPhrase d'.autoIncrementWord := by
  cases d' <;> exact isPhrase_word d rfl

theorem isPhrase_constraintPart (d : Dialect) (c : ModelColumn) :
    d.IsPhrase (d.constraintPart c) := by
  have hword : ∀ s : String, s.toList.all isOrdinary = true → d.IsPhrase s :=
    fun s h => isPhrase_word d h
  unfold constraintPart
  split
  · exact (hword " PRIMARY KEY" rfl).append (isPhrase_textIf _ (isPhrase_autoIncrementWord d d))
  · exact (isPhrase_textIf _ (hword " NOT NULL" rfl)).append
      (isPhrase_textIf _ (hword " UNIQUE" rfl))

theorem isPhrase_mysqlKeyPart (d : Dialect) (c : ModelColumn) : d.IsPhrase (mysqlKeyPart c) :=
  (isPhrase_textIf _ (isPhrase_word d rfl)).append (isPhrase_textIf _ (isPhrase_word d rfl))

theorem isPhrase_mysqlCommentPart (d : Dialect) (c : ModelColumn) :
    d.IsPhrase (mysqlCommentPart c) := by
  unfold mysqlCommentPart
  split
  · exact isPhrase_literal d rfl (by decide) _
  · exact isPhrase_word d rfl

/-! ### Definitions -/

/-- What follows the name of a column in its definition. -/
theorem exists_definition_eq {c : ModelColumn} (h : Tagged c) :
    ∃ rest, d.definition c = d.quote c.name ++ rest ∧ d.IsPhrase rest := by
  have htype := (isPhrase_word (s := " ") d rfl).append (isPhrase_columnTypeText d c)
  have hdefault := isPhrase_defaultPart (d := d) h
  have hplain : ∃ rest, d.head c ++ d.constraintPart c ++ d.defaultPart c =
      d.quote c.name ++ rest ∧ d.IsPhrase rest :=
    ⟨_, by simp only [head, String.append_assoc],
      htype.append ((isPhrase_constraintPart d c).append hdefault)⟩
  cases d with
  | mysql =>
    refine ⟨" " ++ mysql.columnTypeText c ++ (textIf c.notNull " NOT NULL" ++ (mysql.defaultPart c ++
      (textIf c.autoIncrement mysql.autoIncrementWord ++ (mysqlKeyPart c ++ mysqlCommentPart c)))),
      ?_, ?_⟩
    · simp [definition, mysqlDefinition, head, textIf, String.append_assoc]
    · have hnull := isPhrase_textIf c.notNull (isPhrase_word (s := " NOT NULL") mysql rfl)
      have hcounts := isPhrase_textIf c.autoIncrement (isPhrase_autoIncrementWord mysql mysql)
      exact htype.append (hnull.append (hdefault.append (hcounts.append
        ((isPhrase_mysqlKeyPart mysql c).append (isPhrase_mysqlCommentPart mysql c)))))
  | _ => exact hplain

/-- The definition of a column on a line of its own. -/
theorem phrase_definition {lead : String} (hlead : lead.toList.all isOrdinary = true)
    (hne : lead ≠ "") {c : ModelColumn} (h : Tagged c) :
    ∃ rest, Phrase d (lead ++ d.definition c).toList
      (plainText lead.toList ++ .identifier c.name :: rest) := by
  obtain ⟨rest, hdefinition, ts, hrest⟩ := exists_definition_eq (d := d) h
  have hname := phrase_quoted d (t := .identifier c.name) hlead (by simpa using hne) rfl
  have hboth := hname.append hrest
  refine ⟨ts, ?_⟩
  rw [hdefinition]
  simpa [quote, Token.chars] using hboth

end Dialect

end SchemaKeeper
