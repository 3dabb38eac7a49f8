/-
Statements on names.

The statements on indexes, tables, comments and backups have a few words and marks of
their own, and names and a comment in between.  Whatever these are, each is read as one
identifier or one literal, and the rest stays as it is.

* `Renders` says by which lexemes a text is read; it goes on through a text from left to
  right (`Renders.words`, `Renders.quote`, `Renders.quoteAll`, `Renders.literal`),
* `renders_createIndex` and its like give the lexemes of each statement,
* `names_in_place`: so each statement is read in one way, and two statements of one kind
  are the same text only if the names and the comment in them are the same.
-/
import SchemaKeeper.Migration.Guarded
import SchemaKeeper.Proofs.Dialect.Phrases
import SchemaKeeper.Proofs.Sql.Lexeme

namespace SchemaKeeper

open Text Sql

namespace Dialect

variable {d : Dialect} {s s' w : String} {ls ls' : List Lexeme}

/-! ### Reading from left to right -/

/-- A character that is no quote of any dialect. -/
def isUnquoted (c : Char) : Bool :=
  c != '\'' && c != '"' && c != '\x60'

/-- Whether no word goes on with the text. -/
def startsAnew (s : String) : Bool :=
  s.toList.head?.all fun c => !isOfWords c

/-- The text is written by tokens that are read as the lexemes. -/
def Renders (d : Dialect) (s : String) (ls : List Lexeme) : Prop :=
  ∃ ts, Spells d.quoteChar s.toList ts ∧ lexemes ts = ls

theorem Renders.lex?_eq (h : d.Renders s ls) : lex? d.quoteChar s.toList = some ls := by
  obtain ⟨ts, hspells, rfl⟩ := h
  rw [lex?, hspells.eq_write, read?_write (quoteChar_ne d) hspells.legible]
  rfl

/-- A text is read in one way. -/
theorem Renders.unique (h : d.Renders s ls) (h' : d.Renders s ls') : ls = ls' :=
  Option.some.inj (h.lex?_eq.symm.trans h'.lex?_eq)

/-- What starts anew is read by itself. -/
theorem Renders.append (h : d.Renders s ls) (h' : d.Renders s' ls') (hanew : startsAnew s' = true) :
    d.Renders (s ++ s') (ls ++ ls') := by
  obtain ⟨ts, hts, rfl⟩ := h
  obtain ⟨ts', hts', rfl⟩ := h'
  refine ⟨ts ++ ts', by simpa using hts.append hts', lexemes_append fun t ht => ?_⟩
  -- the first token is no text between quotes, so it is the first character of the text
  have hplain := hts'.starts t ht
  obtain ⟨r, rfl⟩ : ∃ r, ts' = t :: r := List.head?_eq_some_iff.mp ht
  cases t with
  | plain c =>
    rw [startsAnew, hts'.eq_write] at hanew
    simpa [Token.chars, Token.isOfWords] using hanew
  | _ => cases hplain

/-! ### Words, names and comments -/

/-- The words and marks of a text without quotes. -/
def wordsOf (s : String) : List Lexeme :=
  lexemes (plainText s.toList)

theorem spells_unquoted (d : Dialect) (h : w.toList.all isUnquoted = true) :
    Spells d.quoteChar w.toList (plainText w.toList) := by
  refine spells_plainText fun c hc => ?_
  have hc := List.all_eq_true.mp h c hc
  simp only [isUnquoted, Bool.and_eq_true, bne_iff_ne] at hc
  cases d <;> simp [quoteChar, hc]

theorem renders_words (d : Dialect) (h : w.toList.all isUnquoted = true) :
    d.Renders w (wordsOf w) :=
  ⟨_, spells_unquoted d h, rfl⟩

/-- Words and then a text between quotes. -/
theorem renders_quoted (h : w.toList.all isUnquoted = true) (hne : w ≠ "") {t : Token}
    (ht : t.isQuoted = true) {l : Lexeme} (hl : lexemes [t] = [l]) :
    d.Renders (w ++ String.ofList (t.chars d.quoteChar)) (wordsOf w ++ [l]) := by
  refine ⟨plainText w.toList ++ [t], ?_, ?_⟩
  · simpa using (spells_unquoted d h).concat (by simpa using hne) t ht
  · rw [lexemes_append, hl, wordsOf]
    rintro _ ⟨⟩
    cases t with
    | plain => cases ht
    | _ => rfl

theorem renders_quote (d : Dialect) (h : w.toList.all isUnquoted = true) (hne : w ≠ "")
    (name : String) : d.Renders (w ++ d.quote name) (wordsOf w ++ [.identifier name]) :=
  renders_quoted (t := .identifier name) h hne rfl rfl

theorem renders_literal (d : Dialect) (h : w.toList.all isUnquoted = true) (hne : w ≠ "")
    (text : String) : d.Renders (w ++ literal text) (wordsOf w ++ [.literal text]) :=
  renders_quoted (t := .literal text) h hne rfl rfl

theorem lexemes_nameTokens (cs : List String) : lexemes (nameTokens cs) = listed cs := by
  unfold nameTokens
  induction cs with
  | nil => rfl
  | cons name r ih =>
    cases r with
    | nil => rfl
    | cons next r =>
      rw [List.map_cons, List.map_cons, List.intercalate_cons_cons, listed_cons_cons, ← ih]
      rfl

theorem renders_quoteAll (d : Dialect) (h : w.toList.all isUnquoted = true) (hne : w ≠ "")
    (cs : List String) : d.Renders (w ++ d.quoteAll cs) (wordsOf w ++ listed cs) := by
  refine ⟨plainText w.toList ++ nameTokens cs, ?_, ?_⟩
  · simpa using spells_quoteAll (spells_unquoted d h) (by simpa using hne) cs
  · rw [lexemes_append, lexemes_nameTokens, wordsOf]
    cases cs with
    | nil => simp [nameTokens]
    | cons name r => cases r <;> rintro _ ⟨⟩ <;> rfl

theorem startsAnew_append (h : startsAnew s = true) (h' : s = "" → startsAnew s' = true) :
    startsAnew (s ++ s') = true := by
  unfold startsAnew at h h' ⊢
  rw [String.toList_append, List.head?_append]
  cases hs : s.toList with
  | nil => exact h' (String.toList_eq_nil_iff.mp hs)
  | cons c r => simpa [hs] using h

/-- A text without quotes that may stand between names: it is not empty, and no word before it goes
on with it. -/
def isLink (w : String) : Bool :=
  w != "" && w.toList.all isUnquoted && startsAnew w

theorem isLink_iff :
    isLink w = true ↔ w ≠ "" ∧ w.toList.all isUnquoted = true ∧ startsAnew w = true := by
  simp only [isLink, Bool.and_eq_true, bne_iff_ne, and_assoc]

theorem startsAnew_link (hw : isLink w = true) (s : String) : startsAnew (w ++ s) = true := by
  obtain ⟨hne, -, hanew⟩ := isLink_iff.mp hw
  exact startsAnew_append hanew fun hempty => absurd hempty hne

section Links

variable (h : d.Renders s ls) (hw : isLink w = true)
include h hw

/-- What follows a link is read after it. -/
theorem Renders.link {u : String} (hu : w.toList.all isUnquoted = true → w ≠ "" →
    d.Renders (w ++ u) (wordsOf w ++ ls')) : d.Renders (s ++ w ++ u) (ls ++ wordsOf w ++ ls') := by
  obtain ⟨hne, hplain, -⟩ := isLink_iff.mp hw
  rw [String.append_assoc, List.append_assoc]
  exact h.append (hu hplain hne) (startsAnew_link hw u)

theorem Renders.words : d.Renders (s ++ w) (ls ++ wordsOf w) := by
  obtain ⟨-, hplain, hanew⟩ := isLink_iff.mp hw
  exact h.append (renders_words d hplain) hanew

theorem Renders.quote (name : String) :
    d.Renders (s ++ w ++ d.quote name) (ls ++ wordsOf w ++ [.identifier name]) :=
  h.link hw fun hplain hne => renders_quote d hplain hne name

theorem Renders.literal (text : String) :
    d.Renders (s ++ w ++ Text.literal text) (ls ++ wordsOf w ++ [.literal text]) :=
  h.link hw fun hplain hne => renders_literal d hplain hne text

theorem Renders.quoteAll (cs : List String) :
    d.Renders (s ++ w ++ d.quoteAll cs) (ls ++ wordsOf w ++ listed cs) :=
  h.link hw fun hplain hne => renders_quoteAll d hplain hne cs

end Links

/-! ### Indexes and tables -/

/-- CREATE INDEX as it is read. -/
def createIndexLexemes (name table : String) (columns : List String) (unique : Bool) :
    List Lexeme :=
  .word "CREATE" :: (if unique then [.word "UNIQUE"] else []) ++
    [.word "INDEX", .identifier name, .word "ON", .identifier table, .mark '('] ++
    listed columns ++ [.mark ')']

/-- DROP INDEX as it is read.  MySQL alone names the table. -/
def dropIndexLexemes (d : Dialect) (name table : String) : List Lexeme :=
  [.word "DROP", .word "INDEX", .identifier name] ++
    match d with
    | mysql => [.word "ON", .identifier table]
    | sqlite | postgres => []

/-- The renaming of a table as it is read. -/
def renameTableLexemes (d : Dialect) (old new : String) : List Lexeme :=
  match d with
  | mysql => [.word "RENAME", .word "TABLE", .identifier old, .word "TO", .identifier new]
  | sqlite | postgres =>
    [.word "ALTER", .word "TABLE", .identifier old, .word "RENAME", .word "TO", .identifier new]

/-- The copying of a table as it is read. -/
def createBackupLexemes (table backup : String) : List Lexeme :=
  [.word "CREATE", .word "TABLE", .identifier backup, .word "AS", .word "SELECT", .mark '*',
    .word "FROM", .identifier table]

theorem renders_createIndex (d : Dialect) (name table : String) (columns : List String)
    (unique : Bool) : d.Renders (d.createIndex name table columns unique)
      (createIndexLexemes name table columns unique) := by
  have hstart : d.Renders ("CREATE " ++ textIf unique "UNIQUE " ++ "INDEX " ++ d.quote name)
      (.word "CREATE" :: (if unique then [.word "UNIQUE"] else []) ++
        [.word "INDEX", .identifier name]) := by
    cases unique with
    | false => exact renders_quote d (w := "CREATE INDEX ") rfl (by decide) name
    | true => exact renders_quote d (w := "CREATE UNIQUE INDEX ") rfl (by decide) name
  have hall := ((hstart.quote (w := " ON ") rfl table).quoteAll (w := " (") rfl columns).words
    (w := ")") rfl
  cases unique <;> exact hall

theorem renders_dropIndex (d : Dialect) (name table : String) :
    d.Renders (d.dropIndex name table) (d.dropIndexLexemes name table) := by
  have hstart := renders_quote d (w := "DROP INDEX ") rfl (by decide) name
  cases d with
  | mysql => exact hstart.quote (w := " ON ") rfl table
  | _ => exact hstart

theorem renders_renameTable (d : Dialect) (old new : String) :
    d.Renders (d.renameTable old new) (d.renameTableLexemes old new) := by
  have hstart := renders_quote d (w := "ALTER TABLE ") rfl (by decide) old
  cases d with
  | mysql =>
    exact (renders_quote _ (w := "RENAME TABLE ") rfl (by decide) old).quote (w := " TO ") rfl new
  | _ => exact hstart.quote (w := " RENAME TO ") rfl new

theorem renders_createBackup (d : Dialect) (table backup : String) :
    d.Renders (d.createBackup table backup) (createBackupLexemes table backup) :=
  (renders_quote d (w := "CREATE TABLE ") rfl (by decide) backup).quote
    (w := " AS SELECT * FROM ") rfl table

/-! ### Comments -/

/-- The statement on a comment as it is read.  An empty comment is taken away. -/
def commentLexemes (table column comment : String) : List Lexeme :=
  [.word "COMMENT", .word "ON", .word "COLUMN", .identifier table, .mark '.', .identifier column,
    .word "IS", if comment = "" then .word "NULL" else .literal comment]

theorem renders_commentStatement? (table : String) {c : ModelColumn} {comment : String}
    (h : c.comment? = some comment) : ∃ sql, postgres.commentStatement? table c = some sql ∧
      postgres.Renders sql (commentLexemes table c.name comment) := by
  refine ⟨_, by rw [commentStatement?, h, Option.map_some], ?_⟩
  have hname := (renders_quote postgres (w := "COMMENT ON COLUMN ") rfl (by decide) table).quote
    (w := ".") rfl c.name
  by_cases hempty : comment = ""
  · have hnull := hname.words (w := " IS NULL") rfl
    have htext : " IS NULL" = " IS " ++ "NULL" := rfl
    rw [htext, ← String.append_assoc] at hnull
    subst hempty
    exact hnull
  · have hfull : ¬ comment.isEmpty = true := by simpa using hempty
    rw [if_neg hfull, commentLexemes, if_neg hempty]
    exact hname.literal (w := " IS ") rfl comment

/-! ### Restoring -/

/-- The removal of the rows of a table as it is read. -/
def clearLexemes (table : String) : List Lexeme :=
  [.word "DELETE", .word "FROM", .identifier table]

/-- The return of the rows of a backup as it is read. -/
def refillLexemes (table backup : String) (columns : List String) : List Lexeme :=
  [.word "INSERT", .word "INTO", .identifier table, .mark '('] ++ listed columns ++
    [.mark ')', .word "SELECT"] ++ listed columns ++ [.word "FROM", .identifier backup]

theorem renders_restoreStatements (d : Dialect) (table backup : String) (columns : List String) :
    ∃ clear refill,
      Guarded.restoreStatements d table backup (columns.map d.quote) = [clear, refill] ∧
      d.Renders clear (clearLexemes table) ∧
      d.Renders refill (refillLexemes table backup columns) := by
  refine ⟨_, _, rfl, renders_quote d (w := "DELETE FROM ") rfl (by decide) table, ?_⟩
  have hinto := (renders_quote d (w := "INSERT INTO ") rfl (by decide) table).quoteAll (w := " (")
    rfl columns
  have hall := (hinto.quoteAll (w := ") SELECT ") rfl columns).quote (w := " FROM ") rfl backup
  rw [List.append_assoc] at hall
  exact hall

/-! ### Statements of the same text -/

/-- Texts that are the same are read alike. -/
theorem Renders.eq_of_eq (h : d.Renders s ls) (h' : d.Renders s' ls') (hs : s = s') : ls = ls' := by
  subst hs
  exact h.unique h'

section Same

variable {name table name' table' old new old' new' backup backup' : String}
  {columns columns' : List String} {unique unique' : Bool}

theorem createIndex_inj : d.createIndex name table columns unique =
      d.createIndex name' table' columns' unique' ↔
    name = name' ∧ table = table' ∧ columns = columns' ∧ unique = unique' := by
  constructor
  · intro h
    have hread := (renders_createIndex d _ _ _ _).eq_of_eq (renders_createIndex d _ _ _ _) h
    have hnames : ∀ name table columns unique,
        names (createIndexLexemes name table columns unique) = name :: table :: columns := by
      intro name table columns unique
      cases unique <;> simp [createIndexLexemes, Lexeme.name?]
    -- the second word tells whether the index is unique
    have hunique : unique = unique' := by
      have hsecond := congrArg (·[1]?) hread
      cases unique <;> cases unique' <;> simp_all [createIndexLexemes]
    have hsame := congrArg names hread
    simp only [hnames, List.cons.injEq] at hsame
    exact ⟨hsame.1, hsame.2.1, hsame.2.2, hunique⟩
  · rintro ⟨rfl, rfl, rfl, rfl⟩
    rfl

theorem dropIndex_inj : d.dropIndex name table = d.dropIndex name' table' ↔
    name = name' ∧ (d = .mysql → table = table') := by
  constructor
  · intro h
    have hread := (renders_dropIndex d _ _).eq_of_eq (renders_dropIndex d _ _) h
    cases d <;> simpa [dropIndexLexemes] using hread
  · rintro ⟨rfl, htable⟩
    cases d with
    | mysql => rw [htable rfl]
    | _ => rfl

theorem renameTable_inj : d.renameTable old new = d.renameTable old' new' ↔
    old = old' ∧ new = new' := by
  constructor
  · intro h
    have hread := (renders_renameTable d _ _).eq_of_eq (renders_renameTable d _ _) h
    cases d <;> simpa [renameTableLexemes] using hread
  · rintro ⟨rfl, rfl⟩
    rfl

theorem createBackup_inj : d.createBackup table backup = d.createBackup table' backup' ↔
    table = table' ∧ backup = backup' := by
  constructor
  · intro h
    have hread := (renders_createBackup d _ _).eq_of_eq (renders_createBackup d _ _) h
    simpa [createBackupLexemes, and_comm] using hread
  · rintro ⟨rfl, rfl⟩
    rfl

theorem commentStatement?_inj {c c' : ModelColumn} (hc : c.comment? ≠ none) :
    postgres.commentStatement? table c = postgres.commentStatement? table' c' ↔
      table = table' ∧ c.name = c'.name ∧ c.comment? = c'.comment? := by
  obtain ⟨comment, hcomment⟩ := Option.ne_none_iff_exists'.mp hc
  constructor
  · intro h
    obtain ⟨sql, hsql, hread⟩ := renders_commentStatement? table hcomment
    rw [hsql] at h
    obtain ⟨comment', hcomment'⟩ : ∃ comment', c'.comment? = some comment' := by
      cases hnone : c'.comment? with
      | none => rw [commentStatement?, hnone] at h; cases h
      | some comment' => exact ⟨comment', rfl⟩
    obtain ⟨sql', hsql', hread'⟩ := renders_commentStatement? table' hcomment'
    have hsame := hread.eq_of_eq hread' (Option.some.inj (h.trans hsql'))
    rw [hcomment, hcomment']
    simp only [commentLexemes, List.cons.injEq, Lexeme.identifier.injEq, true_and,
      and_true] at hsame
    obtain ⟨htable, hname, hlast⟩ := hsame
    refine ⟨htable, hname, congrArg some ?_⟩
    by_cases hempty : comment = "" <;> by_cases hempty' : comment' = "" <;> simp_all
  · rintro ⟨rfl, hname, hsame⟩
    rw [commentStatement?, commentStatement?, hname, hsame]

theorem restoreStatements_inj :
    ((Guarded.restoreStatements d table backup (columns.map d.quote))[0]? =
        (Guarded.restoreStatements d table' backup' (columns'.map d.quote))[0]? ↔
      table = table') ∧
    ((Guarded.restoreStatements d table backup (columns.map d.quote))[1]? =
        (Guarded.restoreStatements d table' backup' (columns'.map d.quote))[1]? ↔
      table = table' ∧ backup = backup' ∧ columns = columns') := by
  obtain ⟨clear, refill, hsqls, hclear, hrefill⟩ := renders_restoreStatements d table backup columns
  obtain ⟨clear', refill', hsqls', hclear', hrefill'⟩ :=
    renders_restoreStatements d table' backup' columns'
  constructor
  · constructor
    · intro h
      rw [hsqls, hsqls'] at h
      simpa [clearLexemes] using hclear.eq_of_eq hclear' (Option.some.inj h)
    · rintro rfl
      rfl
  · constructor
    · intro h
      rw [hsqls, hsqls'] at h
      have hsame := congrArg names (hrefill.eq_of_eq hrefill' (Option.some.inj h))
      have hnames : ∀ table backup columns, names (refillLexemes table backup columns) =
          table :: (columns ++ columns ++ [backup]) := by
        intro table backup columns
        simp [refillLexemes, Lexeme.name?]
      simp only [hnames, List.cons.injEq] at hsame
      obtain ⟨htable, hrest⟩ := hsame
      obtain ⟨hcolumns, hbackup⟩ := List.append_inj' hrest rfl
      -- the columns are named twice, so either half has as many of them
      have hlength := congrArg List.length hcolumns
      simp only [List.length_append] at hlength
      exact ⟨htable, by simpa using hbackup, (List.append_inj hcolumns (by omega)).1⟩
    · rintro ⟨rfl, rfl, rfl⟩
      rfl

end Same

/-! ### All kinds of statements -/

/-- **Names stay in their places.**  Whatever the names, the columns and the comment are, each
statement is read as the same words and marks with one identifier for each name and one literal for
the comment; and statements of one kind are the same text only if they render the same. -/
theorem names_in_place (d : Dialect) :
    (∀ name table columns unique,
      lex? d.quoteChar (d.createIndex name table columns unique).toList =
        some (createIndexLexemes name table columns unique) ∧
      ∀ name' table' columns' unique',
        d.createIndex name table columns unique = d.createIndex name' table' columns' unique' ↔
          name = name' ∧ table = table' ∧ columns = columns' ∧ unique = unique') ∧
    (∀ name table,
      lex? d.quoteChar (d.dropIndex name table).toList = some (d.dropIndexLexemes name table) ∧
      ∀ name' table', d.dropIndex name table = d.dropIndex name' table' ↔
        name = name' ∧ (d = .mysql → table = table')) ∧
    (∀ old new,
      lex? d.quoteChar (d.renameTable old new).toList = some (d.renameTableLexemes old new) ∧
      ∀ old' new', d.renameTable old new = d.renameTable old' new' ↔ old = old' ∧ new = new') ∧
    (∀ table backup,
      lex? d.quoteChar (d.createBackup table backup).toList =
        some (createBackupLexemes table backup) ∧
      ∀ table' backup', d.createBackup table backup = d.createBackup table' backup' ↔
        table = table' ∧ backup = backup') ∧
    (∀ table (c : ModelColumn) comment, c.comment? = some comment →
      (∃ sql, postgres.commentStatement? table c = some sql ∧
        lex? postgres.quoteChar sql.toList = some (commentLexemes table c.name comment)) ∧
      ∀ table' c', postgres.commentStatement? table c = postgres.commentStatement? table' c' ↔
        table = table' ∧ c.name = c'.name ∧ c.comment? = c'.comment?) ∧
    ∀ table backup columns,
      (Guarded.restoreStatements d table backup (columns.map d.quote)).map
          (fun sql => lex? d.quoteChar sql.toList) =
        [some (clearLexemes table), some (refillLexemes table backup columns)] ∧
      ∀ table' backup' columns',
        ((Guarded.restoreStatements d table backup (columns.map d.quote))[0]? =
            (Guarded.restoreStatements d table' backup' (columns'.map d.quote))[0]? ↔
          table = table') ∧
        ((Guarded.restoreStatements d table backup (columns.map d.quote))[1]? =
            (Guarded.restoreStatements d table' backup' (columns'.map d.quote))[1]? ↔
          table = table' ∧ backup = backup' ∧ columns = columns') := by
  refine ⟨fun name table columns unique => ⟨(renders_createIndex d _ _ _ _).lex?_eq, fun _ _ _ _ =>
      createIndex_inj⟩,
    fun name table => ⟨(renders_dropIndex d _ _).lex?_eq, fun _ _ => dropIndex_inj⟩,
    fun old new => ⟨(renders_renameTable d _ _).lex?_eq, fun _ _ => renameTable_inj⟩,
    fun table backup => ⟨(renders_createBackup d _ _).lex?_eq, fun _ _ => createBackup_inj⟩,
    fun table c comment hcomment => ⟨?_, fun _ _ => commentStatement?_inj (by simp [hcomment])⟩,
    fun table backup columns => ⟨?_, fun _ _ _ => restoreStatements_inj⟩⟩
  · obtain ⟨sql, hsql, hread⟩ := renders_commentStatement? table hcomment
    exact ⟨sql, hsql, hread.lex?_eq⟩
  · obtain ⟨clear, refill, hsqls, hclear, hrefill⟩ :=
      renders_restoreStatements d table backup columns
    rw [hsqls, List.map_cons, List.map_singleton, hclear.lex?_eq, hrefill.lex?_eq]

/-- Quotes, marks of comments and whole statements in the names and in the comment stay in them. -/
theorem names_in_place_of_sample :
    let c : ModelColumn :=
      { name := "a\" IS NULL; --", type := .text, comment? := some "'; DROP TABLE t; --" }
    c.comment? = some "'; DROP TABLE t; --" ∧
      lex? '"' "COMMENT ON COLUMN \"t\".\"a\"\" IS NULL; --\" IS '''; DROP TABLE t; --'".toList =
        some (commentLexemes "t" "a\" IS NULL; --" "'; DROP TABLE t; --") := by
  intro c
  have hcomment : c.comment? = some "'; DROP TABLE t; --" := rfl
  obtain ⟨-, -, -, -, hcomments, -⟩ := names_in_place .postgres
  obtain ⟨⟨sql, hsql, hread⟩, -⟩ := hcomments "t" c _ hcomment
  have hwritten : postgres.commentStatement? "t" c =
      some "COMMENT ON COLUMN \"t\".\"a\"\" IS NULL; --\" IS '''; DROP TABLE t; --'" := by decide
  obtain rfl := Option.some.inj (hsql.symm.trans hwritten)
  exact ⟨hcomment, hread⟩

end Dialect

end SchemaKeeper
