/-
Keys in CREATE TABLE.

A primary key is declared once: at the end of the statement, or on the line of its only
column.  The entries of the statement (`entries?`) tell which, because the words PRIMARY
KEY outside quotes declare a key (`DeclaresKey`), whatever stands in names, comments and
defaults.

* `exists_definition_eq_keyWords`: a definition has the words of its key, or NOT NULL,
  between parts in which the word KEY does not occur (`IsKeyless`),
* `exists_entries?_eq`: the entries of a statement are those of its columns, of a key at
  the end and of its foreign keys,
* `declares_key_once`: so the key of a table is declared in one place, and the statements
  on comments and indexes follow.
-/
import SchemaKeeper.Proofs.Dialect.Statements
import SchemaKeeper.Proofs.Model.NormalDefaults
import SchemaKeeper.Proofs.Schema.Items

namespace SchemaKeeper

open Text Sql

/-! ### Entries on lines -/

namespace Sql

/-- The entry declares a primary key. -/
def DeclaresKey (entry : List Lexeme) : Prop :=
  [.word "PRIMARY", .word "KEY"] <:+: entry

/-- The entry says that a column refuses NULL. -/
def RefusesNull (entry : List Lexeme) : Prop :=
  [.word "NOT", .word "NULL"] <:+: entry

theorem mem_of_declaresKey {entry : List Lexeme} (h : DeclaresKey entry) :
    .word "PRIMARY" ∈ entry ∧ .word "KEY" ∈ entry :=
  ⟨h.subset (by simp), h.subset (by simp)⟩

/-- Items on lines are entries, and where there are no items there are no entries. -/
theorem exists_pieces?_lineTokens {items : List (List Token)} (h : ∀ item ∈ items, IsPiece item) :
    ∃ pieces, pieces? 0 (lineTokens items) = some pieces ∧
      (pieces.map lexemes).filter (!·.isEmpty) = (items.map lexemes).filter (!·.isEmpty) := by
  cases items with
  | nil => exact ⟨[[.plain '\n', .plain '\n']], rfl, rfl⟩
  | cons item r =>
    obtain ⟨pieces, hpieces, hsurrounds⟩ := pieces?_lineTokens (List.cons_ne_nil _ _) h
    refine ⟨pieces, hpieces, congrArg (List.filter _) ?_⟩
    exact (map_eq_of_forall₂ hsurrounds fun _ _ hs => (lexemes_of_surrounds hs).symm).symm

end Sql

open Dialect

theorem Table.entries?_createStatement {d : Dialect} {t : Table} {entries : List (List Lexeme)}
    (htagged : ∀ c ∈ t.columns, Tagged c)
    (hentries : List.Forall₂ (fun item entry => d.Renders ("    " ++ item) entry) (t.items d)
      entries)
    (hne : ∀ entry ∈ entries, entry ≠ []) :
    entries? d.quoteChar (t.createStatement d).toList = some entries := by
  obtain ⟨rest, hphrases⟩ := forall₂_phrase_items (d := d) (t := t) "    " rfl (by decide) htagged
  let items := (t.itemTokens rest).map (plainText "    ".toList ++ ·)
  have hitems : List.Forall₂ (fun item ts => Phrase d ("    " ++ item).toList ts) (t.items d)
      items := by
    rwa [List.forall₂_map_right_iff]
  have hlines : List.Forall₂ (Phrase d) ((t.items d).map fun item => ("    " ++ item).toList)
      items := by
    rwa [List.forall₂_map_left_iff]
  obtain ⟨head, hread, hflat⟩ := read?_createStatement hlines
  have hpiece : ∀ item ∈ items, IsPiece item := fun item hitem => by
    obtain ⟨line, -, hline⟩ := exists_of_forall₂ hlines hitem
    exact hline.isPiece
  obtain ⟨pieces, hpieces, hsame⟩ := exists_pieces?_lineTokens hpiece
  -- both lists say how the lines are read
  have hlexemes : items.map lexemes = entries := by
    have hfst := map_eq_of_forall₂ (f := fun item => lex? d.quoteChar ("    " ++ item).toList)
      (g := fun ts => some (lexemes ts)) hitems
      fun item ts hphrase => Renders.lex?_eq ⟨ts, hphrase.spells, rfl⟩
    have hsnd := map_eq_of_forall₂ (f := fun item => lex? d.quoteChar ("    " ++ item).toList)
      (g := some) hentries fun item entry hrenders => hrenders.lex?_eq
    refine List.map_injective_iff.mpr (fun _ _ => Option.some.inj) ?_
    rw [List.map_map]
    exact hfst.symm.trans hsnd
  rw [entries?, items?, hread, Option.bind_some, body?_append hflat, Option.bind_some, hpieces,
    Option.map_some, hsame, hlexemes, List.filter_eq_self.mpr]
  intro entry hentry
  simpa using hne entry hentry

namespace Dialect

variable {d : Dialect} {s s' : String}

/-! ### Texts without the word KEY -/

/-- No word goes on with the text, and outside quotes the word KEY does not occur in it. -/
def IsKeyless (d : Dialect) (s : String) : Prop :=
  startsAnew s = true ∧ ∃ ls, d.Renders s ls ∧ .word "KEY" ∉ ls

theorem IsKeyless.append (h : d.IsKeyless s) (h' : d.IsKeyless s') : d.IsKeyless (s ++ s') := by
  obtain ⟨hanew, ls, hls, hkey⟩ := h
  obtain ⟨hanew', ls', hls', hkey'⟩ := h'
  refine ⟨startsAnew_append hanew fun _ => hanew', ls ++ ls', hls.append hls' hanew', ?_⟩
  rw [List.mem_append]
  exact not_or_intro hkey hkey'

/-- The letter K, which every word KEY has, does not occur in the text. -/
theorem isKeyless_of_isPhrase (h : d.IsPhrase s) (hanew : startsAnew s = true)
    (hletter : 'K' ∉ s.toList) : d.IsKeyless s := by
  obtain ⟨ts, hphrase⟩ := h
  refine ⟨hanew, lexemes ts, ⟨ts, hphrase.spells, rfl⟩, fun hkey => hletter ?_⟩
  have hplain : .plain 'K' ∈ ts := plain_mem_of_word hkey (by decide)
  rw [hphrase.spells.eq_write]
  exact List.mem_flatMap.mpr ⟨_, hplain, List.mem_singleton_self 'K'⟩

/-- Words that start anew and have no K. -/
theorem isKeyless_words (d : Dialect) (hplain : s.toList.all isOrdinary = true)
    (hanew : startsAnew s = true) (hletter : 'K' ∉ s.toList) : d.IsKeyless s :=
  isKeyless_of_isPhrase (isPhrase_word d hplain) hanew hletter

theorem isKeyless_textIf (b : Bool) (h : d.IsKeyless s) : d.IsKeyless (textIf b s) := by
  cases b with
  | true => exact h
  | false => exact isKeyless_words (s := "") d rfl rfl (by decide)

theorem isKeyless_literal (d : Dialect) {w : String} (hw : isLink w = true)
    (hkey : .word "KEY" ∉ wordsOf w) (text : String) : d.IsKeyless (w ++ literal text) := by
  obtain ⟨hne, hplain, -⟩ := isLink_iff.mp hw
  refine ⟨startsAnew_link hw _, _, renders_literal d hplain hne text, ?_⟩
  simpa using hkey

theorem not_mem_uint32Digits (n : UInt32) : 'K' ∉ (Number.uint32Digits n).toList := by
  rw [Number.uint32Digits, String.toList_ofList]
  intro h
  exact absurd (Number.isDigit_of_mem_digits h) (by decide)

theorem not_mem_typeText (d : Dialect) (t : ColumnType) : 'K' ∉ (d.typeText t).toList := by
  cases d with
  | sqlite =>
    simp only [typeText, sqliteTypeText]
    split <;> decide
  | postgres =>
    cases t with
    | decimal | varchar | char => simp [typeText, postgresTypeText, not_mem_uint32Digits]
    | _ => exact of_decide_eq_true rfl
  | mysql =>
    cases t with
    | decimal | varchar | char =>
      simp [typeText, mysqlTypeText, ColumnType.toText, not_mem_uint32Digits]
    | _ => exact of_decide_eq_true rfl

/-- The type of a column, after a blank. -/
theorem isKeyless_type (d : Dialect) (c : ModelColumn) :
    d.IsKeyless (" " ++ d.columnTypeText c) := by
  have htype : 'K' ∉ (d.columnTypeText c).toList := by
    have hplain := not_mem_typeText d c.type
    cases d with
    | postgres =>
      rw [columnTypeText]
      split
      · cases hserial : serialType? c.type with
        | none => exact hplain
        | some serial =>
          rw [Option.getD_some]
          unfold serialType? at hserial
          split at hserial <;> cases hserial <;> decide
      · exact hplain
    | _ => exact hplain
  refine isKeyless_of_isPhrase ((isPhrase_word d rfl).append (isPhrase_columnTypeText d c)) ?_ ?_
  · exact startsAnew_link rfl _
  · simpa using htype

/-- A default that a tag gives. -/
theorem isKeyless_defaultPart {c : ModelColumn} (h : Tagged c) : d.IsKeyless (d.defaultPart c) := by
  unfold defaultPart
  split
  · next text htext =>
    obtain ⟨value, rfl⟩ := h text htext
    unfold writeDefault
    split
    · exact isKeyless_words (s := " DEFAULT TRUE") _ rfl rfl (by decide)
    · exact isKeyless_words (s := " DEFAULT FALSE") _ rfl rfl (by decide)
    · have hnormal := normalDefault_normalizeDefault value
      generalize normalizeDefault value = text at hnormal
      cases hnormal with
      | null => exact isKeyless_words (s := " DEFAULT NULL") _ rfl rfl (by decide)
      | now => exact isKeyless_words (s := " DEFAULT CURRENT_TIMESTAMP") _ rfl rfl (by decide)
      | number hnumber =>
        have hnumeral : ∀ c ∈ text.toList, Number.Decimal.isNumeral c = true := fun c hc =>
          Number.Decimal.isNumeral_of_isLiteral hnumber hc
        have hordinary : text.toList.all isOrdinary = true :=
          List.all_eq_true.mpr fun c hc => isOrdinary_of_isNumeral (hnumeral c hc)
        have hletter : 'K' ∉ text.toList := fun hc => by cases hnumeral 'K' hc
        refine isKeyless_of_isPhrase ((isPhrase_word _ rfl).append (isPhrase_word _ hordinary))
          (startsAnew_link rfl _) ?_
        simpa using hletter
      | text s => exact isKeyless_literal _ (w := " DEFAULT ") rfl (by decide) s
  · exact isKeyless_words (s := "") d rfl rfl (by decide)

theorem isKeyless_mysqlCommentPart (d : Dialect) (c : ModelColumn) :
    d.IsKeyless (mysqlCommentPart c) := by
  unfold mysqlCommentPart
  split
  · exact isKeyless_literal d rfl (by decide) _
  · exact isKeyless_words (s := "") d rfl rfl (by decide)

theorem isKeyless_autoIncrementWord (d d' : Dialect) : d.IsKeyless d'.autoIncrementWord := by
  cases d' <;> exact isKeyless_words d rfl rfl (by decide)

/-! ### Keys in definitions -/

/-- What a definition says of a key, or else of NULL. -/
def keyWords (c : ModelColumn) : String :=
  if c.primaryKey then " PRIMARY KEY" else textIf c.notNull " NOT NULL"

/-- A definition says it once, behind the name and the type. -/
theorem exists_definition_eq_keyWords {c : ModelColumn} (h : Tagged c) :
    ∃ before after, d.definition c = d.quote c.name ++ (before ++ (keyWords c ++ after)) ∧
      d.IsKeyless before ∧ d.IsKeyless after := by
  have htype := isKeyless_type d c
  have hdefault := isKeyless_defaultPart (d := d) h
  have hcounts := isKeyless_textIf c.autoIncrement (isKeyless_autoIncrementWord d d)
  have hword : ∀ (b : Bool) s, s.toList.all isOrdinary = true → startsAnew s = true →
      'K' ∉ s.toList → d.IsKeyless (textIf b s) := fun b s hplain hanew hletter =>
    isKeyless_textIf b (isKeyless_words d hplain hanew hletter)
  have hnull := hword c.notNull " NOT NULL" rfl rfl (by decide)
  have hunique := hword c.unique " UNIQUE" rfl rfl (by decide)
  have hcomment := isKeyless_mysqlCommentPart d c
  cases d with
  | mysql =>
    -- MySQL has the words NOT NULL before the default, and those of the key after it
    cases hkey : c.primaryKey with
    | true =>
      refine ⟨_, _, ?_, htype.append (hnull.append (hdefault.append hcounts)), hcomment⟩
      simp [definition, mysqlDefinition, mysqlKeyPart, head, keyWords, textIf, hkey,
        String.append_assoc]
    | false =>
      refine ⟨_, _, ?_, htype, hdefault.append (hcounts.append (hunique.append hcomment))⟩
      simp [definition, mysqlDefinition, mysqlKeyPart, head, keyWords, textIf, hkey,
        String.append_assoc]
  | _ =>
    cases hkey : c.primaryKey with
    | true =>
      refine ⟨_, _, ?_, htype, hcounts.append hdefault⟩
      simp [definition, head, constraintPart, keyWords, hkey, String.append_assoc]
    | false =>
      refine ⟨_, _, ?_, htype, hunique.append hdefault⟩
      simp [definition, head, constraintPart, keyWords, hkey, String.append_assoc]

/-- The words of a key or of NULL as they are read. -/
def keyLexemes (c : ModelColumn) : List Lexeme :=
  if c.primaryKey then [.word "PRIMARY", .word "KEY"]
  else if c.notNull then [.word "NOT", .word "NULL"] else []

theorem renders_keyWords (d : Dialect) (c : ModelColumn) :
    d.Renders (keyWords c) (keyLexemes c) ∧ startsAnew (keyWords c) = true := by
  unfold keyWords keyLexemes
  by_cases hkey : c.primaryKey = true
  · rw [if_pos hkey, if_pos hkey]
    exact ⟨renders_words d rfl, rfl⟩
  · rw [if_neg hkey, if_neg hkey]
    cases c.notNull with
    | true => exact ⟨renders_words d rfl, rfl⟩
    | false => exact ⟨renders_words d rfl, rfl⟩

/-- The entry of a column starts with its name, declares a key if the column is one, and otherwise
refuses NULL if the column does. -/
structure IsColumnEntry (c : ModelColumn) (entry : List Lexeme) : Prop where
  name : entry.head? = some (.identifier c.name)
  key : DeclaresKey entry ↔ c.primaryKey = true
  notNull : c.primaryKey = false → c.notNull = true → RefusesNull entry

theorem exists_isColumnEntry {c : ModelColumn} (h : Tagged c) :
    ∃ entry, d.Renders ("    " ++ d.definition c) entry ∧ IsColumnEntry c entry := by
  obtain ⟨before, after, hdefinition, ⟨hanew, ls, hls, hkey⟩, hanew', ls', hls', hkey'⟩ :=
    exists_definition_eq_keyWords (d := d) h
  obtain ⟨hwords, hanewWords⟩ := renders_keyWords d c
  have hname : d.Renders ("    " ++ d.quote c.name) [.identifier c.name] :=
    renders_quote d rfl (by decide) c.name
  have hend := hwords.append hls' hanew'
  have hall := hname.append (hls.append hend (startsAnew_append hanewWords fun _ => hanew'))
    (startsAnew_append hanew fun _ => startsAnew_append hanewWords fun _ => hanew')
  rw [String.append_assoc, ← hdefinition] at hall
  refine ⟨_, hall, rfl, ⟨fun hdeclares => ?_, fun hprimary => ?_⟩, fun hprimary hnull => ?_⟩
  · -- the word KEY stands in the words of the key only
    have hmem : .word "KEY" ∈ keyLexemes c := by
      simpa [hkey, hkey'] using (mem_of_declaresKey hdeclares).2
    by_contra hprimary
    unfold keyLexemes at hmem
    rw [if_neg hprimary] at hmem
    split at hmem <;> simp at hmem
  · refine ⟨.identifier c.name :: ls, ls', ?_⟩
    simp [keyLexemes, hprimary]
  · refine ⟨.identifier c.name :: ls, ls', ?_⟩
    simp [keyLexemes, hprimary, hnull]

/-! ### Other entries -/

/-- A key at the end as it is read. -/
def keyEntry (key : List String) : List Lexeme :=
  [.word "PRIMARY", .word "KEY", .mark '('] ++ listed key ++ [.mark ')']

theorem renders_keyItem (d : Dialect) (key : List String) :
    d.Renders ("    " ++ Table.keyItem d key) (keyEntry key) := by
  have htext : "    " ++ Table.keyItem d key = "    PRIMARY KEY (" ++ d.quoteAll key ++ ")" := by
    rw [Table.keyItem, ← String.append_assoc, ← String.append_assoc]
    rfl
  rw [htext]
  exact (renders_quoteAll d rfl (by decide) key).words rfl

/-- A foreign key as it is read.  Its actions are words. -/
def foreignKeyEntry (k : ForeignKey) : List Lexeme :=
  [.word "FOREIGN", .word "KEY", .mark '(', .identifier k.column, .mark ')', .word "REFERENCES",
    .identifier k.foreignTable, .mark '(', .identifier k.foreignColumn, .mark ')'] ++
    wordsOf (actionPart " ON DELETE " k.onDelete?) ++ wordsOf (actionPart " ON UPDATE " k.onUpdate?)

theorem renders_actionPart (d : Dialect) (keyword : String)
    (hkeyword : keyword.toList.all isOrdinary = true) (hanew : startsAnew keyword = true)
    (hne : keyword ≠ "") (action? : Option ReferentialAction) :
    d.Renders (actionPart keyword action?) (wordsOf (actionPart keyword action?)) ∧
      startsAnew (actionPart keyword action?) = true := by
  have hplain := all_isOrdinary_actionPart keyword hkeyword action?
  refine ⟨⟨_, spells_ordinary d hplain, rfl⟩, ?_⟩
  cases action? with
  | none => rfl
  | some action => exact startsAnew_append hanew fun h => absurd h hne

theorem renders_foreignKey (d : Dialect) (k : ForeignKey) :
    d.Renders ("    " ++ k.toText d) (foreignKeyEntry k) := by
  have htext : "    " ++ k.toText d = "    FOREIGN KEY (" ++ d.quote k.column ++ ") REFERENCES " ++
      d.quote k.foreignTable ++ " (" ++ d.quote k.foreignColumn ++ ")" ++
      actionPart " ON DELETE " k.onDelete? ++ actionPart " ON UPDATE " k.onUpdate? := by
    have hlead : "    FOREIGN KEY (" = "    " ++ "FOREIGN KEY (" := rfl
    unfold ForeignKey.toText
    rewrite [hlead]
    simp only [String.append_assoc]
  have hnames := (((renders_quote d (w := "    FOREIGN KEY (") rfl (by decide) k.column).quote
    (w := ") REFERENCES ") rfl k.foreignTable).quote (w := " (") rfl k.foreignColumn).words
    (w := ")") rfl
  have hdelete := renders_actionPart d " ON DELETE " rfl rfl (by decide) k.onDelete?
  have hupdate := renders_actionPart d " ON UPDATE " rfl rfl (by decide) k.onUpdate?
  rw [htext]
  exact (hnames.append hdelete.1 hdelete.2).append hupdate.1 hupdate.2

/-- A foreign key declares no primary key. -/
theorem not_declaresKey_foreignKeyEntry (k : ForeignKey) : ¬ DeclaresKey (foreignKeyEntry k) := by
  have haction : ∀ keyword action?, keyword = " ON DELETE " ∨ keyword = " ON UPDATE " →
      .word "PRIMARY" ∉ wordsOf (actionPart keyword action?) := by
    rintro keyword (_ | action) (rfl | rfl)
    · decide
    · decide
    · cases action <;> decide
    · cases action <;> decide
  intro h
  simpa [foreignKeyEntry, haction] using (mem_of_declaresKey h).1

/-! ### Statements that follow -/

/-- The comment and the index of a column as they are read. -/
def companionLexemes (d : Dialect) (table : String) (c : ModelColumn) : List (List Lexeme) :=
  (match d with
    | postgres => (c.comment?.map (commentLexemes table c.name)).toList
    | sqlite | mysql => []) ++
    (c.index?.map fun index =>
      createIndexLexemes (index.resolve table c.name) table [c.name] false).toList

theorem map_lex?_companions (d : Dialect) (table : String) (c : ModelColumn) :
    (d.companions table c).map (fun sql => lex? d.quoteChar sql.toList) =
      (d.companionLexemes table c).map some := by
  have hindex : (d.indexStatements table c).map (fun sql => lex? d.quoteChar sql.toList) =
      (c.index?.map fun index =>
        createIndexLexemes (index.resolve table c.name) table [c.name] false).toList.map some := by
    unfold indexStatements
    cases c.index? with
    | none => rfl
    | some index => exact congrArg ([·]) (renders_createIndex d _ _ _ _).lex?_eq
  unfold companions companionLexemes
  rw [List.map_append, List.map_append, hindex]
  congr 1
  cases d with
  | postgres =>
    cases hcomment : c.comment? with
    | none => simp [commentStatement?, hcomment]
    | some comment =>
      obtain ⟨sql, hsql, hread⟩ := renders_commentStatement? table hcomment
      rw [hsql]
      exact congrArg ([·]) hread.lex?_eq
  | _ => rfl

end Dialect

namespace Table

variable {d : Dialect} {t : Table}

/-! ### One place for a key -/

/-- The columns of the primary key: those that are given, or else those that say so themselves. -/
def key (t : Table) : List String :=
  if t.primaryKey = [] then (t.columns.filter (·.primaryKey)).map (·.name) else t.primaryKey

/-- A key that is given, or that has several columns, stands at the end. -/
theorem tableKey_eq_key (h : t.primaryKey ≠ [] ∨ 2 ≤ t.key.length) :
    t.tableKey = t.key ∧ t.key ≠ [] := by
  unfold tableKey key at *
  by_cases hgiven : t.primaryKey = []
  · have hseveral := h.resolve_left fun hne => hne hgiven
    rw [if_pos hgiven] at hseveral
    rw [if_pos (List.isEmpty_iff.mpr hgiven), if_pos hgiven]
    refine ⟨if_pos hseveral, fun hnil => ?_⟩
    rw [hnil] at hseveral
    cases hseveral
  · rw [if_neg (by simpa using hgiven), if_neg hgiven]
    exact ⟨rfl, hgiven⟩

/-- A key of one column that says so itself does not stand at the end. -/
theorem tableKey_eq_nil (hgiven : t.primaryKey = []) (hkey : t.key.length ≤ 1) :
    t.tableKey = [] := by
  unfold tableKey
  unfold key at hkey
  rw [if_pos hgiven] at hkey
  rw [if_pos (List.isEmpty_iff.mpr hgiven)]
  exact if_neg (Nat.not_lt.mpr hkey)

/-- Of columns with distinct names those are in the key that say so, unless it is given. -/
theorem mem_key_iff (hnodup : (t.columns.map (·.name)).Nodup) (hgiven : t.primaryKey = [])
    {c : ModelColumn} (hc : c ∈ t.columns) : c.name ∈ t.key ↔ c.primaryKey = true := by
  rw [key, if_pos hgiven, List.mem_map]
  constructor
  · rintro ⟨c', hc', hname⟩
    obtain ⟨hmem, hkey⟩ := List.mem_filter.mp hc'
    rwa [List.inj_on_of_nodup_map hnodup hmem hc hname] at hkey
  · intro hkey
    exact ⟨c, List.mem_filter.mpr ⟨hc, hkey⟩, rfl⟩

/-- The entries of a statement: those of the columns as they are defined, of a key at the end and of
the foreign keys. -/
theorem exists_entries?_eq (d : Dialect) (htagged : ∀ c ∈ t.columns, Tagged c) :
    ∃ columns, List.Forall₂ (fun c entry => IsColumnEntry (t.defined c) entry) t.columns columns ∧
      entries? d.quoteChar (t.createStatement d).toList =
        some (columns ++ (if t.tableKey.isEmpty then [] else [keyEntry t.tableKey]) ++
          t.foreignKeys.map foreignKeyEntry) := by
  have hread : ∀ c ∈ t.columns, ∃ entry, d.Renders ("    " ++ d.definition (t.defined c)) entry ∧
      IsColumnEntry (t.defined c) entry := fun c hc =>
    exists_isColumnEntry (tagged_defined (htagged c hc))
  choose! entry hentry using hread
  refine ⟨t.columns.map entry, forall₂_map_self fun c hc => (hentry c hc).2,
    entries?_createStatement htagged ?_ ?_⟩
  · refine List.rel_append (List.rel_append ?_ ?_) ?_
    · rw [definedColumns_eq, List.map_map]
      exact forall₂_map_map fun c hc => (hentry c hc).1
    · split
      · exact .nil
      · exact .cons (renders_keyItem d t.tableKey) .nil
    · exact forall₂_map_map fun k _ => renders_foreignKey d k
  · intro e he
    simp only [List.mem_append, List.mem_map] at he
    rcases he with (⟨c, hc, rfl⟩ | he) | ⟨k, -, rfl⟩
    · intro hnil
      have hname := (hentry c hc).2.name
      rw [hnil] at hname
      cases hname
    · split at he
      · cases he
      · rw [List.mem_singleton.mp he]
        exact List.cons_ne_nil _ _
    · exact List.cons_ne_nil _ _

/-- **The key of a table is declared once.**  A key that is given, or that has several columns, is
one entry at the end, and its columns refuse NULL on their lines; a key of one column that says so
itself is declared on its line; nothing else declares a key.  The columns have one line each, in
order, and their comments and indexes follow the statement, and then the other indexes. -/
theorem declares_key_once (d : Dialect) (t : Table) (hnodup : (t.columns.map (·.name)).Nodup)
    (htagged : ∀ c ∈ t.columns, Tagged c) :
    ∃ columns keys foreign,
      entries? d.quoteChar (t.createStatement d).toList = some (columns ++ keys ++ foreign) ∧
      List.Forall₂ (fun c entry => entry.head? = some (.identifier c.name)) t.columns columns ∧
      foreign.length = t.foreignKeys.length ∧ (∀ entry ∈ foreign, ¬ DeclaresKey entry) ∧
      ((t.primaryKey ≠ [] ∨ 2 ≤ t.key.length) →
        keys = [keyEntry t.key] ∧
        List.Forall₂ (fun c entry => ¬ DeclaresKey entry ∧ (c.name ∈ t.key → RefusesNull entry))
          t.columns columns) ∧
      (∀ name, t.primaryKey = [] → t.key = [name] →
        keys = [] ∧
        List.Forall₂ (fun c entry => DeclaresKey entry ↔ c.name = name) t.columns columns) ∧
      (t.key = [] → keys = [] ∧ ∀ entry ∈ columns, ¬ DeclaresKey entry) ∧
      ∃ followers indexes,
        t.statements d = t.createStatement d :: (followers.flatten ++ indexes) ∧
        List.Forall₂ (fun c sqls => sqls.map (fun sql => lex? d.quoteChar sql.toList) =
          (d.companionLexemes t.name c).map some) t.columns followers ∧
        List.Forall₂ (fun i sql => lex? d.quoteChar sql.toList =
          some (createIndexLexemes i.name t.name i.columns i.unique)) t.indexes indexes := by
  obtain ⟨columns, hcolumns, hentries⟩ := exists_entries?_eq (t := t) d htagged
  -- without a key at the end the columns are defined as they are
  have hlines : t.primaryKey = [] → t.key.length ≤ 1 →
      List.Forall₂ (fun c entry => DeclaresKey entry ↔ c.name ∈ t.key) t.columns columns := by
    intro hgiven hshort
    refine (forall₂_and_mem hcolumns).imp fun c entry h => ?_
    have hdefined : t.defined c = c := if_pos (by rw [tableKey_eq_nil hgiven hshort]; rfl)
    have hkey := h.2.key
    rwa [hdefined, ← mem_key_iff hnodup hgiven h.1] at hkey
  refine ⟨columns, _, _, hentries, ?_, by simp, ?_, ?_, ?_, ?_, ?_⟩
  · refine hcolumns.imp fun c entry h => ?_
    rw [h.name, name_defined]
  · intro entry hentry
    obtain ⟨k, -, rfl⟩ := List.mem_map.mp hentry
    exact not_declaresKey_foreignKeyEntry k
  · intro hend
    obtain ⟨hkey, hne⟩ := tableKey_eq_key hend
    have hempty : ¬ t.tableKey.isEmpty = true := by simpa [hkey] using hne
    rw [if_neg hempty, hkey]
    refine ⟨rfl, hcolumns.imp fun c entry h => ?_⟩
    have hdefined : t.defined c = underTableKey t.key c := by rw [defined, if_neg hempty, hkey]
    rw [hdefined] at h
    refine ⟨fun hdeclares => Bool.false_ne_true (h.key.mp hdeclares), fun hc => h.notNull rfl ?_⟩
    simp [underTableKey, hc]
  · intro name hgiven hname
    have hshort : t.key.length ≤ 1 := by simp [hname]
    refine ⟨by rw [tableKey_eq_nil hgiven hshort]; rfl, (hlines hgiven hshort).imp ?_⟩
    intro c entry h
    rw [h, hname, List.mem_singleton]
  · intro hnone
    have hgiven : t.primaryKey = [] := by
      by_contra hgiven
      rw [key, if_neg hgiven] at hnone
      exact hgiven hnone
    have hshort : t.key.length ≤ 1 := by simp [hnone]
    refine ⟨by rw [tableKey_eq_nil hgiven hshort]; rfl, fun entry hentry hdeclares => ?_⟩
    obtain ⟨c, -, h⟩ := exists_of_forall₂ (hlines hgiven hshort) hentry
    rw [hnone] at h
    exact List.not_mem_nil (h.mp hdeclares)
  · refine ⟨t.columns.map (d.companions t.name), t.indexes.map (·.statement d t.name), ?_, ?_, ?_⟩
    · rw [statements, List.flatMap]
    · exact forall₂_map_self fun c _ => map_lex?_companions d t.name c
    · exact forall₂_map_self fun i _ =>
        (renders_createIndex d i.name t.name i.columns i.unique).lex?_eq

/-- The words PRIMARY KEY in a name, a default and a comment declare nothing; the key of two columns
stands at the end. -/
theorem declares_key_once_of_sample :
    let t : Table :=
      { name := "seats"
        columns :=
          [{ name := "row", type := .int, primaryKey := true, autoIncrement := true },
            { name := "PRIMARY KEY", type := .text, primaryKey := true,
              default? := some "' PRIMARY KEY '", comment? := some "; PRIMARY KEY (row)" }] }
    (t.columns.map (·.name)).Nodup ∧ (∀ c ∈ t.columns, Tagged c) ∧
      ∃ columns, entries? '\x60' (t.createStatement .mysql).toList =
          some (columns ++ [keyEntry ["row", "PRIMARY KEY"]]) ∧
        List.Forall₂ (fun c entry => entry.head? = some (.identifier c.name) ∧
          ¬ DeclaresKey entry ∧ RefusesNull entry) t.columns columns := by
  intro t
  have hnodup : (t.columns.map (·.name)).Nodup := by decide
  have htagged : ∀ c ∈ t.columns, Tagged c := by
    intro c hc text htext
    simp only [t, List.mem_cons, List.not_mem_nil, or_false] at hc
    rcases hc with rfl | rfl
    · cases htext
    · exact ⟨"' PRIMARY KEY '", by rw [← Option.some.inj htext]; decide⟩
  have hkey : t.key = ["row", "PRIMARY KEY"] := by decide
  obtain ⟨columns, keys, foreign, hentries, hnames, hforeign, -, hend, -⟩ :=
    declares_key_once .mysql t hnodup htagged
  obtain ⟨rfl, hlines⟩ := hend (.inr (by rw [hkey]; decide))
  obtain rfl := List.eq_nil_of_length_eq_zero hforeign
  rw [hkey, List.append_nil] at hentries
  refine ⟨hnodup, htagged, columns, hentries, ?_⟩
  have hboth := forall₂_and_mem hlines
  rw [List.forall₂_iff_zip] at hnames hboth ⊢
  refine ⟨hnames.1, fun hzip => ⟨hnames.2 hzip, (hboth.2 hzip).2.1, (hboth.2 hzip).2.2 ?_⟩⟩
  -- both columns are in the key
  have hall : ∀ c ∈ t.columns, c.name ∈ t.key := by decide
  exact hall _ (hboth.2 hzip).1

end Table

end SchemaKeeper
