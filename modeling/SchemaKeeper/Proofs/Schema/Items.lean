/-
The items of CREATE TABLE.

Names and comments may be any texts, and yet a CREATE TABLE statement has the items that
its table has, because every text goes into it between quotes and with its quotes
doubled.  A default goes into it as it stands, so it has to be one that a tag gives.

* `forall₂_phrase_items`: each item is written by tokens that no comma parts,
* `items?_createStatement`: read back, the statement has one item for each column, one for
  a key at the end and one for each foreign key, in this order.
-/
import SchemaKeeper.Proofs.Dialect.Phrases
import SchemaKeeper.Proofs.Lists
import SchemaKeeper.Proofs.Schema.Creation

namespace SchemaKeeper

open Text Sql Dialect

/-! ### Keys -/

/-- The tokens of a key at the end of the statement. -/
def keyTokens (key : List String) : List Token :=
  plainText "PRIMARY KEY ".toList ++ listTokens key

/-- The tokens of a foreign key. -/
def ForeignKey.tokens (k : ForeignKey) : List Token :=
  plainText "FOREIGN KEY ".toList ++ listTokens [k.column] ++ plainText " REFERENCES ".toList ++
    [.identifier k.foreignTable] ++ plainText " ".toList ++ listTokens [k.foreignColumn] ++
    plainText (actionPart " ON DELETE " k.onDelete? ++ actionPart " ON UPDATE " k.onUpdate?).toList

variable {d : Dialect} {lead : String}

theorem phrase_keyItem (hlead : lead.toList.all isOrdinary = true) (key : List String) :
    Phrase d (lead ++ Table.keyItem d key).toList (plainText lead.toList ++ keyTokens key) := by
  have hword := phrase_ordinary d (s := "PRIMARY KEY ".toList) rfl
  have hitem := (phrase_ordinary d hlead).append (hword.append (phrase_quoteAll d key))
  simpa [Table.keyItem, keyTokens] using hitem

theorem all_isOrdinary_actionPart (keyword : String) (h : keyword.toList.all isOrdinary = true)
    (action? : Option ReferentialAction) :
    (actionPart keyword action?).toList.all isOrdinary = true := by
  cases action? with
  | none => rfl
  | some action =>
    have haction : action.toText.toList.all isOrdinary = true := by cases action <;> rfl
    simp only [actionPart, String.toList_append, List.all_append, h, haction, Bool.and_self]

theorem phrase_foreignKey (hlead : lead.toList.all isOrdinary = true) (k : ForeignKey) :
    Phrase d (lead ++ k.toText d).toList (plainText lead.toList ++ k.tokens) := by
  have hcolumn := (phrase_ordinary d (s := "FOREIGN KEY ".toList) rfl).append
    (phrase_quoteAll d [k.column])
  have htable := phrase_quoted d (s := " REFERENCES ".toList) (t := .identifier k.foreignTable) rfl
    (by decide) rfl
  have hforeign := (phrase_ordinary d (s := " ".toList) rfl).append
    (phrase_quoteAll d [k.foreignColumn])
  have hactions := (phrase_ordinary d (all_isOrdinary_actionPart " ON DELETE " rfl k.onDelete?)).append
    (phrase_ordinary d (all_isOrdinary_actionPart " ON UPDATE " rfl k.onUpdate?))
  have hitem := (phrase_ordinary d hlead).append
    (hcolumn.append (htable.append (hforeign.append hactions)))
  -- the parentheses of the lists are written with the words around them
  have hopen : "FOREIGN KEY (".toList = "FOREIGN KEY ".toList ++ ['('] := rfl
  have hclose : ") REFERENCES ".toList = ')' :: " REFERENCES ".toList := rfl
  have hopen' : " (".toList = " ".toList ++ ['('] := rfl
  have hclose' : ")".toList = [')'] := rfl
  unfold ForeignKey.toText ForeignKey.tokens
  simpa only [String.toList_append, hopen, hclose, hopen', hclose', quoteAll, quote, toList_quoted,
    List.map_cons, List.map_nil, String.intercalate_singleton, Token.chars, plainText_append,
    List.append_assoc, List.cons_append, List.nil_append] using hitem

namespace Table

variable {t : Table}

/-! ### Items -/

/-- The tokens of the items of a table, where `rest` are those that follow the name of a column in
its definition. -/
def itemTokens (t : Table) (rest : ModelColumn → List Token) : List (List Token) :=
  t.columns.map (fun c => .identifier c.name :: rest c) ++
    (if t.tableKey.isEmpty then [] else [keyTokens t.tableKey]) ++
    t.foreignKeys.map ForeignKey.tokens

theorem name_defined {c : ModelColumn} : (t.defined c).name = c.name := by
  unfold defined
  split <;> rfl

theorem tagged_defined {c : ModelColumn} (h : Tagged c) : Tagged (t.defined c) := by
  unfold defined
  split <;> exact h

/-- The items, each with the same blanks before it, are phrases. -/
theorem forall₂_phrase_items (lead : String) (hlead : lead.toList.all isOrdinary = true)
    (hne : lead ≠ "") (htagged : ∀ c ∈ t.columns, Tagged c) :
    ∃ rest, List.Forall₂ (fun item ts => Phrase d (lead ++ item).toList (plainText lead.toList ++ ts))
      (t.items d) (t.itemTokens rest) := by
  have hcolumns : ∀ c ∈ t.columns, ∃ rest, Phrase d (lead ++ d.definition (t.defined c)).toList
      (plainText lead.toList ++ .identifier c.name :: rest) := by
    intro c hc
    have hdefinition := phrase_definition (d := d) hlead hne (tagged_defined (t := t) (htagged c hc))
    rwa [name_defined] at hdefinition
  choose! rest hrest using hcolumns
  refine ⟨rest, List.rel_append (List.rel_append ?_ ?_) ?_⟩
  · rw [definedColumns_eq, List.map_map]
    exact forall₂_map_map hrest
  · by_cases hkey : t.tableKey.isEmpty = true
    · rw [if_pos hkey, if_pos hkey]
      exact .nil
    · rw [if_neg hkey, if_neg hkey]
      exact .cons (phrase_keyItem hlead t.tableKey) .nil
  · exact forall₂_map_map fun k _ => phrase_foreignKey hlead k

/-- Lines with commas at their ends. -/
theorem spells_lines {lines : List (List Char)} {tss : List (List Token)}
    (h : List.Forall₂ (Phrase d) lines tss) :
    Spells d.quoteChar (List.intercalate ",\n".toList lines)
      (List.intercalate (plainText ",\n".toList) tss) := by
  have hsep : Spells d.quoteChar ",\n".toList (plainText ",\n".toList) :=
    spells_plainText (by cases d <;> simp [quoteChar])
  induction h with
  | nil => exact spells_plainText (s := []) (by simp)
  | cons hfirst hrest ih =>
    cases hrest with
    | nil => simpa using hfirst.spells
    | cons =>
      rw [List.intercalate_cons_cons, List.intercalate_cons_cons, List.append_assoc,
        List.append_assoc]
      exact hfirst.spells.append (hsep.append ih)

/-- The statement up to its parenthesis. -/
theorem phrase_createTable (d : Dialect) (t : Table) :
    ∃ ts, Phrase d ("CREATE TABLE " ++ textIf t.ifNotExists "IF NOT EXISTS " ++ d.quote t.name ++
      " ").toList ts ∧ ∀ token ∈ ts, token.isParenthesis = false := by
  let words := "CREATE TABLE " ++ textIf t.ifNotExists "IF NOT EXISTS "
  have hwords : words.toList.all isOrdinary = true := by
    cases h : t.ifNotExists <;> simp only [words, h] <;> rfl
  have hname := phrase_quoted d (t := .identifier t.name) hwords (by simp [words]) rfl
  have hhead := hname.append (phrase_ordinary d (s := " ".toList) rfl)
  refine ⟨plainText words.toList ++ [.identifier t.name] ++ plainText " ".toList, ?_, ?_⟩
  · simpa only [words, Token.chars, String.toList_append, quote, toList_quoted] using hhead
  · intro token htoken
    simp only [List.mem_append, mem_plainText, List.mem_singleton] at htoken
    rcases htoken with (⟨c, hc, rfl⟩ | rfl) | ⟨c, hc, rfl⟩
    · exact not_isParenthesis_of_isOrdinary (List.all_eq_true.mp hwords c hc)
    · rfl
    · rw [List.mem_singleton.mp hc]
      rfl

theorem toList_createStatement (d : Dialect) (t : Table) :
    (t.createStatement d).toList = ("CREATE TABLE " ++ textIf t.ifNotExists "IF NOT EXISTS " ++
      d.quote t.name ++ " ").toList ++ ("(\n".toList ++ (List.intercalate ",\n".toList
        ((t.items d).map fun item => ("    " ++ item).toList) ++ "\n)".toList)) := by
  have hlines : (",\n".intercalate ((t.items d).map ("    " ++ ·))).toList =
      List.intercalate ",\n".toList ((t.items d).map fun item => ("    " ++ item).toList) := by
    rw [String.toList_intercalate, List.map_map]
    rfl
  have hopen : " (\n" = " " ++ "(\n" := rfl
  unfold createStatement
  simp only [hopen, String.toList_append, hlines, List.append_assoc]

/-- The statement is read as what stands before its parenthesis and, in parentheses, the items on
lines of their own. -/
theorem read?_createStatement {items : List (List Token)} (h : List.Forall₂ (Phrase d)
      ((t.items d).map fun item => ("    " ++ item).toList) items) :
    ∃ head, read? d.quoteChar (t.createStatement d).toList =
        some (head ++ .plain '(' :: (lineTokens items ++ [.plain ')'])) ∧
      ∀ token ∈ head, token.isParenthesis = false := by
  obtain ⟨head, hhead, hflat⟩ := phrase_createTable d t
  have hopen : Spells d.quoteChar "(\n".toList (plainText "(\n".toList) :=
    spells_plainText (by cases d <;> simp [quoteChar])
  have hclose : Spells d.quoteChar "\n)".toList (plainText "\n)".toList) :=
    spells_plainText (by cases d <;> simp [quoteChar])
  have hstatement := hhead.spells.append (hopen.append ((spells_lines h).append hclose))
  have hread := read?_write (quoteChar_ne d) hstatement.legible
  rw [← hstatement.eq_write, ← toList_createStatement] at hread
  have htokens : plainText "(\n".toList ++ (List.intercalate (plainText ",\n".toList) items ++
      plainText "\n)".toList) = .plain '(' :: (lineTokens items ++ [.plain ')']) := by
    have hopens : ∀ ts, plainText "(\n".toList ++ ts = .plain '(' :: .plain '\n' :: ts :=
      fun _ => rfl
    have hcloses : plainText "\n)".toList = [.plain '\n'] ++ [.plain ')'] := rfl
    rw [hopens, hcloses, ← List.append_assoc]
    rfl
  rw [htokens] at hread
  exact ⟨head, hread, hflat⟩

/-- **A CREATE TABLE statement has the items of its table, whatever names and comments there are**:
its quotes and parentheses are closed, and in its outer parentheses stand the columns, each behind
its name, then a key that is written at the end, then the foreign keys. -/
theorem items?_createStatement (d : Dialect) (t : Table) (hne : t.columns ≠ [])
    (htagged : ∀ c ∈ t.columns, Tagged c) :
    ∃ rest pieces, items? d.quoteChar (t.createStatement d).toList = some pieces ∧
      List.Forall₂ Surrounds (t.itemTokens rest) pieces ∧
      pieces.length = t.columns.length + (if t.tableKey.isEmpty then 0 else 1) +
        t.foreignKeys.length := by
  obtain ⟨rest, hphrases⟩ := forall₂_phrase_items (d := d) (t := t) "    " rfl (by decide) htagged
  let items := (t.itemTokens rest).map (plainText "    ".toList ++ ·)
  have hlines : List.Forall₂ (Phrase d) ((t.items d).map fun item => ("    " ++ item).toList)
      items := by
    rwa [List.forall₂_map_left_iff, List.forall₂_map_right_iff]
  obtain ⟨head, hread, hflat⟩ := read?_createStatement hlines
  have hitems : items ≠ [] := by simpa [items, itemTokens] using fun h => absurd h hne
  have hpiece : ∀ item ∈ items, IsPiece item := by
    intro item hitem
    obtain ⟨line, -, hline⟩ := exists_of_forall₂ hlines hitem
    exact hline.isPiece
  obtain ⟨pieces, hpieces, hsurrounds⟩ := pieces?_lineTokens hitems hpiece
  -- the blanks before an item count as blanks around it
  have hblank : ∀ token ∈ plainText "    ".toList, token.isBlank = true := by decide
  have hfound : List.Forall₂ Surrounds (t.itemTokens rest) pieces := by
    rw [List.forall₂_map_left_iff] at hsurrounds
    exact hsurrounds.imp fun _ _ h => h.of_append hblank
  refine ⟨rest, pieces, ?_, hfound, ?_⟩
  · rw [items?, hread, Option.bind_some, body?_append hflat, Option.bind_some, hpieces]
  · rw [← hfound.length_eq]
    simp only [itemTokens, List.length_append, List.length_map]
    split <;> rfl

/-- Quotes, parentheses, commas and marks of comments in names, in a comment and in a default leave
three columns, a key and a foreign key. -/
theorem items?_createStatement_of_sample :
    let t : Table :=
      { name := "a\x60 (b, c) -- "
        columns :=
          [{ name := "id\x60 INT, secret", type := .bigInt, primaryKey := true },
            { name := ")", type := .varchar 40, primaryKey := true,
              comment? := some "it's (here, and there" },
            { name := "", type := .text, default? := some (normalizeDefault "'), (x") }]
        foreignKeys := [{ column := ",", foreignTable := "\x60\x60", foreignColumn := "(" }] }
    t.columns ≠ [] ∧ (∀ c ∈ t.columns, Tagged c) ∧
      ∃ pieces, items? '\x60' (t.createStatement .mysql).toList = some pieces ∧
        pieces.length = 5 := by
  intro t
  have hne : t.columns ≠ [] := List.cons_ne_nil _ _
  have htagged : ∀ c ∈ t.columns, Tagged c := by
    intro c hc literal hliteral
    simp only [t, List.mem_cons, List.not_mem_nil, or_false] at hc
    rcases hc with rfl | rfl | rfl
    · cases hliteral
    · cases hliteral
    · exact ⟨_, (Option.some.inj hliteral).symm⟩
  obtain ⟨-, pieces, hpieces, -, hlength⟩ := items?_createStatement .mysql t hne htagged
  exact ⟨hne, htagged, pieces, hpieces, hlength⟩

end Table

end SchemaKeeper
