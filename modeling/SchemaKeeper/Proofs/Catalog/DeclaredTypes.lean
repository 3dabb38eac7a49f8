/-
Types as SQLite declares them.

SQLite keeps the type of a column as the text that declared it, so whoever reads the
catalog meets types in any spelling.

* `sizes_of_spelled`: a spelling of a type has the length, the precision and the scale of
  the type, and no others,
* `sameType_of_spelled`: it is the type that a model wants by this type,
* `exists_reads_markUnique`: marks leave everything else of a column as it is.

`types_as_written` puts them together with the reading of a whole table.
-/
import SchemaKeeper.Dialect.TypeName
import SchemaKeeper.Proofs.Catalog.Indexes
import SchemaKeeper.Proofs.Column.Spelling

namespace SchemaKeeper

open SchemaKeeper.Action ColumnType Text

namespace Catalog.Sqlite

/-! ### One row -/

section Rows

variable {t : ColumnType} {raw : String}

/-- The types with a precision are the decimal ones. -/
theorem isDecimal_of_spelled (h : Spelled t raw.toList) :
    isDecimal raw = t.precision?.isSome := by
  rw [isDecimal, h.baseName_eq]
  cases t <;> simp only [word, toText, precision?, Option.isSome] <;> decide

/-- The types with a length are those of characters. -/
theorem hasFragment_word (t : ColumnType) :
    Text.hasFragment "CHAR".toList t.word.toList = t.length?.isSome := by
  cases t <;> simp only [word, toText, length?, Option.isSome] <;> decide

/-- The sizes in a spelling of a type are those of the type. -/
theorem sizes_of_spelled (h : Spelled t raw.toList) : declaredLength? raw = t.length? ∧
    declaredPrecision? raw = t.precision? ∧ declaredScale? raw = t.scale? := by
  rw [declaredLength?, declaredPrecision?, declaredScale?, isDecimal_of_spelled h, h.base_eq,
    hasFragment_word, h.parameters_eq]
  cases t <;> exact ⟨rfl, rfl, rfl⟩

theorem sameType_of_spelled (h : Spelled t raw.toList) :
    Dialect.sqlite.sameType t raw = true := by
  have hname : TypeText.baseName raw = TypeText.baseName t.toText := by
    rw [h.baseName_eq, (spelled_toText t).baseName_eq]
  simp only [Dialect.sameType, hname, beq_self_eq_true, Bool.or_true]

/-- A column has the sizes of a type, and the type that a model wants by it. -/
structure HasType (t : ColumnType) (col : DatabaseColumn) : Prop where
  length : col.length? = t.length?
  precision : col.precision? = t.precision?
  scale : col.scale? = t.scale?
  type : Dialect.sqlite.sameType t col.rawType = true

/-- The sizes of a column are those that its type declares. -/
theorem sizes_of_column {table : String} {keyCount : Nat} {row : Row} {col : DatabaseColumn}
    (h : column table keyCount row = .ok col) : col.rawType = textOrEmpty row "type" ∧
      col.length? = declaredLength? col.rawType ∧ col.precision? = declaredPrecision? col.rawType ∧
      col.scale? = declaredScale? col.rawType := by
  rw [column, requiredText] at h
  cases hname : row.text? "name" with
  | none =>
    rw [hname] at h
    cases h
  | some name =>
    rw [hname] at h
    obtain rfl := Except.ok.inj h
    dsimp only
    exact ⟨rfl, rfl, rfl, rfl⟩

theorem hasType_of_column {table : String} {keyCount : Nat} {row : Row} {col : DatabaseColumn}
    (hcol : column table keyCount row = .ok col) (hraw : row.text? "type" = some raw)
    (h : Spelled t raw.toList) : HasType t col := by
  obtain ⟨htype, hlength, hprecision, hscale⟩ := sizes_of_column hcol
  rw [textOrEmpty_of_text? hraw] at htype
  subst htype
  obtain ⟨hlength', hprecision', hscale'⟩ := sizes_of_spelled h
  exact ⟨hlength.trans hlength', hprecision.trans hprecision', hscale.trans hscale',
    sameType_of_spelled h⟩

end Rows

/-! ### Marks -/

section Marks

variable {σ : Type}

/-- The same column, perhaps with another mark for uniqueness. -/
def SameButMark (a b : DatabaseColumn) : Prop :=
  b = { a with unique := b.unique }

theorem SameButMark.trans {a b d : DatabaseColumn} (hab : SameButMark a b) (hbd : SameButMark b d) :
    SameButMark a d := by
  rw [SameButMark] at *
  rw [hbd, hab]

theorem forall₂_updateFirst (name : String) (columns : List DatabaseColumn) :
    List.Forall₂ SameButMark columns (updateFirst name asUnique columns) := by
  have hrefl : ∀ a, SameButMark a a := fun _ => rfl
  induction columns with
  | nil => exact .nil
  | cons a r ih =>
    rw [updateFirst]
    split
    · exact .cons rfl (List.forall₂_same.mpr fun b _ => hrefl b)
    · exact .cons (hrefl a) ih

/-- Whatever the indexes say, only marks for uniqueness are put. -/
theorem exists_reads_markUnique (c : Connection σ) (table : String) {listed : List (Row × List Row)}
    (hnamed : ∀ p ∈ listed, CanMark p.1 → ¬ p.1.Lacks "name") (columns : List DatabaseColumn) :
    ∃ marked, Reads c (markUnique c table (listed.map (·.1)) columns) (inquiries listed)
      (.ok marked) ∧ List.Forall₂ SameButMark columns marked := by
  induction listed generalizing columns with
  | nil => exact ⟨columns, reads_pure columns, List.forall₂_same.mpr fun _ _ => rfl⟩
  | cons p r ih =>
    obtain ⟨index, members⟩ := p
    obtain ⟨hfirst, hrest⟩ := List.forall_mem_cons.mp hnamed
    rw [List.map_cons, markUnique, inquiries]
    by_cases hmark : CanMark index
    · obtain ⟨name, hname⟩ := Row.exists_text?_eq (hfirst hmark)
      rw [if_pos (isUniqueIndex_iff.mpr hmark), if_pos hmark, hname]
      cases hmember : onlyMember? members with
      | none =>
        obtain ⟨marked, hreads, hsame⟩ := ih hrest columns
        refine ⟨marked, Reads.ofExcept_bind (requiredText_eq_ok hname) (Reads.query_bind ?_), hsame⟩
        rw [hmember]
        exact hreads
      | some member =>
        obtain ⟨marked, hreads, hsame⟩ := ih hrest (updateFirst member asUnique columns)
        refine ⟨marked, Reads.ofExcept_bind (requiredText_eq_ok hname) (Reads.query_bind ?_),
          ?_⟩
        · rw [hmember]
          exact hreads
        · exact forall₂_trans (forall₂_updateFirst member columns) hsame fun _ _ _ =>
            SameButMark.trans
    · rw [if_neg (mt isUniqueIndex_iff.mp hmark), if_neg hmark]
      exact ih hrest columns

end Marks

/-- **Types are read as they are written.**  A text that writes a type in letters of either case,
with blanks at its ends, before the parenthesis and around the numbers, is read as this type.  A
column that SQLite declares by such a text is found with the length, the precision and the scale of
the type, and with the type that a model wants by it. -/
theorem types_as_written {t : ColumnType} {text : String}
    (h : Respelt t.toText.toList text.toList) :
    ColumnType.read? text.toList = some t ∧
    ∀ {σ : Type} (c : Connection σ) (table : String) (rows : List Row)
      (listed : List (Row × List Row)), c.dialect = .sqlite → isNoName table = false → rows ≠ [] →
      (∀ row ∈ rows, ¬ row.Lacks "name") → (∀ p ∈ listed, CanMark p.1 → ¬ p.1.Lacks "name") →
      ∃ columns, Reads c (c.tableColumns table) (replies table rows listed) (.ok columns) ∧
        List.Forall₂ (fun row col => row.text? "name" = some col.name ∧
          (row.text? "type" = some text → col.rawType = text ∧ HasType t col)) rows columns := by
  have hspelled : Spelled t text.toList := spelled_of_respelt h
  refine ⟨hspelled.read?_eq, fun c table rows listed hdialect htable hne hrows hlisted => ?_⟩
  have hcatalog : c.catalogColumns table = Sqlite.columns c table := by
    rw [Connection.catalogColumns, hdialect]
  obtain ⟨base, hbase, hread⟩ := exists_mapM_of_forall
    fun row hrow => exists_column_eq table (rows.filter isKey).length (hrows row hrow)
  have hbase_ne : base ≠ [] := ne_nil_of_forall₂ hread hne
  obtain ⟨marked, hmarks, hsame⟩ := exists_reads_markUnique c table hlisted base
  have hreads : Reads c (c.catalogColumns table) (replies table rows listed) (.ok marked) := by
    rw [hcatalog]
    exact reads_columns hbase hbase_ne hmarks
  refine ⟨marked, Connection.reads_tableColumns htable (ne_nil_of_forall₂ hsame hbase_ne) hreads, ?_⟩
  refine forall₂_trans hread hsame fun row col col' hcol hmark => ?_
  obtain ⟨hname, hraw, -⟩ := column_eq_ok hcol
  rw [SameButMark] at hmark
  rw [hmark]
  refine ⟨hname, fun htext => ⟨hraw.trans (textOrEmpty_of_text? htext), ?_⟩⟩
  have htype : HasType t col := hasType_of_column hcol htext hspelled
  exact ⟨htype.length, htype.precision, htype.scale, htype.type⟩

/-- A decimal type with blanks of several kinds, declared for one of two columns. -/
theorem types_as_written_of_sample :
    let text := " Decimal\t( 12 ,2) "
    let rows : List Row := [[("name", .text "id"), ("type", .text "integer"), ("pk", .integer 1)],
      [("name", .text "price"), ("type", .text text), ("pk", .integer 0)]]
    Respelt (decimal 12 2).toText.toList text.toList ∧
      ColumnType.read? text.toList = some (decimal 12 2) ∧
      ∃ columns, ((Connection.reciting .sqlite).tableColumns "goods"
          { state := (replies "goods" rows []).map (·.rows) }).1 = .ok columns ∧
        List.Forall₂ (fun row col => row.text? "name" = some col.name ∧
          (row.text? "type" = some text →
            col.rawType = text ∧ HasType (decimal 12 2) col)) rows columns := by
  intro text rows
  have hpad : ∀ b w w' b' : List Char, IsBlanks b → IsBlanks b' → sameLetters w w' = true →
      Padded w (b ++ w' ++ b') :=
    fun b w w' b' hb hb' hsame => ⟨b, w', b', hb, hb', hsame, rfl⟩
  have hend : Respelt [] [' '] :=
    .word (by decide) (hpad [' '] [] [] [] (by decide) (by decide) rfl)
  have hscale : Respelt "2)".toList "2) ".toList :=
    .mark (w := ['2']) (by decide) rfl (hpad [] _ ['2'] [] (by decide) (by decide) rfl) hend
  have hprecision : Respelt "12,2)".toList " 12 ,2) ".toList :=
    .mark (w := ['1', '2']) (by decide) rfl
      (hpad [' '] _ ['1', '2'] [' '] (by decide) (by decide) rfl) hscale
  have hrespelt : Respelt (decimal 12 2).toText.toList text.toList := by
    have htype : (decimal 12 2).toText.toList = "DECIMAL".toList ++ '(' :: "12,2)".toList := by
      decide
    have htext : text.toList = " Decimal\t".toList ++ '(' :: " 12 ,2) ".toList := by decide
    rw [htype, htext]
    have hname : Padded "DECIMAL".toList " Decimal\t".toList :=
      hpad [' '] _ "Decimal".toList ['\t'] (by decide) (by decide) (by decide)
    exact Respelt.mark (c := '(') (by decide) rfl hname hprecision
  have hwritten := types_as_written hrespelt
  obtain ⟨columns, hreads, hcolumns⟩ := hwritten.2 (Connection.reciting .sqlite) "goods" rows []
    rfl (by decide) (by simp [rows]) (by decide) (by simp)
  exact ⟨hrespelt, hwritten.1, columns, hreads.eq_of_reciting, hcolumns⟩

end Catalog.Sqlite
end SchemaKeeper
