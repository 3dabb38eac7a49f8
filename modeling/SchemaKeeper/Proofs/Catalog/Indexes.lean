/-
Keys and unique columns of SQLite, whatever the order of indexes.

The catalog lists the indexes of a table, and each index that can make a column unique
(`CanMark`) is asked for its members.  An index is paired here with the rows that answer
this question, so that all replies to a reading are told by a list of such pairs
(`replies`).

* `mem_solesOf`: the columns that are marked are those that such an index has as its only
  member (`UniqueAlone`), and this does not depend on the order of the list,
* `reads_markUnique_of_nameless`: an index that can make a column unique and has no name
  ends the reading; if there is none, `reads_markUnique` reads the list to its end,
* `autoIncrement_iff`: a column counts up if it is the only key and of type INTEGER,
  because the rows have been counted before.

`columns_by_indexes` is the main statement.
-/
import SchemaKeeper.Proofs.Catalog.Readers

namespace SchemaKeeper

open SchemaKeeper.Action

namespace Catalog.Sqlite

/-! ### Indexes and their members -/

/-- A unique index has one member, and this member is the column. -/
def UniqueAlone (listed : List (Row × List Row)) (column : String) : Prop :=
  ∃ index member, (index, [member]) ∈ listed ∧ CanMark index ∧
    member.text? "name" = some column

theorem onlyMember?_eq_some_iff {members : List Row} {column : String} :
    onlyMember? members = some column ↔
      ∃ member, members = [member] ∧ member.text? "name" = some column := by
  rw [onlyMember?_eq_some, List.map_eq_singleton_iff]

theorem mem_solesOf {listed : List (Row × List Row)} {column : String} :
    column ∈ solesOf listed ↔ UniqueAlone listed column := by
  rw [solesOf, List.mem_flatMap]
  constructor
  · rintro ⟨⟨index, members⟩, hp, hcolumn⟩
    dsimp only at hcolumn
    split at hcolumn
    · next hmark =>
      obtain ⟨member, rfl, hname⟩ := onlyMember?_eq_some_iff.mp (Option.mem_toList.mp hcolumn)
      exact ⟨index, member, hp, hmark, hname⟩
    · cases hcolumn
  · rintro ⟨index, member, hp, hmark, hname⟩
    refine ⟨(index, [member]), hp, ?_⟩
    rw [if_pos hmark, Option.mem_toList]
    exact onlyMember?_eq_some_iff.mpr ⟨member, rfl, hname⟩

theorem uniqueAlone_congr {listed listed' : List (Row × List Row)} (h : listed'.Perm listed)
    {column : String} : UniqueAlone listed' column ↔ UniqueAlone listed column := by
  simp only [UniqueAlone, h.mem_iff]

section Reading

variable {σ : Type} {c : Connection σ} {table : String} {columns : List DatabaseColumn}
variable {listed : List (Row × List Row)}

/-- An index that can make a column unique but has no name ends the reading. -/
theorem reads_markUnique_of_nameless (h : ∃ p ∈ listed, CanMark p.1 ∧ p.1.Lacks "name") :
    Reads c (markUnique c table (listed.map (·.1)) columns) (inquiries listed)
      (.error (missing table "name")) := by
  -- the indexes before it may mark columns, so these are arbitrary
  induction listed generalizing columns with
  | nil => simp at h
  | cons p r ih =>
    obtain ⟨index, members⟩ := p
    have hcases : CanMark index ∧ index.Lacks "name" ∨ ∃ p ∈ r, CanMark p.1 ∧ p.1.Lacks "name" := by
      simpa only [List.mem_cons, exists_eq_or_imp] using h
    rw [List.map_cons, markUnique, inquiries]
    by_cases hmark : CanMark index
    · rw [if_pos (isUniqueIndex_iff.mpr hmark), if_pos hmark]
      by_cases hlacks : index.Lacks "name"
      · rw [Row.text?_eq_none.mpr hlacks]
        exact reads_of_error (requiredText_of_lacks hlacks) _
      · obtain ⟨name, hname⟩ := Row.exists_text?_eq hlacks
        have hrest := hcases.resolve_left fun hfirst => hlacks hfirst.2
        rw [hname]
        refine Reads.ofExcept_bind (requiredText_eq_ok hname) (Reads.query_bind ?_)
        split
        · exact ih hrest
        · exact ih hrest
    · have hrest := hcases.resolve_left fun hfirst => hmark hfirst.1
      rw [if_neg (mt isUniqueIndex_iff.mp hmark), if_neg hmark]
      exact ih hrest

/-! ### Rows of columns -/

/-- A column is read from a row, and is unique if the indexes say so. -/
structure ReadFrom (table : String) (rows : List Row) (listed : List (Row × List Row)) (row : Row)
    (c : DatabaseColumn) : Prop where
  name : row.text? "name" = some c.name
  rawType : c.rawType = textOrEmpty row "type"
  plain : column table (rows.filter isKey).length row = .ok { c with unique := false }
  primaryKey : c.primaryKey = true ↔ ∃ position, row.int? "pk" = some position ∧ 0 < position.toInt
  unique : c.unique = true ↔ UniqueAlone listed c.name

theorem isKey_iff {row : Row} : isKey row = true ↔
    ∃ position, row.int? "pk" = some position ∧ 0 < position.toInt := by
  rw [isKey, decide_eq_true_iff]
  cases row.int? "pk" with
  | none => simp
  | some position => simp

/-- What a row says of its column before indexes are looked at. -/
theorem column_eq_ok {row : Row} {keyCount : Nat} {col : DatabaseColumn}
    (h : column table keyCount row = .ok col) :
    row.text? "name" = some col.name ∧ col.rawType = textOrEmpty row "type" ∧
      col.primaryKey = isKey row ∧ col.unique = false ∧
      col.autoIncrement = (isKey row && keyCount == 1 &&
        TypeText.baseName (textOrEmpty row "type") == "INTEGER") := by
  rw [column, requiredText] at h
  cases hname : row.text? "name" with
  | none =>
    rw [hname] at h
    cases h
  | some name =>
    rw [hname] at h
    obtain rfl := Except.ok.inj h
    exact ⟨rfl, rfl, rfl, rfl, rfl⟩

theorem exists_column_eq (table : String) (keyCount : Nat) {row : Row} (h : ¬ row.Lacks "name") :
    ∃ col, column table keyCount row = .ok col := by
  obtain ⟨name, hname⟩ := Row.exists_text?_eq h
  rw [column, requiredText_eq_ok hname]
  exact ⟨_, rfl⟩

theorem readFrom_marked {rows : List Row} {row : Row} {col : DatabaseColumn}
    (h : column table (rows.filter isKey).length row = .ok col) :
    ReadFrom table rows listed row (marked [] (solesOf listed) col) := by
  obtain ⟨hname, hraw, hkey, hunique, -⟩ := column_eq_ok h
  refine ⟨hname, hraw, ?_, ?_, ?_⟩
  · have hplain : { marked [] (solesOf listed) col with unique := false } = col := by
      obtain ⟨⟩ := col
      obtain rfl : _ = false := hunique
      simp [marked]
    rw [h, hplain]
  · rw [← isKey_iff, ← hkey]
    simp [marked]
  · rw [marked_name, ← mem_solesOf]
    simp [marked, hunique]

/-- A column counts up exactly if it is the only key and of type INTEGER. -/
theorem autoIncrement_iff {rows : List Row}
    (h : List.Forall₂ (ReadFrom table rows listed) rows columns) {col : DatabaseColumn}
    (hcol : col ∈ columns) :
    col.autoIncrement = true ↔
      columns.filter (·.primaryKey) = [col] ∧ TypeText.baseName col.rawType = "INTEGER" := by
  have hkeys : (rows.filter isKey).length = (columns.filter (·.primaryKey)).length := by
    have hsame : rows.map isKey = columns.map (·.primaryKey) :=
      map_eq_of_forall₂ h fun row col hrow => (column_eq_ok hrow.plain).2.2.1.symm
    have hcount := congrArg (List.countP id) hsame
    rw [List.countP_map, List.countP_map] at hcount
    rw [← List.countP_eq_length_filter, ← List.countP_eq_length_filter]
    exact hcount
  obtain ⟨row, -, hrow⟩ := exists_of_forall₂ h hcol
  obtain ⟨-, hraw, hkey, -, hauto⟩ := column_eq_ok hrow.plain
  dsimp only at hraw hkey hauto
  rw [hauto, Bool.and_eq_true, Bool.and_eq_true, beq_iff_eq, beq_iff_eq, ← hraw, ← hkey, hkeys]
  refine and_congr_left fun _ => ?_
  constructor
  · rintro ⟨hkey, hlength⟩
    obtain ⟨only, honly⟩ := List.length_eq_one_iff.mp hlength
    have hmem : col ∈ columns.filter (·.primaryKey) := List.mem_filter.mpr ⟨hcol, hkey⟩
    rw [honly, List.mem_singleton] at hmem
    rw [honly, hmem]
  · intro honly
    have hmem : col ∈ columns.filter (·.primaryKey) := by
      rw [honly]
      exact List.mem_singleton_self col
    rw [honly]
    exact ⟨(List.mem_filter.mp hmem).2, rfl⟩

/-! ### The columns of a table -/

end Reading

/-- The columns of a table with their keys and unique columns.  Each row of the catalog gives one
column, in order.  A column is a key if its position in the key is positive; it counts up if it is
the only key and of type INTEGER; and it is unique if it is the only member of a unique index that
is not that of the primary key.  The indexes may come in any order.  The reading fails exactly if
one of these indexes has no name. -/
theorem columns_by_indexes {σ : Type} {c : Connection σ} {table : String}
    (hdialect : c.dialect = .sqlite) (hname : isNoName table = false) {rows : List Row}
    (hne : rows ≠ []) (hnamed : ∀ row ∈ rows, ¬ row.Lacks "name")
    (hnodup : (rows.map (·.text? "name")).Nodup) (listed : List (Row × List Row)) :
    ((∀ p ∈ listed, CanMark p.1 → ¬ p.1.Lacks "name") →
      ∃ columns, List.Forall₂ (ReadFrom table rows listed) rows columns ∧
        (∀ col ∈ columns, col.autoIncrement = true ↔
          columns.filter (·.primaryKey) = [col] ∧
            TypeText.baseName col.rawType = "INTEGER") ∧
        ∀ listed', listed'.Perm listed →
          Reads c (c.tableColumns table) (replies table rows listed') (.ok columns)) ∧
    ((∃ p ∈ listed, CanMark p.1 ∧ p.1.Lacks "name") →
      Reads c (c.tableColumns table) (replies table rows listed)
        (.error (missing table "name"))) := by
  have hcatalog : c.catalogColumns table = Sqlite.columns c table := by
    rw [Connection.catalogColumns, hdialect]
  obtain ⟨base, hbase, hbase_ne, hbase_nodup, hread⟩ := exists_columns_of_named
    (fun row hrow => exists_column_eq table (rows.filter isKey).length (hnamed row hrow))
    (fun row col hcol => (column_eq_ok hcol).1) hne hnodup
  refine ⟨fun hindexes => ?_, fun hnameless => ?_⟩
  · have hmarked : List.Forall₂ (ReadFrom table rows listed) rows
        (base.map (marked [] (solesOf listed))) :=
      List.forall₂_map_right_iff.mpr (hread.imp fun row col => readFrom_marked)
    refine ⟨_, hmarked, fun col => autoIncrement_iff hmarked, fun listed' hperm => ?_⟩
    have hmarks : base.map (marked [] (solesOf listed')) =
        base.map (marked [] (solesOf listed)) := by
      refine congrArg (base.map ·) (marked_congr (fun _ => Iff.rfl) fun name => ?_)
      rw [mem_solesOf, mem_solesOf, uniqueAlone_congr hperm]
    have hreads : Reads c (markUnique c table (listed'.map (·.1)) (base.map (marked [] [])))
        (inquiries listed') (.ok (base.map (marked [] (solesOf listed')))) :=
      reads_markUnique hbase_nodup (fun p hp => hindexes p (hperm.mem_iff.mp hp)) []
    rw [List.map_id'' marked_nil, hmarks] at hreads
    exact Connection.reads_tableColumns hname (by simpa using hbase_ne)
      (hcatalog ▸ reads_columns hbase hbase_ne hreads)
  · exact Connection.reads_tableColumns_error hname
      (hcatalog ▸ reads_columns hbase hbase_ne (reads_markUnique_of_nameless hnameless))

section Sample

/-- Rows of a table with a key that counts up and two columns that are unique together; one of
these is unique alone as well. -/
def sampleRows : List Row :=
  [[("name", .text "id"), ("type", .text "INTEGER"), ("pk", .integer 1)],
    [("name", .text "mail"), ("type", .text "TEXT"), ("pk", .integer 0)],
    [("name", .text "team"), ("type", .text "TEXT"), ("pk", .integer 0)]]

/-- Indexes with their members.  One of them is on an expression, so its member has no name, and one
is not unique and has no name itself. -/
def sampleIndexes : List (Row × List Row) :=
  [([("name", .text "pair"), ("unique", .integer 1), ("origin", .text "u")],
      [[("name", .text "mail")], [("name", .text "team")]]),
    ([("name", .text "lower"), ("unique", .integer 1), ("origin", .text "c")],
      [[("name", .null)]]),
    ([("name", .null), ("unique", .integer 0), ("origin", .text "c")], []),
    ([("name", .text "mail_key"), ("unique", .integer 1), ("origin", .text "u")],
      [[("name", .text "mail")]])]

/-- A unique index without a name. -/
def sampleGap : Row :=
  [("name", .null), ("unique", .integer 1), ("origin", .text "u")]

theorem columns_by_indexes_of_sample :
    (∃ columns, List.Forall₂ (ReadFrom "people" sampleRows sampleIndexes) sampleRows columns ∧
      ((Connection.reciting .sqlite).tableColumns "people"
        { state := (replies "people" sampleRows sampleIndexes.reverse).map (·.rows) }).1 =
          .ok columns) ∧
    ((Connection.reciting .sqlite).tableColumns "people"
      { state := [sampleRows, [sampleGap]] }).1 = .error (missing "people" "name") := by
  have hname : isNoName "people" = false := by decide
  have hindexes : ∀ p ∈ sampleIndexes, CanMark p.1 → ¬ p.1.Lacks "name" := by decide
  have hsample := columns_by_indexes (c := Connection.reciting .sqlite) rfl hname
    (by simp [sampleRows] : sampleRows ≠ []) (by decide) (by decide)
  refine ⟨?_, ?_⟩
  · obtain ⟨columns, hread, -, horder⟩ := (hsample sampleIndexes).1 hindexes
    exact ⟨columns, hread, (horder _ (List.reverse_perm _)).eq_of_reciting⟩
  · exact ((hsample [(sampleGap, [])]).2
      ⟨(sampleGap, []), by simp, by decide, by decide⟩).eq_of_reciting

end Sample

end Catalog.Sqlite

end SchemaKeeper
