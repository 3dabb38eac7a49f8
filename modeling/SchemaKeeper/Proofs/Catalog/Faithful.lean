/-
Catalogs that show a table as its model has it.

`Connection.ShowsTable` says what the rows of a catalog hold for each column of the
model, and what its indexes and constraints say of keys and unique columns.  The rows
may come in any order, and nothing is said of what the readers have no use for:

* in SQLite, one row for each column, and one for each index with the rows of its
  members,
* in PostgreSQL, one row for each column, and one for each member of a constraint,
* in MySQL, one row for each column, with the key that it belongs to.

`exists_agrees_of_showsTable` is the main statement: from such a catalog columns are
read that agree with those of the model.
-/
import SchemaKeeper.Proofs.Catalog.Readers
import SchemaKeeper.Proofs.Comparison.Reported

namespace SchemaKeeper

open SchemaKeeper.Action Dialect

namespace Catalog

/-! ### Rows of columns -/

/-- A cell that holds a size, or NULL. -/
inductive SizeCell (n : UInt32) : Value → Prop
  | null : SizeCell n .null
  | size {k : Int64} (h : k.toInt = n.toNat) : SizeCell n (.integer k)

/-- The columns of an information schema. -/
structure InformationNames where
  name : String
  type : String
  length : String
  precision : String
  scale : String
  nullable : String
  default : String
  comment : String

/-- A row of an information schema shows a column. -/
structure ShowsInformation (d : Dialect) (n : InformationNames) (row : Row) (c : ModelColumn) :
    Prop where
  name : row.text? n.name = some c.name
  type : ∃ raw, row.text? n.type = some raw ∧ d.sameType c.type raw = true
  length : ∀ k, c.type.length? = some k → ∃ v, row.cell? n.length = some v ∧ SizeCell k v
  precision : ∀ k, c.type.precision? = some k → ∃ v, row.cell? n.precision = some v ∧ SizeCell k v
  scale : ∀ k, c.type.scale? = some k → ∃ v, row.cell? n.scale = some v ∧ SizeCell k v
  notNull : c.primaryKey = false →
    row.cell? n.nullable = some (.text (if c.notNull then "NO" else "YES"))
  default : c.autoIncrement = false → d.ReportsDefault c (row.text? n.default)
  comment : (row.text? n.comment).getD "" = c.comment?.getD ""

def Postgres.names : InformationNames where
  name := "column_name"
  type := "data_type"
  length := "character_maximum_length"
  precision := "numeric_precision"
  scale := "numeric_scale"
  nullable := "is_nullable"
  default := "column_default"
  comment := "column_comment"

def Mysql.names : InformationNames where
  name := "COLUMN_NAME"
  type := "COLUMN_TYPE"
  length := "CHARACTER_MAXIMUM_LENGTH"
  precision := "NUMERIC_PRECISION"
  scale := "NUMERIC_SCALE"
  nullable := "IS_NULLABLE"
  default := "COLUMN_DEFAULT"
  comment := "COLUMN_COMMENT"

/-- A row of MySQL shows a column and the key that it belongs to. -/
structure Mysql.Shows (row : Row) (c : ModelColumn) : Prop where
  information : ShowsInformation .mysql names row c
  primaryKey : c.primaryKey = true ↔ row.text? "COLUMN_KEY" = some "PRI"
  unique : c.primaryKey = false → (c.unique = true ↔ row.text? "COLUMN_KEY" = some "UNI")

/-- A row of SQLite shows a column. -/
structure Sqlite.Shows (row : Row) (c : ModelColumn) : Prop where
  name : row.text? "name" = some c.name
  type : ∃ raw, row.text? "type" = some raw ∧ Dialect.sqlite.sameType c.type raw = true
  notNull : c.primaryKey = false →
    row.cell? "notnull" = some (.integer (if c.notNull then 1 else 0))
  primaryKey : ∃ position : Int64, row.cell? "pk" = some (.integer position) ∧
    (c.primaryKey = true ↔ 0 < position.toInt)
  default : c.autoIncrement = false → Dialect.sqlite.ReportsDefault c (row.text? "dflt_value")

section Rows

variable {row : Row} {c : ModelColumn} {column : String}

theorem isSize_size? {n : UInt32} {v : Value} (hcell : row.cell? column = some v)
    (h : SizeCell n v) : IsSize n (size? row column) := by
  rw [size?, Row.int?, hcell, Option.bind_some]
  cases h with
  | null => exact .inl rfl
  | @size k h =>
    right
    have hrange : 0 ≤ k.toInt ∧ k.toInt < UInt32.size := by
      rw [h]
      exact ⟨Int.natCast_nonneg _, Int.ofNat_lt.mpr n.toNat_lt⟩
    show (if 0 ≤ k.toInt ∧ k.toInt < UInt32.size then some (UInt32.ofNat k.toInt.toNat) else none)
      = some n
    rw [if_pos hrange, h, Int.toNat_natCast, UInt32.ofNat_toNat]

theorem isSize_decimalSize? {n : UInt32} (rawType : String) (h : IsSize n (size? row column)) :
    IsSize n (decimalSize? rawType row column) := by
  unfold decimalSize?
  split
  · exact h
  · exact .inl rfl

theorem getD_comment? : (comment? row column).getD "" = (row.text? column).getD "" := by
  rw [comment?]
  cases row.text? column with
  | none => rfl
  | some text => by_cases h : text = "" <;> simp [Option.filter_some, h]

theorem isTrue_yes_no {b : Bool}
    (h : row.cell? column = some (.text (if b then "NO" else "YES"))) :
    row.isTrue column = !b := by
  rw [Row.isTrue, h]
  cases b <;> decide

theorem isTrue_one_zero {b : Bool} (h : row.cell? column = some (.integer (if b then 1 else 0))) :
    row.isTrue column = b := by
  rw [Row.isTrue, h]
  cases b <;> decide

/-- What an information schema says of a column, with what is said elsewhere of keys, of uniqueness
and of counting. -/
def informationColumn (n : InformationNames) (row : Row) (name rawType : String)
    (key unique counts : Bool) : DatabaseColumn where
  name := name
  rawType := rawType
  length? := size? row n.length
  precision? := decimalSize? rawType row n.precision
  scale? := decimalSize? rawType row n.scale
  notNull := !row.isTrue n.nullable
  primaryKey := key
  autoIncrement := counts
  unique := unique
  default? := row.text? n.default
  comment? := comment? row n.comment

theorem agrees_informationColumn {d : Dialect} {n : InformationNames} {rawType : String}
    {key unique counts : Bool} (h : ShowsInformation d n row c)
    (htype : d.sameType c.type rawType = true) (hkey : key = c.primaryKey)
    (hunique : c.primaryKey = false → unique = c.unique) :
    d.Agrees (informationColumn n row c.name rawType key unique counts) c where
  name := rfl
  type := htype
  length k hk _ := by
    obtain ⟨v, hv, hsize⟩ := h.length k hk
    exact isSize_size? hv hsize
  precision k hk _ := by
    obtain ⟨v, hv, hsize⟩ := h.precision k hk
    dsimp only [informationColumn]
    exact isSize_decimalSize? rawType (isSize_size? hv hsize)
  scale k hk _ := by
    obtain ⟨v, hv, hsize⟩ := h.scale k hk
    dsimp only [informationColumn]
    exact isSize_decimalSize? rawType (isSize_size? hv hsize)
  primaryKey := hkey
  notNull hkey := by
    show (!row.isTrue n.nullable) = c.notNull
    rw [isTrue_yes_no (h.notNull hkey), Bool.not_not]
  unique := hunique
  default := h.default
  comment _ := getD_comment?.trans h.comment

theorem marked_informationColumn (n : InformationNames) (name rawType : String) (counts : Bool)
    (keys uniques : List String) :
    marked keys uniques (informationColumn n row name rawType false false counts) =
      informationColumn n row name rawType (keys.contains name) (uniques.contains name) counts := by
  simp only [marked, informationColumn, Bool.false_or]

/-- What PostgreSQL shows of a column is read, and agrees with it once keys and unique columns are
marked. -/
theorem Postgres.column_of_shows (table : String) {keys uniques : List String}
    (h : ShowsInformation .postgres Postgres.names row c)
    (hkeys : keys.contains c.name = c.primaryKey)
    (huniques : c.primaryKey = false → uniques.contains c.name = c.unique) :
    ∃ db, Postgres.column table row = .ok db ∧
      Dialect.postgres.Agrees (marked keys uniques db) c := by
  obtain ⟨raw, hraw, htype⟩ := h.type
  have hname : row.text? "column_name" = some c.name := h.name
  have hraw : row.text? "data_type" = some raw := hraw
  have hcolumn : Postgres.column table row =
      .ok (informationColumn Postgres.names row c.name raw false false
        (row.isTrue "is_identity" || isSequenceDefault (row.text? "column_default"))) := by
    rw [Postgres.column, requiredText_eq_ok hname, textOrEmpty, hraw]
    rfl
  refine ⟨_, hcolumn, ?_⟩
  rw [marked_informationColumn]
  exact agrees_informationColumn h htype hkeys huniques

/-- What MySQL shows of a column is read and agrees with it. -/
theorem Mysql.column_of_shows (table : String) (h : Mysql.Shows row c) :
    ∃ db, Mysql.column table row = .ok db ∧ Dialect.mysql.Agrees db c := by
  obtain ⟨raw, hraw, htype⟩ := h.information.type
  have hname : row.text? "COLUMN_NAME" = some c.name := h.information.name
  have hraw : row.text? "COLUMN_TYPE" = some raw := hraw
  have hcolumn : Mysql.column table row =
      .ok (informationColumn Mysql.names row c.name raw (textOrEmpty row "COLUMN_KEY" == "PRI")
        (textOrEmpty row "COLUMN_KEY" == "UNI") (counts row)) := by
    have htype : textOrEmpty row "COLUMN_TYPE" = raw := by rw [textOrEmpty, hraw, Option.getD_some]
    rw [Mysql.column, requiredText_eq_ok hname, htype]
    rfl
  have hkeyIs : ∀ key : String, key ≠ "" →
      ((textOrEmpty row "COLUMN_KEY" == key) = true ↔ row.text? "COLUMN_KEY" = some key) := by
    intro key hkey
    rw [beq_iff_eq, textOrEmpty]
    cases row.text? "COLUMN_KEY" with
    | none => exact iff_of_false hkey.symm (by simp)
    | some found => rw [Option.getD_some, Option.some.injEq]
  refine ⟨_, hcolumn, agrees_informationColumn h.information htype ?_ fun hkey => ?_⟩
  · rw [Bool.eq_iff_iff, hkeyIs "PRI" (by decide), h.primaryKey]
  · rw [Bool.eq_iff_iff, hkeyIs "UNI" (by decide), h.unique hkey]

/-- What SQLite shows of a column is read, and agrees with it once unique columns are marked. -/
theorem Sqlite.column_of_shows (table : String) (keyCount : Nat) {uniques : List String}
    (h : Sqlite.Shows row c)
    (huniques : c.primaryKey = false → uniques.contains c.name = c.unique) :
    ∃ db, Sqlite.column table keyCount row = .ok db ∧
      Dialect.sqlite.Agrees (marked [] uniques db) c := by
  obtain ⟨raw, hraw, htype⟩ := h.type
  obtain ⟨position, hposition, hkey⟩ := h.primaryKey
  have hkey : Sqlite.isKey row = c.primaryKey := by
    rw [Bool.eq_iff_iff, hkey, Sqlite.isKey, Row.int?, hposition, decide_eq_true_iff]
    rfl
  have hcolumn : Sqlite.column table keyCount row = .ok
      { name := c.name
        rawType := raw
        length? := declaredLength? raw
        precision? := declaredPrecision? raw
        scale? := declaredScale? raw
        notNull := row.isTrue "notnull"
        primaryKey := isKey row
        autoIncrement := isKey row && keyCount == 1 && TypeText.baseName raw == "INTEGER"
        default? := row.text? "dflt_value" } := by
    rw [Sqlite.column, requiredText_eq_ok h.name, textOrEmpty, hraw]
    rfl
  refine ⟨_, hcolumn, ?_⟩
  unfold marked
  -- SQLite reports neither sizes nor comments
  constructor
  · rfl
  · exact htype
  · intro _ _ hcap
    cases hcap
  · intro _ _ hcap
    cases hcap
  · intro _ _ hcap
    cases hcap
  · show (isKey row || false) = c.primaryKey
    rw [Bool.or_false, hkey]
  · intro hplain
    exact isTrue_one_zero (h.notNull hplain)
  · exact huniques
  · exact h.default
  · intro hcap
    cases hcap

end Rows

/-! ### Keys and unique columns -/

namespace Sqlite

/-- An index as the catalog of SQLite describes it.  A member without a name is an expression. -/
structure IndexEntry where
  name : String
  unique : Bool
  /-- What the index stems from; `pk` stands for the primary key. -/
  origin : String
  members : List (Option String)

/-- A row of the list of indexes shows an index. -/
structure ShowsIndex (row : Row) (i : IndexEntry) : Prop where
  name : row.text? "name" = some i.name
  unique : row.cell? "unique" = some (.integer (if i.unique then 1 else 0))
  origin : row.text? "origin" = some i.origin

/-- The index is no part of the primary key and makes a column unique by itself. -/
structure IndexEntry.Distinguishes (i : IndexEntry) (column : String) : Prop where
  unique : i.unique = true
  origin : i.origin ≠ "pk"
  members : i.members = [some column]

/-- The catalog of SQLite shows a table. -/
def ShowsTable {σ : Type} (c : Connection σ) (s : σ) (table : String) (model : List ModelColumn) :
    Prop :=
  (∃ rows listed, c.Reports s columnsQuery [.text table] rows ∧ listed.Perm model ∧
    List.Forall₂ Shows rows listed) ∧
  ∃ indexes entries, c.Reports s indexListQuery [.text table] indexes ∧
    List.Forall₂ ShowsIndex indexes entries ∧
    (∀ i ∈ entries, ∃ members, c.Reports s indexInfoQuery [.text i.name] members ∧
      members.map (·.text? "name") = i.members) ∧
    ∀ m ∈ model, m.primaryKey = false →
      (m.unique = true ↔ ∃ i ∈ entries, i.Distinguishes m.name)

end Sqlite

namespace Postgres

/-- A row on constraints shows a member of one. -/
structure ShowsMembership (row : Row) (m : Membership) : Prop where
  constraint : row.text? "constraint_name" = some m.constraint
  kind : row.text? "constraint_type" = some m.kind
  member : row.text? "column_name" = some m.member

/-- What constraints say of the columns of a model. -/
structure Constrains (ms : List Membership) (model : List ModelColumn) : Prop where
  /-- A constraint is of one kind. -/
  uniform : ∀ m ∈ ms, ∀ m' ∈ ms, m.constraint = m'.constraint → m.kind = m'.kind
  key : ∀ c ∈ model, c.primaryKey = true ↔ ∃ m ∈ ms, m.kind = "PRIMARY KEY" ∧ m.member = c.name
  /-- A unique column has a constraint of its own. -/
  unique : ∀ c ∈ model, c.primaryKey = false → (c.unique = true ↔
    ∃ m ∈ ms, m.kind = "UNIQUE" ∧ m.member = c.name ∧
      ms.filter (·.constraint == m.constraint) = [m])

/-- The catalog of PostgreSQL shows a table. -/
def ShowsTable {σ : Type} (c : Connection σ) (s : σ) (table : String) (model : List ModelColumn) :
    Prop :=
  (∃ rows listed, c.Reports s columnsQuery [.text table] rows ∧ listed.Perm model ∧
    List.Forall₂ (ShowsInformation .postgres names) rows listed) ∧
  ∃ constraints ms, c.Reports s constraintsQuery [.text table] constraints ∧
    List.Forall₂ ShowsMembership constraints ms ∧ Constrains ms model

end Postgres

/-- The catalog of MySQL shows a table. -/
def Mysql.ShowsTable {σ : Type} (c : Connection σ) (s : σ) (table : String)
    (model : List ModelColumn) : Prop :=
  ∃ rows listed, c.Reports s columnsQuery [.text table] rows ∧ listed.Perm model ∧
    List.Forall₂ Shows rows listed

section Marks

variable {σ : Type} {c : Connection σ} {s : σ}

/-- The rows that a query finds, or none if it fails. -/
def answer (c : Connection σ) (s : σ) (sql : String) (args : List Value) : List Row :=
  match (c.onQuery sql args s).1 with
  | .ok rows => rows
  | .error _ => []

theorem answer_eq {sql : String} {args : List Value} {rows : List Row}
    (h : c.Reports s sql args rows) : answer c s sql args = rows := by
  rw [answer, h s (Connection.LeadsTo.refl s)]

namespace Sqlite

variable {indexes : List Row} {entries : List IndexEntry}

theorem isUniqueIndex_of_showsIndex {row : Row} {i : IndexEntry} (h : ShowsIndex row i) :
    isUniqueIndex row = true ↔ i.unique = true ∧ i.origin ≠ "pk" := by
  rw [isUniqueIndex, isTrue_one_zero h.unique, textOrEmpty, h.origin, Option.getD_some,
    Bool.and_eq_true, bne_iff_ne]

/-- The only members of unique indexes are the columns that an index distinguishes. -/
theorem mem_soleMembers {members : String → List Row}
    (hindexes : List.Forall₂ ShowsIndex indexes entries)
    (hmembers : ∀ i ∈ entries, (members i.name).map (·.text? "name") = i.members)
    {column : String} :
    column ∈ soleMembers members indexes ↔ ∃ i ∈ entries, i.Distinguishes column := by
  rw [soleMembers, List.mem_filterMap]
  constructor
  · rintro ⟨row, hrow, hcolumn⟩
    obtain ⟨hrow, hunique⟩ := List.mem_filter.mp hrow
    obtain ⟨i, hi, h⟩ := exists_of_forall₂ hindexes.flip hrow
    obtain ⟨hunique, horigin⟩ := (isUniqueIndex_of_showsIndex h).mp hunique
    rw [h.name, Option.bind_some, onlyMember?_eq_some, hmembers i hi] at hcolumn
    exact ⟨i, hi, hunique, horigin, hcolumn⟩
  · rintro ⟨i, hi, hunique, horigin, hcolumn⟩
    obtain ⟨row, hrow, h⟩ := exists_of_forall₂ hindexes hi
    refine ⟨row, List.mem_filter.mpr ⟨hrow, ?_⟩, ?_⟩
    · exact (isUniqueIndex_of_showsIndex h).mpr ⟨hunique, horigin⟩
    · rw [h.name, Option.bind_some, onlyMember?_eq_some, hmembers i hi, hcolumn]

end Sqlite

namespace Postgres

variable {ms : List Membership} {model : List ModelColumn}

theorem membership_of_shows (table : String) {row : Row} {m : Membership}
    (h : ShowsMembership row m) : membership table row = .ok m := by
  rw [membership, requiredText_eq_ok h.constraint, requiredText_eq_ok h.member, textOrEmpty, h.kind]
  rfl

theorem Constrains.kindOf_eq (h : Constrains ms model) {m : Membership} (hm : m ∈ ms) :
    kindOf ms m.constraint = m.kind :=
  kindOf_eq_of_uniform h.uniform hm

theorem contains_keyMembers (h : Constrains ms model) {c : ModelColumn} (hc : c ∈ model) :
    (keyMembers ms ms).contains c.name = c.primaryKey := by
  rw [Bool.eq_iff_iff, List.contains_iff_mem, h.key c hc, keyMembers, List.mem_map]
  constructor
  · rintro ⟨m, hm, hname⟩
    obtain ⟨hm, hkind⟩ := List.mem_filter.mp hm
    rw [h.kindOf_eq hm, beq_iff_eq] at hkind
    exact ⟨m, hm, hkind, hname⟩
  · rintro ⟨m, hm, hkind, hname⟩
    refine ⟨m, List.mem_filter.mpr ⟨hm, ?_⟩, hname⟩
    rw [h.kindOf_eq hm, beq_iff_eq, hkind]

theorem contains_soleMembers (h : Constrains ms model) {c : ModelColumn} (hc : c ∈ model)
    (hplain : c.primaryKey = false) : (soleMembers ms ms).contains c.name = c.unique := by
  rw [Bool.eq_iff_iff, List.contains_iff_mem, h.unique c hc hplain, soleMembers, List.mem_map]
  constructor
  · rintro ⟨m, hm, hname⟩
    obtain ⟨hm, hsole⟩ := List.mem_filter.mp hm
    rw [h.kindOf_eq hm, Bool.and_eq_true, beq_iff_eq, beq_iff_eq, sizeOf_eq_one hm] at hsole
    exact ⟨m, hm, hsole.1, hname, hsole.2⟩
  · rintro ⟨m, hm, hkind, hname, halone⟩
    refine ⟨m, List.mem_filter.mpr ⟨hm, ?_⟩, hname⟩
    rw [h.kindOf_eq hm, Bool.and_eq_true, beq_iff_eq, beq_iff_eq, sizeOf_eq_one hm]
    exact ⟨hkind, halone⟩

end Postgres

end Marks

end Catalog

open Catalog

namespace Connection

variable {σ : Type} {c : Connection σ} {s : σ} {table : String} {model listed : List ModelColumn}

/-- The catalog shows a table as its model has it. -/
def ShowsTable (c : Connection σ) (s : σ) (table : String) (model : List ModelColumn) : Prop :=
  match c.dialect with
  | .sqlite => Sqlite.ShowsTable c s table model
  | .postgres => Postgres.ShowsTable c s table model
  | .mysql => Mysql.ShowsTable c s table model

/-! ### Reading a table -/

/-- Rows that show columns are read, and what is read of them agrees once it is marked. -/
theorem exists_columns {d : Dialect} {R : Row → ModelColumn → Prop}
    {read : Row → Except Failure DatabaseColumn} {keys uniques : List String}
    (hread : ∀ row, ∀ m ∈ model, R row m →
      ∃ db, read row = .ok db ∧ d.Agrees (marked keys uniques db) m)
    {rows : List Row} (hperm : listed.Perm model) (hrows : List.Forall₂ R rows listed) :
    ∃ columns, rows.mapM read = .ok columns ∧
      List.Forall₂ d.Agrees (columns.map (marked keys uniques)) listed ∧
      columns.map (·.name) = listed.map (·.name) := by
  have hmem : List.Forall₂ (fun row m => R row m ∧ m ∈ model) rows listed := by
    rw [List.forall₂_iff_zip] at hrows ⊢
    exact ⟨hrows.1, fun hzip => ⟨hrows.2 hzip, hperm.mem_iff.mp (List.of_mem_zip hzip).2⟩⟩
  obtain ⟨columns, hcolumns, hagree⟩ :=
    exists_mapM_eq_ok (fun row m h => hread row m h.2 h.1) hmem
  have hmarked : List.Forall₂ d.Agrees (columns.map (marked keys uniques)) listed :=
    List.forall₂_map_left_iff.mpr hagree
  refine ⟨columns, hcolumns, hmarked, ?_⟩
  rw [← map_name_eq_of_agrees hmarked, map_name_marked]

end Connection

section Tables

variable {σ : Type} {c : Connection σ} {s : σ} {table : String} {model listed : List ModelColumn}

theorem ne_nil_of_map_name {columns : List DatabaseColumn} (hmodel : model ≠ [])
    (hperm : listed.Perm model) (hsame : columns.map (·.name) = listed.map (·.name)) :
    columns ≠ [] := by
  rintro rfl
  have hnil : listed = [] := by simpa using hsame.symm
  rw [hnil] at hperm
  exact hmodel hperm.symm.eq_nil

theorem nodup_of_map_name {columns : List DatabaseColumn} (hnodup : (model.map (·.name)).Nodup)
    (hperm : listed.Perm model) (hsame : columns.map (·.name) = listed.map (·.name)) :
    (columns.map (·.name)).Nodup := by
  rw [hsame]
  exact (hperm.map _).nodup_iff.mpr hnodup

theorem Catalog.Sqlite.exists_agrees (hmodel : model ≠ []) (hnodup : (model.map (·.name)).Nodup)
    (h : Sqlite.ShowsTable c s table model) :
    ∃ columns listed, listed.Perm model ∧ List.Forall₂ Dialect.sqlite.Agrees columns listed ∧
      (Sqlite.columns c table).Finds c s columns := by
  obtain ⟨⟨rows, listed, hrows, hperm, hshows⟩, indexes, entries, hindexes, hentries, hmembers,
    huniques⟩ := h
  -- the members of an index are whatever the catalog answers when it is asked for them
  let members : String → List Row := fun name => answer c s indexInfoQuery [.text name]
  have hanswer : ∀ i ∈ entries, c.Reports s indexInfoQuery [.text i.name] (members i.name) ∧
      (members i.name).map (·.text? "name") = i.members := by
    intro i hi
    obtain ⟨found, hfound, hnames⟩ := hmembers i hi
    have hmembers : members i.name = found := answer_eq hfound
    rw [hmembers]
    exact ⟨hfound, hnames⟩
  have hsole : ∀ m ∈ model, m.primaryKey = false →
      (soleMembers members indexes).contains m.name = m.unique := by
    intro m hm hplain
    rw [Bool.eq_iff_iff, List.contains_iff_mem, huniques m hm hplain]
    exact mem_soleMembers hentries fun i hi => (hanswer i hi).2
  obtain ⟨columns, hcolumns, hagree, hsame⟩ := Connection.exists_columns
    (fun row m hm hrow => column_of_shows table (rows.filter isKey).length hrow (hsole m hm))
    hperm hshows
  refine ⟨_, listed, hperm, hagree, ?_⟩
  refine finds_columns hrows hcolumns (ne_nil_of_map_name hmodel hperm hsame)
    (nodup_of_map_name hnodup hperm hsame) hindexes fun index hindex _ => ?_
  obtain ⟨i, hi, hshown⟩ := exists_of_forall₂ hentries.flip hindex
  exact ⟨i.name, hshown.name, (hanswer i hi).1⟩

theorem Catalog.Postgres.exists_agrees (hmodel : model ≠ []) (hnodup : (model.map (·.name)).Nodup)
    (h : Postgres.ShowsTable c s table model) :
    ∃ columns listed, listed.Perm model ∧ List.Forall₂ Dialect.postgres.Agrees columns listed ∧
      (Postgres.columns c table).Finds c s columns := by
  obtain ⟨⟨rows, listed, hrows, hperm, hshows⟩, constraints, ms, hconstraints, hmemberships,
    hconstrains⟩ := h
  obtain ⟨columns, hcolumns, hagree, hsame⟩ := Connection.exists_columns
    (fun row m hm hrow => column_of_shows table hrow (contains_keyMembers hconstrains hm)
      (contains_soleMembers hconstrains hm)) hperm hshows
  have hread : constraints.mapM (membership table) = .ok ms := by
    obtain ⟨ms', hread, hsame⟩ := exists_mapM_eq_ok (P := Eq)
      (fun row m hrow => ⟨m, membership_of_shows table hrow, rfl⟩) hmemberships
    rw [List.forall₂_eq_eq_eq] at hsame
    rwa [← hsame]
  refine ⟨_, listed, hperm, hagree, ?_⟩
  exact finds_columns hrows hcolumns (ne_nil_of_map_name hmodel hperm hsame)
    (nodup_of_map_name hnodup hperm hsame) hconstraints hread

theorem Catalog.Mysql.exists_agrees (h : Mysql.ShowsTable c s table model) :
    ∃ columns listed, listed.Perm model ∧ List.Forall₂ Dialect.mysql.Agrees columns listed ∧
      (Mysql.columns c table).Finds c s columns := by
  obtain ⟨rows, listed, hrows, hperm, hshows⟩ := h
  obtain ⟨columns, hcolumns, hagree⟩ :=
    exists_mapM_eq_ok (fun row m hrow => column_of_shows table hrow) hshows
  exact ⟨columns, listed, hperm, hagree, finds_columns hrows hcolumns⟩

/-- From a catalog that shows a table columns are read that agree with those of the model. -/
theorem Connection.exists_agrees_of_showsTable (hmodel : model ≠ [])
    (hnodup : (model.map (·.name)).Nodup) (h : c.ShowsTable s table model) :
    ∃ columns listed, listed.Perm model ∧ List.Forall₂ c.dialect.Agrees columns listed ∧
      (c.catalogColumns table).Finds c s columns := by
  unfold ShowsTable at h
  unfold catalogColumns
  cases hdialect : c.dialect with
  | sqlite =>
    rw [hdialect] at h
    exact Sqlite.exists_agrees hmodel hnodup h
  | postgres =>
    rw [hdialect] at h
    exact Postgres.exists_agrees hmodel hnodup h
  | mysql =>
    rw [hdialect] at h
    exact Mysql.exists_agrees h

end Tables

end SchemaKeeper
