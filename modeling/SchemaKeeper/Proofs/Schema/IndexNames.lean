/-
Names of indexes that are made of tables and columns.

A column that asks for an index without naming it gets one named after the table and the
column, with an underscore between the two.  The underscore may as well belong to either
of them, so that the name does not always tell where the table ends.

* `autoName_eq_iff`: two columns share the name if one table name goes on with an
  underscore and more where the other ends (`Overlaps`), and not otherwise,
* `createdIndexes_createTable`: the indexes that the statements for a table create, as
  they are read from the statements, are those that its columns ask for,
* `nodup_createdIndexes_iff`: so the indexes of some tables have different names unless
  two columns overlap, which those of one table never do.
-/
import Mathlib.Data.List.Nodup
import SchemaKeeper.Proofs.Dialect.Statements
import SchemaKeeper.Schema.Table

namespace SchemaKeeper

open Text Sql

/-! ### Names of a table and a column -/

/-- The name of the index on a column (second) of a table (first) that asks for one without naming
it. -/
def autoName (p : String × String) : String :=
  IndexName.auto.resolve p.1 p.2

/-- The second table is named as the first one, an underscore and some more; and the column of the
first table is named as that, an underscore and the column of the second table. -/
def Overlaps (p q : String × String) : Prop :=
  ∃ more, q.1 = p.1 ++ "_" ++ more ∧ p.2 = more ++ "_" ++ q.2

/-- A separator between two lists does not always tell where the first one ends. -/
theorem append_cons_eq_append_cons {α : Type} {s : α} {t c t' c' : List α} :
    t ++ s :: c = t' ++ s :: c' ↔
      (t = t' ∧ c = c') ∨ (∃ more, t' = t ++ s :: more ∧ c = more ++ s :: c') ∨
        ∃ more, t = t' ++ s :: more ∧ c' = more ++ s :: c := by
  constructor
  · intro h
    rcases List.append_eq_append_iff.mp h with ⟨rest, htable, hcolumn⟩ | ⟨rest, htable, hcolumn⟩
    all_goals
      cases rest with
      | nil => simp_all
      | cons x more =>
        obtain ⟨rfl, hmore⟩ := List.cons.inj hcolumn
        simp_all
  · rintro (⟨rfl, rfl⟩ | ⟨more, rfl, rfl⟩ | ⟨more, rfl, rfl⟩) <;> simp

theorem overlaps_iff {p q : String × String} :
    Overlaps p q ↔ ∃ more : List Char, q.1.toList = p.1.toList ++ '_' :: more ∧
      p.2.toList = more ++ '_' :: q.2.toList := by
  constructor
  · rintro ⟨more, htable, hcolumn⟩
    exact ⟨more.toList, by simp [htable], by simp [hcolumn]⟩
  · rintro ⟨more, htable, hcolumn⟩
    exact ⟨String.ofList more, String.toList_injective (by simp [htable]),
      String.toList_injective (by simp [hcolumn])⟩

theorem autoName_eq_iff {p q : String × String} :
    autoName p = autoName q ↔ p = q ∨ Overlaps p q ∨ Overlaps q p := by
  have hname : ∀ p : String × String,
      (autoName p).toList = "idx_".toList ++ (p.1.toList ++ '_' :: p.2.toList) := by
    intro p
    simp [autoName, IndexName.resolve]
  rw [← String.toList_inj, hname, hname, List.append_cancel_left_eq, append_cons_eq_append_cons,
    String.toList_inj, String.toList_inj, overlaps_iff, overlaps_iff, Prod.ext_iff]

/-- Of two columns with one index name the first overlaps the second if its table has the shorter
name. -/
theorem overlaps_iff_autoName_eq {p q : String × String} :
    Overlaps p q ↔ autoName p = autoName q ∧ p.1.length < q.1.length := by
  have hlonger : ∀ {p q : String × String}, Overlaps p q → p.1.length < q.1.length := by
    rintro p q ⟨more, htable, -⟩
    have hunderscore : "_".length = 1 := rfl
    rw [htable, String.length_append, String.length_append]
    omega
  constructor
  · exact fun h => ⟨autoName_eq_iff.mpr (.inr (.inl h)), hlonger h⟩
  · rintro ⟨heq, hlength⟩
    rcases autoName_eq_iff.mp heq with rfl | h | h
    · omega
    · exact h
    · have := hlonger h
      omega

instance (p q : String × String) : Decidable (Overlaps p q) :=
  decidable_of_iff _ overlaps_iff_autoName_eq.symm

theorem Overlaps.table_ne {p q : String × String} (h : Overlaps p q) : p.1 ≠ q.1 := by
  intro htable
  have hlength := (overlaps_iff_autoName_eq.mp h).2
  rw [htable] at hlength
  omega

/-! ### Names in statements -/

/-- The name of the index that a statement creates, if it creates one. -/
def createdIndex? (d : Dialect) (sql : String) : Option String :=
  match lex? d.quoteChar sql.toList with
  | some (.word "CREATE" :: .word "INDEX" :: .identifier name :: _) => some name
  | some (.word "CREATE" :: .word "UNIQUE" :: .word "INDEX" :: .identifier name :: _) => some name
  | _ => none

/-- The names of the indexes that statements create, in their order. -/
def createdIndexes (d : Dialect) (sqls : List String) : List String :=
  sqls.filterMap (createdIndex? d)

theorem createdIndex?_createIndex (d : Dialect) (name table : String) (columns : List String)
    (unique : Bool) : createdIndex? d (d.createIndex name table columns unique) = some name := by
  rw [createdIndex?, (Dialect.renders_createIndex d name table columns unique).lex?_eq]
  cases unique <;> rfl

theorem createdIndex?_commentStatement? {d : Dialect} {table sql : String} {c : ModelColumn}
    (h : d.commentStatement? table c = some sql) : createdIndex? d sql = none := by
  cases d with
  | postgres =>
    cases hcomment : c.comment? with
    | none => rw [Dialect.commentStatement?, hcomment] at h; cases h
    | some comment =>
      obtain ⟨sql', hsql', hread⟩ := Dialect.renders_commentStatement? table hcomment
      obtain rfl := Option.some.inj (h.symm.trans hsql')
      rw [createdIndex?, hread.lex?_eq]
      rfl
  | _ => cases h

/-- A text in which nothing is quoted is read as it is before what follows. -/
theorem read?_unquoted_append (d : Dialect) {s : List Char} (hs : s.all Dialect.isUnquoted = true)
    (rest : List Char) :
    read? d.quoteChar (s ++ rest) = (read? d.quoteChar rest).map (plainText s ++ ·) := by
  induction s with
  | nil => simp [plainText]
  | cons c s ih =>
    obtain ⟨hc, hs⟩ := Bool.and_eq_true_iff.mp hs
    have hopened : opened? d.quoteChar c = none := by
      simp only [Dialect.isUnquoted, Bool.and_eq_true, bne_iff_ne] at hc
      cases d <;> simp [opened?, Dialect.quoteChar, hc]
    rw [List.cons_append, read?_plain hopened, ih hs, Option.map_map]
    rfl

/-- The statement that creates a table creates no index, whatever is read after its first words. -/
theorem createdIndex?_createStatement (t : Table) (d : Dialect) :
    createdIndex? d (t.createStatement d) = none := by
  obtain ⟨rest, hrest⟩ : ∃ rest, (t.createStatement d).toList = "CREATE TABLE ".toList ++ rest := by
    unfold Table.createStatement
    simp only [String.append_assoc, String.toList_append (s := "CREATE TABLE ")]
    exact ⟨_, rfl⟩
  rw [createdIndex?, lex?, hrest, read?_unquoted_append d rfl]
  cases read? d.quoteChar rest with
  | none => rfl
  | some ts => rfl

/-! ### Names of the indexes of a table -/

/-- The columns of a table that ask for an index, each with the table. -/
def indexedColumns (table : String) (columns : List ModelColumn) : List (String × String) :=
  (columns.filter (·.index?.isSome)).map fun c => (table, c.name)

/-- The columns ask for no index by name. -/
def NamesNoIndex (columns : List ModelColumn) : Prop :=
  ∀ c ∈ columns, c.index? = none ∨ c.index? = some .auto

theorem createdIndexes_companions (d : Dialect) (table : String) {c : ModelColumn}
    (h : c.index? = none ∨ c.index? = some .auto) :
    createdIndexes d (d.companions table c) = (indexedColumns table [c]).map autoName := by
  have hcomment : createdIndexes d (d.commentStatement? table c).toList = [] := by
    cases hsql : d.commentStatement? table c with
    | none => rfl
    | some sql => simp [createdIndexes, createdIndex?_commentStatement? hsql]
  rw [Dialect.companions, createdIndexes, List.filterMap_append]
  refine (congrArg (· ++ _) hcomment).trans ?_
  rw [List.nil_append, Dialect.indexStatements, indexedColumns]
  rcases h with hindex | hindex
  · simp [hindex]
  · simp [hindex, createdIndex?_createIndex, autoName]

theorem createdIndexes_flatMap_companions (d : Dialect) (table : String)
    {columns : List ModelColumn} (h : NamesNoIndex columns) :
    createdIndexes d (columns.flatMap (d.companions table)) =
      (indexedColumns table columns).map autoName := by
  induction columns with
  | nil => rfl
  | cons c r ih =>
    obtain ⟨hc, hr⟩ := List.forall_mem_cons.mp h
    rw [List.flatMap_cons, createdIndexes, List.filterMap_append]
    refine (congrArg₂ (· ++ ·) (createdIndexes_companions d table hc) (ih hr)).trans ?_
    rw [← List.map_append, indexedColumns, indexedColumns, indexedColumns, ← List.map_append,
      ← List.filter_append, List.singleton_append]

theorem createdIndexes_createTable (d : Dialect) (table : String) {columns : List ModelColumn}
    (h : NamesNoIndex columns) :
    createdIndexes d (createTable d table columns) =
      (indexedColumns table columns).map autoName := by
  rw [createTable, Table.statements, createdIndexes,
    List.filterMap_cons_none (createdIndex?_createStatement _ d), List.filterMap_append]
  simpa [createdIndexes] using createdIndexes_flatMap_companions d table h

/-! ### Names of the indexes of some tables -/

/-- Tables, given by name and columns, of different names; the columns of each have different names
too and ask for no index by name. -/
structure AutoIndexed (tables : List (String × List ModelColumn)) : Prop where
  tables_nodup : (tables.map (·.1)).Nodup
  columns_nodup : ∀ t ∈ tables, (t.2.map (·.name)).Nodup
  namesNoIndex : ∀ t ∈ tables, NamesNoIndex t.2

section Tables

variable {tables : List (String × List ModelColumn)}

theorem nodup_indexedColumns {table : String} {columns : List ModelColumn}
    (h : (columns.map (·.name)).Nodup) : (indexedColumns table columns).Nodup := by
  have hnames : ((columns.filter (·.index?.isSome)).map (·.name)).Nodup :=
    h.sublist (List.filter_sublist.map _)
  have hpairs := List.Nodup.map (fun _ _ heq => (Prod.mk.inj heq : table = table ∧ _).2) hnames
  rwa [List.map_map] at hpairs

theorem AutoIndexed.nodup_indexedColumns (h : AutoIndexed tables) :
    (tables.flatMap fun t => indexedColumns t.1 t.2).Nodup := by
  refine List.nodup_flatMap.mpr
    ⟨fun t ht => SchemaKeeper.nodup_indexedColumns (h.columns_nodup t ht), ?_⟩
  refine (List.pairwise_map.mp h.tables_nodup).imp fun hne => ?_
  intro p hp hp'
  obtain ⟨c, -, rfl⟩ := List.mem_map.mp hp
  obtain ⟨c', -, heq⟩ := List.mem_map.mp hp'
  exact hne (Prod.mk.inj heq).1.symm

theorem AutoIndexed.createdIndexes_eq (h : AutoIndexed tables) (d : Dialect) :
    (tables.flatMap fun t => createdIndexes d (createTable d t.1 t.2)) =
      (tables.flatMap fun t => indexedColumns t.1 t.2).map autoName := by
  rw [List.map_flatMap]
  exact List.flatMap_congr fun t ht => createdIndexes_createTable d t.1 (h.namesNoIndex t ht)

/-- Columns that are listed once each have different indexes unless two of them overlap. -/
theorem nodup_map_autoName_iff {ps : List (String × String)} (h : ps.Nodup) :
    (ps.map autoName).Nodup ↔ ∀ p ∈ ps, ∀ q ∈ ps, ¬ Overlaps p q := by
  rw [List.nodup_map_iff_inj_on h]
  constructor
  · intro hinj p hp q hq hoverlaps
    have heq := hinj p hp q hq (autoName_eq_iff.mpr (.inr (.inl hoverlaps)))
    exact hoverlaps.table_ne (congrArg Prod.fst heq)
  · intro hapart p hp q hq heq
    rcases autoName_eq_iff.mp heq with heq | hoverlaps | hoverlaps
    · exact heq
    · exact absurd hoverlaps (hapart p hp q hq)
    · exact absurd hoverlaps (hapart q hq p hp)

theorem nodup_createdIndexes_createTable (d : Dialect) (h : AutoIndexed tables)
    {t : String × List ModelColumn} (ht : t ∈ tables) :
    (createdIndexes d (createTable d t.1 t.2)).Nodup := by
  rw [createdIndexes_createTable d t.1 (h.namesNoIndex t ht),
    nodup_map_autoName_iff (nodup_indexedColumns (h.columns_nodup t ht))]
  intro p hp q hq hoverlaps
  obtain ⟨c, -, rfl⟩ := List.mem_map.mp hp
  obtain ⟨c', -, rfl⟩ := List.mem_map.mp hq
  exact hoverlaps.table_ne rfl

/-- **Only the names of tables that go on with an underscore let automatic index names clash.**  The
statements for a table create the indexes that its columns ask for, no two of one name; two columns
share an index name if they are the same one or overlap, and not otherwise; so all statements for
the tables create indexes of different names unless two columns that ask for an index overlap. -/
theorem nodup_createdIndexes_iff (d : Dialect) (h : AutoIndexed tables) :
    (∀ t ∈ tables,
      createdIndexes d (createTable d t.1 t.2) = (indexedColumns t.1 t.2).map autoName ∧
      (createdIndexes d (createTable d t.1 t.2)).Nodup) ∧
    (∀ p q, autoName p = autoName q ↔ p = q ∨ Overlaps p q ∨ Overlaps q p) ∧
    ((tables.flatMap fun t => createdIndexes d (createTable d t.1 t.2)).Nodup ↔
      ∀ p ∈ tables.flatMap fun t => indexedColumns t.1 t.2,
        ∀ q ∈ tables.flatMap fun t => indexedColumns t.1 t.2, ¬ Overlaps p q) := by
  refine ⟨fun t ht => ⟨createdIndexes_createTable d t.1 (h.namesNoIndex t ht),
    nodup_createdIndexes_createTable d h ht⟩, fun p q => autoName_eq_iff, ?_⟩
  rw [h.createdIndexes_eq d, nodup_map_autoName_iff h.nodup_indexedColumns]

end Tables

/-- The name of the one table goes on with that of the other one, and the columns still differ. -/
theorem nodup_createdIndexes_iff_of_sample :
    let tables : List (String × List ModelColumn) :=
      [("user", [{ name := "role_id", type := .int, index? := some .auto }]),
        ("user_role", [{ name := "name", type := .text, index? := some .auto },
          { name := "note", type := .text }])]
    AutoIndexed tables ∧
      (tables.flatMap fun t => createdIndexes .sqlite (createTable .sqlite t.1 t.2)).Nodup := by
  intro tables
  have h : AutoIndexed tables := ⟨by decide, by decide, by simp [tables, NamesNoIndex]⟩
  exact ⟨h, (nodup_createdIndexes_iff .sqlite h).2.2.mpr (by decide)⟩

/-- The indexes of two tables of different names may have the same name. -/
theorem autoIndexed_not_nodup :
    ¬ ∀ (d : Dialect) (tables : List (String × List ModelColumn)), AutoIndexed tables →
      (tables.flatMap fun t => createdIndexes d (createTable d t.1 t.2)).Nodup := by
  intro hall
  let tables : List (String × List ModelColumn) :=
    [("a", [{ name := "b_c", type := .int, index? := some .auto }]),
      ("a_b", [{ name := "c", type := .int, index? := some .auto }])]
  have h : AutoIndexed tables := ⟨by decide, by decide, by simp [tables, NamesNoIndex]⟩
  have hnodup := hall .sqlite tables h
  rw [h.createdIndexes_eq] at hnodup
  exact absurd hnodup (by decide)

end SchemaKeeper
