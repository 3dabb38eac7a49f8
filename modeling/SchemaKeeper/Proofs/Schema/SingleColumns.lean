/-
One column, written in several ways.

A column is written when its table is created, when it is added to a table because a
comparison found it missing, and when a step of a schema adds it; and there are two ways
to drop one.  `Adding` is what is written of a column in each of them: the text of its
definition, and the statements that follow.  `Adding.IsOf` ties it to what is written for
the difference, and says that the followers are those on the comment and the index.

* `alterStatements_add`: a column that is added has one clause and its companions,
* `statements_eq_of_adding`: CREATE TABLE has the same texts as its lines, and the same
  statements follow it,
* `statements_dropColumn`: a column that is no key is dropped, or refused, alike,
* `columns_written_alike`: so all ways agree.
-/
import SchemaKeeper.Proofs.Lists
import SchemaKeeper.Proofs.Schema.Creation
import SchemaKeeper.Proofs.Schema.Plan
import SchemaKeeper.Schema.Step

namespace SchemaKeeper

variable {d : Dialect}

/-! ### Collected statements -/

theorem Step.collect_of_ok {step : Step} {sqls : List String} (h : step.statements d = .ok sqls)
    (collected : List String) : step.collect d collected = collected ++ sqls := by
  rw [collect, h]
  rfl

theorem Step.collect_of_error {step : Step} {f : Failure} (h : step.statements d = .error f)
    (collected : List String) : step.collect d collected = collected := by
  rw [collect, h]
  exact List.append_nil collected

/-! ### Columns that are added -/

/-- What is written of a column. -/
structure Adding where
  /-- What follows the words ADD COLUMN. -/
  text : String
  /-- The statements after ALTER TABLE. -/
  followers : List String

/-- The statements of a column that is added to a table. -/
def Adding.statements (a : Adding) (d : Dialect) (table : String) : List String :=
  alterTable d table ("ADD COLUMN " ++ a.text) :: a.followers

/-- How a column is added to a table: what is written for the difference, in which the statements on
its comment and its index come last. -/
structure Adding.IsOf (d : Dialect) (table : String) (c : ModelColumn) (a : Adding) : Prop where
  written : alterStatements d table [.add c] = .ok (a.statements d table)
  followers : a.followers = (d.commentStatement? table c).toList ++ d.indexStatements table c

/-- Dialects other than PostgreSQL have no statement for a comment that they could leave out. -/
theorem Dialect.statements_addition (d : Dialect) (table : String) (c : ModelColumn) :
    (d.addition table c).statements = d.companions table c := by
  cases d <;> rfl

/-- A column is added with its definition, and then its comment and its index. -/
theorem alterStatements_add (d : Dialect) (table : String) (c : ModelColumn) :
    alterStatements d table [.add c] =
      .ok (Adding.statements ⟨d.definition c, d.companions table c⟩ d table) := by
  have hadd : d.alteration table (.add c) =
      { clauses := ["ADD COLUMN " ++ d.definition c], statements := d.companions table c } := by
    rw [← Dialect.statements_addition]
    rfl
  exact alterStatements_of_clause hadd

theorem isOf_adding (d : Dialect) (table : String) (c : ModelColumn) :
    Adding.IsOf d table c ⟨d.definition c, d.companions table c⟩ :=
  ⟨alterStatements_add d table c, rfl⟩

theorem statements_addColumn (d : Dialect) (table : String) (c : ModelColumn) :
    (Step.addColumn table c).statements d = alterStatements d table [.add c] :=
  (alterStatements_add d table c).symm

/-- Without a key at its end, a CREATE TABLE statement has the texts of its columns on lines of
their own. -/
theorem statements_eq_of_adding {t : Table} (hkey : t.tableKey = []) :
    ∃ as : List Adding, List.Forall₂ (Adding.IsOf d t.name) t.columns as ∧
      t.statements d =
        ("CREATE TABLE " ++ Dialect.textIf t.ifNotExists "IF NOT EXISTS " ++ d.quote t.name ++
          " (\n" ++ ",\n".intercalate ((as.map (·.text) ++ t.foreignKeys.map (·.toText d)).map
            ("    " ++ ·)) ++ "\n)") ::
        (as.flatMap (·.followers) ++ t.indexes.map (·.statement d t.name)) := by
  refine ⟨t.columns.map fun c => ⟨d.definition c, d.companions t.name c⟩,
    forall₂_map_self fun c _ => isOf_adding d t.name c, ?_⟩
  have hitems : t.items d = t.columns.map d.definition ++ t.foreignKeys.map (·.toText d) := by
    simp [Table.items, Table.definedColumns, hkey]
  unfold Table.statements Table.createStatement
  rw [hitems, List.map_map, List.flatMap_map]
  rfl

/-! ### Columns that are dropped -/

/-- A column that is no key is dropped by one clause, which SQLite does not have. -/
theorem alterStatements_drop {old : DatabaseColumn} (table : String)
    (hkey : old.primaryKey = false) :
    alterStatements d table [.drop old] = match d with
      | .sqlite => .error (.requiresRecreate table old.name "drop")
      | .postgres | .mysql => .ok [alterTable d table ("DROP COLUMN " ++ d.quote old.name)] := by
  have hkept : ¬ (Difference.drop old).dropsKey = true := by
    simp [Difference.dropsKey, Difference.drop, hkey]
  have hremoval : d.alteration table (.drop old) = d.removal (.drop old) := rfl
  unfold Dialect.removal at hremoval
  rw [if_neg hkept] at hremoval
  cases d with
  | sqlite =>
    refine alterStatements_eq_error.mpr ⟨[], _, [], rfl, by simp, ?_⟩
    dsimp only
    rw [hremoval]
    rfl
  | postgres => exact alterStatements_of_clause hremoval
  | mysql => exact alterStatements_of_clause hremoval

theorem statements_dropColumn {old : DatabaseColumn} (table : String)
    (hkey : old.primaryKey = false) :
    (Step.dropColumn table old.name).statements d = alterStatements d table [.drop old] := by
  rw [alterStatements_drop table hkey]
  cases d <;> rfl

/-- **All ways of writing a column agree.**  A step of a schema that adds a column collects what is
written for the difference that adds it.  If the key of a table is not written at its end, CREATE
TABLE has on the lines of the columns the texts that follow ADD COLUMN in those statements, and the
comments and indexes of the columns follow it as they follow them.  A column that is no key is
dropped by the same statement, or refused for the same reason, and then the schema keeps what it has
collected. -/
theorem columns_written_alike (d : Dialect) :
    (∀ table c collected, ∃ sqls, alterStatements d table [.add c] = .ok sqls ∧
      (Step.addColumn table c).statements d = .ok sqls ∧
      (Step.addColumn table c).collect d collected = collected ++ sqls) ∧
    (∀ t : Table, t.tableKey = [] → ∃ as : List Adding,
      List.Forall₂ (Adding.IsOf d t.name) t.columns as ∧
      t.statements d =
        ("CREATE TABLE " ++ Dialect.textIf t.ifNotExists "IF NOT EXISTS " ++ d.quote t.name ++
          " (\n" ++ ",\n".intercalate ((as.map (·.text) ++ t.foreignKeys.map (·.toText d)).map
            ("    " ++ ·)) ++ "\n)") ::
        (as.flatMap (·.followers) ++ t.indexes.map (·.statement d t.name))) ∧
    ∀ table (old : DatabaseColumn) collected, old.primaryKey = false →
      (Step.dropColumn table old.name).statements d = alterStatements d table [.drop old] ∧
      (d = .postgres ∨ d = .mysql → ∃ sql, alterStatements d table [.drop old] = .ok [sql] ∧
        (Step.dropColumn table old.name).collect d collected = collected ++ [sql]) ∧
      (d = .sqlite → alterStatements d table [.drop old] =
          .error (.requiresRecreate table old.name "drop") ∧
        (Step.dropColumn table old.name).collect d collected = collected) := by
  refine ⟨fun table c collected => ?_, fun t hkey => statements_eq_of_adding hkey,
    fun table old collected hkey => ⟨statements_dropColumn table hkey, ?_, ?_⟩⟩
  · have hadd := alterStatements_add d table c
    have hstep := (statements_addColumn d table c).trans hadd
    exact ⟨_, hadd, hstep, Step.collect_of_ok hstep collected⟩
  · intro hd
    have hdrop : alterStatements d table [.drop old] =
        .ok [alterTable d table ("DROP COLUMN " ++ d.quote old.name)] := by
      rw [alterStatements_drop table hkey]
      rcases hd with rfl | rfl <;> rfl
    exact ⟨_, hdrop, Step.collect_of_ok ((statements_dropColumn table hkey).trans hdrop) collected⟩
  · rintro rfl
    have hdrop := alterStatements_drop (d := .sqlite) table hkey
    exact ⟨hdrop, Step.collect_of_error ((statements_dropColumn table hkey).trans hdrop) collected⟩

/-- The column with a comment and an index has two statements after it in either way, and the
foreign key comes after the lines of the columns. -/
theorem columns_written_alike_of_sample :
    let t : Table :=
      { name := "notes"
        columns :=
          [{ name := "id", type := .bigInt, primaryKey := true, autoIncrement := true },
            { name := "bio", type := .text, notNull := true, default? := some "''",
              comment? := some "it's short", index? := some .auto }]
        foreignKeys := [{ column := "id", foreignTable := "users", foreignColumn := "id" }] }
    let old : DatabaseColumn := { name := "age", rawType := "integer" }
    t.tableKey = [] ∧ old.primaryKey = false ∧
      (∃ as : List Adding, List.Forall₂ (Adding.IsOf .postgres "notes") t.columns as ∧
        t.statements .postgres =
          ("CREATE TABLE \"notes\" (\n" ++ ",\n".intercalate ((as.map (·.text) ++
            ["FOREIGN KEY (\"id\") REFERENCES \"users\" (\"id\")"]).map ("    " ++ ·)) ++ "\n)") ::
          as.flatMap (·.followers)) ∧
      (∃ sql, alterStatements .mysql "notes" [.drop old] = .ok [sql] ∧
        (Step.dropColumn "notes" "age").collect .mysql ["SELECT 1"] = ["SELECT 1", sql]) ∧
      alterStatements .sqlite "notes" [.drop old] =
        .error (.requiresRecreate "notes" "age" "drop") ∧
      (Step.dropColumn "notes" "age").collect .sqlite ["SELECT 1"] = ["SELECT 1"] := by
  intro t old
  have hkey : t.tableKey = [] := by decide
  obtain ⟨as, hadded, hstatements⟩ := (columns_written_alike .postgres).2.1 t hkey
  have hopen : "CREATE TABLE " ++ Dialect.textIf t.ifNotExists "IF NOT EXISTS " ++
      Dialect.postgres.quote t.name ++ " (\n" = "CREATE TABLE \"notes\" (\n" := by decide
  have hforeign : t.foreignKeys.map (·.toText .postgres) =
      ["FOREIGN KEY (\"id\") REFERENCES \"users\" (\"id\")"] := by decide
  have hindexes : t.indexes.map (·.statement .postgres t.name) = [] := rfl
  rw [hopen, hforeign, hindexes, List.append_nil] at hstatements
  have hmysql := (columns_written_alike .mysql).2.2 "notes" old ["SELECT 1"] rfl
  have hsqlite := (columns_written_alike .sqlite).2.2 "notes" old ["SELECT 1"] rfl
  exact ⟨hkey, rfl, ⟨as, hadded, hstatements⟩, hmysql.2.1 (.inr rfl), hsqlite.2.2 rfl⟩

end SchemaKeeper
