/-
Schema steps.

A `Step` is one change to a schema as a migration states it; `Step.statements`
writes its SQL.  Only dropping a column can be refused, by SQLite.
-/
import SchemaKeeper.Error
import SchemaKeeper.Schema.AlterTable
import SchemaKeeper.Schema.Table

namespace SchemaKeeper

/-- One change to a schema. -/
inductive Step where
  | createTable (table : Table)
  | dropTable (table : String) (ifExists : Bool)
  | renameTable (old new : String)
  | createIndex (table : String) (index : Index)
  | dropIndex (table name : String)
  | addColumn (table : String) (column : ModelColumn)
  | dropColumn (table column : String)
  /-- A statement as it stands. -/
  | raw (statement : String)
deriving Repr, DecidableEq

namespace Step

/-- The statements of a step. -/
def statements (d : Dialect) : Step → Except Failure (List String)
  | createTable table => .ok (table.statements d)
  | dropTable table ifExists =>
    .ok ["DROP TABLE " ++ Dialect.textIf ifExists "IF EXISTS " ++ d.quote table]
  | renameTable old new => .ok [d.renameTable old new]
  | createIndex table index => .ok [index.statement d table]
  | dropIndex table name => .ok [d.dropIndex name table]
  | addColumn table column =>
    .ok (alterTable d table ("ADD COLUMN " ++ d.definition column) :: d.companions table column)
  | dropColumn table column =>
    match d with
    | .sqlite => .error (.requiresRecreate table column "drop")
    | .postgres | .mysql => .ok [alterTable d table ("DROP COLUMN " ++ d.quote column)]
  | raw statement => .ok [statement]

/-- The statements that a schema has collected, once a step has been taken.  A refused step adds
none. -/
def collect (d : Dialect) (collected : List String) (step : Step) : List String :=
  collected ++ (step.statements d).toOption.getD []

/-- The statements of several steps, or the first refusal. -/
def allStatements (d : Dialect) (steps : List Step) : Except Failure (List String) := do
  let groups ← steps.mapM (statements d)
  return groups.flatten

end Step

end SchemaKeeper
