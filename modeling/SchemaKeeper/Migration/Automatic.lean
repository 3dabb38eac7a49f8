/-
Keeping tables in line with their models.

`migrateColumns` creates a table that is missing and changes one that differs
from its model.  `migrateAll` does so for several tables and ends with the first
that fails.
-/
import SchemaKeeper.Migration.Guarded
import SchemaKeeper.Schema.Comparison
import SchemaKeeper.Schema.Table

namespace SchemaKeeper.Automatic

variable {σ : Type} (c : Connection σ)

/-- How to recover when a table could not be created. -/
def recoveryText (d : Dialect) (table : String) : String :=
  "Creating '" ++ table ++
    "' failed. If the table was created but an index was not, drop it with DROP TABLE " ++
    d.quote table ++ " and run the migration again."

/-- Creates a table. -/
def createMissing (options : AlterOptions) (table : String) (columns : List ModelColumn) :
    Action σ Outcome := do
  let statements := createTable c.dialect table columns
  let outcome := Outcome.begun table (columns.map Difference.add) statements (← c.now)
  if options.dryRun then c.finish { outcome with dryRun := true }
  else
    match ← c.runUntilFailure 0 statements with
    | none => c.finish outcome
    | some f => c.finish (outcome.failed f (recoveryText c.dialect table))

/-- Creates or changes a table so that it has the given columns. -/
def migrateColumns (options : AlterOptions) (table : String) (columns : List ModelColumn) :
    Action σ Outcome := do
  if columns.isEmpty then throw (.unsupported table "" "model has no tagged fields")
  if ← c.tableExists table then
    let existing ← c.tableColumns table
    Guarded.alterTable c options table (compareColumns c.dialect existing columns)
  else createMissing c options table columns

/-- Migrates tables in order up to the first that fails. -/
def migrateAll (options : AlterOptions) : List (String × List ModelColumn) → Action σ (List Outcome)
  | [] => pure []
  | (table, columns) :: r => do
    let outcome ← migrateColumns c options table columns
    if outcome.success then return outcome :: (← migrateAll options r) else return [outcome]

end SchemaKeeper.Automatic
