/-
Options of migrations.

`AlterOptions` steer the change of a live table, `LedgerOptions` the ledger of
versioned migrations.  Both are kept as JSON, where every member has a default.
-/
import SchemaKeeper.Json.Decoding

namespace SchemaKeeper

open Json

/-- How a live table is changed. -/
structure AlterOptions where
  /-- Statements are written and not executed. -/
  dryRun : Bool := false
  /-- Rows are saved to another table first. -/
  backup : Bool := true
deriving Repr, DecidableEq

/-- Where and whether migrations are recorded. -/
structure LedgerOptions where
  /-- The name of the ledger table. -/
  table : String := "migrations"
  /-- A missing ledger is created. -/
  autoCreate : Bool := true
deriving Repr, DecidableEq

namespace AlterOptions

def toJson (o : AlterOptions) : Json :=
  object [("dry_run", bool o.dryRun), ("backup_tables", bool o.backup)]

def ofJson? (j : Json) : Option AlterOptions := do
  let [dryRun, backup] ← defaultedRecord? ["dry_run", "backup_tables"] j | none
  return { dryRun := ← orElse? bool? false dryRun, backup := ← orElse? bool? true backup }

end AlterOptions

namespace LedgerOptions

def toJson (o : LedgerOptions) : Json :=
  object [("table_name", string o.table), ("auto_create", bool o.autoCreate)]

def ofJson? (j : Json) : Option LedgerOptions := do
  let [table, autoCreate] ← defaultedRecord? ["table_name", "auto_create"] j | none
  return {
    table := ← orElse? string? "migrations" table
    autoCreate := ← orElse? bool? true autoCreate }

end LedgerOptions

end SchemaKeeper
