/-
Failures and their texts.

`Failure` lists the reasons why reading, changing or migrating a schema can fail;
`Failure.message` words them.
-/

namespace SchemaKeeper

/-- Why an operation on a schema failed. -/
inductive Failure where
  /-- The table does not exist, or has no name. -/
  | tableNotFound (table : String)
  /-- The catalog answered something that cannot be read. -/
  | introspection (table detail : String)
  /-- The column can only be changed by rebuilding its table. -/
  | requiresRecreate (table column operation : String)
  /-- The dialect cannot express the change. -/
  | unsupported (table column detail : String)
  /-- The database refused a statement. -/
  | execution (statement detail : String)
  /-- A backup could not be made or restored. -/
  | backupFailed (table detail : String)
  /-- The ledger does not exist and must not be created. -/
  | ledgerMissing (table : String)
  /-- The ledger could not be read or written. -/
  | ledger (table detail : String)
  /-- A migration failed while it ran. -/
  | migrationFailed (version detail : String)
  /-- The ledger names a migration that is not registered. -/
  | migrationNotFound (version : String)
  /-- Two migrations have the same version. -/
  | duplicateVersion (version : String)
  /-- The database driver failed. -/
  | database (detail : String)
  /-- A sum of integers is out of range.  No caller handles this: the computation breaks off. -/
  | overflow
deriving Repr, DecidableEq

/-- The failure in words. -/
def Failure.message : Failure → String
  | tableNotFound table => "Table not found: '" ++ table ++ "'"
  | introspection table detail => "Failed to introspect table '" ++ table ++ "': " ++ detail
  | requiresRecreate table column operation =>
    "Cannot " ++ operation ++ " column '" ++ column ++ "' of '" ++ table ++
      "' in place: table recreation required"
  | unsupported table column detail =>
    "Unsupported operation on '" ++ table ++ "." ++ column ++ "': " ++ detail
  | execution statement detail => "Statement failed: " ++ detail ++ "\n  SQL: " ++ statement
  | backupFailed table detail => "Backup of '" ++ table ++ "' failed: " ++ detail
  | ledgerMissing table =>
    "Migration ledger table '" ++ table ++ "' does not exist and auto-create is disabled"
  | ledger table detail => "Migration ledger '" ++ table ++ "' error: " ++ detail
  | migrationFailed version detail => "Migration '" ++ version ++ "' failed: " ++ detail
  | migrationNotFound version => "Migration not registered: " ++ version
  | duplicateVersion version => "Duplicate migration version: " ++ version
  | database detail => "Database error: " ++ detail
  | overflow => "attempt to add with overflow"

end SchemaKeeper
