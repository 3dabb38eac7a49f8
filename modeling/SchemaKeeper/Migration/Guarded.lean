/-
Guarded changes of a live table.

`alterTable` writes the statements for a list of differences and runs them one by
one, after the rows of the table have been copied into a backup table.  The first
failure ends the run; what ran before stays, and the outcome says how to get the
rows back.  `restore` copies the rows of a backup into the table again, as far as
the two have columns in common.
-/
import SchemaKeeper.Catalog.Introspection
import SchemaKeeper.Migration.Options
import SchemaKeeper.Migration.Outcome
import SchemaKeeper.Schema.AlterTable

namespace SchemaKeeper

/-- A statement that failed: how many ran before it, and why it failed. -/
structure FailedStatement where
  position : Nat
  sql : String
  failure : Failure
deriving Repr, DecidableEq

namespace Connection

variable {σ : Type} (c : Connection σ)

/-- Runs statements up to the first that fails. -/
def runUntilFailure (position : Nat) : List String → Action σ (Option FailedStatement)
  | [] => pure none
  | sql :: r => do
    match ← (c.exec sql).attempt with
    | .ok _ => runUntilFailure (position + 1) r
    | .error failure => return some ⟨position, sql, failure⟩

/-- The outcome with the time at which the run ended. -/
def finish (o : Outcome) : Action σ Outcome := do
  return { o with finishedAt := ← c.now }

end Connection

/-- The outcome of a run that is about to start. -/
def Outcome.begun (table : String) (changes : List Difference) (statements : List String)
    (now : Moment) : Outcome where
  table := table
  startedAt := now
  finishedAt := now
  changes := changes
  statements := statements

/-- The outcome of a run that a statement ended. -/
def Outcome.failed (o : Outcome) (f : FailedStatement) (recovery : String) : Outcome :=
  { o with
    success := false
    error? := some f.failure.message
    failedStatement? := some f.sql
    recovery? := some recovery }

namespace Guarded

/-! ### Backups -/

/-- The name of a backup of a table that is made at a time. -/
def backupName (table : String) (now : Moment) : String :=
  table ++ "_backup_" ++ now.stamp

/-- The statements that replace the rows of a table by those of its backup, for columns that are
given as identifiers. -/
def restoreStatements (d : Dialect) (table backup : String) (columns : List String) :
    List String :=
  let list := ", ".intercalate columns
  ["DELETE FROM " ++ d.quote table,
    "INSERT INTO " ++ d.quote table ++ " (" ++ list ++ ") SELECT " ++ list ++ " FROM " ++
      d.quote backup]

/-- The columns of a table that its backup has too, as identifiers. -/
def sharedNames (d : Dialect) (live saved : List DatabaseColumn) : List String :=
  (live.filter fun l => saved.any (·.name == l.name)).map fun l => d.quote l.name

variable {σ : Type} (c : Connection σ)

/-- Reads which columns a table and its backup have in common. -/
def sharedColumns (table backup : String) : Action σ (List String) := do
  let live ← c.tableColumns table
  let saved ← c.tableColumns backup
  return sharedNames c.dialect live saved

/-- Copies the rows of a table into a new table and gives its name. -/
def backupTable (table : String) : Action σ String := do
  let backup := backupName table (← c.now)
  let _ ← (c.exec (c.dialect.createBackup table backup)).mapFailure fun failure =>
    .backupFailed table failure.message
  return backup

/-- Replaces the rows of a table by those of its backup; the number of rows restored. -/
def restore (table backup : String) : Action σ Nat := do
  if !(← c.tableExists backup) then
    throw (.backupFailed table ("backup table '" ++ backup ++ "' does not exist"))
  let shared ← sharedColumns c table backup
  if shared.isEmpty then
    throw (.backupFailed table
      ("backup table '" ++ backup ++ "' shares no columns with '" ++ table ++ "'"))
  (c.transaction (restoreStatements c.dialect table backup shared)).mapFailure fun failure =>
    .backupFailed table failure.message

/-- Removes a backup table if there is one. -/
def dropBackup (backup : String) : Action σ Unit := do
  let _ ← c.exec ("DROP TABLE IF EXISTS " ++ c.dialect.quote backup)

/-! ### Recovery -/

/-- The lines on restoring by hand: the statements, if it is known which columns are shared. -/
def handRestore (d : Dialect) (table backup : String) (shared? : Option (List String)) : String :=
  match shared?.filter (!·.isEmpty) with
  | some shared =>
    " or run in one transaction:" ++
      String.join ((restoreStatements d table backup shared).map fun sql => "\n  " ++ sql ++ ";")
  | none => "."

/-- How to recover when a statement has failed. -/
def recoveryText (d : Dialect) (table : String) (backup? : Option String)
    (shared? : Option (List String)) (position total : Nat) : String :=
  let number := fun n => String.ofList (Number.digits n)
  "Statement " ++ number (position + 1) ++ " of " ++ number total ++ " failed; the " ++
    number position ++ " statement(s) before it were applied and are not rolled back." ++
    match backup? with
    | none => "\nNo backup was taken; inspect '" ++ table ++ "' by hand before retrying."
    | some backup =>
      "\nThe rows of '" ++ table ++ "' were saved to '" ++ backup ++
        "'. Call SafeMigrator::restore_from_backup(\"" ++ table ++ "\", \"" ++ backup ++ "\")" ++
        handRestore d table backup shared? ++
        "\nDrop '" ++ backup ++ "' once the data is verified."

/-- Reads which columns are shared with the backup, if there is a backup and it can be read. -/
def sharedWith? (table : String) (backup? : Option String) : Action σ (Option (List String)) := do
  match backup? with
  | none => return none
  | some backup => return (← (sharedColumns c table backup).attempt).toOption

/-! ### Altering -/

/-- Runs the statements of an outcome that has its backup. -/
def execute (o : Outcome) : Action σ Outcome := do
  match ← c.runUntilFailure 0 o.statements with
  | none => c.finish o
  | some f =>
    let shared? ← sharedWith? c o.table o.backup?
    c.finish (o.failed f
      (recoveryText c.dialect o.table o.backup? shared? f.position o.statements.length))

/-- Carries out differences of a table. -/
def alterTable (options : AlterOptions) (table : String) (diffs : List Difference) :
    Action σ Outcome := do
  let statements ← .ofExcept (alterStatements c.dialect table diffs)
  let outcome := Outcome.begun table diffs statements (← c.now)
  if options.dryRun then c.finish { outcome with dryRun := true }
  else if statements.isEmpty then c.finish outcome
  else if options.backup then
    let backup ← backupTable c table
    execute c { outcome with backup? := some backup }
  else execute c outcome

end Guarded

end SchemaKeeper
