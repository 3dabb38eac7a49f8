/-
Outcomes of table migrations.

An `Outcome` reports what one run on one table did: the differences it started
from, the statements, and, if one failed, which and how to recover.  It is kept
as JSON: `Outcome.toJson` writes it, `Outcome.ofJson?` reads it back.
-/
import SchemaKeeper.Json.Decoding
import SchemaKeeper.Json.Encoding
import SchemaKeeper.Time.Reading

namespace SchemaKeeper

/-- What one run on one table did. -/
structure Outcome where
  table : String
  startedAt : Moment
  finishedAt : Moment
  /-- The differences that the statements carry out. -/
  changes : List Difference
  /-- All statements in order, whether they ran or not. -/
  statements : List String
  /-- Whether no statement failed. -/
  success : Bool := true
  /-- The failure in words. -/
  error? : Option String := none
  failedStatement? : Option String := none
  /-- How to recover, in words. -/
  recovery? : Option String := none
  /-- The table that the rows were saved to. -/
  backup? : Option String := none
  /-- Whether nothing was to be executed. -/
  dryRun : Bool := false
deriving Repr, DecidableEq

namespace Outcome

/-- How many differences are of a kind. -/
def count (o : Outcome) (kind : ChangeKind) : Nat :=
  (o.changes.filter (·.kind == kind)).length

/-- The numbers of differences of each kind, in words. -/
def summary (o : Outcome) : String :=
  let number := fun kind => String.ofList (Number.digits (o.count kind))
  number .add ++ " add, " ++ number .modify ++ " modify, " ++ number .drop ++ " drop"

/-- How long the run took, in milliseconds. -/
def millis (o : Outcome) : Int :=
  o.startedAt.millisUntil o.finishedAt

open Json

/-- A moment with the letter for universal time. -/
def momentText (m : Moment) : String :=
  m.text "Z"

def toJson (o : Outcome) : Json :=
  object [
    ("table", string o.table),
    ("started_at", string (momentText o.startedAt)),
    ("finished_at", string (momentText o.finishedAt)),
    ("changes", array (o.changes.map Difference.toJson)),
    ("statements", array (o.statements.map string)),
    ("success", bool o.success),
    ("error", ofString? o.error?),
    ("failed_statement", ofString? o.failedStatement?),
    ("recovery_instructions", ofString? o.recovery?),
    ("backup_table", ofString? o.backup?),
    ("dry_run", bool o.dryRun)]

def memberNames : List String :=
  ["table", "started_at", "finished_at", "changes", "statements", "success", "error",
    "failed_statement", "recovery_instructions", "backup_table", "dry_run"]

/-- A moment, perhaps with blanks between its parts. -/
def moment? (j : Json) : Option Moment :=
  j.string?.bind Moment.readLoose?

def ofJson? (j : Json) : Option Outcome := do
  let [table, startedAt, finishedAt, changes, statements, success, error, failedStatement, recovery,
    backup, dryRun] ← record? memberNames j | none
  return {
    table := ← required? string? table
    startedAt := ← required? moment? startedAt
    finishedAt := ← required? moment? finishedAt
    changes := ← required? (list? Difference.ofJson?) changes
    statements := ← required? (list? string?) statements
    success := ← required? bool? success
    error? := ← optional? string? error
    failedStatement? := ← optional? string? failedStatement
    recovery? := ← optional? string? recovery
    backup? := ← optional? string? backup
    dryRun := ← required? bool? dryRun }

end Outcome

end SchemaKeeper
