/-
The ledger of migrations.

The ledger is a table that has one row for each migration that has been applied,
with the batch it was applied in.  This module writes and reads its rows.
-/
import SchemaKeeper.Catalog.Introspection
import SchemaKeeper.Schema.Table
import SchemaKeeper.Time.Reading

namespace SchemaKeeper

/-- A row of the ledger. -/
structure LedgerRecord where
  id : Int64
  version : String
  description : String
  appliedAt : Moment
  batch : Int64
deriving Repr, DecidableEq

namespace Ledger

/-! ### The table -/

/-- The ledger as a table to be created. -/
def definition (table : String) : Table where
  name := table
  ifNotExists := true
  columns := [
    ((ModelColumn.ofType "id" .bigInt).asKey).counting,
    ((ModelColumn.ofType "version" (.varchar 255)).required).distinct,
    (ModelColumn.ofType "description" (.varchar 255)).required,
    (ModelColumn.ofType "applied_at" (.varchar 64)).required,
    (ModelColumn.ofType "batch" .int).required]

/-! ### Statements -/

def insertStatement (d : Dialect) (table : String) : String :=
  "INSERT INTO " ++ d.quote table ++ " (version, description, applied_at, batch) VALUES (" ++
    d.placeholder 1 ++ ", " ++ d.placeholder 2 ++ ", " ++ d.placeholder 3 ++ ", " ++
    d.placeholder 4 ++ ")"

def deleteStatement (d : Dialect) (table : String) : String :=
  "DELETE FROM " ++ d.quote table ++ " WHERE version = " ++ d.placeholder 1

/-- All rows, oldest first. -/
def appliedQuery (d : Dialect) (table : String) : String :=
  "SELECT id, version, description, applied_at, batch FROM " ++ d.quote table ++
    " ORDER BY batch, id"

/-- So many rows, newest first. -/
def latestQuery (d : Dialect) (table : String) : String :=
  "SELECT id, version, description, applied_at, batch FROM " ++ d.quote table ++
    " ORDER BY batch DESC, id DESC LIMIT " ++ d.placeholder 1

def lastBatchQuery (d : Dialect) (table : String) : String :=
  "SELECT MAX(batch) AS batch FROM " ++ d.quote table

def countQuery (d : Dialect) (table : String) : String :=
  "SELECT COUNT(*) AS total FROM " ++ d.quote table

/-! ### Rows -/

/-- A cell that a row has to have. -/
def required {α : Type} (table column : String) (cell? : Option α) : Except Failure α :=
  match cell? with
  | some cell => .ok cell
  | none => .error (.ledger table ("row without '" ++ column ++ "'"))

/-- The time at which a migration was applied: a timestamp, or a literal of SQL as a row written by
hand may have it. -/
def appliedAt (table text : String) : Except Failure Moment :=
  match Moment.read? text with
  | some m => .ok m
  | none =>
    (Moment.readPlain text).mapError fun fault =>
      .ledger table ("invalid applied_at '" ++ text ++ "': " ++ fault.message)

/-- The record of a row. -/
def record (table : String) (row : Row) : Except Failure LedgerRecord := do
  let timeText ← required table "applied_at" (row.text? "applied_at")
  let time ← appliedAt table timeText
  let id ← required table "id" (row.int? "id")
  let version ← required table "version" (row.text? "version")
  let batch ← required table "batch" (row.int? "batch")
  return ⟨id, version, (row.text? "description").getD "", time, batch⟩

/-- A failure of the database as one of the ledger. -/
def asLedgerFailure (table : String) (failure : Failure) : Failure :=
  .ledger table failure.message

variable {σ : Type} (c : Connection σ) (table : String)

/-- Whether the ledger exists. -/
def exists? : Action σ Bool :=
  c.tableExists table

/-- Creates the ledger if it is missing. -/
def create : Action σ Unit := do
  let _ ← (c.execAll 0 ((definition table).statements c.dialect)).mapFailure (asLedgerFailure table)

/-- Records a migration as applied in a batch. -/
def recordApplied (version description : String) (batch : Int64) : Action σ Unit := do
  let time := (← c.now).toText
  let _ ← (c.exec (insertStatement c.dialect table)
    [.text version, .text description, .text time, .integer batch]).mapFailure
      (asLedgerFailure table)

/-- Removes the record of a migration, which has to be there. -/
def recordUnapplied (version : String) : Action σ Unit := do
  let affected ← (c.exec (deleteStatement c.dialect table) [.text version]).mapFailure
    (asLedgerFailure table)
  if affected = 0 then throw (.migrationNotFound version)

/-- The records that a query finds. -/
def fetch (sql : String) (args : List Value) : Action σ (List LedgerRecord) := do
  let rows ← (c.query sql args).mapFailure (asLedgerFailure table)
  .ofExcept (rows.mapM (record table))

/-- All records, oldest first. -/
def applied : Action σ (List LedgerRecord) :=
  fetch c table (appliedQuery c.dialect table) []

/-- The versions of all records. -/
def appliedVersions : Action σ (List String) := do
  return (← applied c table).map (·.version)

/-- The records applied last, so many of them, newest first. -/
def latest (steps : Nat) : Action σ (List LedgerRecord) :=
  fetch c table (latestQuery c.dialect table) [.integer (Number.clampInt64 steps)]

/-- A number from the first row of a query, zero if there is none. -/
def numberOf (sql column : String) : Action σ Int64 := do
  let row? ← (c.queryRow sql).mapFailure (asLedgerFailure table)
  return (row?.bind (·.int? column)).getD 0

/-- The highest batch, zero for an empty ledger. -/
def lastBatch : Action σ Int64 :=
  numberOf c table (lastBatchQuery c.dialect table) "batch"

/-- The batch after another, if 64 bits hold it. -/
def batchAfter (batch : Int64) : Except Failure Int64 :=
  if batch = Int64.maxValue then .error .overflow else .ok (batch + 1)

/-- The number of records; a negative number counts as none. -/
def count : Action σ Nat := do
  return (← numberOf c table (countQuery c.dialect table) "total").toInt.toNat

end Ledger

end SchemaKeeper
