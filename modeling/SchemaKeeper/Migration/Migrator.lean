/-
Versioned migrations.

A `Migrator` holds the registered migrations and runs them in the order of their
versions.  Those applied together make up a batch; they are undone one by one,
the last of the last batch first.

* `up` applies what is pending, `down` undoes so many, `reset` undoes all,
  `fresh` undoes all and applies all,
* `status` and `pending` only read.
-/
import SchemaKeeper.Migration.Ledger
import SchemaKeeper.Migration.Options
import SchemaKeeper.Schema.Step

namespace SchemaKeeper

/-- A change of the schema that can be undone.  Both directions are described for a dialect as a
list of statements, and a description may fail. -/
structure Migration where
  version : String
  description : String := ""
  up : Dialect → Except Failure (List String) := fun _ => .ok []
  down : Dialect → Except Failure (List String) := fun _ => .ok []

/-- The two directions of a migration. -/
inductive Direction where
  | forward
  | backward
deriving Repr, DecidableEq

/-- The statements of a direction. -/
def Migration.statements (m : Migration) (direction : Direction) (d : Dialect) :
    Except Failure (List String) :=
  match direction with
  | .forward => m.up d
  | .backward => m.down d

/-- The migration that is described by schema steps. -/
def Migration.ofSteps (version description : String) (up down : List Step) : Migration where
  version := version
  description := description
  up := fun d => Step.allStatements d up
  down := fun d => Step.allStatements d down

/-- What is known about a registered migration. -/
structure MigrationStatus where
  version : String
  description : String
  /-- Whether the ledger has a record of it. -/
  applied : Bool
  batch? : Option Int64
  appliedAt? : Option Moment
deriving Repr, DecidableEq

/-- The registered migrations with their ledger. -/
structure Migrator where
  options : LedgerOptions := {}
  /-- In the order in which they were registered. -/
  migrations : List Migration := []

namespace Migrator

/-- The name of the ledger table. -/
def table (m : Migrator) : String :=
  m.options.table

/-- Registers a migration, whose version has to be new. -/
def register (m : Migrator) (migration : Migration) : Except Failure Migrator :=
  if m.migrations.any (·.version == migration.version) then
    .error (.duplicateVersion migration.version)
  else .ok { m with migrations := m.migrations ++ [migration] }

/-- The migrations in the order of their versions. -/
def sorted (m : Migrator) : List Migration :=
  m.migrations.mergeSort fun a b => decide (a.version ≤ b.version)

/-- The migration of a version. -/
def find? (m : Migrator) (version : String) : Option Migration :=
  m.migrations.find? (·.version == version)

/-- The status of a migration, given the records of the ledger; of several records the last one
counts. -/
def statusOf (records : List LedgerRecord) (migration : Migration) : MigrationStatus :=
  let record? := (records.filter (·.version == migration.version)).getLast?
  { version := migration.version
    description := migration.description
    applied := record?.isSome
    batch? := record?.map (·.batch)
    appliedAt? := record?.map (·.appliedAt) }

variable {σ : Type} (m : Migrator) (c : Connection σ)

/-- Creates the ledger if it is missing and may be created. -/
def ensureLedger : Action σ Unit := do
  if ← Ledger.exists? c m.table then return
  if m.options.autoCreate then Ledger.create c m.table else throw (.ledgerMissing m.table)

/-- Runs one direction of a migration. -/
def run (migration : Migration) (direction : Direction) : Action σ Unit := do
  let failed := fun failure : Failure => .migrationFailed migration.version failure.message
  let statements ← (Action.ofExcept (migration.statements direction c.dialect)).mapFailure failed
  let _ ← (c.execAll 0 statements).mapFailure failed

/-! ### Applying -/

/-- Applies migrations in order and records them in a batch; the versions applied. -/
def applyAll (batch : Int64) : List Migration → Action σ (List String)
  | [] => pure []
  | migration :: r => do
    run c migration .forward
    Ledger.recordApplied c m.table migration.version migration.description batch
    return migration.version :: (← applyAll batch r)

/-- Applies all pending migrations as a new batch, the one after the highest; the versions
applied. -/
def up : Action σ (List String) := do
  m.ensureLedger c
  let applied ← Ledger.appliedVersions c m.table
  let pending := m.sorted.filter fun migration => !applied.contains migration.version
  if pending.isEmpty then return []
  let last ← Ledger.lastBatch c m.table
  let batch ← .ofExcept (Ledger.batchAfter last)
  m.applyAll c batch pending

/-! ### Undoing -/

/-- Undoes the migrations of records in order; the versions undone. -/
def undoAll : List LedgerRecord → Action σ (List String)
  | [] => pure []
  | record :: r => do
    match m.find? record.version with
    | none => throw (.migrationNotFound record.version)
    | some migration =>
      run c migration .backward
      Ledger.recordUnapplied c m.table record.version
      return record.version :: (← undoAll r)

/-- Undoes the migrations applied last, so many of them; the versions undone. -/
def down (steps : Nat) : Action σ (List String) := do
  if steps = 0 then return []
  m.ensureLedger c
  let records ← Ledger.latest c m.table steps
  m.undoAll c records

/-- Undoes all migrations; the versions undone. -/
def reset : Action σ (List String) := do
  m.ensureLedger c
  let total ← Ledger.count c m.table
  m.down c total

/-- Undoes all migrations and applies all; the versions applied. -/
def fresh : Action σ (List String) := do
  let _ ← m.reset c
  m.up c

/-! ### Reading -/

/-- The status of each registered migration, in the order of the versions. -/
def status : Action σ (List MigrationStatus) := do
  let records ← if ← Ledger.exists? c m.table then Ledger.applied c m.table else pure []
  return m.sorted.map (statusOf records)

/-- The versions that `up` would apply. -/
def pending : Action σ (List String) := do
  return ((← m.status c).filter (!·.applied)).map (·.version)

end Migrator

end SchemaKeeper
