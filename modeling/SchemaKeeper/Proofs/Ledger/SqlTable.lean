/-
The ledger as a table of SQL.

What the migrator relies on is that its ledger behaves as a table: `SqlLedger`
states this of a connection, and says nothing of any other table and nothing of
which calls are refused.  Rows are kept in the order of their insertion.  What a
database does it does on texts of SQL, so these are spelled out here, whatever
the migrator sends.

* `Precedes` is the order `batch, id`, `Shows` tells which row of an answer stands
  for which row of the ledger, `Readable` which rows can be read back,
* `SqlLedger.Ignores` and `SqlLedger.Spares` say of statements and of migrations
  that they do not address the ledger,
* `rows?_after_statements`: statements that do not address the ledger leave its rows
  as they are, whether they are refused or not.
-/
import Mathlib.Algebra.Group.Int.Defs
import Mathlib.Algebra.Group.Nat.Defs
import Mathlib.Data.List.Forall2
import SchemaKeeper.Migration.Migrator
import SchemaKeeper.Proofs.Catalog.Asking
import SchemaKeeper.Proofs.Lists

namespace SchemaKeeper

/-- A row of the ledger. -/
structure LedgerRow where
  id : Int
  version : String
  description : String
  appliedAt : String
  batch : Int64
deriving Repr, DecidableEq

/-- The database or its driver failed. -/
def Failure.OfDatabase : Failure → Prop
  | .execution .. | .database _ => True
  | _ => False

namespace Ledger

/-! ### Rows -/

/-- The order of rows by batch and then by id. -/
def Precedes (a b : LedgerRow) : Prop :=
  a.batch < b.batch ∨ a.batch = b.batch ∧ a.id ≤ b.id

/-- A row of an answer shows a row of the ledger.  NULL may stand for an empty description. -/
structure Shows (found : Row) (row : LedgerRow) : Prop where
  id : ∃ n, found.int? "id" = some n ∧ n.toInt = row.id
  version : found.text? "version" = some row.version
  description : (found.text? "description").getD "" = row.description
  appliedAt : found.text? "applied_at" = some row.appliedAt
  batch : found.int? "batch" = some row.batch

/-- The time of a row can be read. -/
def Readable (table : String) (row : LedgerRow) : Prop :=
  ∃ time, appliedAt table row.appliedAt = .ok time

/-- The rows in the order `batch, id`. -/
def IsOldestFirst (rows listed : List LedgerRow) : Prop :=
  listed.Perm rows ∧ listed.Pairwise Precedes

/-- The rows in the order `batch DESC, id DESC`. -/
def IsNewestFirst (rows listed : List LedgerRow) : Prop :=
  listed.Perm rows ∧ listed.Pairwise fun a b => Precedes b a

/-- The highest batch of rows; none if there are no rows. -/
def IsMaxBatch (rows : List LedgerRow) : Option Int64 → Prop
  | none => rows = []
  | some b => (∃ row ∈ rows, row.batch = b) ∧ ∀ row ∈ rows, row.batch ≤ b

/-! ### Texts of SQL -/

/-- `SELECT` from the catalog for a table of a name. -/
def catalogSql : Dialect → String
  | .sqlite => "SELECT name FROM sqlite_master WHERE type = 'table' AND name = ?"
  | .postgres => "
SELECT 1 AS present FROM information_schema.tables
WHERE table_schema = current_schema() AND table_name = $1
"
  | .mysql => "
SELECT 1 AS present FROM information_schema.TABLES
WHERE TABLE_SCHEMA = DATABASE() AND TABLE_NAME = ?
"

/-- The columns of the ledger as they are declared. -/
def columnSql : Dialect → List String
  | .sqlite => [
    "\"id\" INTEGER PRIMARY KEY AUTOINCREMENT",
    "\"version\" TEXT NOT NULL UNIQUE",
    "\"description\" TEXT NOT NULL",
    "\"applied_at\" TEXT NOT NULL",
    "\"batch\" INTEGER NOT NULL"]
  | .postgres => [
    "\"id\" BIGSERIAL PRIMARY KEY",
    "\"version\" VARCHAR(255) NOT NULL UNIQUE",
    "\"description\" VARCHAR(255) NOT NULL",
    "\"applied_at\" VARCHAR(64) NOT NULL",
    "\"batch\" INTEGER NOT NULL"]
  | .mysql => [
    "`id` BIGINT NOT NULL AUTO_INCREMENT PRIMARY KEY",
    "`version` VARCHAR(255) NOT NULL UNIQUE",
    "`description` VARCHAR(255) NOT NULL",
    "`applied_at` VARCHAR(64) NOT NULL",
    "`batch` INT NOT NULL"]

/-- `CREATE TABLE`, which leaves a table alone that is there. -/
def createSql (d : Dialect) (table : String) : String :=
  "CREATE TABLE IF NOT EXISTS " ++ d.quote table ++ " (\n" ++
    ",\n".intercalate ((columnSql d).map ("    " ++ ·)) ++ "\n)"

/-- `INSERT` of a row without its id. -/
def insertSql (d : Dialect) (table : String) : String :=
  "INSERT INTO " ++ d.quote table ++ " (version, description, applied_at, batch) VALUES (" ++
    d.placeholder 1 ++ ", " ++ d.placeholder 2 ++ ", " ++ d.placeholder 3 ++ ", " ++
    d.placeholder 4 ++ ")"

/-- `DELETE` of the rows of a version. -/
def deleteSql (d : Dialect) (table : String) : String :=
  "DELETE FROM " ++ d.quote table ++ " WHERE version = " ++ d.placeholder 1

/-- `SELECT` of all rows in the order `batch, id`. -/
def selectSql (d : Dialect) (table : String) : String :=
  "SELECT id, version, description, applied_at, batch FROM " ++ d.quote table ++
    " ORDER BY batch, id"

/-- `SELECT` of so many rows in the order `batch DESC, id DESC`. -/
def selectLatestSql (d : Dialect) (table : String) : String :=
  "SELECT id, version, description, applied_at, batch FROM " ++ d.quote table ++
    " ORDER BY batch DESC, id DESC LIMIT " ++ d.placeholder 1

/-- `SELECT` of the highest batch. -/
def selectMaxSql (d : Dialect) (table : String) : String :=
  "SELECT MAX(batch) AS batch FROM " ++ d.quote table

/-- `SELECT` of the number of rows. -/
def selectCountSql (d : Dialect) (table : String) : String :=
  "SELECT COUNT(*) AS total FROM " ++ d.quote table

/-! ### Calls -/

/-- The call that inserts a row. -/
def insertCall (d : Dialect) (table version description time : String) (batch : Int64) : Call :=
  ⟨.exec, insertSql d table,
    [.text version, .text description, .text time, .integer batch]⟩

/-- The call that deletes the rows of a version. -/
def deleteCall (d : Dialect) (table version : String) : Call :=
  ⟨.exec, deleteSql d table, [.text version]⟩

end Ledger

open Ledger

/-- The ledger of a connection behaves as a table of SQL. -/
structure SqlLedger {σ : Type} (c : Connection σ) (table : String) where
  /-- The states that the database can be in. -/
  legal : σ → Prop
  /-- The rows in the order in which they were inserted; none while there is no such table. -/
  rows? : σ → Option (List LedgerRow)
  legal_next : ∀ {s}, legal s → ∀ call, legal (c.next call s)
  /-- Refusals are failures of the database. -/
  ofDatabase : ∀ {s call f}, legal s → c.refusal? call s = some f → f.OfDatabase
  /-- The number of rows is one of 64 bits. -/
  length_lt : ∀ {s rows}, legal s → rows? s = some rows → rows.length < 2 ^ 63
  /-- Queries change nothing. -/
  rows?_query : ∀ {s}, legal s → ∀ sql args, rows? (c.next ⟨.query, sql, args⟩ s) = rows? s
  /-- A statement on the ledger changes nothing if it is refused. -/
  rows?_refused : ∀ {s f sql args}, legal s →
    sql ∈ [createSql c.dialect table, insertSql c.dialect table,
      deleteSql c.dialect table] →
    c.refusal? ⟨.exec, sql, args⟩ s = some f → rows? (c.next ⟨.exec, sql, args⟩ s) = rows? s
  /-- The catalog knows whether there is such a table. -/
  find : ∀ {s found}, legal s →
    (c.onQuery (catalogSql c.dialect) [.text table] s).1 = .ok found →
    found.head?.isSome = (rows? s).isSome
  create : ∀ {s}, legal s → c.refusal? ⟨.exec, createSql c.dialect table, []⟩ s = none →
    rows? (c.next ⟨.exec, createSql c.dialect table, []⟩ s) = some ((rows? s).getD [])
  /-- A row is inserted with an id above all others, and only if its version is new. -/
  insert : ∀ {s version description time batch}, legal s →
    c.refusal? (insertCall c.dialect table version description time batch) s = none →
    ∃ rows id, rows? s = some rows ∧ (∀ r ∈ rows, r.version ≠ version ∧ r.id < id) ∧
      rows? (c.next (insertCall c.dialect table version description time batch) s) =
        some (rows ++ [⟨id, version, description, time, batch⟩])
  /-- The rows of a version are deleted and counted. -/
  delete : ∀ {s version n}, legal s →
    (c.onExec (deleteSql c.dialect table) [.text version] s).1 = .ok n →
    ∃ rows, rows? s = some rows ∧
      rows? (c.next (deleteCall c.dialect table version) s) =
        some (rows.filter fun r => r.version ≠ version) ∧
      n = (rows.filter fun r => r.version = version).length
  /-- `ORDER BY batch, id` -/
  selectApplied : ∀ {s rows found}, legal s → rows? s = some rows →
    (c.onQuery (selectSql c.dialect table) [] s).1 = .ok found →
    ∃ listed, IsOldestFirst rows listed ∧ List.Forall₂ Shows found listed
  /-- `ORDER BY batch DESC, id DESC LIMIT n` -/
  selectLatest : ∀ {s rows found n}, legal s → rows? s = some rows → 0 ≤ n.toInt →
    (c.onQuery (selectLatestSql c.dialect table) [.integer n] s).1 = .ok found →
    ∃ listed, IsNewestFirst rows listed ∧
      List.Forall₂ Shows found (listed.take n.toInt.toNat)
  /-- `MAX(batch)` -/
  selectMax : ∀ {s rows found}, legal s → rows? s = some rows →
    (c.onQuery (selectMaxSql c.dialect table) [] s).1 = .ok found →
    ∃ row, found = [row] ∧ IsMaxBatch rows (row.int? "batch")
  /-- `COUNT(*)` -/
  selectCount : ∀ {s rows found}, legal s → rows? s = some rows →
    (c.onQuery (selectCountSql c.dialect table) [] s).1 = .ok found →
    ∃ row n, found = [row] ∧ row.int? "total" = some n ∧ n.toInt = rows.length

namespace SqlLedger

variable {σ : Type} {c : Connection σ} {table : String} (L : SqlLedger c table)

/-- The statement does not address the ledger: it changes no row of it. -/
def Ignores (sql : String) : Prop :=
  ∀ s, L.legal s → L.rows? (c.next ⟨.exec, sql, []⟩ s) = L.rows? s

/-- The migration does not address the ledger, neither forward nor backward. -/
def Spares (p : Migration) : Prop :=
  ∀ direction sqls, p.statements direction c.dialect = .ok sqls → ∀ sql ∈ sqls, L.Ignores sql

variable {L}

theorem legal_after {s : σ} (hs : L.legal s) (calls : List Call) : L.legal (c.after calls s) := by
  induction calls generalizing s with
  | nil => exact hs
  | cons call r ih => exact ih (L.legal_next hs call)

theorem rows?_after_queries {s : σ} (hs : L.legal s) {calls : List Call}
    (h : ∀ call ∈ calls, call.verb = .query) : L.rows? (c.after calls s) = L.rows? s := by
  induction calls generalizing s with
  | nil => rfl
  | cons call r ih =>
    obtain ⟨verb, sql, args⟩ := call
    have hverb : verb = .query := h _ List.mem_cons_self
    subst hverb
    rw [Connection.after_cons, ih (L.legal_next hs _) fun k hk => h k (List.mem_cons_of_mem _ hk)]
    exact L.rows?_query hs sql args

theorem rows?_after_statements {s : σ} (hs : L.legal s) {sqls : List String}
    (h : ∀ sql ∈ sqls, L.Ignores sql) : L.rows? (c.after (Call.statements sqls) s) = L.rows? s := by
  induction sqls generalizing s with
  | nil => rfl
  | cons sql r ih =>
    rw [Call.statements_cons, Connection.after_cons,
      ih (L.legal_next hs _) fun k hk => h k (List.mem_cons_of_mem _ hk)]
    exact h sql List.mem_cons_self s hs

end SqlLedger

end SchemaKeeper
