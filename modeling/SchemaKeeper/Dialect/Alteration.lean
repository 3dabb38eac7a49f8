/-
Single alterations in a dialect.

`alteration` renders one difference as clauses of ALTER TABLE and statements of
its own, or says that the dialect cannot carry it out: because the table has to
be rebuilt for it, or at all.
-/
import SchemaKeeper.Column.Difference
import SchemaKeeper.Dialect.Definition

namespace SchemaKeeper

open Text

/-- Whether a dialect can carry out a difference. -/
inductive Support where
  | supported
  /-- Only by rebuilding the table. -/
  | requiresRecreate
  | unsupported
deriving Repr, DecidableEq

/-- One difference in SQL. -/
structure Alteration where
  /-- What follows `ALTER TABLE` and the name of the table. -/
  clauses : List String := []
  /-- Statements of their own, to run after the clauses. -/
  statements : List String := []
  support : Support := .supported
  /-- Why the difference is not carried out. -/
  note? : Option String := none
deriving Repr, DecidableEq

namespace Alteration

def unsupported (note : String) : Alteration where
  support := .unsupported
  note? := some note

def requiresRecreate (note : String) : Alteration where
  support := .requiresRecreate
  note? := some note

end Alteration

namespace Dialect

/-- A new column with the statements that belong to it.  Only PostgreSQL has a statement for the
comment; MySQL has it in the definition, and SQLite has none. -/
def addition (d : Dialect) (table : String) (c : ModelColumn) : Alteration where
  clauses := ["ADD COLUMN " ++ d.definition c]
  statements :=
    match d with
    | postgres => (postgres.commentStatement? table c).toList ++ postgres.indexStatements table c
    | sqlite | mysql => d.indexStatements table c

/-! ### PostgreSQL -/

/-- The name of the constraint behind a unique column. -/
def uniqueConstraint (table column : String) : String :=
  table ++ "_" ++ column ++ "_key"

/-- A default that is written as one; NULL in letters of either case is the same as no default. -/
def effectiveDefault? (c : ModelColumn) : Option String :=
  c.default?.filter fun literal => !sameName literal "NULL"

/-- The clauses that change a column, one for each kind of change. -/
def postgresModifyClauses (table : String) (diff : Difference) (c : ModelColumn) : List String :=
  let column := postgres.quote c.name
  let retype :=
    if diff.touches .type || diff.touches .length || diff.touches .precision then
      let type := postgres.typeText c.type
      ["ALTER COLUMN " ++ column ++ " TYPE " ++ type ++ " USING " ++ column ++ "::" ++ type]
    else []
  let require :=
    if diff.touches .notNull then
      ["ALTER COLUMN " ++ column ++ (if c.notNull then " SET NOT NULL" else " DROP NOT NULL")]
    else []
  let redefault :=
    if diff.touches .default then
      match effectiveDefault? c with
      | some literal =>
        ["ALTER COLUMN " ++ column ++ " SET DEFAULT " ++ postgres.writeDefault c.type literal]
      | none => ["ALTER COLUMN " ++ column ++ " DROP DEFAULT"]
    else []
  let distinguish :=
    if diff.touches .unique then
      let constraint := postgres.quote (uniqueConstraint table c.name)
      [if c.unique then "ADD CONSTRAINT " ++ constraint ++ " UNIQUE (" ++ column ++ ")"
        else "DROP CONSTRAINT IF EXISTS " ++ constraint]
    else []
  retype ++ require ++ redefault ++ distinguish

def postgresModification (table : String) (diff : Difference) (c : ModelColumn) : Alteration where
  clauses := postgresModifyClauses table diff c
  statements := if diff.touches .comment then (postgres.commentStatement? table c).toList else []

/-! ### MySQL -/

/-- One clause that states the definition anew, for all changes but that of uniqueness, and one for
the index behind a unique column. -/
def mysqlModification (diff : Difference) (c : ModelColumn) : Alteration where
  clauses :=
    let column := mysql.quote c.name
    let redefine :=
      if diff.changes.any (· != .unique) then ["MODIFY COLUMN " ++ mysqlDefinition c false] else []
    let distinguish :=
      if diff.touches .unique then
        [if c.unique then "ADD UNIQUE INDEX " ++ column ++ " (" ++ column ++ ")"
          else "DROP INDEX " ++ column]
      else []
    redefine ++ distinguish

/-! ### All dialects -/

/-- A column to be modified.  SQLite cannot do so whatever the change. -/
def modification (d : Dialect) (table : String) (diff : Difference) : Alteration :=
  match d with
  | sqlite => .requiresRecreate "SQLite cannot modify a column in place"
  | postgres =>
    match diff.new? with
    | some c => postgresModification table diff c
    | none => .unsupported "modify without a model column"
  | mysql =>
    match diff.new? with
    | some c => mysqlModification diff c
    | none => .unsupported "modify without a model column"

/-- A column to be dropped, which must not belong to the primary key. -/
def removal (d : Dialect) (diff : Difference) : Alteration :=
  if diff.dropsKey then .unsupported "cannot drop a primary key column"
  else match d with
    | sqlite => .requiresRecreate "SQLite cannot drop a column in place"
    | postgres | mysql => { clauses := ["DROP COLUMN " ++ d.quote diff.column] }

/-- One difference of a table in SQL. -/
def alteration (d : Dialect) (table : String) (diff : Difference) : Alteration :=
  match diff.kind with
  | .add =>
    match diff.new? with
    | some c => d.addition table c
    | none => .unsupported "add without a model column"
  | .modify => d.modification table diff
  | .drop => d.removal diff

end Dialect

end SchemaKeeper
