/-
Differences between a model column and a database column.

A `Difference` asks for one column to be added, modified or dropped.  The two
sides are optional whatever the kind: a difference may be handed in from outside,
and what lacks a side it needs is refused where it is rendered.
-/
import SchemaKeeper.Column.Basic

namespace SchemaKeeper

/-- What a difference asks for. -/
inductive ChangeKind where
  | add
  | modify
  | drop
deriving Repr, DecidableEq

/-- The word for a kind in reports. -/
def ChangeKind.word : ChangeKind → String
  | add => "add"
  | modify => "modify"
  | drop => "drop"

/-- One side of a column that may differ between model and database. -/
inductive Aspect where
  | type
  | length
  /-- Precision or scale. -/
  | precision
  | notNull
  | unique
  | default
  | comment
deriving Repr, DecidableEq

/-- One column to be added, modified or dropped. -/
structure Difference where
  column : String
  kind : ChangeKind
  /-- The database side. -/
  old? : Option DatabaseColumn
  /-- The model side. -/
  new? : Option ModelColumn
  /-- Why the columns differ, in words. -/
  reason : String
  /-- What differs in a column to be modified. -/
  changes : List Aspect
deriving Repr, DecidableEq

namespace Difference

/-- A column of the model that the database lacks. -/
def add (c : ModelColumn) : Difference where
  column := c.name
  kind := .add
  old? := none
  new? := some c
  reason := "column missing from database"
  changes := []

/-- A column of the database that the model lacks. -/
def drop (c : DatabaseColumn) : Difference where
  column := c.name
  kind := .drop
  old? := some c
  new? := none
  reason := "column not present in model"
  changes := []

/-- A column that both have and that differs in the given aspects. -/
def modify (old : DatabaseColumn) (new : ModelColumn) (changes : List Aspect)
    (reasons : List String) : Difference where
  column := new.name
  kind := .modify
  old? := some old
  new? := some new
  reason := "; ".intercalate reasons
  changes := changes

/-- Whether the aspect is among the changes. -/
def touches (d : Difference) (a : Aspect) : Bool :=
  d.changes.contains a

/-- Whether the database side is (part of) the primary key. -/
def dropsKey (d : Difference) : Bool :=
  d.old?.any (·.primaryKey)

end Difference

end SchemaKeeper
