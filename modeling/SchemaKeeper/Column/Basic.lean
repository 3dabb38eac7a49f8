/-
Columns.

`ModelColumn` is a column as a model wants it, `DatabaseColumn` one as a live
table reports it.
-/
import SchemaKeeper.Column.Type

namespace SchemaKeeper

/-- The index that a column asks for. -/
inductive IndexName where
  /-- Named after the table and the column. -/
  | auto
  | named (name : String)
deriving Repr, DecidableEq

/-- The name of the index for a column of a table. -/
def IndexName.resolve (table column : String) : IndexName → String
  | .auto => "idx_" ++ table ++ "_" ++ column
  | .named name => name

/-- A column as a model wants it. -/
structure ModelColumn where
  name : String
  type : ColumnType
  /-- Whether the column refuses NULL. -/
  notNull : Bool := false
  /-- Whether the column is the primary key or part of it. -/
  primaryKey : Bool := false
  autoIncrement : Bool := false
  unique : Bool := false
  /-- The default as a literal of SQL. -/
  default? : Option String := none
  comment? : Option String := none
  index? : Option IndexName := none
deriving Repr, DecidableEq

/-- A column as a live table reports it. -/
structure DatabaseColumn where
  name : String
  /-- The type as the database spells it. -/
  rawType : String
  length? : Option UInt32 := none
  precision? : Option UInt32 := none
  scale? : Option UInt32 := none
  notNull : Bool := false
  primaryKey : Bool := false
  autoIncrement : Bool := false
  /-- Whether a unique constraint covers this column alone. -/
  unique : Bool := false
  /-- The default as the database spells it. -/
  default? : Option String := none
  comment? : Option String := none
deriving Repr, DecidableEq

namespace ModelColumn

/-- A nullable column without constraints. -/
def ofType (name : String) (type : ColumnType) : ModelColumn where
  name := name
  type := type

/-- The column that refuses NULL. -/
def required (c : ModelColumn) : ModelColumn := { c with notNull := true }

/-- The column that admits NULL. -/
def nullable (c : ModelColumn) : ModelColumn := { c with notNull := false }

/-- The column as a primary key, which refuses NULL. -/
def asKey (c : ModelColumn) : ModelColumn := { c with primaryKey := true, notNull := true }

/-- The column that counts up by itself. -/
def counting (c : ModelColumn) : ModelColumn := { c with autoIncrement := true }

/-- The column without repeated values. -/
def distinct (c : ModelColumn) : ModelColumn := { c with unique := true }

/-- The column with a default, given as a literal of SQL. -/
def withDefault (literal : String) (c : ModelColumn) : ModelColumn :=
  { c with default? := some literal }

/-- The column with a comment. -/
def withComment (comment : String) (c : ModelColumn) : ModelColumn :=
  { c with comment? := some comment }

/-- The column with an index. -/
def withIndex (index : IndexName) (c : ModelColumn) : ModelColumn :=
  { c with index? := some index }

end ModelColumn

end SchemaKeeper
