/-
Table descriptions and CREATE TABLE.

A `Table` describes a table with its columns, keys and indexes; `statements`
writes CREATE TABLE and what follows it.  A primary key of one column stands in
the definition of the column; any other key is written at the end, and then the
columns do not mention it.
-/
import SchemaKeeper.Dialect.Definition

namespace SchemaKeeper

/-- What happens to a row when the row that it refers to is deleted or updated. -/
inductive ReferentialAction where
  | noAction
  | restrict
  | cascade
  | setNull
  | setDefault
deriving Repr, DecidableEq

/-- The action in SQL. -/
def ReferentialAction.toText : ReferentialAction → String
  | noAction => "NO ACTION"
  | restrict => "RESTRICT"
  | cascade => "CASCADE"
  | setNull => "SET NULL"
  | setDefault => "SET DEFAULT"

/-- A column that refers to a column of another table. -/
structure ForeignKey where
  column : String
  foreignTable : String
  foreignColumn : String
  onDelete? : Option ReferentialAction := none
  onUpdate? : Option ReferentialAction := none
deriving Repr, DecidableEq

/-- The text of an optional action after its keyword. -/
def actionPart (keyword : String) (action? : Option ReferentialAction) : String :=
  match action? with
  | some action => keyword ++ action.toText
  | none => ""

/-- The foreign key as a table constraint. -/
def ForeignKey.toText (k : ForeignKey) (d : Dialect) : String :=
  "FOREIGN KEY (" ++ d.quote k.column ++ ") REFERENCES " ++ d.quote k.foreignTable ++ " (" ++
    d.quote k.foreignColumn ++ ")" ++ actionPart " ON DELETE " k.onDelete? ++
    actionPart " ON UPDATE " k.onUpdate?

/-- An index over columns. -/
structure Index where
  name : String
  columns : List String
  unique : Bool := false
deriving Repr, DecidableEq

/-- The statement that creates the index. -/
def Index.statement (i : Index) (d : Dialect) (table : String) : String :=
  d.createIndex i.name table i.columns i.unique

/-- A table to be created. -/
structure Table where
  name : String
  columns : List ModelColumn := []
  /-- The columns of the primary key; none if the columns themselves say which they are. -/
  primaryKey : List String := []
  foreignKeys : List ForeignKey := []
  indexes : List Index := []
  ifNotExists : Bool := false
deriving Repr, DecidableEq

namespace Table

/-- The columns of a primary key that is written at the end; none if the key is one column that
says so itself. -/
def tableKey (t : Table) : List String :=
  if t.primaryKey.isEmpty then
    let flagged := (t.columns.filter (·.primaryKey)).map (·.name)
    if 1 < flagged.length then flagged else []
  else t.primaryKey

/-- A column of a table whose key is written at the end: key columns refuse NULL, and none is a key
or counts up by itself. -/
def underTableKey (key : List String) (c : ModelColumn) : ModelColumn :=
  { c with notNull := c.notNull || key.contains c.name, primaryKey := false, autoIncrement := false }

/-- The columns as their definitions show them. -/
def definedColumns (t : Table) : List ModelColumn :=
  if t.tableKey.isEmpty then t.columns else t.columns.map (underTableKey t.tableKey)

/-- The key at the end. -/
def keyItem (d : Dialect) (key : List String) : String :=
  "PRIMARY KEY (" ++ d.quoteAll key ++ ")"

/-- What stands between the parentheses of CREATE TABLE: columns, key, foreign keys. -/
def items (t : Table) (d : Dialect) : List String :=
  t.definedColumns.map d.definition ++
    (if t.tableKey.isEmpty then [] else [keyItem d t.tableKey]) ++
    t.foreignKeys.map (·.toText d)

/-- The CREATE TABLE statement. -/
def createStatement (t : Table) (d : Dialect) : String :=
  "CREATE TABLE " ++ Dialect.textIf t.ifNotExists "IF NOT EXISTS " ++ d.quote t.name ++ " (\n" ++
    ",\n".intercalate ((t.items d).map ("    " ++ ·)) ++ "\n)"

/-- CREATE TABLE, then the comments and indexes of the columns, then the other indexes. -/
def statements (t : Table) (d : Dialect) : List String :=
  t.createStatement d :: (t.columns.flatMap (d.companions t.name) ++
    t.indexes.map (·.statement d t.name))

end Table

/-- The statements that create a table of the given columns. -/
def createTable (d : Dialect) (table : String) (columns : List ModelColumn) : List String :=
  Table.statements { name := table, columns := columns } d

end SchemaKeeper
