/-
Column definitions and single statements in a dialect.

`definition` writes a column as CREATE TABLE and ADD COLUMN take it.  Beside it
stand the statements on comments, indexes and whole tables.
-/
import SchemaKeeper.Dialect.Default
import SchemaKeeper.Dialect.TypeName

namespace SchemaKeeper

open Text

namespace Dialect

/-! ### Column definitions -/

/-- The text if the condition holds, and no text otherwise. -/
def textIf (b : Bool) (s : String) : String :=
  if b then s else ""

/-- The part of a definition that sets the default. -/
def defaultPart (d : Dialect) (c : ModelColumn) : String :=
  match c.default? with
  | some literal => " DEFAULT " ++ d.writeDefault c.type literal
  | none => ""

/-- The name and the type of a column. -/
def head (d : Dialect) (c : ModelColumn) : String :=
  d.quote c.name ++ " " ++ d.columnTypeText c

/-- The constraints of a column.  A key says neither NOT NULL nor UNIQUE. -/
def constraintPart (d : Dialect) (c : ModelColumn) : String :=
  if c.primaryKey then " PRIMARY KEY" ++ textIf c.autoIncrement d.autoIncrementWord
  else textIf c.notNull " NOT NULL" ++ textIf c.unique " UNIQUE"

/-- The keys that MySQL writes into a definition. -/
def mysqlKeyPart (c : ModelColumn) : String :=
  textIf (c.unique && !c.primaryKey) " UNIQUE" ++ textIf c.primaryKey " PRIMARY KEY"

/-- The comment that MySQL writes into a definition. -/
def mysqlCommentPart (c : ModelColumn) : String :=
  match c.comment? with
  | some comment => " COMMENT " ++ literal comment
  | none => ""

/-- A column of MySQL, with or without its keys. -/
def mysqlDefinition (c : ModelColumn) (withKeys : Bool) : String :=
  mysql.head c ++ textIf c.notNull " NOT NULL" ++ mysql.defaultPart c ++
    textIf c.autoIncrement mysql.autoIncrementWord ++ textIf withKeys (mysqlKeyPart c) ++
    mysqlCommentPart c

/-- The definition of a column. -/
def definition (d : Dialect) (c : ModelColumn) : String :=
  match d with
  | mysql => mysqlDefinition c true
  | sqlite | postgres => d.head c ++ d.constraintPart c ++ d.defaultPart c

/-! ### Comments and indexes -/

/-- The statement that sets the comment of a column, where definitions cannot hold it.  An empty
comment is taken away. -/
def commentStatement? (d : Dialect) (table : String) (c : ModelColumn) : Option String :=
  match d with
  | postgres => c.comment?.map fun comment =>
      "COMMENT ON COLUMN " ++ d.quote table ++ "." ++ d.quote c.name ++ " IS " ++
        (if comment.isEmpty then "NULL" else literal comment)
  | sqlite | mysql => none

def createIndex (d : Dialect) (name table : String) (columns : List String) (unique : Bool) :
    String :=
  "CREATE " ++ textIf unique "UNIQUE " ++ "INDEX " ++ d.quote name ++ " ON " ++ d.quote table ++
    " (" ++ d.quoteAll columns ++ ")"

/-- The statements for the index that a column asks for. -/
def indexStatements (d : Dialect) (table : String) (c : ModelColumn) : List String :=
  (c.index?.map fun index =>
    d.createIndex (index.resolve table c.name) table [c.name] false).toList

def dropIndex (d : Dialect) (name table : String) : String :=
  match d with
  | mysql => "DROP INDEX " ++ d.quote name ++ " ON " ++ d.quote table
  | sqlite | postgres => "DROP INDEX " ++ d.quote name

/-- The statements that follow the definition of a new column: its comment, then its index. -/
def companions (d : Dialect) (table : String) (c : ModelColumn) : List String :=
  (d.commentStatement? table c).toList ++ d.indexStatements table c

/-! ### Tables -/

def renameTable (d : Dialect) (old new : String) : String :=
  match d with
  | mysql => "RENAME TABLE " ++ d.quote old ++ " TO " ++ d.quote new
  | sqlite | postgres => "ALTER TABLE " ++ d.quote old ++ " RENAME TO " ++ d.quote new

/-- The statement that copies the rows of a table into a new one. -/
def createBackup (d : Dialect) (table backup : String) : String :=
  "CREATE TABLE " ++ d.quote backup ++ " AS SELECT * FROM " ++ d.quote table

end Dialect

end SchemaKeeper
