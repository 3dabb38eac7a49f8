/-
Column types in a dialect.

* `typeText` writes a column type, `columnTypeText` the type of a whole column,
  where a counting key may have a type of its own,
* `normalTypeName` maps the names that a dialect uses for one type to one name,
* `sameType` tells whether a reported type is the one that a model wants,
  parameters aside.
-/
import SchemaKeeper.Column.Basic
import SchemaKeeper.Dialect.Basic

namespace SchemaKeeper

open Text Number

/-! ### Writing types -/

/-- SQLite knows five storage classes; lengths and precisions are not written. -/
def sqliteTypeText : ColumnType → String
  | .int | .bigInt | .smallInt | .tinyInt | .boolean => "INTEGER"
  | .float | .double => "REAL"
  | .decimal .. => "NUMERIC"
  | .varchar _ | .char _ | .text | .longText | .dateTime | .timestamp | .date | .time | .json =>
    "TEXT"
  | .blob => "BLOB"

def postgresTypeText : ColumnType → String
  | .int => "INTEGER"
  | .bigInt => "BIGINT"
  | .smallInt | .tinyInt => "SMALLINT"
  | .float => "REAL"
  | .double => "DOUBLE PRECISION"
  | .decimal p s => "DECIMAL(" ++ uint32Digits p ++ ", " ++ uint32Digits s ++ ")"
  | .varchar n => "VARCHAR(" ++ uint32Digits n ++ ")"
  | .char n => "CHAR(" ++ uint32Digits n ++ ")"
  | .text | .longText => "TEXT"
  | .dateTime | .timestamp => "TIMESTAMP"
  | .date => "DATE"
  | .time => "TIME"
  | .boolean => "BOOLEAN"
  | .blob => "BYTEA"
  | .json => "JSONB"

/-- MySQL writes types as tags do, but a truth value is a small number. -/
def mysqlTypeText : ColumnType → String
  | .boolean => "TINYINT(1)"
  | t => t.toText

namespace Dialect

/-- The text of a column type. -/
def typeText : Dialect → ColumnType → String
  | sqlite => sqliteTypeText
  | postgres => postgresTypeText
  | mysql => mysqlTypeText

/-- The type of a key that counts up from a sequence of its own. -/
def serialType? : ColumnType → Option String
  | .int | .smallInt | .tinyInt => some "SERIAL"
  | .bigInt => some "BIGSERIAL"
  | _ => none

/-- The type text in the definition of a column. -/
def columnTypeText (d : Dialect) (c : ModelColumn) : String :=
  match d with
  | postgres =>
    if c.autoIncrement && c.primaryKey then (serialType? c.type).getD (d.typeText c.type)
    else d.typeText c.type
  | sqlite | mysql => d.typeText c.type

/-! ### Comparing types -/

def postgresTypeName (base : String) : String :=
  match base with
  | "CHARACTER VARYING" => "VARCHAR"
  | "CHARACTER" | "BPCHAR" => "CHAR"
  | "INT" | "INT4" | "SERIAL" => "INTEGER"
  | "INT8" | "BIGSERIAL" => "BIGINT"
  | "INT2" | "SMALLSERIAL" => "SMALLINT"
  | "FLOAT4" => "REAL"
  | "FLOAT8" => "DOUBLE PRECISION"
  | "DECIMAL" => "NUMERIC"
  | "TIMESTAMP WITHOUT TIME ZONE" => "TIMESTAMP"
  | "TIMESTAMP WITH TIME ZONE" => "TIMESTAMPTZ"
  | "TIME WITHOUT TIME ZONE" => "TIME"
  | "BOOL" => "BOOLEAN"
  | other => other

/-- The words of a type name that do not change the type. -/
def isModifier (word : List Char) : Bool :=
  word == "UNSIGNED".toList || word == "ZEROFILL".toList

def mysqlTypeName (base : String) : String :=
  let plain := [' '].intercalate ((words base.toList).filter fun w => !isModifier w)
  match String.ofList plain with
  | "INTEGER" => "INT"
  | "BOOL" | "BOOLEAN" => "TINYINT"
  | "NUMERIC" => "DECIMAL"
  | other => other

/-- One name for each type, given a name in upper case without parameters. -/
def normalTypeName : Dialect → String → String
  | sqlite, base => base
  | postgres, base => postgresTypeName base
  | mysql, base => mysqlTypeName base

/-- How SQLite stores the values of a column. -/
inductive Affinity where
  | integer
  | text
  | blob
  | real
  | numeric
deriving Repr, DecidableEq

/-- The affinity of a declared type, found by fragments of its name in this order. -/
def affinity (typeName : String) : Affinity :=
  let name := upper typeName.toList
  let has := fun fragment : String => hasFragment fragment.toList name
  if has "INT" then .integer
  else if has "CHAR" || has "CLOB" || has "TEXT" then .text
  else if name.isEmpty || has "BLOB" then .blob
  else if has "REAL" || has "FLOA" || has "DOUB" then .real
  else .numeric

/-- Whether a reported type is the one a model wants, parameters aside.  In SQLite it is enough that
values are stored alike, or that the declared name is that of the wanted type. -/
def sameType (d : Dialect) (wanted : ColumnType) (rawType : String) : Bool :=
  let reported := TypeText.baseName rawType
  match d with
  | sqlite =>
    affinity reported == affinity (d.typeText wanted) ||
      reported == TypeText.baseName wanted.toText
  | postgres | mysql =>
    d.normalTypeName (TypeText.baseName (d.typeText wanted)) == d.normalTypeName reported

end Dialect

end SchemaKeeper
