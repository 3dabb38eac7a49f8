/-
Writing domain values as JSON.

The members of a record come in one fixed order, and none is left out.
-/
import SchemaKeeper.Column.Difference
import SchemaKeeper.Json.Basic

namespace SchemaKeeper

open Json

/-- A parametrised type is an object with one member. -/
def ColumnType.toJson : ColumnType → Json
  | .int => string "Int"
  | .bigInt => string "BigInt"
  | .smallInt => string "SmallInt"
  | .tinyInt => string "TinyInt"
  | .float => string "Float"
  | .double => string "Double"
  | .decimal p s => object [("Decimal", array [ofUInt32 p, ofUInt32 s])]
  | .varchar n => object [("Varchar", ofUInt32 n)]
  | .char n => object [("Char", ofUInt32 n)]
  | .text => string "Text"
  | .longText => string "LongText"
  | .dateTime => string "DateTime"
  | .timestamp => string "Timestamp"
  | .date => string "Date"
  | .time => string "Time"
  | .boolean => string "Boolean"
  | .blob => string "Blob"
  | .json => string "Json"

def IndexName.toJson : IndexName → Json
  | .auto => string "Auto"
  | .named name => object [("Named", string name)]

def ModelColumn.toJson (c : ModelColumn) : Json :=
  object [
    ("name", string c.name),
    ("sql_type", c.type.toJson),
    ("not_null", bool c.notNull),
    ("primary_key", bool c.primaryKey),
    ("auto_increment", bool c.autoIncrement),
    ("unique", bool c.unique),
    ("default", ofString? c.default?),
    ("comment", ofString? c.comment?),
    ("index", (c.index?.map IndexName.toJson).getD null)]

def DatabaseColumn.toJson (c : DatabaseColumn) : Json :=
  object [
    ("name", string c.name),
    ("raw_type", string c.rawType),
    ("length", ofUInt32? c.length?),
    ("precision", ofUInt32? c.precision?),
    ("scale", ofUInt32? c.scale?),
    ("not_null", bool c.notNull),
    ("primary_key", bool c.primaryKey),
    ("auto_increment", bool c.autoIncrement),
    ("unique", bool c.unique),
    ("default", ofString? c.default?),
    ("comment", ofString? c.comment?)]

/-- The word for an aspect. -/
def Aspect.word : Aspect → String
  | type => "type"
  | length => "length"
  | precision => "precision"
  | notNull => "not_null"
  | unique => "unique"
  | default => "default"
  | comment => "comment"

def Difference.toJson (d : Difference) : Json :=
  object [
    ("column", string d.column),
    ("kind", string d.kind.word),
    ("old", (d.old?.map DatabaseColumn.toJson).getD null),
    ("new", (d.new?.map ModelColumn.toJson).getD null),
    ("reason", string d.reason),
    ("changes", array (d.changes.map fun a => string a.word))]

end SchemaKeeper
