/-
Column types.

`ColumnType` is the type of a column whatever the database.  `text` writes it as
a tag does (`DECIMAL(10,2)`), `read?` reads such a text with its aliases, in
letters of either case.
-/
import SchemaKeeper.Column.TypeText

namespace SchemaKeeper

open Text

/-- The type of a column, independent of any dialect. -/
inductive ColumnType where
  | int
  | bigInt
  | smallInt
  | tinyInt
  | float
  | double
  | decimal (precision scale : UInt32)
  | varchar (length : UInt32)
  | char (length : UInt32)
  | text
  | longText
  | dateTime
  | timestamp
  | date
  | time
  | boolean
  | blob
  | json
deriving Repr, DecidableEq

namespace ColumnType

/-- The declared length of a character type. -/
def length? : ColumnType → Option UInt32
  | varchar n | char n => some n
  | _ => none

/-- The declared precision of a decimal type. -/
def precision? : ColumnType → Option UInt32
  | decimal p _ => some p
  | _ => none

/-- The declared scale of a decimal type. -/
def scale? : ColumnType → Option UInt32
  | decimal _ s => some s
  | _ => none

/-- Whether the type is one of the integer types. -/
def isInteger : ColumnType → Bool
  | int | bigInt | smallInt | tinyInt => true
  | _ => false

/-- A character type with another length; any other type stays as it is. -/
def withLength (n : UInt32) : ColumnType → ColumnType
  | varchar _ => varchar n
  | char _ => char n
  | t => t

/-- The text of a type as a tag writes it. -/
def toText : ColumnType → String
  | int => "INT"
  | bigInt => "BIGINT"
  | smallInt => "SMALLINT"
  | tinyInt => "TINYINT"
  | float => "FLOAT"
  | double => "DOUBLE"
  | decimal p s => "DECIMAL(" ++ Number.uint32Digits p ++ "," ++ Number.uint32Digits s ++ ")"
  | varchar n => "VARCHAR(" ++ Number.uint32Digits n ++ ")"
  | char n => "CHAR(" ++ Number.uint32Digits n ++ ")"
  | text => "TEXT"
  | longText => "LONGTEXT"
  | dateTime => "DATETIME"
  | timestamp => "TIMESTAMP"
  | date => "DATE"
  | time => "TIME"
  | boolean => "BOOLEAN"
  | blob => "BLOB"
  | json => "JSON"

/-- The type of a name in lower case with its parameters.  Parameters that the type has no use for
are passed over; a missing length is 255 for text of varying length and 1 for fixed text, a missing
pair of precision and scale is 10 and 2, and a missing scale alone is 0. -/
def ofName? (name : String) (parameters : List UInt32) : Option ColumnType :=
  match name with
  | "int" | "integer" | "int4" | "mediumint" => some int
  | "bigint" | "int8" | "long" => some bigInt
  | "smallint" | "int2" => some smallInt
  | "tinyint" => some tinyInt
  | "float" | "real" | "float4" => some float
  | "double" | "double precision" | "float8" => some double
  | "decimal" | "numeric" =>
    match parameters with
    | [] => some (decimal 10 2)
    | [p] => some (decimal p 0)
    | p :: s :: _ => some (decimal p s)
  | "varchar" | "string" | "character varying" => some (varchar (parameters.head?.getD 255))
  | "char" | "character" => some (char (parameters.head?.getD 1))
  | "text" | "mediumtext" | "clob" => some text
  | "longtext" => some longText
  | "datetime" => some dateTime
  | "timestamp" | "timestamptz" => some timestamp
  | "date" => some date
  | "time" => some time
  | "bool" | "boolean" => some boolean
  | "blob" | "bytes" | "binary" | "bytea" | "varbinary" | "longblob" => some blob
  | "json" | "jsonb" => some json
  | _ => none

/-- The numbers of a parameter list, all of which have to be numbers of 32 bits. -/
def parameters? (inside : List Char) : Option (List UInt32) :=
  (inside.splitOn ',').mapM fun p => Number.uint32? (trim p)

/-- The name and the parameters of a type text without outer blanks.  The parameters stand between
the first opening and the last closing parenthesis. -/
def split? (spec : List Char) : Option (List Char × List UInt32) :=
  match cutAt? '(' spec with
  | none => some (spec, [])
  | some (name, rest) => do
    let (inside, _) ← cutLast? ')' rest
    let parameters ← parameters? inside
    return (trim name, parameters)

/-- The type that a tag names. -/
def read? (spec : List Char) : Option ColumnType := do
  let (name, parameters) ← split? (lower (trim spec))
  ofName? (String.ofList name) parameters

end ColumnType

end SchemaKeeper
