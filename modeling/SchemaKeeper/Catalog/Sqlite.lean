/-
The catalog of SQLite.

Columns come from one table-valued pragma.  A unique column is found through the
list of indexes: a unique index that does not stem from the primary key and has
exactly one member makes that member unique.
-/
import SchemaKeeper.Catalog.Basic

namespace SchemaKeeper.Catalog.Sqlite

open Text

def columnsQuery : String := "SELECT * FROM pragma_table_info(?)"

def indexListQuery : String := "SELECT * FROM pragma_index_list(?)"

def indexInfoQuery : String := "SELECT * FROM pragma_index_info(?)"

def tableQuery : String := "SELECT name FROM sqlite_master WHERE type = 'table' AND name = ?"

/-! ### Columns -/

/-- Whether a column is in the primary key: its position in the key is positive. -/
def isKey (row : Row) : Bool :=
  0 < ((row.int? "pk").getD 0).toInt

/-- The length that a declared type gives, if its name says that it is a character type. -/
def declaredLength? (rawType : String) : Option UInt32 :=
  if !isDecimal rawType && hasFragment "CHAR".toList (TypeText.base rawType.toList) then
    (TypeText.parameters rawType.toList).head?
  else none

/-- The precision that a declared decimal type gives. -/
def declaredPrecision? (rawType : String) : Option UInt32 :=
  if isDecimal rawType then (TypeText.parameters rawType.toList).head? else none

/-- The scale that a declared decimal type gives; with a precision alone it is zero. -/
def declaredScale? (rawType : String) : Option UInt32 :=
  if isDecimal rawType then
    match TypeText.parameters rawType.toList with
    | [] => none
    | [_] => some 0
    | _ :: scale :: _ => some scale
  else none

/-- The column of a row.  A key of one column counts up if its type is INTEGER. -/
def column (table : String) (keyCount : Nat) (row : Row) : Except Failure DatabaseColumn := do
  let name ← requiredText table row "name"
  let rawType := textOrEmpty row "type"
  return {
    name := name
    rawType := rawType
    length? := declaredLength? rawType
    precision? := declaredPrecision? rawType
    scale? := declaredScale? rawType
    notNull := row.isTrue "notnull"
    primaryKey := isKey row
    autoIncrement := isKey row && keyCount == 1 && TypeText.baseName rawType == "INTEGER"
    default? := row.text? "dflt_value" }

/-- The columns of all rows. -/
def columnsOfRows (table : String) (rows : List Row) : Except Failure (List DatabaseColumn) :=
  rows.mapM (column table (rows.filter isKey).length)

/-! ### Unique columns -/

/-- Whether an index can make a column unique: it is unique and not that of the primary key. -/
def isUniqueIndex (row : Row) : Bool :=
  row.isTrue "unique" && textOrEmpty row "origin" != "pk"

/-- The only member of an index. -/
def onlyMember? : List Row → Option String
  | [member] => member.text? "name"
  | _ => none

variable {σ : Type} (c : Connection σ)

/-- The columns with those marked that a unique index covers alone. -/
def markUnique (table : String) : List Row → List DatabaseColumn → Action σ (List DatabaseColumn)
  | [], columns => pure columns
  | index :: r, columns => do
    if isUniqueIndex index then
      let name ← .ofExcept (requiredText table index "name")
      let members ← c.query indexInfoQuery [.text name]
      match onlyMember? members with
      | some member => markUnique table r (updateFirst member asUnique columns)
      | none => markUnique table r columns
    else markUnique table r columns

/-- The columns of a table; none if there is no such table. -/
def columns (table : String) : Action σ (List DatabaseColumn) := do
  let rows ← c.query columnsQuery [.text table]
  let columns ← .ofExcept (columnsOfRows table rows)
  if columns.isEmpty then return []
  let indexes ← c.query indexListQuery [.text table]
  markUnique c table indexes columns

end SchemaKeeper.Catalog.Sqlite
