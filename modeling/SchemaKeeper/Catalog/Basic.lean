/-
Catalog rows.

What the catalogs of the three databases have in common: how a cell of a catalog
row becomes a part of a column, and which names are no table names.
-/
import SchemaKeeper.Column.Basic
import SchemaKeeper.Connection.Basic
import SchemaKeeper.Text.Cut

namespace SchemaKeeper.Catalog

open Text

/-- A text that a catalog row has to have. -/
def requiredText (table : String) (row : Row) (column : String) : Except Failure String :=
  match row.text? column with
  | some text => .ok text
  | none => .error (.introspection table ("catalog row without '" ++ column ++ "'"))

/-- A text that a catalog row may lack. -/
def textOrEmpty (row : Row) (column : String) : String :=
  (row.text? column).getD ""

/-- A number of 32 bits; numbers beyond them count as missing. -/
def size? (row : Row) (column : String) : Option UInt32 :=
  (row.int? column).bind fun n =>
    if 0 ≤ n.toInt ∧ n.toInt < UInt32.size then some (UInt32.ofNat n.toInt.toNat) else none

/-- A comment, if it is not empty. -/
def comment? (row : Row) (column : String) : Option String :=
  (row.text? column).filter (· != "")

/-- Whether a declared type is decimal. -/
def isDecimal (rawType : String) : Bool :=
  let base := TypeText.baseName rawType
  base == "DECIMAL" || base == "NUMERIC"

/-- A size that only columns of decimal type have. -/
def decimalSize? (rawType : String) (row : Row) (column : String) : Option UInt32 :=
  if isDecimal rawType then size? row column else none

/-- Whether a name is no table name. -/
def isNoName (table : String) : Bool :=
  (trim table.toList).isEmpty

/-- The columns with the first one of a name changed. -/
def updateFirst (name : String) (change : DatabaseColumn → DatabaseColumn) :
    List DatabaseColumn → List DatabaseColumn
  | [] => []
  | c :: r => if c.name = name then change c :: r else c :: updateFirst name change r

/-- The column as a unique one. -/
def asUnique (c : DatabaseColumn) : DatabaseColumn := { c with unique := true }

/-- The column as a part of the primary key. -/
def asKey (c : DatabaseColumn) : DatabaseColumn := { c with primaryKey := true }

end SchemaKeeper.Catalog
