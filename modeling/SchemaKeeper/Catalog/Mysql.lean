/-
The catalog of MySQL.

One query on the information schema gives the columns with their keys.
-/
import SchemaKeeper.Catalog.Basic

namespace SchemaKeeper.Catalog.Mysql

open Text

def columnsQuery : String := "
SELECT COLUMN_NAME, COLUMN_TYPE, CHARACTER_MAXIMUM_LENGTH, NUMERIC_PRECISION,
       NUMERIC_SCALE, IS_NULLABLE, COLUMN_DEFAULT, COLUMN_KEY, EXTRA, COLUMN_COMMENT
FROM information_schema.COLUMNS
WHERE TABLE_SCHEMA = DATABASE() AND TABLE_NAME = ?
ORDER BY ORDINAL_POSITION
"

def tableQuery : String := "
SELECT 1 AS present FROM information_schema.TABLES
WHERE TABLE_SCHEMA = DATABASE() AND TABLE_NAME = ?
"

/-- Whether the remarks on a column say that it counts up. -/
def counts (row : Row) : Bool :=
  hasFragment "auto_increment".toList (lower (textOrEmpty row "EXTRA").toList)

/-- The column of a row. -/
def column (table : String) (row : Row) : Except Failure DatabaseColumn := do
  let name ← requiredText table row "COLUMN_NAME"
  let rawType := textOrEmpty row "COLUMN_TYPE"
  return {
    name := name
    rawType := rawType
    length? := size? row "CHARACTER_MAXIMUM_LENGTH"
    precision? := decimalSize? rawType row "NUMERIC_PRECISION"
    scale? := decimalSize? rawType row "NUMERIC_SCALE"
    notNull := !row.isTrue "IS_NULLABLE"
    primaryKey := textOrEmpty row "COLUMN_KEY" == "PRI"
    autoIncrement := counts row
    unique := textOrEmpty row "COLUMN_KEY" == "UNI"
    default? := row.text? "COLUMN_DEFAULT"
    comment? := comment? row "COLUMN_COMMENT" }

variable {σ : Type} (c : Connection σ)

/-- The columns of a table; none if there is no such table. -/
def columns (table : String) : Action σ (List DatabaseColumn) := do
  let rows ← c.query columnsQuery [.text table]
  .ofExcept (rows.mapM (column table))

end SchemaKeeper.Catalog.Mysql
