/-
Reading tables from the catalog.

`tableColumns` reads the columns of a table in their order, `tableExists` asks
whether there is such a table.  A name of blanks is the name of no table, and
then the database is not asked.
-/
import SchemaKeeper.Catalog.Mysql
import SchemaKeeper.Catalog.Postgres
import SchemaKeeper.Catalog.Sqlite

namespace SchemaKeeper

open Catalog

/-- The query that finds a table by its name. -/
def Dialect.tableQuery : Dialect → String
  | sqlite => Sqlite.tableQuery
  | postgres => Postgres.tableQuery
  | mysql => Mysql.tableQuery

namespace Connection

variable {σ : Type} (c : Connection σ)

/-- The columns that the catalog lists; none if there is no such table. -/
def catalogColumns (table : String) : Action σ (List DatabaseColumn) :=
  match c.dialect with
  | .sqlite => Sqlite.columns c table
  | .postgres => Postgres.columns c table
  | .mysql => Mysql.columns c table

/-- The columns of a table that exists. -/
def tableColumns (table : String) : Action σ (List DatabaseColumn) := do
  if isNoName table then throw (.tableNotFound table)
  let columns ← c.catalogColumns table
  if columns.isEmpty then throw (.tableNotFound table)
  return columns

/-- Whether a table exists. -/
def tableExists (table : String) : Action σ Bool := do
  if isNoName table then return false
  let row ← c.queryRow c.dialect.tableQuery [.text table]
  return row.isSome

end Connection

end SchemaKeeper
