/-
Dialects of SQL.

A `Dialect` stands for one database system.  Here are its names, what its catalog
reports (`Capabilities`), and how it writes identifiers and placeholders.
-/
import SchemaKeeper.Number.Integer
import SchemaKeeper.Text.Ascii
import SchemaKeeper.Text.Blank
import SchemaKeeper.Text.Quoted

namespace SchemaKeeper

open Text

/-- The database systems that SQL is written for. -/
inductive Dialect where
  | sqlite
  | postgres
  | mysql
deriving Repr, DecidableEq

/-- What the catalog of a database reports, and how alterations may be written. -/
structure Capabilities where
  /-- The length of a character column is reported. -/
  length : Bool
  /-- Precision and scale of a decimal column are reported. -/
  precision : Bool
  /-- Defaults are reported. -/
  defaults : Bool
  /-- Comments are kept and reported. -/
  comments : Bool
  /-- One statement can hold several alterations. -/
  combines : Bool
deriving Repr, DecidableEq

namespace Dialect

/-- The name of the SQL dialect. -/
def name : Dialect → String
  | sqlite => "sqlite"
  | postgres => "postgresql"
  | mysql => "mysql"

/-- The name of the database driver. -/
def driver : Dialect → String
  | sqlite => "sqlite"
  | postgres => "postgres"
  | mysql => "mysql"

/-- The dialect of a driver name, with the usual aliases. -/
def ofDriver? (driver : String) : Option Dialect :=
  match lowered (trimmed driver) with
  | "sqlite" | "sqlite3" => some sqlite
  | "postgres" | "postgresql" | "pg" | "pgx" => some postgres
  | "mysql" | "mariadb" => some mysql
  | _ => none

/-- What the catalog reports. -/
def capabilities : Dialect → Capabilities
  | sqlite =>
    { length := false, precision := false, defaults := true, comments := false, combines := false }
  | postgres | mysql =>
    { length := true, precision := true, defaults := true, comments := true, combines := true }

/-- The character around identifiers. -/
def quoteChar : Dialect → Char
  | sqlite | postgres => '"'
  | mysql => '\x60'

/-- A name as an identifier. -/
def quote (d : Dialect) (name : String) : String :=
  quoted d.quoteChar name

/-- Names as identifiers, with commas between them. -/
def quoteAll (d : Dialect) (names : List String) : String :=
  ", ".intercalate (names.map d.quote)

/-- The placeholder of the bind value at a position, counted from one. -/
def placeholder (d : Dialect) (position : Nat) : String :=
  match d with
  | postgres => "$" ++ String.ofList (Number.digits position)
  | sqlite | mysql => "?"

/-- The word for a column that counts up, with a space before it; where the column type says so
already, there is none. -/
def autoIncrementWord : Dialect → String
  | sqlite => " AUTOINCREMENT"
  | postgres => ""
  | mysql => " AUTO_INCREMENT"

end Dialect

end SchemaKeeper
