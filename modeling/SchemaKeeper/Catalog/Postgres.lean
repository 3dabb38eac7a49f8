/-
The catalog of PostgreSQL.

Columns come from the information schema, keys and unique columns from its table
constraints.  The kind of a constraint is the one that its first row gives; a
constraint of one member makes it unique.
-/
import SchemaKeeper.Catalog.Basic

namespace SchemaKeeper.Catalog.Postgres

def columnsQuery : String := "
SELECT column_name, data_type, character_maximum_length, numeric_precision,
       numeric_scale, is_nullable, column_default, is_identity,
       col_description(
           (quote_ident(table_schema) || '.' || quote_ident(table_name))::regclass,
           ordinal_position
       ) AS column_comment
FROM information_schema.columns
WHERE table_schema = current_schema() AND table_name = $1
ORDER BY ordinal_position
"

def constraintsQuery : String := "
SELECT tc.constraint_name, tc.constraint_type, kcu.column_name
FROM information_schema.table_constraints tc
JOIN information_schema.key_column_usage kcu
  ON tc.constraint_name = kcu.constraint_name
 AND tc.table_schema = kcu.table_schema
 AND tc.table_name = kcu.table_name
WHERE tc.table_schema = current_schema()
  AND tc.table_name = $1
  AND tc.constraint_type IN ('PRIMARY KEY', 'UNIQUE')
"

def tableQuery : String := "
SELECT 1 AS present FROM information_schema.tables
WHERE table_schema = current_schema() AND table_name = $1
"

/-! ### Columns -/

/-- Whether a default takes the next number of a sequence. -/
def isSequenceDefault (default? : Option String) : Bool :=
  default?.any fun d => "nextval(".toList.isPrefixOf d.toList

/-- The column of a row, with no regard to constraints. -/
def column (table : String) (row : Row) : Except Failure DatabaseColumn := do
  let name ← requiredText table row "column_name"
  let rawType := textOrEmpty row "data_type"
  return {
    name := name
    rawType := rawType
    length? := size? row "character_maximum_length"
    precision? := decimalSize? rawType row "numeric_precision"
    scale? := decimalSize? rawType row "numeric_scale"
    notNull := !row.isTrue "is_nullable"
    autoIncrement := row.isTrue "is_identity" || isSequenceDefault (row.text? "column_default")
    default? := row.text? "column_default"
    comment? := comment? row "column_comment" }

/-! ### Constraints -/

/-- One row on a constraint: the constraint, its kind, and a member. -/
structure Membership where
  constraint : String
  kind : String
  member : String
deriving Repr, DecidableEq

def membership (table : String) (row : Row) : Except Failure Membership := do
  let constraint ← requiredText table row "constraint_name"
  let member ← requiredText table row "column_name"
  return ⟨constraint, textOrEmpty row "constraint_type", member⟩

/-- The kind of a constraint, which its first row gives. -/
def kindOf (ms : List Membership) (constraint : String) : String :=
  ((ms.find? (·.constraint == constraint)).map (·.kind)).getD ""

/-- The number of members of a constraint. -/
def sizeOf (ms : List Membership) (constraint : String) : Nat :=
  (ms.filter (·.constraint == constraint)).length

/-- The columns after what one membership says. -/
def applyMembership (ms : List Membership) (columns : List DatabaseColumn) (m : Membership) :
    List DatabaseColumn :=
  let kind := kindOf ms m.constraint
  if kind = "PRIMARY KEY" then updateFirst m.member asKey columns
  else if kind = "UNIQUE" ∧ sizeOf ms m.constraint = 1 then updateFirst m.member asUnique columns
  else columns

/-- The columns with their keys and unique columns marked. -/
def applyConstraints (ms : List Membership) (columns : List DatabaseColumn) :
    List DatabaseColumn :=
  ms.foldl (applyMembership ms) columns

variable {σ : Type} (c : Connection σ)

/-- The columns of a table; none if there is no such table. -/
def columns (table : String) : Action σ (List DatabaseColumn) := do
  let rows ← c.query columnsQuery [.text table]
  let columns ← .ofExcept (rows.mapM (column table))
  if columns.isEmpty then return []
  let constraints ← c.query constraintsQuery [.text table]
  let memberships ← .ofExcept (constraints.mapM (membership table))
  return applyConstraints memberships columns

end SchemaKeeper.Catalog.Postgres
