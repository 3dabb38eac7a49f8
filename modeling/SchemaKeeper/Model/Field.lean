/-
Fields and the columns they become.

`Field.column?` builds the column of one field from its settings and its declared
type.  `columnsOf` does so for the fields of a model: fields that are embedded or
say nothing known are passed over, and of two fields for one column name the
first wins.
-/
import SchemaKeeper.Model.Inference
import SchemaKeeper.Model.Settings

namespace SchemaKeeper

open Text

/-- A field of a model. -/
structure Field where
  name : String
  /-- The declared type as source text. -/
  typeText : String
  tag? : Option String := none
  /-- Single attributes, as pairs of key and value. -/
  attributes : List (String × String) := []
  /-- Whether the field embeds another record, which is no column. -/
  embedded : Bool := false
deriving Repr, DecidableEq

namespace Settings

/-- The column type: the one asked for or else the inferred one, with length, precision and scale
replaced where it has them. -/
def columnType (s : Settings) (inferred : ColumnType) : ColumnType :=
  let t := s.type?.getD inferred
  let t := match s.size? with
    | some n => t.withLength n
    | none => t
  match t with
  | .decimal p q => .decimal (s.precision?.getD p) (s.scale?.getD q)
  | t => t

/-- The column that settings describe.  A key refuses NULL, and so does a time that the database
fills in; the flag that admits NULL outweighs both. -/
def column (s : Settings) (fieldName : String) (inferred : ColumnType) : ModelColumn where
  name := s.column?.getD (snakeCased fieldName)
  type := s.columnType inferred
  notNull := (s.notNull || s.primaryKey || s.autoTime) && !s.nullable
  primaryKey := s.primaryKey
  autoIncrement := s.autoIncrement
  unique := s.unique
  default? := if s.autoTime then some "CURRENT_TIMESTAMP" else s.default?
  comment? := s.comment?
  index? := s.index?

end Settings

namespace Field

/-- What the tag of a field and then its attributes say. -/
def settings (f : Field) : Settings :=
  let fromTag := match f.tag? with
    | some tag => (Tag.tokens tag.toList).map Setting.ofToken?
    | none => []
  .collect (fromTag ++ f.attributes.map fun a => Setting.ofAttribute? a.1 a.2)

/-- The column of a field, if its tag or an attribute says anything known. -/
def column? (f : Field) : Option ModelColumn :=
  if f.settings.recognized then some (f.settings.column f.name (inferType f.typeText)) else none

/-- The column of a field that is not embedded. -/
def ownColumn? (f : Field) : Option ModelColumn :=
  if f.embedded then none else f.column?

end Field

/-- The columns without those whose name is taken: by a name given, or by an earlier column. -/
def firstOfName (taken : List String) : List ModelColumn → List ModelColumn
  | [] => []
  | c :: r =>
    if c.name ∈ taken then firstOfName taken r else c :: firstOfName (c.name :: taken) r

/-- The columns of a model, in the order of its fields. -/
def columnsOf (fields : List Field) : List ModelColumn :=
  firstOfName [] (fields.filterMap Field.ownColumn?)

end SchemaKeeper
