/-
Annotated record declarations.

A model may be given as a record declaration whose fields carry annotations.
`RecordDeclaration.table` and `RecordDeclaration.modelFields` say which model such a
declaration stands for: annotations with a value and bare ones become single
attributes, except that `tag` holds the tag and `embed` marks an embedded record.
-/
import SchemaKeeper.Model.Field

namespace SchemaKeeper

open Text

/-- An annotation of a field. -/
inductive Annotation where
  | bare (key : String)
  | valued (key value : String)
deriving Repr, DecidableEq

/-- A field of a record declaration. -/
structure FieldDeclaration where
  name : String
  typeText : String
  annotations : List Annotation := []
deriving Repr, DecidableEq

/-- A record declaration, perhaps with a table name. -/
structure RecordDeclaration where
  name : String
  table? : Option String := none
  fields : List FieldDeclaration
deriving Repr, DecidableEq

namespace Annotation

def key : Annotation → String
  | bare k => k
  | valued k _ => k

/-- The value of the annotation; a bare one stands for true. -/
def value : Annotation → String
  | bare _ => "true"
  | valued _ v => v

/-- Whether the annotation marks an embedded record. -/
def embeds (a : Annotation) : Bool :=
  a.key == "embed" || a.key == "embedded"

/-- Whether the annotation holds the tag. -/
def isTag (a : Annotation) : Bool :=
  a.key == "tag"

end Annotation

/-- The field of a model that a declared field stands for.  The type is kept without spaces. -/
def FieldDeclaration.toField (d : FieldDeclaration) : Field where
  name := d.name
  typeText := String.ofList (d.typeText.toList.filter (· != ' '))
  tag? := (d.annotations.filter (·.isTag)).getLast?.map (·.value)
  attributes := (d.annotations.filter fun a => !a.embeds && !a.isTag).map fun a => (a.key, a.value)
  embedded := d.annotations.any (·.embeds)

namespace RecordDeclaration

/-- The table of a record: the one it names, or its own name in lower case with underscores. -/
def table (d : RecordDeclaration) : String :=
  d.table?.getD (snakeCased d.name)

/-- The fields of the model. -/
def modelFields (d : RecordDeclaration) : List Field :=
  d.fields.map FieldDeclaration.toField

end RecordDeclaration

end SchemaKeeper
