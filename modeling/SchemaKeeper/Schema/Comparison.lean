/-
Comparing a table with its model.

`compareColumns` lists the differences between the columns of a live table and
those of a model: first, in the order of the model, the columns to be added and
modified, then, in the order of the table, the columns to be dropped.  What a
dialect does not report is never a difference.

For one column, `findings` lists the aspects that differ, each with its reason in
words.
-/
import SchemaKeeper.Column.Difference
import SchemaKeeper.Dialect.Default
import SchemaKeeper.Dialect.TypeName
import SchemaKeeper.Number.Binary64

namespace SchemaKeeper

open Text Number

namespace Comparison

/-! ### Defaults -/

/-- A default that sets something; NULL in letters of either case does not. -/
def effective? (literal? : Option String) : Option String :=
  literal?.filter fun literal => !sameName literal "NULL"

/-- Whether two defaults are the same number, if both are numbers. -/
def sameNumber? (a b : List Char) : Option Bool :=
  match Decimal.read? a, Decimal.read? b with
  | some x, some y => some ((Binary64.ofDecimal x).numEq (Binary64.ofDecimal y))
  | _, _ => none

/-- Whether two texts of defaults set the same value.  The case of letters counts only in a quoted
text, and numbers are compared as floating point numbers. -/
def sameLiteral (a b : List Char) : Bool :=
  if sameLetters a b && a.head? != some '\'' then true
  else (sameNumber? a b).getD (a == b)

/-- Whether two optional defaults set the same value. -/
def defaultsMatch (wanted found : Option String) : Bool :=
  match effective? wanted, effective? found with
  | none, none => true
  | some a, some b => sameLiteral a.toList b.toList
  | _, _ => false

/-! ### One column -/

/-- An aspect that differs, with the reason in words. -/
abbrev Finding := Aspect × String

/-- The finding, if the condition holds. -/
def findingIf (differs : Bool) (aspect : Aspect) (reason : String) : List Finding :=
  if differs then [(aspect, reason)] else []

/-- A number in a reason; a question mark stands for one that is not reported. -/
def numberOrMark (n? : Option UInt32) : String :=
  match n? with
  | some n => uint32Digits n
  | none => "?"

def typeFindings (d : Dialect) (db : DatabaseColumn) (model : ModelColumn) : List Finding :=
  findingIf (!d.sameType model.type db.rawType) .type
    ("type changed from " ++ db.rawType ++ " to " ++ d.typeText model.type)

def lengthFindings (db : DatabaseColumn) (model : ModelColumn) : List Finding :=
  match model.type.length?, db.length? with
  | some wanted, some found =>
    findingIf (wanted != found) .length
      ("length changed from " ++ uint32Digits found ++ " to " ++ uint32Digits wanted)
  | _, _ => []

def precisionFindings (db : DatabaseColumn) (model : ModelColumn) : List Finding :=
  match model.type.precision?, model.type.scale? with
  | some precision, some scale =>
    findingIf (db.precision?.any (· != precision) || db.scale?.any (· != scale)) .precision
      ("precision changed from (" ++ numberOrMark db.precision? ++ "," ++ numberOrMark db.scale? ++
        ") to (" ++ uint32Digits precision ++ "," ++ uint32Digits scale ++ ")")
  | _, _ => []

/-- Length and precision are compared only if the type is the same and they are reported. -/
def parameterFindings (d : Dialect) (db : DatabaseColumn) (model : ModelColumn) : List Finding :=
  if d.sameType model.type db.rawType then
    (if d.capabilities.length then lengthFindings db model else []) ++
      (if d.capabilities.precision then precisionFindings db model else [])
  else []

/-- Of a key on both sides, neither NOT NULL nor uniqueness is compared. -/
def constraintFindings (db : DatabaseColumn) (model : ModelColumn) : List Finding :=
  if model.primaryKey && db.primaryKey then []
  else
    findingIf (model.notNull != db.notNull) .notNull
      (if model.notNull then "column became NOT NULL" else "column became nullable") ++
    findingIf (model.unique != db.unique) .unique
      (if model.unique then "unique constraint added" else "unique constraint removed")

/-- The default that a model wants, in the form of a reported one. -/
def wantedDefault? (d : Dialect) (model : ModelColumn) : Option String :=
  model.default?.map fun literal => d.readDefault (d.writeDefault model.type literal)

/-- The default of a column that counts up is not compared. -/
def defaultFindings (d : Dialect) (db : DatabaseColumn) (model : ModelColumn) : List Finding :=
  if d.capabilities.defaults && !(model.autoIncrement || db.autoIncrement) then
    let wanted := wantedDefault? d model
    let found := db.default?.map d.readDefault
    findingIf (!defaultsMatch wanted found) .default
      ("default changed from " ++ found.getD "none" ++ " to " ++ wanted.getD "none")
  else []

/-- An empty comment is the same as none. -/
def commentFindings (d : Dialect) (db : DatabaseColumn) (model : ModelColumn) : List Finding :=
  if d.capabilities.comments then
    findingIf (model.comment?.filter (· != "") != db.comment?.filter (· != "")) .comment
      "comment changed"
  else []

/-- All that differs between a column of a table and the column of the model. -/
def findings (d : Dialect) (db : DatabaseColumn) (model : ModelColumn) : List Finding :=
  typeFindings d db model ++ parameterFindings d db model ++ constraintFindings db model ++
    defaultFindings d db model ++ commentFindings d db model

/-- The modification of a column, if anything differs. -/
def modification? (d : Dialect) (db : DatabaseColumn) (model : ModelColumn) : Option Difference :=
  match findings d db model with
  | [] => none
  | fs => some (.modify db model (fs.map (·.1)) (fs.map (·.2)))

/-! ### All columns -/

/-- The column of a name; the last one, should the name be repeated. -/
def columnNamed? (db : List DatabaseColumn) (name : String) : Option DatabaseColumn :=
  (db.filter (·.name == name)).getLast?

/-- What one column of the model asks for. -/
def required? (d : Dialect) (db : List DatabaseColumn) (model : ModelColumn) : Option Difference :=
  match columnNamed? db model.name with
  | none => some (.add model)
  | some found => modification? d found model

end Comparison

/-- The differences between the columns of a table and those of its model. -/
def compareColumns (d : Dialect) (db : List DatabaseColumn) (model : List ModelColumn) :
    List Difference :=
  model.filterMap (Comparison.required? d db) ++
    (db.filter fun c => !model.any (·.name == c.name)).map Difference.drop

end SchemaKeeper
