/-
What tags say about a column.

Each token of a tag, and each single attribute of a field, is read as a `Setting`
or not at all.  `Settings` collects them: a later setting takes the place of an
earlier one of the same kind, and a flag once set stays set.

A token whose key is known but whose value is malformed is the setting `blank`:
it counts as recognised and changes nothing.
-/
import SchemaKeeper.Column.Basic
import SchemaKeeper.Model.Default
import SchemaKeeper.Model.Tag
import SchemaKeeper.Text.SnakeCase

namespace SchemaKeeper

open Text

/-- A property of a column that a bare word asks for. -/
inductive Flag where
  | primaryKey
  | autoIncrement
  | unique
  | notNull
  | nullable
  /-- The column holds a time that the database fills in. -/
  | autoTime
  | index
deriving Repr, DecidableEq

/-- What one token says. -/
inductive Setting where
  | type (type : ColumnType)
  | size (n : UInt32)
  | precision (n : UInt32)
  | scale (n : UInt32)
  | column (name : String)
  | comment (text : String)
  | default (literal : String)
  | index (name : IndexName)
  | flag (flag : Flag)
  /-- Known and malformed. -/
  | blank
deriving Repr, DecidableEq

/-- All that the tags of a field say. -/
structure Settings where
  recognized : Bool := false
  type? : Option ColumnType := none
  size? : Option UInt32 := none
  precision? : Option UInt32 := none
  scale? : Option UInt32 := none
  column? : Option String := none
  comment? : Option String := none
  default? : Option String := none
  primaryKey : Bool := false
  autoIncrement : Bool := false
  unique : Bool := false
  notNull : Bool := false
  nullable : Bool := false
  autoTime : Bool := false
  index? : Option IndexName := none
deriving Repr, DecidableEq

/-! ### Reading one token -/

/-- The flag of a word in lower case. -/
def Flag.ofWord? (word : String) : Option Flag :=
  match word with
  | "primary_key" | "primarykey" | "pk" => some .primaryKey
  | "auto_increment" | "autoincrement" => some .autoIncrement
  | "unique" => some .unique
  | "not_null" | "notnull" | "not_nil" | "notnil" => some .notNull
  | "nullable" => some .nullable
  | "auto_create_time" | "autocreatetime" | "auto_update_time" | "autoupdatetime" => some .autoTime
  | "index" => some .index
  | _ => none

/-- A truth value written as a word or a digit; nothing at all stands for true. -/
def truth? (value : List Char) : Option Bool :=
  match String.ofList (lower (trim value)) with
  | "" | "true" | "1" | "yes" | "y" | "on" => some true
  | "false" | "0" | "no" | "n" | "off" => some false
  | _ => none

/-- A text without outer blanks and without the quotes around it, its doubled quotes made single. -/
def unquote (value : List Char) : List Char :=
  match inner? '\'' (trim value) with
  | some inside => undouble '\'' inside
  | none => trim value

/-- The index that a value names; no name or the word true stands for an automatic name. -/
def indexOf (value : List Char) : IndexName :=
  let name := trim value
  if name.isEmpty || sameLetters name "true".toList then .auto else .named (String.ofList name)

/-- A number of 32 bits as a setting. -/
def numberSetting (setting : UInt32 → Setting) (value : List Char) : Setting :=
  match Number.uint32? (trim value) with
  | some n => setting n
  | none => .blank

/-- A flag with a truth value: a false one leaves the column alone. -/
def flagSetting (flag : Flag) (value : List Char) : Setting :=
  if truth? value = some true then .flag flag else .blank

/-- The setting of a value under a key in lower case; unknown keys set nothing. -/
def Setting.ofPair? (key : String) (value : List Char) : Option Setting :=
  match key with
  | "type" => some (match ColumnType.read? value with | some t => .type t | none => .blank)
  | "size" | "length" => some (numberSetting .size value)
  | "precision" => some (numberSetting .precision value)
  | "scale" => some (numberSetting .scale value)
  | "comment" => some (.comment (String.ofList (unquote value)))
  | "default" => some (.default (String.ofList (defaultLiteral (trim value))))
  | "column" | "db" =>
    some (if (trim value).isEmpty then .blank else .column (String.ofList (trim value)))
  | "index" => some (.index (indexOf value))
  | _ => (Flag.ofWord? key).map fun flag => flagSetting flag value

/-- The setting of a token: a key and a value with a colon between them, or a flag. -/
def Setting.ofToken? (token : List Char) : Option Setting :=
  match cutAt? ':' token with
  | some (key, value) => ofPair? (String.ofList (lower (trim key))) value
  | none => (Flag.ofWord? (String.ofList (lower token))).map .flag

/-- The setting of a single attribute, whose key may be written in mixed case. -/
def Setting.ofAttribute? (key value : String) : Option Setting :=
  ofPair? (String.ofList (snakeCase (trim key.toList))) value.toList

/-! ### Collecting -/

namespace Settings

/-- The settings with a flag set. -/
def raise (s : Settings) : Flag → Settings
  | .primaryKey => { s with primaryKey := true }
  | .autoIncrement => { s with autoIncrement := true }
  | .unique => { s with unique := true }
  | .notNull => { s with notNull := true }
  | .nullable => { s with nullable := true }
  | .autoTime => { s with autoTime := true }
  | .index => { s with index? := some .auto }

/-- The settings after one more setting. -/
def apply (s : Settings) : Setting → Settings
  | .type t => { s with type? := some t }
  | .size n => { s with size? := some n }
  | .precision n => { s with precision? := some n }
  | .scale n => { s with scale? := some n }
  | .column name => { s with column? := some name }
  | .comment text => { s with comment? := some text }
  | .default literal => { s with default? := some literal }
  | .index name => { s with index? := some name }
  | .flag flag => s.raise flag
  | .blank => s

/-- The settings after a token that may be unknown. -/
def applyKnown (s : Settings) : Option Setting → Settings
  | some setting => { s.apply setting with recognized := true }
  | none => s

/-- All that a list of settings says. -/
def collect (settings : List (Option Setting)) : Settings :=
  settings.foldl applyKnown {}

end Settings

end SchemaKeeper
