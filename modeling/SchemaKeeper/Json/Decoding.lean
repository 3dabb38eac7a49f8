/-
Reading domain values from JSON.

A record is an object with named members or an array with its members in order.
In an object, unknown members are passed over and optional ones may be missing;
an array has to have exactly the members of the record.  A choice is a string, or
an object with one member whose name is the choice and whose value is its
content.

The module reads columns and differences, and what the settings of a run need.
-/
import SchemaKeeper.Column.Difference
import SchemaKeeper.Json.Basic

namespace SchemaKeeper

namespace Json

/-! ### Plain values -/

def string? : Json → Option String
  | string s => some s
  | _ => none

def bool? : Json → Option Bool
  | bool b => some b
  | _ => none

/-- A number of 32 bits. -/
def uint32? : Json → Option UInt32
  | integer n => if 0 ≤ n ∧ n < UInt32.size then some (UInt32.ofNat n.toNat) else none
  | _ => none

/-- A value that may be null. -/
def nullable? {α : Type} (read : Json → Option α) : Json → Option (Option α)
  | null => some none
  | j => (read j).map some

/-- A list of values. -/
def list? {α : Type} (read : Json → Option α) : Json → Option (List α)
  | array items => items.mapM read
  | _ => none

/-! ### Records and choices -/

/-- The member of a name. -/
def member? (members : List (String × Json)) (name : String) : Option Json :=
  members.lookup name

/-- The members of a record in the order of the given names.  A member that an object lacks is
missing; an array lacks none. -/
def record? (names : List String) : Json → Option (List (Option Json))
  | object members => some (names.map (member? members))
  | array items => if items.length = names.length then some (items.map some) else none
  | _ => none

/-- The members of a record all of which have a value without being mentioned: an array may stop
early. -/
def defaultedRecord? (names : List String) : Json → Option (List (Option Json))
  | object members => some (names.map (member? members))
  | array items =>
    if items.length ≤ names.length then
      some (items.map some ++ List.replicate (names.length - items.length) none)
    else none
  | _ => none

/-- A member that has to be there. -/
def required? {α : Type} (read : Json → Option α) (member : Option Json) : Option α :=
  member.bind read

/-- A member that may be missing or null. -/
def optional? {α : Type} (read : Json → Option α) : Option Json → Option (Option α)
  | none => some none
  | some j => nullable? read j

/-- A member that may be missing, for which there is a value then. -/
def orElse? {α : Type} (read : Json → Option α) (otherwise : α) : Option Json → Option α
  | none => some otherwise
  | some j => read j

/-- The name and the content of a choice. -/
def choice? : Json → Option (String × Option Json)
  | string name => some (name, none)
  | object [(name, content)] => some (name, some content)
  | _ => none

/-- A choice without content, for which null may stand. -/
def isBare : Option Json → Bool
  | none => true
  | some null => true
  | _ => false

/-- A choice without content among named ones. -/
def oneOf? {α : Type} (named : String → Option α) (j : Json) : Option α := do
  let (name, content) ← choice? j
  if isBare content then named name else none

end Json

open Json

/-! ### Columns -/

/-- The type of a name that takes no parameters. -/
def ColumnType.ofBareName? (name : String) : Option ColumnType :=
  match name with
  | "Int" => some .int
  | "BigInt" => some .bigInt
  | "SmallInt" => some .smallInt
  | "TinyInt" => some .tinyInt
  | "Float" => some .float
  | "Double" => some .double
  | "Text" => some .text
  | "LongText" => some .longText
  | "DateTime" => some .dateTime
  | "Timestamp" => some .timestamp
  | "Date" => some .date
  | "Time" => some .time
  | "Boolean" => some .boolean
  | "Blob" => some .blob
  | "Json" => some .json
  | _ => none

def ColumnType.ofJson? (j : Json) : Option ColumnType := do
  let (name, content) ← choice? j
  match name, content with
  | "Varchar", some n => .varchar <$> uint32? n
  | "Char", some n => .char <$> uint32? n
  | "Decimal", some (.array [p, s]) => return .decimal (← uint32? p) (← uint32? s)
  | name, content => if isBare content then ofBareName? name else none

def IndexName.ofJson? (j : Json) : Option IndexName := do
  let (name, content) ← choice? j
  match name, content with
  | "Named", some n => .named <$> string? n
  | "Auto", content => if isBare content then some .auto else none
  | _, _ => none

def ModelColumn.memberNames : List String :=
  ["name", "sql_type", "not_null", "primary_key", "auto_increment", "unique", "default", "comment",
    "index"]

def ModelColumn.ofJson? (j : Json) : Option ModelColumn := do
  let [name, type, notNull, primaryKey, autoIncrement, unique, default, comment, index] ←
    record? memberNames j | none
  return {
    name := ← required? string? name
    type := ← required? ColumnType.ofJson? type
    notNull := ← required? bool? notNull
    primaryKey := ← required? bool? primaryKey
    autoIncrement := ← required? bool? autoIncrement
    unique := ← required? bool? unique
    default? := ← optional? string? default
    comment? := ← optional? string? comment
    index? := ← optional? IndexName.ofJson? index }

def DatabaseColumn.memberNames : List String :=
  ["name", "raw_type", "length", "precision", "scale", "not_null", "primary_key", "auto_increment",
    "unique", "default", "comment"]

def DatabaseColumn.ofJson? (j : Json) : Option DatabaseColumn := do
  let [name, rawType, length, precision, scale, notNull, primaryKey, autoIncrement, unique, default,
    comment] ← record? memberNames j | none
  return {
    name := ← required? string? name
    rawType := ← required? string? rawType
    length? := ← optional? uint32? length
    precision? := ← optional? uint32? precision
    scale? := ← optional? uint32? scale
    notNull := ← required? bool? notNull
    primaryKey := ← required? bool? primaryKey
    autoIncrement := ← required? bool? autoIncrement
    unique := ← required? bool? unique
    default? := ← optional? string? default
    comment? := ← optional? string? comment }

/-! ### Differences -/

def ChangeKind.ofName? (name : String) : Option ChangeKind :=
  match name with
  | "add" => some .add
  | "modify" => some .modify
  | "drop" => some .drop
  | _ => none

def Aspect.ofName? (name : String) : Option Aspect :=
  match name with
  | "type" => some .type
  | "length" => some .length
  | "precision" => some .precision
  | "not_null" => some .notNull
  | "unique" => some .unique
  | "default" => some .default
  | "comment" => some .comment
  | _ => none

def Difference.memberNames : List String :=
  ["column", "kind", "old", "new", "reason", "changes"]

def Difference.ofJson? (j : Json) : Option Difference := do
  let [column, kind, old, new, reason, changes] ← record? memberNames j | none
  return {
    column := ← required? string? column
    kind := ← required? (oneOf? ChangeKind.ofName?) kind
    old? := ← optional? DatabaseColumn.ofJson? old
    new? := ← optional? ModelColumn.ofJson? new
    reason := ← required? string? reason
    changes := ← required? (list? (oneOf? Aspect.ofName?)) changes }

end SchemaKeeper
