/-
Column types from declared field types.

`inferType` chooses a column type for the type of a field as its source text
declares it, such as `Option<String>` or `time::Date`.

* Blanks, leading references and the lifetime `'static` are ignored.
* Optional and pointer types stand for what they hold.
* A list of bytes is binary, any other list and any unknown type is JSON.
-/
import SchemaKeeper.Column.Type

namespace SchemaKeeper

open Text

namespace Inference

/-- The text without leading ampersands. -/
def dropReferences (t : List Char) : List Char :=
  t.dropWhile (· == '&')

/-- The text without the leading marks of an unlimited lifetime. -/
def dropStatic : List Char → List Char
  | '\'' :: 's' :: 't' :: 'a' :: 't' :: 'i' :: 'c' :: r => dropStatic r
  | t => t

/-- A type text without its path: `a::b::C<d::E>` becomes `C<d::E>`. -/
def lastSegment (t : List Char) : List Char :=
  let head := t.takeWhile (· != '<')
  match afterLast? "::".toList head with
  | some name => name ++ t.dropWhile (· != '<')
  | none => t

/-- The name and the argument of a type of the form `name<argument>`, without the path of the
name. -/
def generic? (t : List Char) : Option (String × List Char) :=
  match cutAt? '<' t with
  | none => none
  | some (head, rest) =>
    if rest.getLast? = some '>' then some (String.ofList (lastSegment head), rest.dropLast)
    else none

/-- The types that stand for what they hold. -/
def wrappers : List String := ["Option", "Box", "Arc", "Rc"]

/-- The argument of a type that stands for what it holds. -/
def unwrap? (t : List Char) : Option (List Char) :=
  match generic? t with
  | some (name, argument) => if name ∈ wrappers then some argument else none
  | none => none

/-- The column type of a list with the given kind of items. -/
def listType (item : List Char) : ColumnType :=
  if String.ofList (lastSegment item) = "u8" then .blob else .json

/-- The column type for a type name. -/
def ofName (name : String) : ColumnType :=
  match name with
  | "String" | "str" | "Cow<str>" => .varchar 255
  | "char" => .char 1
  | "i8" | "u8" => .tinyInt
  | "i16" | "u16" => .smallInt
  | "i32" | "u32" => .int
  | "i64" | "u64" | "isize" | "usize" | "i128" | "u128" => .bigInt
  | "f32" => .float
  | "f64" => .double
  | "bool" => .boolean
  | "NaiveDateTime" | "SystemTime" | "OffsetDateTime" | "PrimitiveDateTime" => .dateTime
  | "NaiveDate" | "Date" => .date
  | "NaiveTime" | "Time" => .time
  | "Bytes" | "ByteBuf" => .blob
  | "Decimal" | "BigDecimal" => .decimal 10 2
  | _ => if "DateTime".toList.isPrefixOf name.toList then .dateTime else .json

/-- The column type for a type that holds no other. -/
def ofPlain (t : List Char) : ColumnType :=
  match generic? t with
  | some ("Vec", item) => listType item
  | _ =>
    if "[u8;".toList.isPrefixOf t || t == "[u8]".toList then .blob
    else ofName (String.ofList (lastSegment t))

/-- A text without what is in front of the type proper. -/
def bare (t : List Char) : List Char :=
  dropStatic (dropReferences t)

theorem length_dropStatic_le (t : List Char) : (dropStatic t).length ≤ t.length := by
  fun_induction dropStatic t with
  | case1 r ih =>
    simp only [List.length_cons]
    omega
  | case2 t => exact Nat.le_refl _

theorem length_bare_le (t : List Char) : (bare t).length ≤ t.length :=
  Nat.le_trans (length_dropStatic_le _) (List.dropWhile_sublist _).length_le

theorem length_of_generic? {t argument : List Char} {name : String}
    (h : generic? t = some (name, argument)) : argument.length < t.length := by
  simp only [generic?] at h
  split at h
  · simp at h
  · next head rest hcut =>
    split at h
    · simp only [Option.some.injEq, Prod.mk.injEq] at h
      rw [← h.2, eq_of_cutAt? hcut]
      simp only [List.length_append, List.length_cons, List.length_dropLast]
      omega
    · simp at h

theorem length_of_unwrap? {t argument : List Char} (h : unwrap? t = some argument) :
    argument.length < t.length := by
  simp only [unwrap?] at h
  split at h
  · next name arg hg =>
    split at h
    · simp only [Option.some.injEq] at h
      exact h ▸ length_of_generic? hg
    · simp at h
  · simp at h

/-- The column type for a type text without blanks. -/
def ofDense (t : List Char) : ColumnType :=
  match _h : unwrap? (bare t) with
  | some argument => ofDense argument
  | none => ofPlain (bare t)
termination_by t.length
decreasing_by exact Nat.lt_of_lt_of_le (length_of_unwrap? _h) (length_bare_le t)

end Inference

/-- The column type for the type of a field as its source text declares it. -/
def inferType (typeText : String) : ColumnType :=
  Inference.ofDense (squeeze typeText.toList)

end SchemaKeeper
