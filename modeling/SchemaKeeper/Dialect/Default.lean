/-
Column defaults in a dialect.

`writeDefault` writes the default of a column, and `readDefault` brings what a
catalog reports into the form that is written, so that both sides can be
compared.
-/
import SchemaKeeper.Column.Type
import SchemaKeeper.Dialect.Basic
import SchemaKeeper.Number.Decimal

namespace SchemaKeeper

open Text Number

namespace Dialect

/-- A literal as the default of a column of a type.  PostgreSQL has literals of its own for truth
values. -/
def writeDefault (d : Dialect) (type : ColumnType) (literal : String) : String :=
  match d, type, literal with
  | postgres, .boolean, "1" => "TRUE"
  | postgres, .boolean, "0" => "FALSE"
  | _, _, literal => literal

/-! ### PostgreSQL -/

/-- The text before the first `::` that stands outside quotes and parentheses.  The flag tells
whether a quote is open, the number how many parentheses are; texts in which these are `2 ^ 32` or
more, so that 32 bits do not hold it, are left out of account. -/
def beforeCast? (inQuote : Bool) (depth : Nat) : List Char → Option (List Char)
  | [] => none
  | c :: r =>
    if c = '\'' then (beforeCast? (!inQuote) depth r).map (c :: ·)
    else if inQuote then (beforeCast? inQuote depth r).map (c :: ·)
    else if c = '(' then (beforeCast? inQuote (depth + 1) r).map (c :: ·)
    else if c = ')' then (beforeCast? inQuote (depth - 1) r).map (c :: ·)
    else if c = ':' ∧ depth = 0 ∧ r.head? = some ':' then some []
    else (beforeCast? inQuote depth r).map (c :: ·)

/-- An expression without the cast after it. -/
def stripCast (raw : List Char) : List Char :=
  match beforeCast? false 0 raw with
  | some value => trimEnd value
  | none => raw

/-- The text between a parenthesis at the start and one at the end. -/
def parenInner? : List Char → Option (List Char)
  | [] => none
  | c :: r => if c = '(' ∧ r.getLast? = some ')' then some r.dropLast else none

theorem length_of_parenInner? {s inside : List Char} (h : parenInner? s = some inside) :
    inside.length < s.length := by
  cases s with
  | nil => simp [parenInner?] at h
  | cons c r =>
    simp only [parenInner?] at h
    split at h
    · simp only [Option.some.injEq] at h
      rw [← h]
      simp only [List.length_dropLast, List.length_cons]
      omega
    · simp at h

theorem length_trim_le (s : List Char) : (trim s).length ≤ s.length := by
  have start : (trimStart s).length ≤ s.length := (List.dropWhile_sublist _).length_le
  have stop : (trimEnd (trimStart s)).length ≤ (trimStart s).length := by
    simpa [trimEnd] using (List.dropWhile_sublist (l := (trimStart s).reverse) isBlank).length_le
  exact Nat.le_trans stop start

/-- An expression without the parentheses around it. -/
def stripParens (s : List Char) : List Char :=
  match _h : parenInner? s with
  | some inside => stripParens (trim inside)
  | none => s
termination_by s.length
decreasing_by exact Nat.lt_of_le_of_lt (length_trim_le inside) (length_of_parenInner? _h)

/-- A number without the quotes around it. -/
def unquoteNumber (s : List Char) : List Char :=
  match inner? '\'' s with
  | some inside => if Decimal.isLiteral inside then inside else s
  | none => s

/-- The word of a reported default that stands for a value of SQL, in letters of either case. -/
def postgresKeyword? (word : String) : Option String :=
  match word with
  | "now()" | "current_timestamp" | "current_timestamp()" => some "CURRENT_TIMESTAMP"
  | "true" => some "TRUE"
  | "false" => some "FALSE"
  | "null" => some "NULL"
  | _ => none

/-- A default as PostgreSQL reports it, without casts, parentheses and quotes around numbers. -/
def readPostgresDefault (raw : List Char) : List Char :=
  let value := unquoteNumber (stripParens (stripCast (trim raw)))
  match postgresKeyword? (String.ofList (lower value)) with
  | some keyword => keyword.toList
  | none => value

/-! ### MySQL -/

/-- The word of a reported default that stands for a value of SQL, in letters of either case. -/
def mysqlKeyword? (word : String) : Option String :=
  match word with
  | "current_timestamp" | "current_timestamp()" | "now()" => some "CURRENT_TIMESTAMP"
  | "null" => some "NULL"
  | _ => none

/-- A default as MySQL reports it.  Texts come without quotes and get them. -/
def readMysqlDefault (raw : List Char) : List Char :=
  let value := trim raw
  match mysqlKeyword? (String.ofList (lower value)) with
  | some keyword => keyword.toList
  | none =>
    if Decimal.isLiteral value || (inner? '\'' value).isSome then value else enclose '\'' value

/-- A reported default in the form in which it is written. -/
def readDefault (d : Dialect) (raw : String) : String :=
  String.ofList (match d with
    | sqlite => trim raw.toList
    | postgres => readPostgresDefault raw.toList
    | mysql => readMysqlDefault raw.toList)

end Dialect

end SchemaKeeper
