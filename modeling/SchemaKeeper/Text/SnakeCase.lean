/-
Names in lower case with underscores.

`snakeCase` turns a name in mixed case into lower case and parts its words with
underscores, keeping acronyms together: `APIKey` becomes `api_key`, `UserURL`
becomes `user_url`.

An upper-case letter starts a word (`startsWord`) if a lower-case letter or a
digit stands before it, or if it is the last capital of a run that a lower-case
letter follows.  An underscore is put before each such letter, unless one was
written just before it.
-/
import SchemaKeeper.Text.CaseTable

namespace SchemaKeeper.Text

/-! ### Letter case of single characters -/

/-- The Unicode property Uppercase. -/
def isUpper (c : Char) : Bool :=
  if c.toNat < 0x80 then c.isUpper else CaseTable.uppercase.any (·.has c.toNat)

/-- The Unicode property Lowercase. -/
def isLower (c : Char) : Bool :=
  if c.toNat < 0x80 then c.isLower else CaseTable.lowercase.any (·.has c.toNat)

/-- The lower-case mapping of a character.  Only the capital I with a dot maps to two characters. -/
def lowerings (c : Char) : List Char :=
  if c.toNat < 0x80 then [c.toLower]
  else if c = '\u0130' then ['i', '\u0307']
  else match CaseTable.lowerings.find? (·.1.has c.toNat) with
    | some (span, n) => [Char.ofNat (n + (c.toNat - span.first))]
    | none => [c]

/-! ### Words of a name -/

/-- Whether an upper-case letter between `before` and `after` starts a word. -/
def startsWord (before : Char) (after : Option Char) : Bool :=
  isLower before || before.isDigit || (isUpper before && after.any isLower)

/-- The rest of a name in lower case with underscores; `before` is the character before it, whose
lower case was written last. -/
def snakeRest (before : Char) : List Char → List Char
  | [] => []
  | c :: r =>
    let parted := isUpper c && startsWord before r.head? && (lowerings before).getLast? != some '_'
    (if parted then '_' :: lowerings c else lowerings c) ++ snakeRest c r

/-- A name in lower case with underscores between its words. -/
def snakeCase : List Char → List Char
  | [] => []
  | c :: r => lowerings c ++ snakeRest c r

/-- `snakeCase` on strings. -/
def snakeCased (s : String) : String :=
  String.ofList (snakeCase s.toList)

end SchemaKeeper.Text
