/-
Tags cut into tokens.

A tag is a text such as `type:decimal(10,2),comment:'a, b',unique`.  Commas and
semicolons part its tokens, unless they stand in parentheses or in a quoted
value.  A quote opens a value only right after a colon, so that an apostrophe
elsewhere is an ordinary character; inside a quoted value two quotes stand for
one.

The reader is an automaton: `Scan` is its state, `Scan.step` its transition, and
`tokens` cuts a text where a separator meets a state that is open to it.
-/
import SchemaKeeper.Text.Blank
import SchemaKeeper.Text.Cut

namespace SchemaKeeper.Tag

open Text

/-- The state of a reader of tags; `depth` is the number of open parentheses.  Tags in which
`2 ^ 32` or more are open, so that 32 bits do not hold it, are left out of account. -/
inductive Scan where
  /-- Outside quotes; `afterColon` tells whether the last character that is not blank is a colon. -/
  | plain (depth : Nat) (afterColon : Bool)
  /-- In a quoted value. -/
  | quoted (depth : Nat)
  /-- After a quote in a quoted value, which ends the value unless another quote follows. -/
  | closing (depth : Nat)
deriving Repr, DecidableEq

/-- The state after a character outside quotes. -/
def Scan.stepPlain (depth : Nat) (afterColon : Bool) (c : Char) : Scan :=
  if c = '\'' ∧ afterColon then .quoted depth
  else .plain (depthAfter depth c) (if isBlank c then afterColon else c == ':')

/-- The state after one more character. -/
def Scan.step : Scan → Char → Scan
  | .plain depth afterColon, c => stepPlain depth afterColon c
  | .quoted depth, c => if c = '\'' then .closing depth else .quoted depth
  | .closing depth, c => if c = '\'' then .quoted depth else stepPlain depth false c

/-- The state before the first character. -/
def Scan.start : Scan := .plain 0 false

/-- The state after a text. -/
def Scan.run (s : Scan) (text : List Char) : Scan :=
  text.foldl step s

/-- Whether a separator ends a token in this state: outside quotes and parentheses. -/
def Scan.isOpen : Scan → Bool
  | .plain depth _ => depth == 0
  | .closing depth => depth == 0
  | .quoted _ => false

/-- The characters that part tokens. -/
def isSeparator (c : Char) : Bool :=
  c == ',' || c == ';'

/-- The pieces between separators, from a state on; there is always a first piece. -/
def piecesFrom (s : Scan) : List Char → List (List Char)
  | [] => [[]]
  | c :: r =>
    if isSeparator c && s.isOpen then [] :: piecesFrom (s.step c) r
    else (piecesFrom (s.step c) r).modifyHead (c :: ·)

/-- The tokens of a tag: its pieces without outer blanks, less the empty ones. -/
def tokens (tag : List Char) : List (List Char) :=
  ((piecesFrom .start tag).map trim).filter fun t => !t.isEmpty

end SchemaKeeper.Tag
