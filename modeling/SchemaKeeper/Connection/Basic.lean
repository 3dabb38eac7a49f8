/-
Connections to a database.

A `Connection` says how a database answers statements and queries; its state may
be of any type, and each answer may change it.  An `Action` is a computation that
talks to a connection.  It keeps the list of its calls (`Conversation`), also when
it fails, so that one can state what was sent and in which order.

* `exec` and `query` send one call,
* `queryRow` asks for the first row,
* `transaction` runs statements between BEGIN and COMMIT, and takes them back
  with ROLLBACK when one fails.
-/
import SchemaKeeper.Connection.Value
import SchemaKeeper.Dialect.Basic
import SchemaKeeper.Error
import SchemaKeeper.Time.Moment

namespace SchemaKeeper

/-- The two kinds of calls. -/
inductive Verb where
  | exec
  | query
deriving Repr, DecidableEq

/-- One call of a database. -/
structure Call where
  verb : Verb
  sql : String
  args : List Value
deriving Repr, DecidableEq

/-- How a database answers.  `σ` is the type of its states. -/
structure Connection (σ : Type) where
  dialect : Dialect
  /-- The number of rows that a statement affects. -/
  onExec : String → List Value → σ → Except Failure Nat × σ
  /-- The rows that a query finds. -/
  onQuery : String → List Value → σ → Except Failure (List Row) × σ
  /-- The time of the day in a state. -/
  clock : σ → Moment

/-- A state of the database with the calls that led there. -/
structure Conversation (σ : Type) where
  state : σ
  calls : List Call := []

/-- A computation that talks to a database and may fail. -/
abbrev Action (σ α : Type) := ExceptT Failure (StateM (Conversation σ)) α

namespace Action

variable {σ α β : Type}

/-- The outcome of an action as a value; the action itself does not fail. -/
def attempt (x : Action σ α) : Action σ (Except Failure α) := fun s =>
  let (outcome, s) := x.run s
  (.ok outcome, s)

/-- The action with its failures replaced. -/
def mapFailure (f : Failure → Failure) (x : Action σ α) : Action σ α := fun s =>
  let (outcome, s) := x.run s
  (outcome.mapError f, s)

/-- The value of a computation without calls. -/
def ofExcept (x : Except Failure α) : Action σ α := fun s =>
  (x, s)

end Action

namespace Connection

variable {σ : Type} (c : Connection σ)

/-- Sends a statement. -/
def exec (sql : String) (args : List Value := []) : Action σ Nat := fun s =>
  let (answer, state) := c.onExec sql args s.state
  (answer, { state := state, calls := s.calls ++ [⟨.exec, sql, args⟩] })

/-- Sends a query. -/
def query (sql : String) (args : List Value := []) : Action σ (List Row) := fun s =>
  let (answer, state) := c.onQuery sql args s.state
  (answer, { state := state, calls := s.calls ++ [⟨.query, sql, args⟩] })

/-- The first row that a query finds. -/
def queryRow (sql : String) (args : List Value := []) : Action σ (Option Row) :=
  List.head? <$> c.query sql args

/-- The time of the day. -/
def now : Action σ Moment := fun s =>
  (.ok (c.clock s.state), s)

/-- Sends statements up to the first that fails; the number of rows that the last one affects, or
the given number if there is none. -/
def execAll (affected : Nat) : List String → Action σ Nat
  | [] => pure affected
  | sql :: r => do
    let n ← c.exec sql
    execAll n r

/-- Sends statements as one unit. -/
def transaction (statements : List String) : Action σ Nat := do
  let _ ← c.exec "BEGIN"
  match ← (c.execAll 0 statements).attempt with
  | .ok affected =>
    let _ ← c.exec "COMMIT"
    return affected
  | .error failure =>
    let _ ← (c.exec "ROLLBACK").attempt
    throw failure

end Connection

end SchemaKeeper
