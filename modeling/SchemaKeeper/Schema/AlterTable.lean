/-
ALTER TABLE statements for differences.

`planAlterations` renders each difference, whether it can be carried out or not.
`alterStatements` goes through the differences one after another and stops at the first
that cannot be carried out; then nothing is written at all.  Otherwise it puts the
renderings together as statements.
-/
import SchemaKeeper.Dialect.Alteration
import SchemaKeeper.Error

namespace SchemaKeeper

/-- Each difference with its rendering. -/
def planAlterations (d : Dialect) (table : String) (diffs : List Difference) :
    List (Difference × Alteration) :=
  diffs.map fun diff => (diff, d.alteration table diff)

/-- Why a difference is not carried out, if it is not. -/
def refusal? (table : String) (diff : Difference) (a : Alteration) : Option Failure :=
  match a.support with
  | .supported => none
  | .requiresRecreate => some (.requiresRecreate table diff.column diff.kind.word)
  | .unsupported =>
    some (.unsupported table diff.column
      (a.note?.getD ("cannot " ++ diff.kind.word ++ " column")))

/-- One ALTER TABLE statement. -/
def alterTable (d : Dialect) (table clauses : String) : String :=
  "ALTER TABLE " ++ d.quote table ++ " " ++ clauses

/-- One statement for all clauses, and then the other statements. -/
def combinedStatements (d : Dialect) (table : String) (as : List Alteration) : List String :=
  let clauses := as.flatMap (·.clauses)
  (if clauses.isEmpty then [] else [alterTable d table (", ".intercalate clauses)]) ++
    as.flatMap (·.statements)

/-- One statement for each clause of a difference, followed by its other statements. -/
def separateStatements (d : Dialect) (table : String) (as : List Alteration) : List String :=
  as.flatMap fun a => a.clauses.map (alterTable d table) ++ a.statements

/-- The statements for alterations that can all be carried out. -/
def statementsOf (d : Dialect) (table : String) (as : List Alteration) : List String :=
  if d.capabilities.combines then combinedStatements d table as else separateStatements d table as

/-- The renderings of the differences in order, or why the first one that is not supported cannot
be carried out. -/
def alterations (d : Dialect) (table : String) : List Difference → Except Failure (List Alteration)
  | [] => .ok []
  | diff :: r =>
    match refusal? table diff (d.alteration table diff) with
    | some failure => .error failure
    | none => (alterations d table r).map fun as => d.alteration table diff :: as

/-- The statements that carry out the differences. -/
def alterStatements (d : Dialect) (table : String) (diffs : List Difference) :
    Except Failure (List String) :=
  if diffs.isEmpty then .ok []
  else (alterations d table diffs).map (statementsOf d table)

end SchemaKeeper
