/-
Carrying migrations out.

The migrator does the same with each migration of a list: it runs one direction of
it and then changes its entry in the ledger (`Task`).

* `Carried` is the course of a migration that is carried out, and `CarriedAll` that
  of several one after another,
* `Breaks` lists the three points at which a migration breaks off, each with the
  calls up to there and the failure,
* `runs_task` says that one of the two happens, and what becomes of the rows.
-/
import SchemaKeeper.Proofs.Ledger.Operations

namespace SchemaKeeper

open SchemaKeeper.Action Ledger

namespace Migrator

variable {σ : Type}

/-! ### Tasks -/

/-- What is done with each of several migrations. -/
structure Task (σ : Type) where
  /-- The direction that is run. -/
  direction : Direction
  /-- The call that changes the ledger, in a state of the database. -/
  entry : Migration → σ → Call

/-- Migrations are applied and recorded in a batch. -/
def applying (c : Connection σ) (table : String) (batch : Int64) : Task σ where
  direction := .forward
  entry p s := insertCall c.dialect table p.version p.description (c.clock s).toText batch

/-- Migrations are undone and their records removed. -/
def undoing (c : Connection σ) (table : String) : Task σ where
  direction := .backward
  entry p _ := deleteCall c.dialect table p.version

variable (c : Connection σ) (table : String) (task : Task σ)

/-- The migration is carried out: its statements are executed, then its entry is changed. -/
inductive Carried (p : Migration) (s : σ) : List Call → Prop
  | intro {sqls : List String} {s' : σ}
      (described : p.statements task.direction c.dialect = .ok sqls)
      (accepted : c.Accepts (Call.statements sqls) s)
      (reached : s' = c.after (Call.statements sqls) s)
      (recorded : c.refusal? (task.entry p s') s' = none) :
      Carried p s (Call.statements sqls ++ [task.entry p s'])

/-- The migrations are carried out in order. -/
inductive CarriedAll : List Migration → σ → List Call → Prop
  | nil {s : σ} : CarriedAll [] s []
  | cons {p : Migration} {ps : List Migration} {s : σ} {l k : List Call}
      (first : Carried c task p s l) (rest : CarriedAll ps (c.after l s) k) :
      CarriedAll (p :: ps) s (l ++ k)

/-- The migration breaks off. -/
inductive Breaks (p : Migration) (s : σ) : List Call → Failure → Prop
  /-- Its description fails, and nothing is executed. -/
  | undescribed {f : Failure} (undescribed : p.statements task.direction c.dialect = .error f) :
      Breaks p s [] (.migrationFailed p.version f.message)
  /-- One of its statements is refused, and no other is executed after it. -/
  | refused {sqls before : List String} {sql : String} {f : Failure}
      (described : p.statements task.direction c.dialect = .ok sqls)
      (stops : c.StopsAt s sqls before sql f) :
      Breaks p s (Call.statements (before ++ [sql])) (.migrationFailed p.version f.message)
  /-- Its statements are executed, and its entry is refused. -/
  | unrecorded {sqls : List String} {s' : σ} {f : Failure}
      (described : p.statements task.direction c.dialect = .ok sqls)
      (accepted : c.Accepts (Call.statements sqls) s)
      (reached : s' = c.after (Call.statements sqls) s)
      (refused : c.refusal? (task.entry p s') s' = some f) :
      Breaks p s (Call.statements sqls ++ [task.entry p s']) (.ledger table f.message)

variable {c table task} {p : Migration} {s : Conversation σ}

theorem Breaks.ne_migrationNotFound {s : σ} {own : List Call} {f : Failure}
    (h : Breaks c table task p s own f) (version : String) : f ≠ .migrationNotFound version := by
  rintro rfl
  cases h

theorem Breaks.ne_overflow {s : σ} {own : List Call} {f : Failure}
    (h : Breaks c table task p s own f) : f ≠ .overflow := by
  rintro rfl
  cases h

/-! ### One migration -/

/-- A migration that is run comes to its end, or breaks off before its entry. -/
theorem runs_run (table : String) (task : Task σ) (p : Migration) (s : Conversation σ) :
    (run c p task.direction).Runs c s fun r l =>
      (∃ sqls, p.statements task.direction c.dialect = .ok sqls ∧
        c.Accepts (Call.statements sqls) s.state ∧ l = Call.statements sqls ∧ r = .ok ()) ∨
      (∃ f, Breaks c table task p s.state l f ∧ r = .error f ∧
        ∃ ran, l = Call.statements ran ∧ ∀ sql ∈ ran, ∃ sqls,
          p.statements task.direction c.dialect = .ok sqls ∧ sql ∈ sqls) := by
  refine (runs_ofExcept _).mapFailure _ |>.bind ?_ ?_
  · rintro sqls l (⟨_, ⟨⟩, hsqls, rfl⟩ | ⟨_, ⟨⟩, -⟩)
    rw [Conversation.extend_nil]
    refine ((runs_execAll sqls 0 s).mapFailure _).bind ?_ ?_
    · rintro n l (⟨_, ⟨⟩, ⟨haccepts, rfl, -⟩ | ⟨_, _, _, -, -, ⟨⟩⟩⟩ | ⟨_, ⟨⟩, -⟩)
      exact runs_pure (.inl ⟨sqls, hsqls.symm, haccepts, by simp, rfl⟩)
    · -- a statement is refused
      rintro f l (⟨_, ⟨⟩, -⟩ | ⟨_, ⟨⟩, ⟨-, -, _, -, ⟨⟩⟩ | ⟨before, sql, f, hstop, rfl, ⟨⟩⟩⟩)
      exact .inr ⟨_, .refused hsqls.symm hstop, rfl, before ++ [sql], rfl, fun sql' hsql' =>
        ⟨sqls, hsqls.symm, hstop.isPrefix.subset hsql'⟩⟩
  · -- there are no statements
    rintro f l (⟨_, ⟨⟩, -⟩ | ⟨f, ⟨⟩, hf, rfl⟩)
    refine .inr ⟨_, .undescribed hf.symm, rfl, [], rfl, ?_⟩
    simp

/-- What an action on the entry of a migration comes to: the entry is refused, or else `Left` holds
of the rows that are left. -/
def Entered (L : SqlLedger c table) (call : Call) (s : σ) (Left : List LedgerRow → Prop)
    (r : Except Failure Unit) (l : List Call) : Prop :=
  l = [call] ∧
    ((∃ f, c.refusal? call s = some f ∧ r = .error (.ledger table f.message) ∧
        L.rows? (c.after l s) = L.rows? s) ∨
      (c.refusal? call s = none ∧ r = .ok () ∧
        ∃ rows, L.rows? (c.after l s) = some rows ∧ Left rows))

/-- A migration is carried out or breaks off.  In the latter case the rows stay. -/
theorem runs_task (task : Task σ) {L : SqlLedger c table} {x : Action σ Unit}
    {rows : List LedgerRow} {Left : List LedgerRow → Prop} (hspares : L.Spares p) (hs : L.legal s.state)
    (hrows : L.rows? s.state = some rows)
    (hx : ∀ s' : Conversation σ, L.legal s'.state → L.rows? s'.state = some rows →
      x.Runs c s' (Entered L (task.entry p s'.state) s'.state Left)) :
    (run c p task.direction >>= fun _ => x).Runs c s fun r l =>
      (r = .ok () ∧ Carried c task p s.state l ∧
        ∃ rows', L.rows? (c.after l s.state) = some rows' ∧ Left rows') ∨
      (∃ f, r = .error f ∧ Breaks c table task p s.state l f ∧
        L.rows? (c.after l s.state) = some rows) := by
  -- how far the statements come does not matter, since none addresses the ledger
  have hstatements : ∀ ran, (∀ sql ∈ ran, ∃ sqls,
      p.statements task.direction c.dialect = .ok sqls ∧ sql ∈ sqls) →
      L.rows? (c.after (Call.statements ran) s.state) = some rows := by
    intro ran hran
    rw [SqlLedger.rows?_after_statements hs, hrows]
    intro sql hsql
    obtain ⟨sqls, hsqls, hmem⟩ := hran sql hsql
    exact hspares _ sqls hsqls sql hmem
  refine (runs_run table task p s).bind ?_ ?_
  · rintro _ l (⟨sqls, hsqls, haccepts, rfl, -⟩ | ⟨_, -, ⟨⟩, -⟩)
    have hrows' : L.rows? (c.after (Call.statements sqls) s.state) = some rows :=
      hstatements sqls fun _ hsql => ⟨sqls, hsqls, hsql⟩
    refine (hx (s.extend c _) (SqlLedger.legal_after hs _) hrows').mono ?_
    rintro r k ⟨rfl, h⟩
    rw [Connection.after_append]
    rcases h with ⟨f, hrefused, rfl, hsame⟩ | ⟨haccepted, rfl, hleft⟩
    · exact .inr ⟨_, rfl, .unrecorded hsqls haccepts rfl hrefused, hsame.trans hrows'⟩
    · exact .inl ⟨rfl, .intro hsqls haccepts rfl haccepted, hleft⟩
  · rintro f l (⟨_, -, -, -, ⟨⟩⟩ | ⟨_, hbreaks, ⟨⟩, ran, rfl, hran⟩)
    exact .inr ⟨f, rfl, hbreaks, hstatements ran hran⟩

end Migrator

end SchemaKeeper
