/-
The course of a transaction.

`Transacted` lists the ways in which `transaction` can come to its end, with the
result and the calls that have been sent by then:

* BEGIN is refused, and nothing else is sent,
* a statement is refused, and ROLLBACK follows, whether it is refused or not,
* COMMIT is refused, and nothing follows,
* COMMIT is accepted.

`transaction_transacted` says that there is no other way, for every connection, and
that a transaction is left open in one case only, which does happen
(`transaction_leavesOpen`): COMMIT is refused.
-/
import SchemaKeeper.Proofs.Connection.Course

namespace SchemaKeeper

/-- The call that executes a statement without bind values. -/
def Call.statement (sql : String) : Call :=
  ⟨.exec, sql, []⟩

namespace Connection

variable {σ : Type} (c : Connection σ)

/-- The ways in which a transaction from a state can come to its end. -/
inductive Transacted (statements : List String) (s : σ) : Except Failure Nat → List Call → Prop
  /-- The transaction does not begin. -/
  | unbegun {f : Failure} (refused : c.refusal? (.statement "BEGIN") s = some f) :
      Transacted statements s (.error f) [.statement "BEGIN"]
  /-- A statement is refused, and those before it are taken back. -/
  | rolledBack {before : List String} {sql : String} {f : Failure}
      (begun : c.refusal? (.statement "BEGIN") s = none)
      (stops : c.StopsAt (c.next (.statement "BEGIN") s) statements before sql f) :
      Transacted statements s (.error f)
        (.statement "BEGIN" :: Call.statements (before ++ [sql]) ++ [.statement "ROLLBACK"])
  /-- The statements are executed, and are not committed. -/
  | uncommitted {f : Failure}
      (accepted : c.Accepts (.statement "BEGIN" :: Call.statements statements) s)
      (refused : c.refusal? (.statement "COMMIT")
        (c.after (.statement "BEGIN" :: Call.statements statements) s) = some f) :
      Transacted statements s (.error f)
        (.statement "BEGIN" :: Call.statements statements ++ [.statement "COMMIT"])
  /-- The statements are executed and committed. -/
  | committed {n : Nat}
      (accepted : c.Accepts
        (.statement "BEGIN" :: Call.statements statements ++ [.statement "COMMIT"]) s)
      (affects : c.Affects 0 statements (c.next (.statement "BEGIN") s) n) :
      Transacted statements s (.ok n)
        (.statement "BEGIN" :: Call.statements statements ++ [.statement "COMMIT"])

/-- A transaction has begun and failed, and ROLLBACK is not its last call. -/
def LeavesOpen (s : σ) (r : Except Failure Nat) (l : List Call) : Prop :=
  c.refusal? (.statement "BEGIN") s = none ∧ (∃ f, r = .error f) ∧
    l.getLast? ≠ some (.statement "ROLLBACK")

/-- BEGIN and the statements are accepted, and COMMIT is refused. -/
def RefusesCommit (statements : List String) (s : σ) : Prop :=
  c.Accepts (.statement "BEGIN" :: Call.statements statements) s ∧
    ∃ f, c.refusal? (.statement "COMMIT")
      (c.after (.statement "BEGIN" :: Call.statements statements) s) = some f

open SchemaKeeper.Action

variable {c} in
/-- The two ways in which a transaction that has begun goes on. -/
theorem runs_begun {statements : List String} {s : Conversation σ} {k : Nat}
    (hbegun : (c.onExec "BEGIN" [] s.state).1 = .ok k) :
    (c.execAll 0 statements).attempt.Runs c (s.extend c [.statement "BEGIN"]) fun r l =>
      (∃ n, r = .ok (.ok n) ∧ l = Call.statements statements ∧
        c.Accepts (.statement "BEGIN" :: Call.statements statements) s.state ∧
        c.Affects 0 statements (c.next (.statement "BEGIN") s.state) n) ∨
      (∃ before sql f, r = .ok (.error f) ∧ l = Call.statements (before ++ [sql]) ∧
        c.refusal? (.statement "BEGIN") s.state = none ∧
        c.StopsAt (c.next (.statement "BEGIN") s.state) statements before sql f) := by
  have hnone : c.refusal? (.statement "BEGIN") s.state = none :=
    c.refusal?_exec_eq_none.mpr ⟨k, hbegun⟩
  refine (runs_execAll statements 0 _).attempt.mono ?_
  rintro r l ⟨_, ⟨haccepts, rfl, n, hn, rfl⟩ | ⟨before, sql, f, hstop, rfl, rfl⟩, rfl⟩
  · exact .inl ⟨n, rfl, rfl, ⟨hnone, haccepts⟩, hn⟩
  · exact .inr ⟨before, sql, f, rfl, rfl, hnone, hstop⟩

theorem runs_transaction (statements : List String) (s : Conversation σ) :
    (c.transaction statements).Runs c s (Transacted c statements s.state) := by
  refine (runs_exec "BEGIN" []).bind ?_ ?_
  · rintro k l ⟨hbegun, rfl⟩
    refine (runs_begun hbegun.symm).bind ?_ ?_
    · rintro _ l (⟨n, ⟨⟩, rfl, haccepts, hn⟩ | ⟨before, sql, f, ⟨⟩, rfl, hbegun, hstop⟩)
      · refine (runs_exec "COMMIT" []).bind ?_ ?_
        · rintro _ l ⟨hcommit, rfl⟩
          have hnone := c.refusal?_exec_eq_none.mpr ⟨_, hcommit.symm⟩
          exact runs_pure (.committed ((c.accepts_append ..).mpr ⟨haccepts, hnone, trivial⟩) hn)
        · rintro f l ⟨hcommit, rfl⟩
          exact .uncommitted haccepts (c.refusal?_exec_eq_some.mpr hcommit.symm)
      · -- what becomes of ROLLBACK does not show in the result
        refine (runs_exec "ROLLBACK" []).attempt.bind ?_ ?_
        · rintro _ l ⟨_, ⟨-, rfl⟩, -⟩
          exact runs_throw (.rolledBack hbegun hstop)
        · rintro _ l ⟨_, -, ⟨⟩⟩
    · rintro f l (⟨_, ⟨⟩, -⟩ | ⟨_, _, _, ⟨⟩, -⟩)
  · rintro f l ⟨hrefused, rfl⟩
    exact .unbegun (c.refusal?_exec_eq_some.mpr hrefused.symm)

variable {c} in
theorem Transacted.leavesOpen_iff {statements : List String} {s : σ} {r : Except Failure Nat}
    {l : List Call} (h : Transacted c statements s r l) :
    c.LeavesOpen s r l ↔ c.RefusesCommit statements s := by
  cases h with
  | unbegun refused =>
    -- both sides ask for a BEGIN that is accepted
    constructor
    · rintro ⟨hbegun, -⟩
      cases refused.symm.trans hbegun
    · rintro ⟨⟨hbegun, -⟩, -⟩
      cases refused.symm.trans hbegun
  | rolledBack _ stops =>
    constructor
    · rintro ⟨-, -, hlast⟩
      exact absurd List.getLast?_concat hlast
    · rintro ⟨⟨-, haccepts⟩, -⟩
      exact absurd haccepts (stops.not_accepts c)
  | uncommitted accepted refused =>
    refine ⟨fun _ => ⟨accepted, _, refused⟩, fun _ => ⟨accepted.1, ⟨_, rfl⟩, ?_⟩⟩
    rw [List.getLast?_concat]
    decide
  | committed accepted _ =>
    constructor
    · rintro ⟨-, ⟨_, ⟨⟩⟩, -⟩
    · rintro ⟨-, _, hrefused⟩
      cases ((c.accepts_append ..).mp accepted).2.1.symm.trans hrefused

/-- **Every transaction takes one of the courses listed**, whatever the database refuses, and it is
left open exactly if its COMMIT is refused. -/
theorem transaction_transacted (statements : List String) (s : Conversation σ) :
    ∃ r l, c.transaction statements s = (r, s.extend c l) ∧ Transacted c statements s.state r l ∧
      (c.LeavesOpen s.state r l ↔ c.RefusesCommit statements s.state) := by
  obtain ⟨r, l, hrun, htransacted⟩ := runs_transaction c statements s
  exact ⟨r, l, hrun, htransacted, htransacted.leavesOpen_iff⟩

/-- A database that refuses one statement. -/
def refusing (refused : String) : Connection Unit where
  dialect := .postgres
  onExec sql _ s := (if sql = refused then .error (.execution sql "disk full") else .ok 0, s)
  onQuery _ _ s := (.ok [], s)
  clock _ := ⟨0, 0, 0⟩

/-- A transaction whose COMMIT is refused is left open. -/
theorem transaction_leavesOpen :
    let c := refusing "COMMIT"
    let s : Conversation Unit := { state := () }
    let calls := Call.statements ["BEGIN", "DELETE FROM users", "COMMIT"]
    (c.transaction ["DELETE FROM users"] s).1 =
        .error (.execution "COMMIT" "disk full") ∧
      (c.transaction ["DELETE FROM users"] s).2.calls = calls ∧
      c.LeavesOpen s.state (c.transaction ["DELETE FROM users"] s).1 calls := by
  intro c s calls
  have hlast : calls.getLast? ≠ some (.statement "ROLLBACK") := by
    show (Call.statements _).getLast? ≠ _
    decide
  have hfailed : (c.transaction ["DELETE FROM users"] s).1 =
      .error (.execution "COMMIT" "disk full") := rfl
  exact ⟨hfailed, rfl, rfl, ⟨_, hfailed⟩, hlast⟩

end Connection

end SchemaKeeper
