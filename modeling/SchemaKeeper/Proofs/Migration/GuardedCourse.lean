/-
The course of a guarded alteration.

`Guarded.Course` lists the ways in which `alterTable` can come to its end, with the
calls that have been sent by then and what is reported:

* nothing is sent if the differences cannot be written, in a dry run, and if there
  is nothing to execute,
* otherwise the backup comes first, where one is wanted; if it fails, that is all,
* then come the statements up to the first that fails (`Guarded.Executed`), and
  whatever is asked after that failure has no part in what is reported.

`alterTable_course` says that there is no other way, for every connection.
`runs_alterTable_of` goes through the parts of an alteration once and for all, and
`Recovers` says from what the way to recover is made.
-/
import SchemaKeeper.Migration.Guarded
import SchemaKeeper.Proofs.Catalog.Asking

namespace SchemaKeeper

/-! ### Reports -/

namespace Outcome

/-- What an outcome says of the run it belongs to, whether a statement failed or not. -/
structure Describes (o : Outcome) (options : AlterOptions) (table : String)
    (diffs : List Difference) (statements : List String) (backup? : Option String) : Prop where
  table : o.table = table
  changes : o.changes = diffs
  statements : o.statements = statements
  backup : o.backup? = backup?
  dryRun : o.dryRun = options.dryRun

/-- No statement failed. -/
structure Succeeded (o : Outcome) : Prop where
  success : o.success = true
  error : o.error? = none
  failedStatement : o.failedStatement? = none
  recovery : o.recovery? = none

/-- A statement failed, and the way to recover names the backup if there is one. -/
structure FailedAt (o : Outcome) (sql : String) (f : Failure) : Prop where
  success : o.success = false
  error : o.error? = some f.message
  failedStatement : o.failedStatement? = some sql
  recovery : ∃ text, o.recovery? = some text ∧
    ∀ backup, o.backup? = some backup → ∃ start rest, text = start ++ backup ++ rest

theorem begun_succeeded (table : String) (diffs : List Difference) (statements : List String)
    (now : Moment) : (begun table diffs statements now).Succeeded :=
  ⟨rfl, rfl, rfl, rfl⟩

/-- When the run ended is no part of what is described. -/
theorem Describes.finished {o : Outcome} {options : AlterOptions} {table : String}
    {diffs : List Difference} {statements : List String} {backup? : Option String}
    (h : o.Describes options table diffs statements backup?) (now : Moment) :
    ({ o with finishedAt := now } : Outcome).Describes options table diffs statements backup? :=
  ⟨h.table, h.changes, h.statements, h.backup, h.dryRun⟩

theorem Succeeded.finished {o : Outcome} (h : o.Succeeded) (now : Moment) :
    ({ o with finishedAt := now } : Outcome).Succeeded :=
  ⟨h.success, h.error, h.failedStatement, h.recovery⟩

/-- A failure changes neither the statements nor the backup of an outcome. -/
theorem Describes.failed {o : Outcome} {options : AlterOptions} {table : String}
    {diffs : List Difference} {statements : List String} {backup? : Option String}
    (h : o.Describes options table diffs statements backup?) (f : FailedStatement)
    (recovery : String) : (o.failed f recovery).Describes options table diffs statements backup? :=
  ⟨h.table, h.changes, h.statements, h.backup, h.dryRun⟩

end Outcome

namespace Guarded

variable {σ : Type} (c : Connection σ)

/-- How statements are executed from a state, and what is reported of it.  Queries may follow the
statement that failed. -/
inductive Executed (s : σ) (statements : List String) (o : Outcome) : List Call → Prop
  | complete (accepted : c.Accepts (Call.statements statements) s) (reported : o.Succeeded) :
      Executed s statements o (Call.statements statements)
  | stopped {before : List String} {sql : String} {f : Failure} {asked : List Call}
      (stops : c.StopsAt s statements before sql f) (reported : o.FailedAt sql f)
      (asks : ∀ call ∈ asked, call.verb = .query) :
      Executed s statements o (Call.statements (before ++ [sql]) ++ asked)

/-- The call that copies the rows of a table into a new one. -/
def copyCall (table : String) (now : Moment) : Call :=
  ⟨.exec, "CREATE TABLE " ++ c.dialect.quote (table ++ "_backup_" ++ now.stamp) ++
    " AS SELECT * FROM " ++ c.dialect.quote table, []⟩

/-- The ways in which an alteration can come to its end. -/
inductive Course (options : AlterOptions) (table : String) (diffs : List Difference)
    (s : Conversation σ) : Except Failure Outcome → Conversation σ → Prop
  /-- The differences cannot be written. -/
  | unwritten {f : Failure} (unwritten : alterStatements c.dialect table diffs = .error f) :
      Course options table diffs s (.error f) s
  /-- There is nothing to execute. -/
  | idle {statements : List String} {o : Outcome}
      (written : alterStatements c.dialect table diffs = .ok statements)
      (idle : options.dryRun = true ∨ statements = [])
      (described : o.Describes options table diffs statements none) (reported : o.Succeeded) :
      Course options table diffs s (.ok o) s
  /-- The backup fails. -/
  | unsaved {statements : List String} {f : Failure}
      (written : alterStatements c.dialect table diffs = .ok statements)
      (live : options.dryRun = false ∧ statements ≠ []) (wanted : options.backup = true)
      (refused : c.refusal? (copyCall c table (c.clock s.state)) s.state = some f) :
      Course options table diffs s (.error (.backupFailed table f.message))
        (s.extend c [copyCall c table (c.clock s.state)])
  /-- There is a backup, and the statements are executed. -/
  | saved {statements : List String} {o : Outcome} {l : List Call}
      (written : alterStatements c.dialect table diffs = .ok statements)
      (live : options.dryRun = false ∧ statements ≠ []) (wanted : options.backup = true)
      (accepted : c.refusal? (copyCall c table (c.clock s.state)) s.state = none)
      (described : o.Describes options table diffs statements
        (some (table ++ "_backup_" ++ (c.clock s.state).stamp)))
      (executed : Executed c (c.next (copyCall c table (c.clock s.state)) s.state) statements o l) :
      Course options table diffs s (.ok o) (s.extend c (copyCall c table (c.clock s.state) :: l))
  /-- No backup is wanted, and the statements are executed. -/
  | unguarded {statements : List String} {o : Outcome} {l : List Call}
      (written : alterStatements c.dialect table diffs = .ok statements)
      (live : options.dryRun = false ∧ statements ≠ []) (unwanted : options.backup = false)
      (described : o.Describes options table diffs statements none)
      (executed : Executed c s.state statements o l) :
      Course options table diffs s (.ok o) (s.extend c l)

/-! ### The parts of an alteration -/

open SchemaKeeper.Action

/-- Statements run up to the first that is refused, which is told with its position. -/
theorem runs_runUntilFailure (sqls : List String) (k : Nat) (s : Conversation σ) :
    (c.runUntilFailure k sqls).Runs c s fun r l =>
      (c.Accepts (Call.statements sqls) s.state ∧ l = Call.statements sqls ∧ r = .ok none) ∨
      ∃ before sql f, c.StopsAt s.state sqls before sql f ∧
        l = Call.statements (before ++ [sql]) ∧ r = .ok (some ⟨k + before.length, sql, f⟩) := by
  induction sqls generalizing k s with
  | nil => exact runs_pure (.inl ⟨trivial, rfl, rfl⟩)
  | cons sql r ih =>
    refine (runs_exec sql []).attempt.bind ?_ ?_
    · rintro answer l ⟨_, ⟨rfl, rfl⟩, ⟨⟩⟩
      cases hanswer : (c.onExec sql [] s.state).1 with
      | ok n =>
        have hsql : c.refusal? ⟨.exec, sql, []⟩ s.state = none :=
          c.refusal?_exec_eq_none.mpr ⟨n, hanswer⟩
        refine (ih (k + 1) _).mono ?_
        rintro r' l' (⟨ha, rfl, hr⟩ | ⟨before, stop, f, hstop, rfl, hr⟩)
        · exact .inl ⟨⟨hsql, ha⟩, rfl, hr⟩
        · refine .inr ⟨sql :: before, stop, f, hstop.cons c hsql, rfl, ?_⟩
          rw [hr, List.length_cons, Nat.add_assoc, Nat.add_comm 1]
      | error f =>
        have hsql : c.refusal? ⟨.exec, sql, []⟩ s.state = some f :=
          c.refusal?_exec_eq_some.mpr hanswer
        exact runs_pure (.inr ⟨[], sql, f, ⟨by simp, trivial, hsql⟩, rfl, rfl⟩)
    · rintro f l ⟨_, -, h⟩
      cases h

theorem runs_finish (o : Outcome) (s : Conversation σ) :
    (c.finish o).Runs c s fun r l =>
      l = [] ∧ r = .ok { o with finishedAt := c.clock s.state } := by
  refine runs_now.bind ?_ ?_
  · rintro now l ⟨⟨⟩, rfl⟩
    exact runs_pure ⟨rfl, rfl⟩
  · rintro f l ⟨h, -⟩
    cases h

/-! ### Reading a table and its backup -/

/-- Reads the columns of a table and those of its backup. -/
def bothColumns (table backup : String) : Action σ (List DatabaseColumn × List DatabaseColumn) := do
  let live ← c.tableColumns table
  let saved ← c.tableColumns backup
  return (live, saved)

/-- The columns shared are made out from what is read. -/
theorem sharedColumns_eq (table backup : String) :
    sharedColumns c table backup =
      (fun read => sharedNames c.dialect read.1 read.2) <$> bothColumns c table backup := by
  simp [sharedColumns, bothColumns]

variable {c} in
theorem asksAlike_bothColumns {σ' : Type} {c' : Connection σ'} (h : c'.dialect = c.dialect)
    (table backup : String) :
    AsksAlike c c' (bothColumns c table backup) (bothColumns c' table backup) :=
  (c.asksAlike_tableColumns table h).bind fun _ =>
    (c.asksAlike_tableColumns backup h).bind fun _ => asksAlike_pure _

theorem asks_bothColumns (table backup : String) : Asks c (bothColumns c table backup) :=
  AsksAlike.asks (asksAlike_bothColumns rfl table backup)

/-- Whatever happens while the shared columns are read, there is an answer. -/
theorem runs_sharedWith? (table : String) (backup? : Option String) (s : Conversation σ) :
    (sharedWith? c table backup?).Runs c s fun r l => (∀ call ∈ l, call.verb = .query) ∧
      ∃ shared?, r = .ok shared? ∧ ∀ backup, backup? = some backup →
        ∃ read, bothColumns c table backup s = (read, s.extend c l) ∧
          shared? = read.toOption.map fun read => sharedNames c.dialect read.1 read.2 := by
  cases backup? with
  | none => exact runs_pure ⟨by simp, none, rfl, by rintro _ ⟨⟩⟩
  | some backup =>
    unfold sharedWith?
    dsimp only
    rw [sharedColumns_eq]
    refine (((asks_bothColumns c table backup).runs_self s).map _).attempt.bind ?_ ?_
    · rintro answer l ⟨_, ⟨read, ⟨hl, hread⟩, rfl⟩, ⟨⟩⟩
      refine runs_pure ⟨by simpa using hl, _, rfl, ?_⟩
      rintro _ ⟨⟩
      rw [List.append_nil]
      exact ⟨read, hread, by cases read <;> rfl⟩
    · rintro f l ⟨_, -, h⟩
      cases h

theorem recoveryText_names (d : Dialect) (table backup : String) (shared? : Option (List String))
    (position total : Nat) :
    ∃ start rest, recoveryText d table (some backup) shared? position total =
      start ++ backup ++ rest := by
  unfold recoveryText
  dsimp only
  rw [← String.append_assoc, ← String.append_assoc]
  exact ⟨_, _, rfl⟩

/-- If a statement of `o` failed and there is a backup, the way to recover in `o'` goes by what was
read of the table and its backup right after that statement. -/
def Recovers (o : Outcome) (s : Conversation σ) (o' : Outcome) (l : List Call) : Prop :=
  ∀ backup, o.backup? = some backup → o'.success = false → ∃ before sql f asked read,
    c.StopsAt s.state o.statements before sql f ∧
    l = Call.statements (before ++ [sql]) ++ asked ∧
    (∀ call ∈ asked, call.verb = .query) ∧
    bothColumns c o.table backup (s.extend c (Call.statements (before ++ [sql]))) =
      (read, s.extend c l) ∧
    o'.recovery? = some (recoveryText c.dialect o.table (some backup)
      (read.toOption.map fun read => sharedNames c.dialect read.1 read.2) before.length
      o.statements.length)

/-- The statements of an outcome are executed, and its failure is reported if there is one. -/
theorem runs_execute (o : Outcome) (ho : o.Succeeded) (s : Conversation σ) :
    (execute c o).Runs c s fun r l => ∃ o', r = .ok o' ∧ Executed c s.state o.statements o' l ∧
      (∀ options table diffs statements backup?,
        o.Describes options table diffs statements backup? →
          o'.Describes options table diffs statements backup?) ∧
      Recovers c o s o' l := by
  refine (runs_runUntilFailure c o.statements 0 s).bind ?_ ?_
  · rintro failed? l (⟨ha, rfl, ⟨⟩⟩ | ⟨before, sql, f, hstop, rfl, ⟨⟩⟩)
    · refine (runs_finish c o _).mono ?_
      rintro r k ⟨rfl, rfl⟩
      refine ⟨_, rfl, ?_, fun _ _ _ _ _ h => h.finished _, fun _ _ hfailed => ?_⟩
      · rw [List.append_nil]
        exact .complete ha (ho.finished _)
      · exact absurd hfailed (by simp [ho.success])
    · refine (runs_sharedWith? c o.table o.backup? _).bind ?_ ?_
      · -- what is asked shows in the text alone
        rintro _ asked ⟨hasked, shared?, ⟨⟩, hshared⟩
        refine (runs_finish c _ _).mono ?_
        rintro r k ⟨rfl, rfl⟩
        refine ⟨_, rfl, ?_, fun _ _ _ _ _ h => (h.failed _ _).finished _, ?_⟩
        · rw [List.append_nil]
          refine .stopped hstop ⟨rfl, rfl, rfl, _, rfl, fun backup hbackup => ?_⟩ hasked
          have hbackup' : o.backup? = some backup := hbackup
          rw [hbackup']
          exact recoveryText_names ..
        · intro backup hbackup _
          obtain ⟨read, hread, rfl⟩ := hshared backup hbackup
          refine ⟨before, sql, f, asked, read, hstop, by rw [List.append_nil], hasked, ?_, ?_⟩
          · rw [hread, Conversation.extend_extend, List.append_nil]
          · rw [← hbackup]
            simp [Outcome.failed]
      · rintro f' l ⟨-, _, ⟨⟩, -⟩
  · rintro f l (⟨-, -, h⟩ | ⟨_, _, _, -, -, h⟩) <;> cases h

/-- The rows of a table are copied by one call. -/
theorem runs_backupTable (table : String) (s : Conversation σ) :
    (backupTable c table).Runs c s fun r l => l = [copyCall c table (c.clock s.state)] ∧
      ((c.refusal? (copyCall c table (c.clock s.state)) s.state = none ∧
          r = .ok (table ++ "_backup_" ++ (c.clock s.state).stamp)) ∨
        ∃ f, c.refusal? (copyCall c table (c.clock s.state)) s.state = some f ∧
          r = .error (.backupFailed table f.message)) := by
  refine runs_now.bind ?_ ?_
  · rintro now l ⟨⟨⟩, rfl⟩
    refine (runs_exec_mapFailure _ _ _).bind ?_ ?_
    · rintro n l ⟨rfl, ⟨_, -, ⟨⟩⟩ | ⟨hok, _, -, ⟨⟩⟩⟩
      exact runs_pure ⟨rfl, .inl ⟨hok, rfl⟩⟩
    · rintro _ l ⟨rfl, ⟨f, hrefused, ⟨⟩⟩ | ⟨-, _, -, ⟨⟩⟩⟩
      exact ⟨rfl, .inr ⟨f, hrefused, rfl⟩⟩
  · rintro f l ⟨h, -⟩
    cases h

/-- If no statements can be written, nothing is sent. -/
theorem alterTable_of_unwritten {options : AlterOptions} {table : String}
    {diffs : List Difference} {s : Conversation σ} {f : Failure}
    (h : alterStatements c.dialect table diffs = .error f) :
    alterTable c options table diffs s = (.error f, s) := by
  unfold alterTable
  rw [h]
  rfl

/-- The parts of an alteration: it ends before anything is executed, or what is executed settles
how it goes on. -/
theorem runs_alterTable_of {options : AlterOptions} {table : String} {diffs : List Difference}
    {s : Conversation σ} {Q : Except Failure Outcome → List Call → Prop}
    (unwritten : ∀ f, alterStatements c.dialect table diffs = .error f → Q (.error f) [])
    (idle : ∀ statements o, alterStatements c.dialect table diffs = .ok statements →
      (options.dryRun = true ∨ statements = []) → o.Describes options table diffs statements none →
      o.Succeeded → Q (.ok o) [])
    (unsaved : ∀ statements f, alterStatements c.dialect table diffs = .ok statements →
      (options.dryRun = false ∧ statements ≠ []) → options.backup = true →
      c.refusal? (copyCall c table (c.clock s.state)) s.state = some f →
      Q (.error (.backupFailed table f.message)) [copyCall c table (c.clock s.state)])
    (saved : ∀ statements o, alterStatements c.dialect table diffs = .ok statements →
      (options.dryRun = false ∧ statements ≠ []) → options.backup = true →
      c.refusal? (copyCall c table (c.clock s.state)) s.state = none →
      o.Describes options table diffs statements
        (some (table ++ "_backup_" ++ (c.clock s.state).stamp)) → o.Succeeded →
      (execute c o).Runs c (s.extend c [copyCall c table (c.clock s.state)]) fun r l =>
        Q r (copyCall c table (c.clock s.state) :: l))
    (unguarded : ∀ statements o, alterStatements c.dialect table diffs = .ok statements →
      (options.dryRun = false ∧ statements ≠ []) → options.backup = false →
      o.Describes options table diffs statements none → o.Succeeded →
      (execute c o).Runs c s Q) :
    (alterTable c options table diffs).Runs c s Q := by
  refine (runs_ofExcept _).bind ?_ ?_
  · rintro statements l ⟨hwritten, rfl⟩
    refine runs_now.bind ?_ ?_
    · rintro now l ⟨⟨⟩, rfl⟩
      -- up to here there was no call
      rw [Conversation.extend_nil, Conversation.extend_nil]
      simp only [List.nil_append]
      have hwritten := hwritten.symm
      have hfinish : ∀ o : Outcome, (options.dryRun = true ∨ statements = []) →
          o.Describes options table diffs statements none → o.Succeeded →
          (c.finish o).Runs c s Q := by
        intro o hidle hdescribed hsucceeded
        refine (runs_finish c o s).mono ?_
        rintro r l ⟨rfl, rfl⟩
        exact idle _ _ hwritten hidle (hdescribed.finished _) (hsucceeded.finished _)
      refine runs_ite (fun hdry => ?_) fun hlive => ?_
      · exact hfinish _ (.inl hdry) ⟨rfl, rfl, rfl, rfl, hdry.symm⟩ ⟨rfl, rfl, rfl, rfl⟩
      have hlive : options.dryRun = false := by simpa using hlive
      refine runs_ite (fun hempty => ?_) fun hsome => ?_
      · exact hfinish _ (.inr (List.isEmpty_iff.mp hempty)) ⟨rfl, rfl, rfl, rfl, hlive.symm⟩
          (Outcome.begun_succeeded ..)
      have hsome : statements ≠ [] := by simpa using hsome
      refine runs_ite (fun hbackup => ?_) fun hbackup => ?_
      · refine (runs_backupTable c table s).bind ?_ ?_
        · rintro backup l ⟨rfl, ⟨haccepted, ⟨⟩⟩ | ⟨f, -, ⟨⟩⟩⟩
          exact saved statements _ hwritten ⟨hlive, hsome⟩ hbackup haccepted
            ⟨rfl, rfl, rfl, rfl, hlive.symm⟩ ⟨rfl, rfl, rfl, rfl⟩
        · rintro f l ⟨rfl, ⟨-, ⟨⟩⟩ | ⟨f, hrefused, ⟨⟩⟩⟩
          exact unsaved statements f hwritten ⟨hlive, hsome⟩ hbackup hrefused
      · exact unguarded statements _ hwritten ⟨hlive, hsome⟩ (by simpa using hbackup)
          ⟨rfl, rfl, rfl, rfl, hlive.symm⟩ (Outcome.begun_succeeded ..)
    · rintro f l ⟨h, -⟩
      cases h
  · rintro f l ⟨hunwritten, rfl⟩
    exact unwritten f hunwritten.symm

theorem runs_alterTable (options : AlterOptions) (table : String) (diffs : List Difference)
    (s : Conversation σ) :
    (alterTable c options table diffs).Runs c s fun r l =>
      Course c options table diffs s r (s.extend c l) := by
  refine runs_alterTable_of c ?_ ?_ ?_ ?_ ?_
  · intro f hunwritten
    rw [Conversation.extend_nil]
    exact .unwritten hunwritten
  · intro statements o hwritten hidle hdescribed hsucceeded
    rw [Conversation.extend_nil]
    exact .idle hwritten hidle hdescribed hsucceeded
  · intro statements f hwritten hlive hbackup hrefused
    exact .unsaved hwritten hlive hbackup hrefused
  · intro statements o hwritten hlive hbackup haccepted hdescribed hsucceeded
    refine (runs_execute c o hsucceeded _).mono ?_
    rintro r l ⟨o', rfl, hexecuted, hkeeps, -⟩
    rw [hdescribed.statements] at hexecuted
    exact .saved hwritten hlive hbackup haccepted (hkeeps _ _ _ _ _ hdescribed) hexecuted
  · intro statements o hwritten hlive hbackup hdescribed hsucceeded
    refine (runs_execute c o hsucceeded s).mono ?_
    rintro r l ⟨o', rfl, hexecuted, hkeeps, -⟩
    rw [hdescribed.statements] at hexecuted
    exact .unguarded hwritten hlive hbackup (hkeeps _ _ _ _ _ hdescribed) hexecuted

/-- **Every alteration of a live table takes one of the courses listed**, whatever the dialect, the
differences and the options are and whatever the database refuses. -/
theorem alterTable_course (options : AlterOptions) (table : String) (diffs : List Difference)
    (s : Conversation σ) :
    Course c options table diffs s (alterTable c options table diffs s).1
      (alterTable c options table diffs s).2 := by
  obtain ⟨r, l, hrun, hcourse⟩ := runs_alterTable c options table diffs s
  rw [hrun]
  exact hcourse

end Guarded

end SchemaKeeper
