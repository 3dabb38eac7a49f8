/-
Restoring rows from a backup.

`copyBack` are the statements that replace the rows of a table by those of its backup:
one deletes, and one inserts the columns that both have.  `Restored` lists the ways in
which `restore` can come to its end, with the statements that it executes in one
transaction, if it comes to that, and all its calls:

* only queries are sent if there is no backup, if the two tables are not read, and if
  they have no column in common,
* otherwise `copyBack` is executed in a transaction, and nothing else is.

When a statement of an alteration fails, the way to recover lists the same statements
for the same replies of the catalog (`recoveryText_eq`, `Restored.statements_eq`).
`restore_restored` puts both together.
-/
import SchemaKeeper.Proofs.Connection.Transaction
import SchemaKeeper.Proofs.Migration.GuardedCourse

namespace SchemaKeeper.Guarded

open SchemaKeeper.Action

variable {d : Dialect} {table backup : String} {live saved : List DatabaseColumn}

/-! ### The statements -/

/-- The columns of a table whose names its backup has too. -/
def sharedWith (live saved : List DatabaseColumn) : List DatabaseColumn :=
  live.filter fun l => l.name ∈ saved.map (·.name)

/-- The statement that deletes the rows of a table. -/
def emptyStatement (d : Dialect) (table : String) : String :=
  "DELETE FROM " ++ d.quote table

/-- The statement that inserts the rows of a backup, in the columns that the table shares. -/
def copyStatement (d : Dialect) (table backup : String) (live saved : List DatabaseColumn) :
    String :=
  let list := ", ".intercalate ((sharedWith live saved).map fun l => d.quote l.name)
  "INSERT INTO " ++ d.quote table ++ " (" ++ list ++ ") SELECT " ++ list ++ " FROM " ++
    d.quote backup

/-- The statements that replace the rows of a table by those of its backup. -/
def copyBack (d : Dialect) (table backup : String) (live saved : List DatabaseColumn) :
    List String :=
  [emptyStatement d table, copyStatement d table backup live saved]

/-- The statements by which rows are restored, for what was read of a table and its backup. -/
def restoration (d : Dialect) (table backup : String) :
    Except Failure (List DatabaseColumn × List DatabaseColumn) → List String
  | .ok (live, saved) =>
    if sharedWith live saved = [] then [] else copyBack d table backup live saved
  | .error _ => []

theorem sharedNames_eq :
    sharedNames d live saved = (sharedWith live saved).map fun l => d.quote l.name := by
  have hfilter : (live.filter fun l => saved.any (·.name == l.name)) = sharedWith live saved := by
    refine List.filter_congr fun l _ => ?_
    rw [Bool.eq_iff_iff]
    simp
  rw [sharedNames, hfilter]

theorem sharedNames_eq_nil : sharedNames d live saved = [] ↔ sharedWith live saved = [] := by
  rw [sharedNames_eq, List.map_eq_nil_iff]

theorem restoreStatements_sharedNames :
    restoreStatements d table backup (sharedNames d live saved) =
      copyBack d table backup live saved := by
  rw [sharedNames_eq]
  rfl

/-! ### The course of restoring -/

section Course

variable {σ : Type} (c : Connection σ)

/-- The ways in which restoring can come to its end, with the statements that are executed in one
transaction. -/
inductive Restored (table backup : String) (s : Conversation σ) :
    List String → Except Failure Nat → List Call → Prop
  /-- It is not found out whether there is a backup. -/
  | unasked {asked : List Call} {f : Failure} (queries : ∀ call ∈ asked, call.verb = .query)
      (unasked : c.tableExists backup s = (.error f, s.extend c asked)) :
      Restored table backup s [] (.error f) asked
  /-- There is no backup. -/
  | missing {asked : List Call} (queries : ∀ call ∈ asked, call.verb = .query)
      (missing : c.tableExists backup s = (.ok false, s.extend c asked)) :
      Restored table backup s []
        (.error (.backupFailed table ("backup table '" ++ backup ++ "' does not exist"))) asked
  /-- The table or its backup is not read. -/
  | unread {asked read : List Call} {f : Failure}
      (queries : ∀ call ∈ asked ++ read, call.verb = .query)
      (found : c.tableExists backup s = (.ok true, s.extend c asked))
      (unread : bothColumns c table backup (s.extend c asked) =
        (.error f, s.extend c (asked ++ read))) :
      Restored table backup s [] (.error f) (asked ++ read)
  /-- No column of the table is one of its backup. -/
  | unrelated {asked read : List Call} {live saved : List DatabaseColumn}
      (queries : ∀ call ∈ asked ++ read, call.verb = .query)
      (found : c.tableExists backup s = (.ok true, s.extend c asked))
      (columns : bothColumns c table backup (s.extend c asked) =
        (.ok (live, saved), s.extend c (asked ++ read)))
      (unrelated : sharedWith live saved = []) :
      Restored table backup s []
        (.error (.backupFailed table
          ("backup table '" ++ backup ++ "' shares no columns with '" ++ table ++ "'")))
        (asked ++ read)
  /-- The transaction fails. -/
  | failed {asked read calls : List Call} {live saved : List DatabaseColumn} {f : Failure}
      (queries : ∀ call ∈ asked ++ read, call.verb = .query)
      (found : c.tableExists backup s = (.ok true, s.extend c asked))
      (columns : bothColumns c table backup (s.extend c asked) =
        (.ok (live, saved), s.extend c (asked ++ read)))
      (related : sharedWith live saved ≠ [])
      (transacted : c.Transacted (copyBack c.dialect table backup live saved)
        (c.after (asked ++ read) s.state) (.error f) calls) :
      Restored table backup s (copyBack c.dialect table backup live saved)
        (.error (.backupFailed table f.message)) (asked ++ read ++ calls)
  /-- The rows are restored, and those inserted are counted. -/
  | restored {asked read calls : List Call} {live saved : List DatabaseColumn} {n : Nat}
      (queries : ∀ call ∈ asked ++ read, call.verb = .query)
      (found : c.tableExists backup s = (.ok true, s.extend c asked))
      (columns : bothColumns c table backup (s.extend c asked) =
        (.ok (live, saved), s.extend c (asked ++ read)))
      (related : sharedWith live saved ≠ [])
      (transacted : c.Transacted (copyBack c.dialect table backup live saved)
        (c.after (asked ++ read) s.state) (.ok n) calls)
      (inserted : (c.onExec (copyStatement c.dialect table backup live saved) []
        (c.after (asked ++ read ++ Call.statements ["BEGIN", emptyStatement c.dialect table])
          s.state)).1 = .ok n) :
      Restored table backup s (copyBack c.dialect table backup live saved) (.ok n)
        (asked ++ read ++ calls)

variable {c}

/-- The rows that the second of two statements affects are counted. -/
theorem affects_pair {first second : String} {s : σ} {m n : Nat}
    (h : c.Affects m [first, second] s n) :
    (c.onExec second [] (c.after (Call.statements [first]) s)).1 = .ok n := by
  rcases h with ⟨⟨⟩, -⟩ | ⟨before, sql, heq, hanswer⟩
  have hsplit : [first] ++ [second] = before ++ [sql] := heq
  obtain ⟨rfl, hlast⟩ := List.append_inj' hsplit rfl
  obtain ⟨rfl, -⟩ := List.cons.inj hlast
  exact hanswer

/-- A transaction that copies rows back ends the restoring, whether it fails or not. -/
theorem restored_of_transacted {s : Conversation σ} {asked read calls : List Call}
    {r : Except Failure Nat} (hqueries : ∀ call ∈ asked ++ read, call.verb = .query)
    (hfound : c.tableExists backup s = (.ok true, s.extend c asked))
    (hcolumns : bothColumns c table backup (s.extend c asked) =
      (.ok (live, saved), s.extend c (asked ++ read)))
    (hrelated : sharedWith live saved ≠ [])
    (htransacted : c.Transacted (copyBack c.dialect table backup live saved)
      (c.after (asked ++ read) s.state) r calls) :
    Restored c table backup s (copyBack c.dialect table backup live saved)
      (r.mapError fun failure => .backupFailed table failure.message) (asked ++ read ++ calls) := by
  cases r with
  | error f => exact .failed hqueries hfound hcolumns hrelated htransacted
  | ok n =>
    have haffects : c.Affects 0 (copyBack c.dialect table backup live saved)
        (c.next (.statement "BEGIN") (c.after (asked ++ read) s.state)) n := by
      cases htransacted with
      | committed _ affects => exact affects
    refine .restored hqueries hfound hcolumns hrelated htransacted ?_
    rw [c.after_append]
    exact affects_pair haffects

variable (c) in
theorem runs_restore (table backup : String) (s : Conversation σ) :
    (restore c table backup).Runs c s fun r l => ∃ sqls, Restored c table backup s sqls r l := by
  refine ((c.asks_tableExists backup).runs_self s).bind ?_ ?_
  · rintro found asked ⟨hasked, hexists⟩
    cases found with
    | false => exact runs_throw ⟨[], by rw [List.append_nil]; exact .missing hasked hexists⟩
    | true =>
      -- what is read of both tables settles whether anything is executed
      rw [if_neg (by simp), sharedColumns_eq]
      refine (((asks_bothColumns c table backup).runs_self _).map _).bind ?_ ?_
      · rintro shared read ⟨_ | ⟨live, saved⟩, ⟨hread, hcolumns⟩, ⟨⟩⟩
        rw [Conversation.extend_extend] at hcolumns
        have hqueries : ∀ call ∈ asked ++ read, call.verb = .query :=
          List.forall_mem_append.mpr ⟨hasked, hread⟩
        refine runs_ite (fun hempty => ?_) fun hsome => ?_
        · have hnone := sharedNames_eq_nil.mp (List.isEmpty_iff.mp hempty)
          refine runs_throw ⟨[], ?_⟩
          rw [List.append_nil]
          exact .unrelated hqueries hexists hcolumns hnone
        · have hrelated : sharedWith live saved ≠ [] := fun h =>
            hsome (List.isEmpty_iff.mpr (sharedNames_eq_nil.mpr h))
          dsimp only
          rw [restoreStatements_sharedNames]
          refine ((c.runs_transaction _ _).mapFailure _).mono ?_
          rintro r calls (⟨n, rfl, htransacted⟩ | ⟨f, rfl, htransacted⟩)
          all_goals
            rw [Conversation.extend_extend, Conversation.state_extend] at htransacted
            rw [← List.append_assoc]
            exact ⟨_, restored_of_transacted hqueries hexists hcolumns hrelated htransacted⟩
      · rintro f read ⟨_ | _, ⟨hread, hunread⟩, ⟨⟩⟩
        rw [Conversation.extend_extend] at hunread
        exact ⟨[], .unread (List.forall_mem_append.mpr ⟨hasked, hread⟩) hexists hunread⟩
  · rintro f asked ⟨hasked, hexists⟩
    exact ⟨[], .unasked hasked hexists⟩

/-- The statements executed are settled by what is read once the backup is found. -/
theorem Restored.statements_eq {s s' : Conversation σ} {sqls : List String}
    {r : Except Failure Nat} {l : List Call} (h : Restored c table backup s sqls r l)
    (hfound : c.tableExists backup s = (.ok true, s')) :
    sqls = restoration c.dialect table backup (bothColumns c table backup s').1 := by
  -- the backup is found in one conversation
  have hsame : ∀ {answer asked}, c.tableExists backup s = (answer, s.extend c asked) →
      answer = .ok true ∧ s.extend c asked = s' := fun h =>
    Prod.mk.inj (h.symm.trans hfound)
  cases h with
  | unasked _ unasked => cases (hsame unasked).1
  | missing _ missing => cases (hsame missing).1
  | unread _ found unread => rw [← (hsame found).2, unread, restoration]
  | unrelated _ found columns unrelated =>
    rw [← (hsame found).2, columns, restoration, if_pos unrelated]
  | failed _ found columns related _ =>
    rw [← (hsame found).2, columns, restoration, if_neg related]
  | restored _ found columns related _ _ =>
    rw [← (hsame found).2, columns, restoration, if_neg related]

/-! ### The way to recover -/

/-- How statements are listed by which rows can be restored by hand. -/
def sqlLines : List String → String
  | [] => "."
  | sqls => " or run in one transaction:" ++ String.join (sqls.map fun sql => "\n  " ++ sql ++ ";")

/-- The way to recover from a backup, with the statements that restore rows by hand. -/
def recoveryWith (table backup : String) (position total : Nat) (sqls : List String) : String :=
  let number := fun n => String.ofList (Number.digits n)
  "Statement " ++ number (position + 1) ++ " of " ++ number total ++ " failed; the " ++
    number position ++ " statement(s) before it were applied and are not rolled back." ++
    ("\nThe rows of '" ++ table ++ "' were saved to '" ++ backup ++
      "'. Call SafeMigrator::restore_from_backup(\"" ++ table ++ "\", \"" ++ backup ++ "\")" ++
      sqlLines sqls ++ "\nDrop '" ++ backup ++ "' once the data is verified.")

theorem handRestore_names {names : List String} (h : names ≠ []) :
    handRestore d table backup (some names) =
      sqlLines (restoreStatements d table backup names) := by
  cases names with
  | nil => contradiction
  | cons name r => rfl

theorem handRestore_eq (d : Dialect) (table backup : String)
    (read : Except Failure (List DatabaseColumn × List DatabaseColumn)) :
    handRestore d table backup (read.toOption.map fun read => sharedNames d read.1 read.2) =
      sqlLines (restoration d table backup read) := by
  match read with
  | .error _ => rfl
  | .ok (live, saved) =>
    show handRestore d table backup (some (sharedNames d live saved)) = _
    rw [restoration]
    by_cases hnone : sharedWith live saved = []
    · rw [sharedNames_eq_nil.mpr hnone, if_pos hnone]
      rfl
    · rw [handRestore_names (mt sharedNames_eq_nil.mp hnone), restoreStatements_sharedNames,
        if_neg hnone]

/-- The way to recover lists the statements by which rows are restored. -/
theorem recoveryText_eq (d : Dialect) (table backup : String) (position total : Nat)
    (read : Except Failure (List DatabaseColumn × List DatabaseColumn)) :
    recoveryText d table (some backup)
        (read.toOption.map fun read => sharedNames d read.1 read.2) position total =
      recoveryWith table backup position total (restoration d table backup read) := by
  unfold recoveryText recoveryWith
  dsimp only
  rw [handRestore_eq]

variable (c) in
/-- Restoring executes the statements in every database of the dialect that has the backup and goes
on to give the replies that were given in a conversation. -/
def RestoresBy (table backup : String) (s : Conversation σ) (asked : List Call)
    (sqls : List String) : Prop :=
  ∀ {σ' : Type} (c' : Connection σ') (u u' : Conversation σ'), c'.dialect = c.dialect →
    c'.tableExists backup u = (.ok true, u') → c.RepliesAlike c' asked s.state u'.state →
    ∃ r l, restore c' table backup u = (r, u.extend c' l) ∧ Restored c' table backup u sqls r l

theorem restoresBy_of_reads {s : Conversation σ} {asked : List Call}
    {read : Except Failure (List DatabaseColumn × List DatabaseColumn)}
    (hread : bothColumns c table backup s = (read, s.extend c asked)) :
    RestoresBy c table backup s asked (restoration c.dialect table backup read) := by
  intro σ' c' u u' hdialect hfound hreplies
  obtain ⟨r, l, hrun, sqls, hrestored⟩ := runs_restore c' table backup u
  have hread' : bothColumns c' table backup u' = (read, u'.extend c' asked) :=
    (asksAlike_bothColumns hdialect table backup).eq_of_replies hread hreplies
  have hsqls := hrestored.statements_eq hfound
  rw [hread', hdialect] at hsqls
  exact ⟨r, l, hrun, hsqls ▸ hrestored⟩

variable (c) in
/-- What is read of a table and its backup in a conversation settles which statements `o` gives to
recover, and they are those by which rows are restored. -/
structure Recoverable (table backup : String) (position : Nat) (s : Conversation σ)
    (o : Outcome) (asked : List Call)
    (read : Except Failure (List DatabaseColumn × List DatabaseColumn)) : Prop where
  queries : ∀ call ∈ asked, call.verb = .query
  reads : bothColumns c table backup s = (read, s.extend c asked)
  recovery : o.recovery? = some (recoveryWith table backup position o.statements.length
    (restoration c.dialect table backup read))
  restores : RestoresBy c table backup s asked (restoration c.dialect table backup read)

variable (c) in
/-- The calls of an alteration up to the statement that fails: that of the backup comes first. -/
def callsUntil (table : String) (now : Moment) (before : List String) (sql : String) : List Call :=
  copyCall c table now :: Call.statements (before ++ [sql])

variable (c) in
/-- A failed alteration with a backup has stopped at a statement, and tells how to recover. -/
theorem runs_alterTable_recoverable (options : AlterOptions) (table : String)
    (diffs : List Difference) (s : Conversation σ) :
    (alterTable c options table diffs).Runs c s fun r l =>
      ∀ o backup, r = .ok o → o.success = false → o.backup? = some backup →
        ∃ before sql f asked read,
          c.StopsAt (c.next (copyCall c table (c.clock s.state)) s.state) o.statements before sql
            f ∧
          l = callsUntil c table (c.clock s.state) before sql ++ asked ∧
          Recoverable c table backup before.length
            (s.extend c (callsUntil c table (c.clock s.state) before sql)) o asked read := by
  refine runs_alterTable_of c ?_ ?_ ?_ ?_ ?_
  · rintro f - o backup ⟨⟩
  · rintro statements o - - - hsucceeded _ backup ⟨⟩ hfailed
    cases hsucceeded.success.symm.trans hfailed
  · rintro statements f - - - - o backup ⟨⟩
  · intro statements o hwritten hlive hbackup haccepted hdescribed hsucceeded
    refine (runs_execute c o hsucceeded _).mono ?_
    rintro _ l ⟨o', rfl, -, hkeeps, hrecovers⟩ _ backup ⟨⟩ hfailed hbackup'
    -- the outcome has the backup and the statements that the run started with
    have hdescribed' := hkeeps _ _ _ _ _ hdescribed
    rw [hdescribed'.backup, ← hdescribed.backup] at hbackup'
    obtain ⟨before, sql, f, asked, read, hstops, rfl, hasked, hread, hrecovery⟩ :=
      hrecovers backup hbackup' hfailed
    rw [hdescribed.table, Conversation.extend_extend, Conversation.extend_extend] at hread
    refine ⟨before, sql, f, asked, read, ?_, rfl, hasked, ?_, ?_, ?_⟩
    · rw [hdescribed'.statements, ← hdescribed.statements]
      exact hstops
    · rw [Conversation.extend_extend]
      exact hread
    · rw [hrecovery, hdescribed.table, recoveryText_eq, hdescribed'.statements,
        hdescribed.statements]
    · refine restoresBy_of_reads ?_
      rw [Conversation.extend_extend]
      exact hread
  · intro statements o hwritten hlive hbackup hdescribed hsucceeded
    refine (runs_execute c o hsucceeded s).mono ?_
    rintro _ l ⟨o', rfl, -, hkeeps, -⟩ _ backup ⟨⟩ - hbackup'
    cases (hkeeps _ _ _ _ _ hdescribed).backup.symm.trans hbackup'

variable (c) in
/-- **Restoring either sends queries alone or copies the shared columns back in one transaction**,
whatever the database answers, and an alteration that fails after a backup gives the same
statements to recover for the same replies of the catalog. -/
theorem restore_restored (table backup : String) (s : Conversation σ) :
    (∃ sqls r l, restore c table backup s = (r, s.extend c l) ∧
      Restored c table backup s sqls r l) ∧
    ∀ options diffs o s', alterTable c options table diffs s = (.ok o, s') → o.success = false →
      o.backup? = some backup → ∃ before sql f asked read,
        c.StopsAt (c.next (copyCall c table (c.clock s.state)) s.state) o.statements before sql f ∧
        s' = s.extend c (callsUntil c table (c.clock s.state) before sql ++ asked) ∧
        Recoverable c table backup before.length
          (s.extend c (callsUntil c table (c.clock s.state) before sql)) o asked read := by
  constructor
  · obtain ⟨r, l, hrun, sqls, hrestored⟩ := runs_restore c table backup s
    exact ⟨sqls, r, l, hrun, hrestored⟩
  · intro options diffs o s' halter hfailed hbackup
    obtain ⟨r, l, hrun, hrecoverable⟩ := runs_alterTable_recoverable c options table diffs s
    obtain ⟨rfl, rfl⟩ := Prod.mk.inj (halter.symm.trans hrun)
    obtain ⟨before, sql, f, asked, read, hstops, rfl, hread⟩ :=
      hrecoverable o backup rfl hfailed hbackup
    exact ⟨before, sql, f, asked, read, hstops, rfl, hread⟩

/-- A database that accepts one statement and refuses the next, so that there is a backup and its
column is not dropped. -/
theorem restore_restored_of_sample :
    let listed : List Value → List String := fun args =>
      if args = [.text "users"] then ["id", "name"] else ["name", "note"]
    let c : Connection Nat :=
      { dialect := .mysql
        onExec := fun sql _ n => (if n = 0 then .ok 1 else .error (.execution sql "locked"), n + 1)
        onQuery := fun _ args n =>
          (.ok ((listed args).map fun name => [("COLUMN_NAME", .text name)]), n)
        clock := fun _ => ⟨19782, 0, 0⟩ }
    let s : Conversation Nat := { state := 0 }
    let backup := "users" ++ "_backup_" ++ (c.clock 0).stamp
    let diffs := [Difference.drop { name := "id", rawType := "int" }]
    ∃ o s', alterTable c {} "users" diffs s = (.ok o, s') ∧ o.success = false ∧
      o.backup? = some backup ∧
      ∃ before sql f asked read,
        c.StopsAt (c.next (copyCall c "users" (c.clock 0)) 0) o.statements before sql f ∧
        s' = s.extend c (callsUntil c "users" (c.clock 0) before sql ++ asked) ∧
        Recoverable c "users" backup before.length
          (s.extend c (callsUntil c "users" (c.clock 0) before sql)) o asked read := by
  intro listed c s backup diffs
  have hwritten : alterStatements c.dialect "users" diffs =
      .ok ["ALTER TABLE `users` DROP COLUMN `id`"] := rfl
  obtain ⟨r, l, hrun, hcourse⟩ := runs_alterTable c {} "users" diffs s
  suffices hfailed : ∃ o, r = .ok o ∧ o.success = false ∧ o.backup? = some backup by
    obtain ⟨o, rfl, hfailed, hbackup⟩ := hfailed
    exact ⟨o, _, hrun, hfailed, hbackup,
      (restore_restored c "users" backup s).2 {} diffs o _ hrun hfailed hbackup⟩
  generalize s.extend c l = s' at hcourse
  cases hcourse with
  | unwritten unwritten => cases hwritten.symm.trans unwritten
  | idle written idle _ _ =>
    obtain rfl := Except.ok.inj (hwritten.symm.trans written)
    exact absurd idle (by decide)
  | unsaved _ _ _ refused => cases refused
  | saved written _ _ _ described executed =>
    obtain rfl := Except.ok.inj (hwritten.symm.trans written)
    cases executed with
    | complete accepted _ => cases accepted.1
    | stopped _ reported _ => exact ⟨_, rfl, reported.success, described.backup⟩
  | unguarded _ _ unwanted _ _ => cases unwanted

end Course

end SchemaKeeper.Guarded
