/-
Dry runs.

A dry run sends queries alone, and it predicts what a real run comes to on a database
that gives the same replies to those queries (`Predicted`):

* where the dry run fails, the real run fails in the same way and executes nothing,
* where it has an outcome, the real run has one with the same differences and the same
  statements, unless the backup fails, and executes the first of those statements after
  the backup.

`Foretells` is this relation between two actions.  What is read of the catalog may come
before (`foretells_bind`), so that only the creation of a table and its alteration are
looked into.  `migrateColumns_dryRun` is the statement about whole runs.
-/
import SchemaKeeper.Migration.Automatic
import SchemaKeeper.Proofs.Migration.GuardedCourse

namespace SchemaKeeper

/-! ### The statements among calls -/

namespace Call

/-- The calls that execute a statement. -/
def execs (l : List Call) : List Call :=
  l.filter (·.verb == .exec)

@[simp] theorem execs_cons_exec (sql : String) (args : List Value) (l : List Call) :
    execs (⟨.exec, sql, args⟩ :: l) = ⟨.exec, sql, args⟩ :: execs l :=
  List.filter_cons_of_pos rfl

@[simp] theorem execs_append (l k : List Call) : execs (l ++ k) = execs l ++ execs k :=
  List.filter_append ..

@[simp] theorem execs_statements (sqls : List String) :
    execs (statements sqls) = statements sqls := by
  refine List.filter_eq_self.mpr fun call hcall => ?_
  obtain ⟨sql, -, rfl⟩ := List.mem_map.mp hcall
  rfl

theorem execs_of_queries {l : List Call} (h : ∀ call ∈ l, call.verb = .query) : execs l = [] :=
  List.filter_eq_nil_iff.mpr fun call hcall => by simp [h call hcall]

end Call

/-- Two outcomes tell of the same differences of a table and of the same statements. -/
structure Outcome.Matches (o o' : Outcome) : Prop where
  table : o'.table = o.table
  changes : o'.changes = o.changes
  statements : o'.statements = o.statements

/-- Outcomes that are described alike match. -/
theorem Outcome.Describes.matches {o o' : Outcome} {options options' : AlterOptions}
    {table : String} {diffs : List Difference} {statements : List String}
    {backup? backup'? : Option String} (h : o.Describes options table diffs statements backup?)
    (h' : o'.Describes options' table diffs statements backup'?) : o.Matches o' where
  table := h'.table.trans h.table.symm
  changes := h'.changes.trans h.changes.symm
  statements := h'.statements.trans h.statements.symm

variable {σ σ' α : Type}

open SchemaKeeper.Action SchemaKeeper.Guarded

/-! ### Predictions -/

/-- What a real run may come to, and by which calls, when the dry run came to a result. -/
inductive Predicted (c : Connection σ) (backup : Bool) (table : String) :
    Except Failure Outcome → Except Failure Outcome → List Call → Prop
  /-- Both runs fail, and nothing is executed. -/
  | refused {f : Failure} {l : List Call} (execs : Call.execs l = []) :
      Predicted c backup table (.error f) (.error f) l
  /-- The backup fails. -/
  | unsaved {o : Outcome} {detail : String} {now : Moment} {l : List Call} (wanted : backup = true)
      (execs : Call.execs l = [copyCall c table now]) :
      Predicted c backup table (.ok o) (.error (.backupFailed table detail)) l
  /-- The first of the statements are executed, after the backup. -/
  | saved {o o' : Outcome} {now : Moment} {ran : List String} {l : List Call}
      (wanted : backup = true) (same : o.Matches o') (first : ran <+: o.statements)
      (execs : Call.execs l = copyCall c table now :: Call.statements ran) :
      Predicted c backup table (.ok o) (.ok o') l
  /-- The first of the statements are executed, without a backup. -/
  | unguarded {o o' : Outcome} {ran : List String} {l : List Call} (same : o.Matches o')
      (first : ran <+: o.statements) (execs : Call.execs l = Call.statements ran) :
      Predicted c backup table (.ok o) (.ok o') l

/-- The first action sends queries alone, and predicts what the second comes to on a database that
gives the same replies to them. -/
def Foretells (c : Connection σ) (c' : Connection σ') (backup : Bool) (table : String)
    (x : Action σ Outcome) (x' : Action σ' Outcome) : Prop :=
  ∀ s s', x.Runs c s fun r l => (∀ call ∈ l, call.verb = .query) ∧
    (c.RepliesAlike c' l s.state s'.state →
      x'.Runs c' s' fun r' l' => Predicted c' backup table r r' l')

variable {c : Connection σ} {c' : Connection σ'} {backup : Bool} {table : String}

/-- Queries that are sent first do not matter to a prediction. -/
theorem Predicted.after_queries {r r' : Except Failure Outcome} {l k : List Call}
    (h : Predicted c backup table r r' l) (hk : ∀ call ∈ k, call.verb = .query) :
    Predicted c backup table r r' (k ++ l) := by
  have hexecs : Call.execs (k ++ l) = Call.execs l := by
    rw [Call.execs_append, Call.execs_of_queries hk, List.nil_append]
  cases h with
  | refused execs => exact .refused (hexecs.trans execs)
  | unsaved wanted execs => exact .unsaved wanted (hexecs.trans execs)
  | saved wanted same first execs => exact .saved wanted same first (hexecs.trans execs)
  | unguarded same first execs => exact .unguarded same first (hexecs.trans execs)

theorem foretells_throw (f : Failure) :
    Foretells c c' backup table (throw f) (throw f) := fun _ _ =>
  runs_throw ⟨by simp, fun _ => runs_throw (.refused rfl)⟩

theorem foretells_bind {x : Action σ α} {x' : Action σ' α} {g : α → Action σ Outcome}
    {g' : α → Action σ' Outcome} (hx : AsksAlike c c' x x')
    (hg : ∀ a, Foretells c c' backup table (g a) (g' a)) :
    Foretells c c' backup table (x >>= g) (x' >>= g') := by
  intro s s'
  refine (hx s s').bind ?_ ?_
  · rintro a l ⟨hl, hx'⟩
    refine (hg a _ (s'.extend c' l)).mono ?_
    rintro r k ⟨hk, hg'⟩
    refine ⟨List.forall_mem_append.mpr ⟨hl, hk⟩, fun h => ?_⟩
    -- what comes first has the same result in both runs
    obtain ⟨hreplies, hreplies'⟩ := Connection.repliesAlike_append.mp h
    have hrun : x'.Runs c' s' fun r' l' => r' = .ok a ∧ l' = l := ⟨_, _, hx' hreplies, rfl, rfl⟩
    refine hrun.bind ?_ ?_
    · rintro _ _ ⟨⟨⟩, rfl⟩
      exact (hg' hreplies').mono fun _ _ hpredicted => hpredicted.after_queries hl
    · rintro f _ ⟨⟨⟩, -⟩
  · rintro f l ⟨hl, hx'⟩
    -- and so it fails in both runs
    refine ⟨hl, fun h => ?_⟩
    have hrun : x'.Runs c' s' fun r' l' => r' = .error f ∧ l' = l := ⟨_, _, hx' h, rfl, rfl⟩
    refine hrun.bind ?_ ?_
    · rintro _ _ ⟨⟨⟩, -⟩
    · rintro _ _ ⟨⟨⟩, rfl⟩
      exact .refused (Call.execs_of_queries hl)

theorem foretells_ite {b : Prop} [Decidable b] {x y : Action σ Outcome} {x' y' : Action σ' Outcome}
    (hx : Foretells c c' backup table x x') (hy : Foretells c c' backup table y y') :
    Foretells c c' backup table (if b then x else y) (if b then x' else y') := by
  split
  · exact hx
  · exact hy

/-! ### Altering a table -/

/-- Whatever is asked after a statement has failed, the first of the statements are executed. -/
theorem Guarded.Executed.execs {s : σ} {statements : List String} {o : Outcome} {l : List Call}
    (h : Executed c s statements o l) :
    ∃ ran, ran <+: statements ∧ Call.execs l = Call.statements ran := by
  cases h with
  | complete => exact ⟨statements, List.prefix_rfl, Call.execs_statements _⟩
  | stopped stops _ asks =>
    refine ⟨_, stops.isPrefix, ?_⟩
    rw [Call.execs_append, Call.execs_statements, Call.execs_of_queries asks, List.append_nil]

/-- Of an outcome that matches another one, the first statements are executed. -/
theorem Guarded.runs_execute_first {o o' : Outcome} (hsame : o.Matches o') (ho' : o'.Succeeded)
    (s : Conversation σ) :
    (execute c o').Runs c s fun r l => ∃ o'' ran, r = .ok o'' ∧ o.Matches o'' ∧
      ran <+: o.statements ∧ Call.execs l = Call.statements ran := by
  refine (runs_execute c o' ho' s).mono ?_
  rintro _ l ⟨o'', rfl, hexecuted, hkeeps, -⟩
  obtain ⟨ran, hran, hexecs⟩ := hexecuted.execs
  have hkept : o''.Describes { dryRun := o'.dryRun } o'.table o'.changes o'.statements o'.backup? :=
    hkeeps _ _ _ _ _ ⟨rfl, rfl, rfl, rfl, rfl⟩
  rw [hsame.statements] at hran
  exact ⟨o'', ran, rfl, ⟨hkept.table.trans hsame.table, hkept.changes.trans hsame.changes,
    hkept.statements.trans hsame.statements⟩, hran, hexecs⟩

/-- A dry alteration sends nothing and tells whether the differences can be written. -/
theorem Guarded.runs_alterTable_dryRun (backup : Bool) (table : String) (diffs : List Difference)
    (s : Conversation σ) :
    (alterTable c { dryRun := true, backup := backup } table diffs).Runs c s fun r l => l = [] ∧
      ((∃ f, alterStatements c.dialect table diffs = .error f ∧ r = .error f) ∨
        ∃ statements o options, alterStatements c.dialect table diffs = .ok statements ∧
          r = .ok o ∧ o.Describes options table diffs statements none) := by
  refine runs_alterTable_of c ?_ ?_ ?_ ?_ ?_
  · exact fun f hunwritten => ⟨rfl, .inl ⟨f, hunwritten, rfl⟩⟩
  · exact fun statements o hwritten _ hdescribed _ =>
      ⟨rfl, .inr ⟨statements, o, _, hwritten, rfl, hdescribed⟩⟩
  · rintro _ _ - ⟨⟨⟩, -⟩
  · rintro _ _ - ⟨⟨⟩, -⟩
  · rintro _ _ - ⟨⟨⟩, -⟩

/-- An alteration does what was to be expected of statements that can be written. -/
theorem Guarded.runs_alterTable_predicted {diffs : List Difference} {statements : List String}
    {o : Outcome} {options : AlterOptions}
    (hwritten : alterStatements c.dialect table diffs = .ok statements)
    (hdescribed : o.Describes options table diffs statements none) (s : Conversation σ) :
    (alterTable c { dryRun := false, backup := backup } table diffs).Runs c s fun r l =>
      Predicted c backup table (.ok o) r l := by
  refine runs_alterTable_of c ?_ ?_ ?_ ?_ ?_
  · intro f hunwritten
    cases hwritten.symm.trans hunwritten
  · intro statements' o' hwritten' _ hdescribed' _
    obtain rfl := Except.ok.inj (hwritten.symm.trans hwritten')
    exact .unguarded (hdescribed.matches hdescribed') List.nil_prefix rfl
  · intro _ f _ _ hbackup _
    exact .unsaved hbackup rfl
  · intro statements' o' hwritten' _ hbackup _ hdescribed' hsucceeded
    obtain rfl := Except.ok.inj (hwritten.symm.trans hwritten')
    refine (runs_execute_first (hdescribed.matches hdescribed') hsucceeded _).mono ?_
    rintro _ l ⟨o'', ran, rfl, hsame, hran, hexecs⟩
    have hall : Call.execs (copyCall c table (c.clock s.state) :: l) =
        copyCall c table (c.clock s.state) :: Call.statements ran := by
      rw [copyCall, Call.execs_cons_exec, hexecs]
    exact .saved hbackup hsame hran hall
  · intro statements' o' hwritten' _ _ hdescribed' hsucceeded
    obtain rfl := Except.ok.inj (hwritten.symm.trans hwritten')
    refine (runs_execute_first (hdescribed.matches hdescribed') hsucceeded s).mono ?_
    rintro _ l ⟨o'', ran, rfl, hsame, hran, hexecs⟩
    exact .unguarded hsame hran hexecs

theorem foretells_alterTable (h : c'.dialect = c.dialect) (diffs : List Difference) :
    Foretells c c' backup table
      (Guarded.alterTable c { dryRun := true, backup := backup } table diffs)
      (Guarded.alterTable c' { dryRun := false, backup := backup } table diffs) := by
  intro s s'
  refine (runs_alterTable_dryRun backup table diffs s).mono ?_
  rintro r l ⟨rfl, ⟨f, hunwritten, rfl⟩ | ⟨statements, o, options, hwritten, rfl, hdescribed⟩⟩
  · refine ⟨by simp, fun _ => ⟨.error f, [], ?_, .refused rfl⟩⟩
    rw [← h] at hunwritten
    rw [Conversation.extend_nil, alterTable_of_unwritten c' hunwritten]
  · refine ⟨by simp, fun _ => ?_⟩
    rw [← h] at hwritten
    exact runs_alterTable_predicted hwritten hdescribed s'

/-! ### Creating a table -/

namespace Automatic

/-- The ways in which a table is created: nothing is sent in a dry run, and otherwise the first of
the statements are executed. -/
theorem runs_createMissing (options : AlterOptions) (columns : List ModelColumn)
    (s : Conversation σ) :
    (createMissing c options table columns).Runs c s fun r l => ∃ o ran, r = .ok o ∧
      o.Describes options table (columns.map Difference.add) (createTable c.dialect table columns)
        none ∧
      l = Call.statements ran ∧ ran <+: createTable c.dialect table columns ∧
      (options.dryRun = true → ran = []) := by
  refine runs_now.bind ?_ ?_
  · rintro now l ⟨⟨⟩, rfl⟩
    rw [Conversation.extend_nil]
    simp only [List.nil_append]
    refine runs_ite (fun hdry => ?_) fun hlive => ?_
    · refine (runs_finish c _ s).mono ?_
      rintro r l ⟨rfl, rfl⟩
      exact ⟨_, [], rfl, ⟨rfl, rfl, rfl, rfl, hdry.symm⟩, rfl, List.nil_prefix, fun _ => rfl⟩
    · have hlive : options.dryRun = false := by simpa using hlive
      have hno : ∀ ran : List String, options.dryRun = true → ran = [] := by simp [hlive]
      refine (runs_runUntilFailure c _ 0 s).bind ?_ ?_
      · rintro failed? l (⟨-, rfl, ⟨⟩⟩ | ⟨before, sql, f, hstop, rfl, ⟨⟩⟩)
        all_goals
          refine (runs_finish c _ _).mono ?_
          rintro r k ⟨rfl, rfl⟩
          rw [List.append_nil]
        · exact ⟨_, _, rfl, ⟨rfl, rfl, rfl, rfl, hlive.symm⟩, rfl, List.prefix_rfl, hno _⟩
        · exact ⟨_, _, rfl, ⟨rfl, rfl, rfl, rfl, hlive.symm⟩, rfl, hstop.isPrefix, hno _⟩
      · rintro f l (⟨-, -, ⟨⟩⟩ | ⟨_, _, _, -, -, ⟨⟩⟩)
  · rintro f l ⟨⟨⟩, -⟩

theorem foretells_createMissing (h : c'.dialect = c.dialect) (columns : List ModelColumn) :
    Foretells c c' backup table
      (createMissing c { dryRun := true, backup := backup } table columns)
      (createMissing c' { dryRun := false, backup := backup } table columns) := by
  intro s s'
  refine (runs_createMissing _ columns s).mono ?_
  rintro _ l ⟨o, ran, rfl, hdescribed, rfl, -, hnone⟩
  obtain rfl := hnone rfl
  refine ⟨by simp, fun _ => ?_⟩
  refine (runs_createMissing _ columns s').mono ?_
  rintro _ l ⟨o', ran, rfl, hdescribed', rfl, hran, -⟩
  rw [h] at hdescribed' hran
  rw [← hdescribed.statements] at hran
  exact .unguarded (hdescribed.matches hdescribed') hran (Call.execs_statements ran)

theorem foretells_migrateColumns (h : c'.dialect = c.dialect) (backup : Bool) (table : String)
    (columns : List ModelColumn) :
    Foretells c c' backup table
      (migrateColumns c { dryRun := true, backup := backup } table columns)
      (migrateColumns c' { dryRun := false, backup := backup } table columns) := by
  unfold migrateColumns
  rw [h]
  refine foretells_ite (foretells_throw _) ?_
  refine foretells_bind (c.asksAlike_tableExists table h) fun found => foretells_ite ?_ ?_
  · exact foretells_bind (c.asksAlike_tableColumns table h) fun existing =>
      foretells_alterTable h _
  · exact foretells_createMissing h columns

variable (c) in
/-- **A dry run touches nothing and predicts the real run**, for every database of the dialect that
gives the same replies to the queries of the dry run. -/
theorem migrateColumns_dryRun (backup : Bool) (table : String) (columns : List ModelColumn)
    (s : Conversation σ) :
    ∃ r l, migrateColumns c { dryRun := true, backup := backup } table columns s =
        (r, s.extend c l) ∧
      (∀ call ∈ l, call.verb = .query) ∧
      ∀ {σ' : Type} (c' : Connection σ') (s' : Conversation σ'), c'.dialect = c.dialect →
        c.RepliesAlike c' l s.state s'.state →
        ∃ r' l', migrateColumns c' { dryRun := false, backup := backup } table columns s' =
            (r', s'.extend c' l') ∧
          Predicted c' backup table r r' l' := by
  obtain ⟨r, l, hdry, hqueries, -⟩ := foretells_migrateColumns rfl backup table columns s s
  refine ⟨r, l, hdry, hqueries, fun c' s' hdialect hreplies => ?_⟩
  -- the dry run is one and the same, whichever database the real run is on
  obtain ⟨r₁, l₁, hdry', -, hreal⟩ := foretells_migrateColumns hdialect backup table columns s s'
  obtain ⟨rfl, hextend⟩ := Prod.mk.inj (hdry.symm.trans hdry')
  obtain rfl := Conversation.extend_inj.mp hextend
  exact hreal hreplies

/-- A dry run on a database that refuses every statement, and a real run on one that accepts them
all. -/
theorem migrateColumns_dryRun_of_sample :
    let c : Connection Unit :=
      { dialect := .mysql
        onExec := fun sql _ s => (.error (.execution sql "read only"), s)
        onQuery := fun _ _ s =>
          (.ok [[("COLUMN_NAME", .text "id"), ("COLUMN_TYPE", .text "int")]], s)
        clock := fun _ => ⟨0, 0, 0⟩ }
    let c' : Connection Unit := { c with onExec := fun _ _ s => (.ok 1, s) }
    let columns := [ModelColumn.ofType "id" .int, ModelColumn.ofType "age" .int]
    let s : Conversation Unit := { state := () }
    ∃ o l, migrateColumns c { dryRun := true } "users" columns s = (.ok o, s.extend c l) ∧
      o.statements = ["ALTER TABLE `users` MODIFY COLUMN `id` INT, ADD COLUMN `age` INT"] ∧
      (∀ call ∈ l, call.verb = .query) ∧ c.RepliesAlike c' l () () ∧
      ∃ r' l', migrateColumns c' {} "users" columns s = (r', s.extend c' l') ∧
        Predicted c' true "users" (.ok o) r' l' := by
  intro c c' columns s
  obtain ⟨r, l, hdry, hqueries, hreal⟩ := migrateColumns_dryRun c true "users" columns s
  have hsame : c'.onQuery = c.onQuery := rfl
  have hreplies : c.RepliesAlike c' l () () := Connection.repliesAlike_of_onQuery hsame hqueries ()
  have hstatements : (migrateColumns c { dryRun := true } "users" columns s).1.toOption.map
      (·.statements) =
        some ["ALTER TABLE `users` MODIFY COLUMN `id` INT, ADD COLUMN `age` INT"] := by
    unfold c columns s
    decide +kernel
  rw [hdry] at hstatements
  obtain ⟨o, hr, hwritten⟩ := Option.map_eq_some_iff.mp hstatements
  obtain ⟨_⟩ | o := r
  · cases hr
  obtain rfl := Option.some.inj hr
  exact ⟨o, l, hdry, hwritten, hqueries, hreplies, hreal c' s rfl hreplies⟩

end Automatic

end SchemaKeeper
