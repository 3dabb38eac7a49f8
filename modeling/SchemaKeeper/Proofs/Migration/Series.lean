/-
Several tables, one after the other.

`Automatic.Migrated` says that tables are migrated in order, each with success and each
from where the one before it has ended, and with what outcomes and calls.
`Automatic.Series` lists the ways in which a whole run can end: all tables have been
migrated, the outcome of one of them is no success, or one of them fails.  No later table
is touched.

* `tells_migrateColumns`: the outcome for a table is about that table, and a dry run
  sends queries alone,
* `Series.outcomes`: what the outcomes of a run tell of the tables,
* `migrateAll_series`: every run over several tables takes one of the ways listed, on
  every database and whatever it refuses.
-/
import SchemaKeeper.Proofs.Migration.DryRun

namespace SchemaKeeper.Automatic

variable {σ α : Type} (c : Connection σ)

open SchemaKeeper.Action SchemaKeeper.Guarded

/-! ### One table -/

section Tells

variable {c} {dry : Bool} {table : String}

/-- The outcome is about the table, and if nothing is to be executed, all calls are queries. -/
def Tells (c : Connection σ) (dry : Bool) (table : String) (x : Action σ Outcome) : Prop :=
  ∀ s, x.Runs c s fun r l => (∀ o, r = .ok o → o.table = table) ∧
    (dry = true → ∀ call ∈ l, call.verb = .query)

theorem tells_throw (f : Failure) : Tells c dry table (throw f) := fun _ =>
  runs_throw ⟨by rintro _ ⟨⟩, by simp⟩

theorem tells_ite {b : Prop} [Decidable b] {x y : Action σ Outcome} (hx : Tells c dry table x)
    (hy : Tells c dry table y) : Tells c dry table (if b then x else y) := fun s =>
  runs_ite (fun _ => hx s) fun _ => hy s

theorem tells_bind {x : Action σ α} {g : α → Action σ Outcome} (hx : Asks c x)
    (hg : ∀ a, Tells c dry table (g a)) : Tells c dry table (x >>= g) := by
  intro s
  refine (hx s).bind ?_ ?_
  · intro a l hl
    refine (hg a _).mono ?_
    rintro r k ⟨htable, hk⟩
    exact ⟨htable, fun hdry => List.forall_mem_append.mpr ⟨hl, hk hdry⟩⟩
  · intro f l hl
    exact ⟨by rintro _ ⟨⟩, fun _ => hl⟩

/-- Whatever becomes of the statements, the outcome is about the same table. -/
theorem runs_execute_table {options : AlterOptions} {table : String} {diffs : List Difference}
    {statements : List String} {backup? : Option String} {o : Outcome}
    (hdescribed : o.Describes options table diffs statements backup?) (hsucceeded : o.Succeeded)
    (s : Conversation σ) :
    (execute c o).Runs c s fun r _ => ∀ o', r = .ok o' → o'.table = table := by
  refine (runs_execute c o hsucceeded s).mono ?_
  rintro r l ⟨o', rfl, -, hkeeps, -⟩ _ ⟨⟩
  exact (hkeeps _ _ _ _ _ hdescribed).table

theorem tells_alterTable (options : AlterOptions) (table : String) (diffs : List Difference) :
    Tells c options.dryRun table (Guarded.alterTable c options table diffs) := by
  intro s
  have hlive : ∀ {statements : List String} {l : List Call},
      options.dryRun = false ∧ statements ≠ [] →
        (options.dryRun = true → ∀ call ∈ l, call.verb = .query) := by
    rintro statements l ⟨hlive, -⟩ hdry
    rw [hlive] at hdry
    cases hdry
  refine runs_alterTable_of c ?_ ?_ ?_ ?_ ?_
  · exact fun f _ => ⟨by rintro _ ⟨⟩, by simp⟩
  · rintro statements o - - hdescribed -
    exact ⟨by rintro _ ⟨⟩; exact hdescribed.table, by simp⟩
  · rintro statements f - hlive' - -
    exact ⟨by rintro _ ⟨⟩, hlive hlive'⟩
  · rintro statements o - hlive' - - hdescribed hsucceeded
    exact (runs_execute_table hdescribed hsucceeded _).mono fun _ _ htable => ⟨htable, hlive hlive'⟩
  · rintro statements o - hlive' - hdescribed hsucceeded
    exact (runs_execute_table hdescribed hsucceeded s).mono fun _ _ htable => ⟨htable, hlive hlive'⟩

theorem tells_createMissing (options : AlterOptions) (columns : List ModelColumn) :
    Tells c options.dryRun table (createMissing c options table columns) := by
  intro s
  refine (runs_createMissing options columns s).mono ?_
  rintro r l ⟨o, ran, rfl, hdescribed, rfl, -, hnone⟩
  refine ⟨by rintro _ ⟨⟩; exact hdescribed.table, fun hdry => ?_⟩
  rw [hnone hdry]
  simp

theorem tells_migrateColumns (options : AlterOptions) (table : String)
    (columns : List ModelColumn) :
    Tells c options.dryRun table (migrateColumns c options table columns) := by
  refine tells_ite (tells_throw _) ?_
  refine tells_bind (c.asks_tableExists table) fun found => tells_ite ?_ ?_
  · exact tells_bind (c.asksAlike_tableColumns table rfl).asks fun existing =>
      tells_alterTable options table _
  · exact tells_createMissing options columns

end Tells

/-! ### Several tables -/

/-- Tables are migrated one after the other, each with success. -/
inductive Migrated (options : AlterOptions) :
    List (String × List ModelColumn) → Conversation σ → List Outcome → List Call → Prop
  | nil {s : Conversation σ} : Migrated options [] s [] []
  | cons {table : String} {columns : List ModelColumn} {r : List (String × List ModelColumn)}
      {s : Conversation σ} {o : Outcome} {os : List Outcome} {k l : List Call}
      (run : migrateColumns c options table columns s = (.ok o, s.extend c k))
      (success : o.success = true) (rest : Migrated options r (s.extend c k) os l) :
      Migrated options ((table, columns) :: r) s (o :: os) (k ++ l)

/-- The ways in which a run over several tables can end. -/
inductive Series (options : AlterOptions) (tables : List (String × List ModelColumn))
    (s : Conversation σ) : Except Failure (List Outcome) → List Call → Prop
  /-- All tables have been migrated. -/
  | complete {os : List Outcome} {l : List Call} (migrated : Migrated c options tables s os l) :
      Series options tables s (.ok os) l
  /-- The outcome for a table is no success.  It is the last one. -/
  | stopped {before after : List (String × List ModelColumn)} {table : String}
      {columns : List ModelColumn} {os : List Outcome} {o : Outcome} {k l : List Call}
      (split : tables = before ++ (table, columns) :: after)
      (migrated : Migrated c options before s os k)
      (run : migrateColumns c options table columns (s.extend c k) = (.ok o, s.extend c (k ++ l)))
      (failed : o.success = false) : Series options tables s (.ok (os ++ [o])) (k ++ l)
  /-- The migration of a table fails. -/
  | refused {before after : List (String × List ModelColumn)} {table : String}
      {columns : List ModelColumn} {os : List Outcome} {f : Failure} {k l : List Call}
      (split : tables = before ++ (table, columns) :: after)
      (migrated : Migrated c options before s os k)
      (run : migrateColumns c options table columns (s.extend c k) =
        (.error f, s.extend c (k ++ l))) : Series options tables s (.error f) (k ++ l)

section Runs

variable {c} {options : AlterOptions} {tables : List (String × List ModelColumn)}
  {s : Conversation σ}

/-- The outcome for a table is about that table. -/
theorem table_of_migrateColumns {table : String} {columns : List ModelColumn} {o : Outcome}
    {s' : Conversation σ} (h : migrateColumns c options table columns s = (.ok o, s')) :
    o.table = table := by
  obtain ⟨r, l, hrun, htable, -⟩ := tells_migrateColumns (c := c) options table columns s
  exact htable o (congrArg Prod.fst (hrun.symm.trans h))

/-- There is one outcome for each table, in their order, and all of them are successes. -/
theorem Migrated.outcomes {os : List Outcome} {l : List Call}
    (h : Migrated c options tables s os l) :
    os.map (·.table) = tables.map (·.1) ∧ ∀ o ∈ os, o.success = true := by
  induction h with
  | nil => exact ⟨rfl, by simp⟩
  | cons run success _ ih =>
    refine ⟨?_, List.forall_mem_cons.mpr ⟨success, ih.2⟩⟩
    rw [List.map_cons, List.map_cons, table_of_migrateColumns run, ih.1]

/-- There is one outcome for each table that is touched, in their order, only the last one may be no
success, and if all are successes, all tables have been migrated. -/
theorem Series.outcomes {r : Except Failure (List Outcome)} {l : List Call}
    (h : Series c options tables s r l) : ∀ os, r = .ok os →
      os.map (·.table) <+: tables.map (·.1) ∧ (∀ o ∈ os.dropLast, o.success = true) ∧
      ((∀ o ∈ os, o.success = true) → os.map (·.table) = tables.map (·.1)) := by
  cases h with
  | complete migrated =>
    rintro os ⟨⟩
    obtain ⟨htables, hsuccess⟩ := migrated.outcomes
    exact ⟨htables ▸ List.prefix_rfl, fun o ho => hsuccess o ((List.dropLast_sublist _).subset ho),
      fun _ => htables⟩
  | stopped split migrated run failed =>
    rintro os ⟨⟩
    obtain ⟨htables, hsuccess⟩ := migrated.outcomes
    refine ⟨?_, ?_, fun hall => ?_⟩
    · rw [split, List.map_append, List.map_append, htables, List.map_cons, List.map_cons,
        table_of_migrateColumns run, List.map_nil]
      exact ⟨_, by simp; rfl⟩
    · rwa [List.dropLast_concat]
    · have hlast := hall _ (List.mem_append_right _ List.mem_cons_self)
      rw [failed] at hlast
      cases hlast
  | refused => rintro os ⟨⟩

/-- A table that is migrated with success comes before the others. -/
theorem Series.cons {table : String} {columns : List ModelColumn} {o : Outcome} {k l : List Call}
    {r : Except Failure (List Outcome)}
    (run : migrateColumns c options table columns s = (.ok o, s.extend c k))
    (success : o.success = true) (h : Series c options tables (s.extend c k) r l) :
    Series c options ((table, columns) :: tables) s (r.map (o :: ·)) (k ++ l) := by
  cases h with
  | complete migrated => exact .complete (.cons run success migrated)
  | stopped split migrated run' failed =>
    rw [← List.append_assoc]
    rw [Conversation.extend_extend, Conversation.extend_extend, ← List.append_assoc] at run'
    exact .stopped (by rw [split, List.cons_append]) (.cons run success migrated) run' failed
  | refused split migrated run' =>
    rw [← List.append_assoc]
    rw [Conversation.extend_extend, Conversation.extend_extend, ← List.append_assoc] at run'
    exact .refused (by rw [split, List.cons_append]) (.cons run success migrated) run'

theorem runs_migrateAll (options : AlterOptions) (tables : List (String × List ModelColumn))
    (s : Conversation σ) :
    (migrateAll c options tables).Runs c s fun r l => Series c options tables s r l ∧
      (options.dryRun = true → ∀ call ∈ l, call.verb = .query) := by
  -- along the tables, for the conversation in which those before them have ended
  induction tables generalizing s with
  | nil => exact runs_pure ⟨.complete .nil, by simp⟩
  | cons entry rest ih =>
    obtain ⟨table, columns⟩ := entry
    -- `self` keeps the run itself, of which `Series` speaks
    refine (tells_migrateColumns options table columns s).self.bind ?_ ?_
    · rintro o k ⟨hrun, -, hk⟩
      refine runs_ite (fun hsuccess => ?_) fun hfailed => ?_
      · refine (ih (s.extend c k)).bind ?_ ?_
        · rintro os l ⟨hseries, hl⟩
          refine runs_pure ?_
          rw [List.append_nil]
          exact ⟨hseries.cons hrun hsuccess,
            fun hdry => List.forall_mem_append.mpr ⟨hk hdry, hl hdry⟩⟩
        · rintro f l ⟨hseries, hl⟩
          exact ⟨hseries.cons hrun hsuccess,
            fun hdry => List.forall_mem_append.mpr ⟨hk hdry, hl hdry⟩⟩
      · have hfailed : o.success = false := by simpa using hfailed
        refine runs_pure ?_
        rw [List.append_nil]
        have hseries : Series c options ((table, columns) :: rest) s (.ok ([] ++ [o])) ([] ++ k) :=
          .stopped (List.nil_append _).symm .nil (by simpa using hrun) hfailed
        exact ⟨hseries, hk⟩
    · rintro f k ⟨hrun, -, hk⟩
      have hseries : Series c options ((table, columns) :: rest) s (.error f) ([] ++ k) :=
        .refused (List.nil_append _).symm .nil (by simpa using hrun)
      exact ⟨hseries, hk⟩

end Runs

/-- **Tables are migrated in the order in which they are registered, up to the first that does not
succeed.**  The calls are those of the migrations that have been run, and no later table is touched.
There is one outcome for each of those tables unless one of them fails, only the last one may be no
success, and in a dry run all calls are queries. -/
theorem migrateAll_series (options : AlterOptions) (tables : List (String × List ModelColumn))
    (s : Conversation σ) :
    ∃ r l, migrateAll c options tables s = (r, s.extend c l) ∧ Series c options tables s r l ∧
      (∀ os, r = .ok os →
        os.map (·.table) <+: tables.map (·.1) ∧ (∀ o ∈ os.dropLast, o.success = true) ∧
        ((∀ o ∈ os, o.success = true) → os.map (·.table) = tables.map (·.1))) ∧
      (options.dryRun = true → ∀ call ∈ l, call.verb = .query) := by
  obtain ⟨r, l, hrun, hseries, hl⟩ := runs_migrateAll options tables s
  exact ⟨r, l, hrun, hseries, hseries.outcomes, hl⟩

end SchemaKeeper.Automatic
