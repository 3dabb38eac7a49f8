/-
Plans and the statements for them.

A plan renders each difference of a table by itself, whether it can be carried out or
not.  `Yields` says what a plan comes to as a whole: statements that hold all of its
clauses and statements, put together as the dialect wants them, or the reason why the
first of its entries that is not supported cannot be carried out.

* `supported_or_refused`: what is not supported has nothing to be sent, and says why,
* `alterStatements_eq_error`: the failure is that of the first entry which is not
  supported,
* `alterStatements_sqlite_append`: SQLite writes difference by difference, so that the
  statements for two lists of differences come one after the other,
* `alterStatements_yields`: what is written for differences, or the failure, is what the
  plan for them yields.
-/
import SchemaKeeper.Proofs.Schema.Rendering

namespace SchemaKeeper

/-- What a plan comes to as a whole. -/
inductive Yields (d : Dialect) (table : String) (plan : List (Difference × Alteration)) :
    Except Failure (List String) → Prop
  /-- All clauses go into one statement, if there are any, and the other statements follow. -/
  | combined (hd : d = .postgres ∨ d = .mysql)
      (supported : ∀ entry ∈ plan, entry.2.support = .supported) :
      Yields d table plan (.ok ((if plan.flatMap (·.2.clauses) = [] then []
        else ["ALTER TABLE " ++ d.quote table ++ " " ++
          ", ".intercalate (plan.flatMap (·.2.clauses))]) ++ plan.flatMap (·.2.statements)))
  /-- Entry by entry, each clause makes a statement, and the entry's other statements follow. -/
  | separate (hd : d = .sqlite) (supported : ∀ entry ∈ plan, entry.2.support = .supported) :
      Yields d table plan (.ok (plan.flatMap fun entry =>
        (entry.2.clauses.map fun clause => "ALTER TABLE " ++ d.quote table ++ " " ++ clause) ++
          entry.2.statements))
  /-- The first entry that is not supported asks for the table to be rebuilt. -/
  | recreate {before after : List (Difference × Alteration)} {entry : Difference × Alteration}
      (split : plan = before ++ entry :: after)
      (first : ∀ earlier ∈ before, earlier.2.support = .supported)
      (support : entry.2.support = .requiresRecreate) :
      Yields d table plan (.error (.requiresRecreate table entry.1.column entry.1.kind.word))
  /-- The first entry that is not supported cannot be carried out at all. -/
  | unsupported {before after : List (Difference × Alteration)} {entry : Difference × Alteration}
      {note : String} (split : plan = before ++ entry :: after)
      (first : ∀ earlier ∈ before, earlier.2.support = .supported)
      (support : entry.2.support = .unsupported) (noted : entry.2.note? = some note) :
      Yields d table plan (.error (.unsupported table entry.1.column note))

variable {d : Dialect} {table : String} {diffs : List Difference}

/-! ### Differences that are not supported -/

/-- What is not supported has neither clauses nor statements, and says why. -/
theorem supported_or_refused (d : Dialect) (table : String) (diff : Difference) :
    (d.alteration table diff).support = .supported ∨ ∃ note,
      d.alteration table diff = .unsupported note ∨
        d.alteration table diff = .requiresRecreate note := by
  unfold Dialect.alteration
  cases diff.kind with
  | add =>
    cases diff.new? with
    | none => exact .inr ⟨_, .inl rfl⟩
    | some c => exact .inl rfl
  | modify =>
    unfold Dialect.modification
    cases d with
    | sqlite => exact .inr ⟨_, .inr rfl⟩
    | postgres | mysql =>
      cases diff.new? with
      | none => exact .inr ⟨_, .inl rfl⟩
      | some c => exact .inl rfl
  | drop =>
    dsimp only
    unfold Dialect.removal
    -- a key is asked about first, so that SQLite does not send for a rebuilt table without it
    by_cases hkey : diff.dropsKey = true
    · rw [if_pos hkey]
      exact .inr ⟨_, .inl rfl⟩
    · rw [if_neg hkey]
      cases d with
      | sqlite => exact .inr ⟨_, .inr rfl⟩
      | postgres | mysql => exact .inl rfl

/-- Why an entry of a plan is not carried out: the table has to be rebuilt, or the note tells. -/
theorem refusal?_eq_some {diff : Difference} {f : Failure} :
    refusal? table diff (d.alteration table diff) = some f ↔
      ((d.alteration table diff).support = .requiresRecreate ∧
        f = .requiresRecreate table diff.column diff.kind.word) ∨
      ∃ note, (d.alteration table diff).support = .unsupported ∧
        (d.alteration table diff).note? = some note ∧ f = .unsupported table diff.column note := by
  unfold refusal?
  rcases supported_or_refused d table diff with h | ⟨note, h | h⟩
  · simp [h]
  · simp [h, Alteration.unsupported, eq_comm]
  · simp [h, Alteration.requiresRecreate, eq_comm]

/-! ### Statements and failures -/

theorem mem_planAlterations {entry : Difference × Alteration} :
    entry ∈ planAlterations d table diffs ↔
      entry.1 ∈ diffs ∧ entry.2 = d.alteration table entry.1 := by
  unfold planAlterations
  rw [List.mem_map]
  constructor
  · rintro ⟨diff, hdiff, rfl⟩
    exact ⟨hdiff, rfl⟩
  · rintro ⟨hdiff, h⟩
    exact ⟨entry.1, hdiff, by rw [← h]⟩

/-- The failure is that of the first entry of the plan which is not supported. -/
theorem alterStatements_eq_error {f : Failure} :
    alterStatements d table diffs = .error f ↔ ∃ before entry after,
      planAlterations d table diffs = before ++ entry :: after ∧
      (∀ earlier ∈ before, earlier.2.support = .supported) ∧
      refusal? table entry.1 entry.2 = some f := by
  have hfirst : alterStatements d table diffs = .error f ↔
      (planAlterations d table diffs).findSome? (fun entry => refusal? table entry.1 entry.2) =
        some f := by
    rw [alterStatements_eq_plan]
    cases (planAlterations d table diffs).findSome? fun entry => refusal? table entry.1 entry.2 with
    | none => simp
    | some f' => simp
  rw [hfirst, List.findSome?_eq_some_iff]
  constructor
  · rintro ⟨before, entry, after, hsplit, hrefused, hnone⟩
    exact ⟨before, entry, after, hsplit, fun e he => refusal?_eq_none.mp (hnone e he), hrefused⟩
  · rintro ⟨before, entry, after, hsplit, hsupported, hrefused⟩
    exact ⟨before, entry, after, hsplit, hrefused, fun e he => refusal?_eq_none.mpr
      (hsupported e he)⟩

/-- All that stands in the way of statements is that the table has to be rebuilt, or that a
difference is not supported. -/
theorem of_alterStatements_eq_error {f : Failure} (h : alterStatements d table diffs = .error f) :
    (∃ column detail, f = .unsupported table column detail) ∨
      ∃ column operation, f = .requiresRecreate table column operation := by
  obtain ⟨before, entry, after, hsplit, -, hrefused⟩ := alterStatements_eq_error.mp h
  have hentry : entry ∈ planAlterations d table diffs := by simp [hsplit]
  rw [(mem_planAlterations.mp hentry).2] at hrefused
  rcases refusal?_eq_some.mp hrefused with ⟨-, rfl⟩ | ⟨note, -, -, rfl⟩
  · exact .inr ⟨_, _, rfl⟩
  · exact .inl ⟨_, _, rfl⟩

/-- Statements are written exactly if all entries of the plan are supported. -/
theorem alterStatements_eq_ok_of_plan {sqls : List String} :
    alterStatements d table diffs = .ok sqls ↔
      (∀ entry ∈ planAlterations d table diffs, entry.2.support = .supported) ∧
        statementsOf d table ((planAlterations d table diffs).map (·.2)) = sqls := by
  have hplan : (planAlterations d table diffs).map (·.2) = diffs.map (d.alteration table) := by
    rw [planAlterations, List.map_map]
    rfl
  rw [alterStatements_eq_ok, hplan]
  refine and_congr_left fun _ => ?_
  rw [planAlterations, List.forall_mem_map]

/-- An alteration of one clause makes one statement of the clause, in every dialect. -/
theorem statementsOf_clause (d : Dialect) (table clause : String) (sqls : List String) :
    statementsOf d table [{ clauses := [clause], statements := sqls }] =
      alterTable d table clause :: sqls := by
  cases d <;> simp [statementsOf, Dialect.capabilities, combinedStatements, separateStatements]

theorem alterStatements_of_clause {diff : Difference} {clause : String} {sqls : List String}
    (h : d.alteration table diff = { clauses := [clause], statements := sqls }) :
    alterStatements d table [diff] = .ok (alterTable d table clause :: sqls) := by
  refine alterStatements_eq_ok.mpr ⟨fun diff' hdiff' => ?_, ?_⟩
  · rw [List.mem_singleton.mp hdiff', h]
  · rw [List.map_singleton, h, statementsOf_clause]

/-! ### What a plan yields -/

section Yields

variable {plan : List (Difference × Alteration)}

theorem statementsOf_combines (hd : d = .postgres ∨ d = .mysql) :
    statementsOf d table (plan.map (·.2)) = (if plan.flatMap (·.2.clauses) = [] then []
      else ["ALTER TABLE " ++ d.quote table ++ " " ++
        ", ".intercalate (plan.flatMap (·.2.clauses))]) ++ plan.flatMap (·.2.statements) := by
  have hcombines : d.capabilities.combines = true := by
    rcases hd with rfl | rfl <;> rfl
  rw [statementsOf, if_pos hcombines]
  unfold combinedStatements
  dsimp only
  rw [List.flatMap_map, List.flatMap_map]
  simp only [List.isEmpty_iff, alterTable]

theorem statementsOf_sqlite :
    statementsOf .sqlite table (plan.map (·.2)) = plan.flatMap fun entry =>
      (entry.2.clauses.map fun clause =>
        "ALTER TABLE " ++ Dialect.quote .sqlite table ++ " " ++ clause) ++ entry.2.statements := by
  have hseparate : ¬ (Dialect.capabilities .sqlite).combines = true := Bool.false_ne_true
  rw [statementsOf, if_neg hseparate, separateStatements, List.flatMap_map]
  rfl

end Yields

theorem yields_alterStatements (d : Dialect) (table : String) (diffs : List Difference) :
    Yields d table (planAlterations d table diffs) (alterStatements d table diffs) := by
  cases hwritten : alterStatements d table diffs with
  | ok sqls =>
    obtain ⟨hsupported, rfl⟩ := alterStatements_eq_ok_of_plan.mp hwritten
    -- SQLite alone has no statement with several clauses
    cases d with
    | sqlite =>
      rw [statementsOf_sqlite]
      exact .separate rfl hsupported
    | postgres =>
      rw [statementsOf_combines (.inl rfl)]
      exact .combined (.inl rfl) hsupported
    | mysql =>
      rw [statementsOf_combines (.inr rfl)]
      exact .combined (.inr rfl) hsupported
  | error f =>
    obtain ⟨before, entry, after, hsplit, hfirst, hrefused⟩ := alterStatements_eq_error.mp hwritten
    have hentry : entry ∈ planAlterations d table diffs := by simp [hsplit]
    have halteration := (mem_planAlterations.mp hentry).2
    rw [halteration] at hrefused
    rcases refusal?_eq_some.mp hrefused with ⟨hsupport, rfl⟩ | ⟨note, hsupport, hnote, rfl⟩
    · exact .recreate hsplit hfirst (halteration ▸ hsupport)
    · exact .unsupported hsplit hfirst (halteration ▸ hsupport) (halteration ▸ hnote)

/-- A plan yields one thing at most. -/
theorem alterStatements_eq_of_yields {r : Except Failure (List String)}
    (h : Yields d table (planAlterations d table diffs) r) : alterStatements d table diffs = r := by
  cases h with
  | combined hd hsupported =>
    exact alterStatements_eq_ok_of_plan.mpr ⟨hsupported, statementsOf_combines hd⟩
  | separate hd hsupported =>
    subst hd
    exact alterStatements_eq_ok_of_plan.mpr ⟨hsupported, statementsOf_sqlite⟩
  | recreate hsplit hfirst hsupport =>
    refine alterStatements_eq_error.mpr ⟨_, _, _, hsplit, hfirst, ?_⟩
    rw [refusal?, hsupport]
  | unsupported hsplit hfirst hsupport hnote =>
    refine alterStatements_eq_error.mpr ⟨_, _, _, hsplit, hfirst, ?_⟩
    rw [refusal?, hsupport, hnote]
    rfl

/-- SQLite writes difference by difference: the statements for two lists come one after the other,
and the failure is that of the first list that has one. -/
theorem alterStatements_sqlite_append (table : String) (diffs diffs' : List Difference) :
    alterStatements .sqlite table (diffs ++ diffs') = (do
      let sqls ← alterStatements .sqlite table diffs
      let sqls' ← alterStatements .sqlite table diffs'
      return sqls ++ sqls') := by
  have hplan : planAlterations .sqlite table (diffs ++ diffs') =
      planAlterations .sqlite table diffs ++ planAlterations .sqlite table diffs' :=
    List.map_append
  rw [alterStatements_eq_plan, alterStatements_eq_plan, alterStatements_eq_plan, hplan,
    List.findSome?_append]
  -- the second list is looked at only if nothing in the first is refused
  cases (planAlterations .sqlite table diffs).findSome? fun entry =>
      refusal? table entry.1 entry.2 with
  | some f => rfl
  | none =>
    cases (planAlterations .sqlite table diffs').findSome? fun entry =>
        refusal? table entry.1 entry.2 with
    | some f => rfl
    | none =>
      rw [statementsOf_sqlite, List.flatMap_append, ← statementsOf_sqlite, ← statementsOf_sqlite]
      rfl

/-- **Statements agree with the plan.**  For any differences, well-formed or not, statements are
written exactly if every entry of the plan is supported, and they hold all of its clauses and
statements in order; otherwise no statement is written, and the failure is that of the first entry
that is not supported.  On SQLite the statements for two lists come one after the other. -/
theorem alterStatements_yields (d : Dialect) (table : String) (diffs : List Difference) :
    (∀ r, alterStatements d table diffs = r ↔
      Yields d table (planAlterations d table diffs) r) ∧
    ∀ diffs', alterStatements .sqlite table (diffs ++ diffs') = (do
      let sqls ← alterStatements .sqlite table diffs
      let sqls' ← alterStatements .sqlite table diffs'
      return sqls ++ sqls') := by
  refine ⟨fun r => ⟨?_, alterStatements_eq_of_yields⟩, alterStatements_sqlite_append table diffs⟩
  rintro rfl
  exact yields_alterStatements d table diffs

end SchemaKeeper
