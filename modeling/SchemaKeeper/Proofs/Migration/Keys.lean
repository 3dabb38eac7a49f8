/-
Keys stay.

A column of the primary key is never dropped, though the model may lack it.  No dialect
renders its drop, and one difference that is not rendered stops all the others.

* `alteration_of_removesKey`: the drop of a key column has nothing to be sent,
* `key_mem_of_alterStatements`: if statements are written for the differences of a table,
  the model has all of its key columns,
* `exists_sources`: every statement is put together from clauses and statements of single
  differences,
* `keys_stay`: a table with a key column that the model lacks is read and left alone, and
  no drop of a key column has a part in any statement.
-/
import SchemaKeeper.Proofs.Migration.Unchanged
import SchemaKeeper.Proofs.Schema.Plan

namespace SchemaKeeper

open SchemaKeeper.Action

/-- The difference drops a column of the primary key. -/
def Difference.RemovesKey (diff : Difference) : Prop :=
  diff.kind = .drop ∧ ∃ k, diff.old? = some k ∧ k.primaryKey = true

/-! ### Where statements come from -/

/-- A statement is put together from clauses or statements of the given differences. -/
inductive WrittenFor (d : Dialect) (table : String) : List Difference → String → Prop
  /-- One ALTER TABLE statement with a clause of each difference. -/
  | altering {sources : List Difference} {clauses : List String} (nonempty : clauses ≠ [])
      (each : List.Forall₂ (fun diff clause => clause ∈ (d.alteration table diff).clauses)
        sources clauses) :
      WrittenFor d table sources
        ("ALTER TABLE " ++ d.quote table ++ " " ++ ", ".intercalate clauses)
  /-- A statement that a difference has of its own. -/
  | alone {diff : Difference} {sql : String}
      (stated : sql ∈ (d.alteration table diff).statements) : WrittenFor d table [diff] sql

section Sources

variable {d : Dialect} {table : String} {diffs : List Difference}

/-- The clauses of several differences, each with the difference that it comes from. -/
theorem exists_forall₂_clauses (d : Dialect) (table : String) (diffs : List Difference) :
    ∃ sources : List Difference, (∀ diff ∈ sources, diff ∈ diffs) ∧
      List.Forall₂ (fun diff clause => clause ∈ (d.alteration table diff).clauses) sources
        (diffs.flatMap fun diff => (d.alteration table diff).clauses) := by
  -- a difference stands once for each of its clauses
  refine ⟨diffs.flatMap fun diff => (d.alteration table diff).clauses.map fun _ => diff, ?_, ?_⟩
  · intro diff hdiff
    obtain ⟨diff', hdiff', hmem⟩ := List.mem_flatMap.mp hdiff
    obtain ⟨_, -, rfl⟩ := List.mem_map.mp hmem
    exact hdiff'
  · induction diffs with
    | nil => exact .nil
    | cons diff r ih =>
      rw [List.flatMap_cons, List.flatMap_cons]
      refine List.rel_append ?_ ih
      exact List.forall₂_map_left_iff.mpr (List.forall₂_same.mpr fun clause hclause => hclause)

/-- Every statement is put together from clauses and statements of the differences. -/
theorem exists_sources {sqls : List String} (h : alterStatements d table diffs = .ok sqls) :
    ∀ sql ∈ sqls, ∃ sources, (∀ diff ∈ sources, diff ∈ diffs) ∧ WrittenFor d table sources sql := by
  have hyields := yields_alterStatements d table diffs
  rw [h] at hyields
  have halone : ∀ entry ∈ planAlterations d table diffs, ∀ sql ∈ entry.2.statements,
      ∃ sources, (∀ diff ∈ sources, diff ∈ diffs) ∧ WrittenFor d table sources sql := by
    intro entry hentry sql hsql
    obtain ⟨hdiff, halteration⟩ := mem_planAlterations.mp hentry
    exact ⟨[entry.1], by simpa using hdiff, .alone (halteration ▸ hsql)⟩
  intro sql hsql
  cases hyields with
  | combined =>
    rcases List.mem_append.mp hsql with hsql | hsql
    · obtain ⟨sources, hsources, heach⟩ := exists_forall₂_clauses d table diffs
      split at hsql
      · cases hsql
      · next hne =>
        rw [List.mem_singleton.mp hsql]
        rw [planAlterations, List.flatMap_map] at hne ⊢
        exact ⟨sources, hsources, .altering hne heach⟩
    · obtain ⟨entry, hentry, hsql⟩ := List.mem_flatMap.mp hsql
      exact halone entry hentry sql hsql
  | separate =>
    obtain ⟨entry, hentry, hsql⟩ := List.mem_flatMap.mp hsql
    rcases List.mem_append.mp hsql with hsql | hsql
    · obtain ⟨clause, hclause, rfl⟩ := List.mem_map.mp hsql
      obtain ⟨hdiff, halteration⟩ := mem_planAlterations.mp hentry
      rw [halteration] at hclause
      exact ⟨[entry.1], by simpa using hdiff,
        .altering (List.cons_ne_nil clause []) (.cons hclause .nil)⟩
    · exact halone entry hentry sql hsql

end Sources

/-! ### Drops of key columns -/

/-- The drop of a key column has nothing to be sent. -/
theorem Difference.RemovesKey.alteration_eq {diff : Difference} (h : diff.RemovesKey) (d : Dialect)
    (table : String) :
    d.alteration table diff = .unsupported "cannot drop a primary key column" := by
  obtain ⟨hkind, k, hold, hkey⟩ := h
  have hdrops : diff.dropsKey = true := by
    rw [Difference.dropsKey, hold]
    exact hkey
  unfold Dialect.alteration
  rw [hkind]
  dsimp only
  unfold Dialect.removal
  rw [if_pos hdrops]

section Written

variable {d : Dialect} {table : String} {diffs : List Difference} {sqls : List String}

/-- If statements are written, none of the differences drops a key column. -/
theorem not_removesKey_of_alterStatements (h : alterStatements d table diffs = .ok sqls) :
    ∀ diff ∈ diffs, ¬ diff.RemovesKey := by
  intro diff hdiff hremoves
  have hsupported := (alterStatements_eq_ok.mp h).1 diff hdiff
  rw [hremoves.alteration_eq] at hsupported
  cases hsupported

/-- A key column that the model lacks is among the drops that a comparison lists. -/
theorem drop_mem_compareColumns {db : List DatabaseColumn} {model : List ModelColumn}
    {k : DatabaseColumn} (hk : k ∈ db) (hlacks : ∀ m ∈ model, m.name ≠ k.name) :
    Difference.drop k ∈ compareColumns d db model :=
  mem_compareColumns.mpr (.inr (.inr ⟨k, hk, hlacks, rfl⟩))

/-- If statements are written for the differences of a table, the model has all of its keys. -/
theorem key_mem_of_alterStatements {db : List DatabaseColumn} {model : List ModelColumn}
    (h : alterStatements d table (compareColumns d db model) = .ok sqls) {k : DatabaseColumn}
    (hk : k ∈ db) (hkey : k.primaryKey = true) : ∃ m ∈ model, m.name = k.name := by
  by_contra hnone
  have hlacks : ∀ m ∈ model, m.name ≠ k.name := fun m hm heq => hnone ⟨m, hm, heq⟩
  exact not_removesKey_of_alterStatements h _ (drop_mem_compareColumns hk hlacks)
    ⟨rfl, k, rfl, hkey⟩

end Written

/-! ### Tables with a key column that the model lacks -/

section Runs

variable {σ : Type} {c : Connection σ} {s s₁ s₂ : Conversation σ}

/-- If the differences of a table cannot be written, nothing is sent once it has been read. -/
theorem Automatic.migrateColumns_of_error {options : AlterOptions} {table : String}
    {model : List ModelColumn} {db : List DatabaseColumn} {f : Failure} (hmodel : model ≠ [])
    (hfound : c.tableExists table s = (.ok true, s₁))
    (hread : c.tableColumns table s₁ = (.ok db, s₂))
    (hunwritten : alterStatements c.dialect table (compareColumns c.dialect db model) = .error f) :
    migrateColumns c options table model s = (.error f, s₂) := by
  unfold migrateColumns
  rw [if_neg (by simpa using hmodel)]
  refine (bind_eq_of_ok hfound).trans ?_
  rw [if_pos rfl]
  exact (bind_eq_of_ok hread).trans (Guarded.alterTable_of_unwritten _ hunwritten)

end Runs

/-- **Keys stay.**  If the catalog shows a key column that the model lacks, a migration of the
table fails when it has read the table, and nothing has been executed, whatever the options are.
Whenever statements are written for the differences of a table, the model has all of its key
columns, and every statement comes from differences none of which drops a key column. -/
theorem keys_stay {σ : Type} (c : Connection σ) (options : AlterOptions) (table : String)
    (model : List ModelColumn) (s : Conversation σ) :
    (∀ s₁ s₂ db, model ≠ [] → c.tableExists table s = (.ok true, s₁) →
      c.tableColumns table s₁ = (.ok db, s₂) →
      ∀ k ∈ db, k.primaryKey = true → (∀ m ∈ model, m.name ≠ k.name) →
      ∃ f l, Automatic.migrateColumns c options table model s = (.error f, s₂) ∧
        s₂ = s.extend c l ∧ (∀ call ∈ l, call.verb = .query) ∧
        ((∃ column detail, f = .unsupported table column detail) ∨
          ∃ column operation, f = .requiresRecreate table column operation)) ∧
    ∀ d db sqls, alterStatements d table (compareColumns d db model) = .ok sqls →
      (∀ k ∈ db, k.primaryKey = true → ∃ m ∈ model, m.name = k.name) ∧
      ∀ sql ∈ sqls, ∃ sources, WrittenFor d table sources sql ∧
        ∀ diff ∈ sources, diff ∈ compareColumns d db model ∧ ¬ diff.RemovesKey := by
  constructor
  · intro s₁ s₂ db hmodel hfound hread k hk hkey hlacks
    cases hwritten : alterStatements c.dialect table (compareColumns c.dialect db model) with
    | ok sqls =>
      -- its drop would be among the differences, and no statements would be written
      obtain ⟨m, hm, hname⟩ := key_mem_of_alterStatements hwritten hk hkey
      exact absurd hname (hlacks m hm)
    | error f =>
      obtain ⟨l, rfl, hl⟩ := (c.asks_tableExists table).exists_extend hfound
      obtain ⟨l', rfl, hl'⟩ := (c.asksAlike_tableColumns table rfl).asks.exists_extend hread
      exact ⟨f, l ++ l', Automatic.migrateColumns_of_error hmodel hfound hread hwritten,
        Conversation.extend_extend .., List.forall_mem_append.mpr ⟨hl, hl'⟩,
        of_alterStatements_eq_error hwritten⟩
  · intro d db sqls hwritten
    refine ⟨fun k hk hkey => key_mem_of_alterStatements hwritten hk hkey, fun sql hsql => ?_⟩
    obtain ⟨sources, hsources, hfor⟩ := exists_sources hwritten sql hsql
    refine ⟨sources, hfor, fun diff hdiff => ⟨hsources diff hdiff, ?_⟩⟩
    exact not_removesKey_of_alterStatements hwritten diff (hsources diff hdiff)

/-- A table with a key column that the model lacks and a column that is to be modified; and one
whose key the model has, of which another column is dropped. -/
theorem keys_stay_of_sample :
    let rows : List Row :=
      [[("COLUMN_NAME", .text "age"), ("COLUMN_TYPE", .text "text")],
        [("COLUMN_NAME", .text "id"), ("COLUMN_TYPE", .text "int"), ("COLUMN_KEY", .text "PRI")]]
    let c := Connection.readOnly .mysql fun _ => rows
    let s : Conversation Unit := { state := () }
    let age : DatabaseColumn := { name := "age", rawType := "text", notNull := true }
    let id : DatabaseColumn := { name := "id", rawType := "int", notNull := true, primaryKey := true }
    let model : List ModelColumn := [{ name := "age", type := .int }]
    let keyed : List ModelColumn := [{ name := "id", type := .int, primaryKey := true }]
    (∃ s₁ s₂ f l, model ≠ [] ∧ c.tableExists "users" s = (.ok true, s₁) ∧
      c.tableColumns "users" s₁ = (.ok [age, id], s₂) ∧ id.primaryKey = true ∧
      (∀ m ∈ model, m.name ≠ id.name) ∧
      Automatic.migrateColumns c {} "users" model s = (.error f, s₂) ∧ s₂ = s.extend c l ∧
      ∀ call ∈ l, call.verb = .query) ∧
    alterStatements .mysql "users" (compareColumns .mysql [age, id] keyed) =
        .ok ["ALTER TABLE `users` DROP COLUMN `age`"] ∧
      ∃ sources, WrittenFor .mysql "users" sources "ALTER TABLE `users` DROP COLUMN `age`" ∧
        ∀ diff ∈ sources, diff ∈ compareColumns .mysql [age, id] keyed ∧ ¬ diff.RemovesKey := by
  intro rows c s age id model keyed
  have hfound : (c.tableExists "users" s).1 = .ok true := by
    unfold c s
    decide +kernel
  have hread : (c.tableColumns "users" (c.tableExists "users" s).2).1 = .ok [age, id] := by
    unfold c s
    decide +kernel
  have hmodel : model ≠ [] := List.cons_ne_nil _ _
  have hlacks : ∀ m ∈ model, m.name ≠ id.name := by decide
  have hwritten : alterStatements .mysql "users" (compareColumns .mysql [age, id] keyed) =
      .ok ["ALTER TABLE `users` DROP COLUMN `age`"] := by
    decide +kernel
  obtain ⟨f, l, hrun, hextend, hl, -⟩ := (keys_stay c {} "users" model s).1 _ _ [age, id] hmodel
    (Prod.ext hfound rfl) (Prod.ext hread rfl) id (by simp) rfl hlacks
  obtain ⟨sources, hfor, hsources⟩ :=
    ((keys_stay c {} "users" keyed s).2 .mysql [age, id] _ hwritten).2 _ List.mem_cons_self
  exact ⟨⟨_, _, f, l, hmodel, Prod.ext hfound rfl, Prod.ext hread rfl, rfl, hlacks, hrun, hextend,
    hl⟩, hwritten, sources, hfor, hsources⟩

end SchemaKeeper
