/-
Tables that are as their models want them.

A table that the catalog shows as its model has it is left alone: it is looked up and
read, no difference is found, and so there is nothing to execute, whatever the options
are.

* `finds_tableExists` and `finds_tableColumns`: what is found out about such a table,
* `runs_alterTable_nil`: without differences nothing is sent,
* `migrateColumns_of_showsTable`: all that is sent are queries, and the outcome has
  neither differences nor statements.
-/
import SchemaKeeper.Migration.Automatic
import SchemaKeeper.Proofs.Catalog.Faithful
import SchemaKeeper.Proofs.Migration.GuardedCourse

namespace SchemaKeeper

open SchemaKeeper.Action

section Lookup

variable {σ : Type} {c : Connection σ} {s : σ} {table : String}

namespace Connection

/-- A table with a row in the catalog exists. -/
theorem finds_tableExists {row : Row} {rows : List Row} (hname : Catalog.isNoName table = false)
    (hrow : c.Reports s c.dialect.tableQuery [.text table] (row :: rows)) :
    (c.tableExists table).Finds c s true := by
  intro t ht
  refine (runs_tableExists c table t).mono ?_
  rintro r l (⟨hnone, -⟩ | ⟨-, rfl, rfl⟩)
  · rw [hname] at hnone
    cases hnone
  · rw [hrow t.state ht]
    exact ⟨rfl, by simp⟩

/-- A table that has columns is read. -/
theorem finds_tableColumns {columns : List DatabaseColumn} (hname : Catalog.isNoName table = false)
    (hne : columns ≠ []) (h : (c.catalogColumns table).Finds c s columns) :
    (c.tableColumns table).Finds c s columns := by
  unfold tableColumns
  rw [if_neg (by simp [hname])]
  refine h.bind ?_
  rw [if_neg (by simpa using hne)]
  exact finds_pure columns

end Connection

/-- A database whose catalog gives fixed answers, and that refuses every statement. -/
def Connection.readOnly (d : Dialect) (answers : String → List Row) : Connection Unit where
  dialect := d
  onExec sql _ s := (.error (.execution sql "read only"), s)
  onQuery sql _ s := (.ok (answers sql), s)
  clock _ := ⟨0, 0, 0⟩

theorem Connection.reports_readOnly {d : Dialect} {answers : String → List Row} {sql : String}
    {args : List Value} {rows : List Row} (h : answers sql = rows) :
    (Connection.readOnly d answers).Reports () sql args rows := by
  intro t _
  rw [← h]
  rfl

/-- Without differences nothing is sent. -/
theorem Guarded.runs_alterTable_nil (options : AlterOptions) (table : String)
    (s : Conversation σ) :
    (Guarded.alterTable c options table []).Runs c s fun r l => l = [] ∧
      ∃ o, r = .ok o ∧ o.Describes options table [] [] none ∧ o.Succeeded := by
  have hwritten : alterStatements c.dialect table [] = .ok [] := by
    cases c.dialect <;> rfl
  -- of the courses that a run can take, only the idle one has nothing to write
  refine (runs_alterTable c options table [] s).mono fun r l hcourse => ?_
  generalize hend : s.extend c l = s' at hcourse
  cases hcourse with
  | unwritten unwritten =>
    rw [hwritten] at unwritten
    cases unwritten
  | idle written idle described reported =>
    obtain rfl := Except.ok.inj (hwritten.symm.trans written)
    refine ⟨?_, _, rfl, described, reported⟩
    have hcalls : s.calls ++ l = s.calls := congrArg Conversation.calls hend
    exact List.append_right_eq_self.mp hcalls
  | unsaved written live _ _ =>
    obtain rfl := Except.ok.inj (hwritten.symm.trans written)
    exact absurd rfl live.2
  | saved written live _ _ _ _ =>
    obtain rfl := Except.ok.inj (hwritten.symm.trans written)
    exact absurd rfl live.2
  | unguarded written live _ _ _ =>
    obtain rfl := Except.ok.inj (hwritten.symm.trans written)
    exact absurd rfl live.2

end Lookup

namespace Automatic

variable {σ : Type} {c : Connection σ} {table : String} {model : List ModelColumn}

/-- **A table that the catalog shows as its model has it is left alone**: whatever the options are,
all that is sent are queries, and the outcome tells of no difference and no statement. -/
theorem migrateColumns_of_showsTable (options : AlterOptions) (s : Conversation σ)
    (hname : Catalog.isNoName table = false) (hmodel : model ≠ [])
    (hnodup : (model.map (·.name)).Nodup)
    (hfound : ∃ row rows, c.Reports s.state c.dialect.tableQuery [.text table] (row :: rows))
    (hshows : c.ShowsTable s.state table model) :
    ∃ o l, migrateColumns c options table model s = (.ok o, s.extend c l) ∧
      (∀ call ∈ l, call.verb = .query) ∧ o.Describes options table [] [] none ∧ o.Succeeded := by
  obtain ⟨row, rows, hrow⟩ := hfound
  obtain ⟨columns, listed, hperm, hagree, hread⟩ :=
    Connection.exists_agrees_of_showsTable hmodel hnodup hshows
  have hne : columns ≠ [] := ne_nil_of_map_name hmodel hperm (map_name_eq_of_agrees hagree)
  have hsame : compareColumns c.dialect columns model = [] :=
    compareColumns_eq_nil_of_agrees hnodup hperm hagree
  have hanswers : (migrateColumns c options table model).Answers c s.state fun r =>
      ∃ o, r = .ok o ∧ o.Describes options table [] [] none ∧ o.Succeeded := by
    unfold migrateColumns
    rw [if_neg (by simpa using hmodel)]
    refine (Connection.finds_tableExists hname hrow).bind ?_
    rw [if_pos rfl]
    refine (Connection.finds_tableColumns hname hne hread).bind ?_
    rw [hsame]
    intro t _
    refine (Guarded.runs_alterTable_nil options table t).mono ?_
    rintro r l ⟨rfl, ho⟩
    exact ⟨ho, by simp⟩
  obtain ⟨r, l, hrun, ⟨o, rfl, hdescribed, hsucceeded⟩, hqueries⟩ :=
    hanswers s (Connection.LeadsTo.refl s.state)
  exact ⟨o, l, hrun, hqueries, hdescribed, hsucceeded⟩

/-- Columns in an order that is not that of the model, with a key that counts up, a default with a
cast and a constraint of two members beside the one that makes a column unique. -/
theorem migrateColumns_of_showsTable_of_sample :
    let model : List ModelColumn :=
      [{ name := "id", type := .bigInt, notNull := true, primaryKey := true,
         autoIncrement := true },
        { name := "name", type := .varchar 50, notNull := true, unique := true,
          default? := some "'x'", comment? := some "as signed" },
        { name := "price", type := .decimal 10 2 }]
    let name : Row :=
      [("column_name", .text "name"), ("data_type", .text "character varying"),
        ("character_maximum_length", .integer 50), ("is_nullable", .text "NO"),
        ("column_default", .text "'x'::character varying"), ("column_comment", .text "as signed")]
    let id : Row :=
      [("column_name", .text "id"), ("data_type", .text "bigint"),
        ("numeric_precision", .integer 64), ("is_nullable", .text "NO"),
        ("column_default", .text "nextval('people_id_seq'::regclass)"), ("column_comment", .null)]
    let price : Row :=
      [("column_name", .text "price"), ("data_type", .text "numeric"),
        ("numeric_precision", .null), ("numeric_scale", .integer 2), ("is_nullable", .text "YES"),
        ("column_default", .null), ("column_comment", .null)]
    let ms : List Catalog.Postgres.Membership :=
      [⟨"people_name_key", "UNIQUE", "name"⟩, ⟨"people_pkey", "PRIMARY KEY", "id"⟩,
        ⟨"people_pair", "UNIQUE", "name"⟩, ⟨"people_pair", "UNIQUE", "price"⟩]
    let shown : Catalog.Postgres.Membership → Row := fun m =>
      [("constraint_name", .text m.constraint), ("constraint_type", .text m.kind),
        ("column_name", .text m.member)]
    let c := Connection.readOnly .postgres fun sql =>
      if sql = Catalog.Postgres.columnsQuery then [name, id, price]
      else if sql = Catalog.Postgres.constraintsQuery then ms.map shown
      else [[("present", .integer 1)]]
    Catalog.isNoName "people" = false ∧ model ≠ [] ∧ (model.map (·.name)).Nodup ∧
      (∃ row rows, c.Reports () c.dialect.tableQuery [.text "people"] (row :: rows)) ∧
      c.ShowsTable () "people" model ∧
      ∃ o l, migrateColumns c {} "people" model { state := () } =
          (.ok o, ({ state := () } : Conversation Unit).extend c l) ∧
        (∀ call ∈ l, call.verb = .query) ∧ o.Describes {} "people" [] [] none ∧ o.Succeeded := by
  intro model name id price ms shown c
  have hnamed : Catalog.isNoName "people" = false := by decide
  have hmodel : model ≠ [] := List.cons_ne_nil _ _
  have hnodup : (model.map (·.name)).Nodup := by decide
  have hcolumns : c.dialect.tableQuery ≠ Catalog.Postgres.columnsQuery := by decide +kernel
  have hconstraints : c.dialect.tableQuery ≠ Catalog.Postgres.constraintsQuery := by
    decide +kernel
  have hother : Catalog.Postgres.constraintsQuery ≠ Catalog.Postgres.columnsQuery := by
    decide +kernel
  have hfound : ∃ row rows, c.Reports () c.dialect.tableQuery [.text "people"] (row :: rows) :=
    ⟨[("present", .integer 1)], [],
      Connection.reports_readOnly ((if_neg hcolumns).trans (if_neg hconstraints))⟩
  have hcast : name.text? "column_default" = some (Dialect.postgres.writeDefault (.varchar 50)
      (normalizeDefault "x") ++ "::" ++ "character varying") := by
    decide
  have hname : Catalog.ShowsInformation .postgres Catalog.Postgres.names name model[1] :=
    { name := by decide
      type := ⟨"character varying", by decide, by decide⟩
      length := by
        rintro k ⟨⟩
        exact ⟨.integer 50, by decide, .size (by decide)⟩
      precision := by rintro k ⟨⟩
      scale := by rintro k ⟨⟩
      notNull := fun _ => by decide
      default := fun _ => hcast ▸ .cast rfl (by decide)
      comment := by decide }
  -- nothing is asked of the nullability and the default of a key that counts up
  have hid : Catalog.ShowsInformation .postgres Catalog.Postgres.names id model[0] :=
    { name := by decide
      type := ⟨"bigint", by decide, by decide⟩
      length := by rintro k ⟨⟩
      precision := by rintro k ⟨⟩
      scale := by rintro k ⟨⟩
      notNull := by rintro ⟨⟩
      default := by rintro ⟨⟩
      comment := by decide }
  have hprice : Catalog.ShowsInformation .postgres Catalog.Postgres.names price model[2] :=
    { name := by decide
      type := ⟨"numeric", by decide, by decide⟩
      length := by rintro k ⟨⟩
      precision := by
        rintro k ⟨⟩
        exact ⟨.null, by decide, .null⟩
      scale := by
        rintro k ⟨⟩
        exact ⟨.integer 2, by decide, .size (by decide)⟩
      notNull := fun _ => by decide
      default := fun _ => .written
      comment := by decide }
  have hrows : List.Forall₂ (Catalog.ShowsInformation .postgres Catalog.Postgres.names)
      [name, id, price] [model[1], model[0], model[2]] :=
    .cons hname (.cons hid (.cons hprice .nil))
  have hcells : ∀ m ∈ ms, (shown m).text? "constraint_name" = some m.constraint ∧
      (shown m).text? "constraint_type" = some m.kind ∧
      (shown m).text? "column_name" = some m.member := by
    decide +kernel
  have hconstrains : Catalog.Postgres.Constrains ms model :=
    { uniform := by decide
      key := by decide
      unique := by decide }
  have hshows : c.ShowsTable () "people" model := by
    refine ⟨⟨[name, id, price], _, Connection.reports_readOnly (if_pos rfl), .swap _ _ _, hrows⟩,
      ms.map shown, ms, Connection.reports_readOnly ((if_neg hother).trans (if_pos rfl)), ?_,
      hconstrains⟩
    refine List.forall₂_map_left_iff.mpr (List.forall₂_same.mpr fun m hm => ?_)
    obtain ⟨hconstraint, hkind, hmember⟩ := hcells m hm
    exact ⟨hconstraint, hkind, hmember⟩
  exact ⟨hnamed, hmodel, hnodup, hfound, hshows,
    migrateColumns_of_showsTable {} { state := () } hnamed hmodel hnodup hfound hshows⟩

end Automatic

end SchemaKeeper
