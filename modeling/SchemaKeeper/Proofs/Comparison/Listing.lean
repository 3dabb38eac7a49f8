/-
What a comparison lists, and in which order.

`Asked` says what a column of the model asks for on a table: to be added if the table
lacks it, to be modified in the aspects that differ, or nothing.  `unwanted` are the
columns of a table that the model lacks.

* `asked_required?`: what is listed for a column of the model is what it asks for,
* `columnNamed?_perm`: what is found by a name does not hang on the order in which a
  table has its columns,
* `nodup_column_compareColumns`: no column is listed twice,
* `compareColumns_listing`: first comes what the columns of the model ask for, in their
  order, and then the drops in the order of the table; of a table with the same columns
  in another order only the drops are listed in another order.
-/
import Mathlib.Data.List.Forall2
import Mathlib.Data.List.ReduceOption
import SchemaKeeper.Proofs.Comparison.Aspects
import SchemaKeeper.Proofs.Lists

namespace SchemaKeeper

namespace Comparison

variable {d : Dialect} {db : List DatabaseColumn} {model : List ModelColumn}

/-! ### What a column of the model asks for -/

/-- What a column of the model asks for on a table. -/
inductive Asked (d : Dialect) (db : List DatabaseColumn) (m : ModelColumn) :
    Option Difference → Prop
  /-- The table lacks the column. -/
  | add (lacks : ∀ c ∈ db, c.name ≠ m.name) : Asked d db m (some (.add m))
  /-- The table has the column, and some aspects of it differ.  Those are listed, each with a reason
  in words. -/
  | modify {c : DatabaseColumn} {changes : List Aspect} {reasons : List String} (found : c ∈ db)
      (named : c.name = m.name) (nonempty : changes ≠ [])
      (ordered : changes.Sublist
        [.type, .length, .precision, .notNull, .unique, .default, .comment])
      (listed : ∀ a, a ∈ changes ↔ Differs d c m a) (told : reasons.length = changes.length) :
      Asked d db m (some (.modify c m changes reasons))
  /-- The table has the column as the model wants it. -/
  | nothing {c : DatabaseColumn} (found : c ∈ db) (named : c.name = m.name)
      (same : ∀ a, ¬ Differs d c m a) : Asked d db m none

theorem asked_required? (m : ModelColumn) : Asked d db m (required? d db m) := by
  unfold required?
  cases hfound : columnNamed? db m.name with
  | none => exact .add (columnNamed?_eq_none.mp hfound)
  | some c =>
    obtain ⟨hc, hname⟩ := of_columnNamed?_eq_some hfound
    dsimp only
    cases hmodify : modification? d c m with
    | none => exact .nothing hc hname (modification?_eq_none.mp hmodify)
    | some diff =>
      obtain ⟨hne, rfl⟩ := modification?_eq_some.mp hmodify
      refine .modify hc hname hne differing_sublist (fun a => mem_differing) ?_
      rw [differing, List.length_map, List.length_map]

/-- Whatever is asked for is about the column itself. -/
theorem Asked.column_eq {m : ModelColumn} {asked : Option Difference} (h : Asked d db m asked) :
    ∀ diff, asked = some diff → diff.column = m.name := by
  cases h with
  | add => rintro _ ⟨⟩; rfl
  | modify => rintro _ ⟨⟩; rfl
  | nothing => rintro _ ⟨⟩

/-! ### Columns that the model lacks -/

/-- The columns of a table that the model lacks, in the order of the table. -/
def unwanted (db : List DatabaseColumn) (model : List ModelColumn) : List DatabaseColumn :=
  db.filter fun c => ∀ m ∈ model, m.name ≠ c.name

theorem mem_unwanted {c : DatabaseColumn} :
    c ∈ unwanted db model ↔ c ∈ db ∧ ∀ m ∈ model, m.name ≠ c.name := by
  rw [unwanted, List.mem_filter, decide_eq_true_iff]

theorem compareColumns_eq :
    compareColumns d db model =
      model.filterMap (required? d db) ++ (unwanted db model).map Difference.drop := by
  have hfilter : (db.filter fun c => !model.any (·.name == c.name)) = unwanted db model :=
    List.filter_congr fun c _ => by
      rw [Bool.eq_iff_iff, decide_eq_true_iff, Bool.not_eq_true', List.any_eq_false]
      simp
  rw [compareColumns, hfilter]

/-! ### Names -/

/-- The columns asked for are columns of the model, in its order. -/
theorem column_required_sublist :
    ((model.filterMap (required? d db)).map (·.column)).Sublist (model.map (·.name)) := by
  induction model with
  | nil => exact List.Sublist.slnil
  | cons m r ih =>
    rw [List.filterMap_cons, List.map_cons]
    have hcolumn : ∀ diff, required? d db m = some diff → diff.column = m.name :=
      (asked_required? m).column_eq
    cases hrequired : required? d db m with
    | none => exact ih.cons _
    | some diff =>
      dsimp only
      rw [List.map_cons, hcolumn diff hrequired]
      exact ih.cons_cons _

/-- No column is listed twice. -/
theorem nodup_column_compareColumns (hdb : (db.map (·.name)).Nodup)
    (hmodel : (model.map (·.name)).Nodup) : ((compareColumns d db model).map (·.column)).Nodup := by
  have hdropped : ((unwanted db model).map Difference.drop).map (·.column) =
      (unwanted db model).map (·.name) := by
    rw [List.map_map]
    rfl
  rw [compareColumns_eq, List.map_append, hdropped, List.nodup_append]
  refine ⟨hmodel.sublist column_required_sublist, hdb.sublist (List.filter_sublist.map _), ?_⟩
  -- what is asked for is named as in the model, and what is dropped is not
  intro name hname name' hname' heq
  obtain ⟨m, hm, rfl⟩ := List.mem_map.mp (column_required_sublist.subset hname)
  obtain ⟨c, hc, rfl⟩ := List.mem_map.mp hname'
  exact (mem_unwanted.mp hc).2 m hm heq

/-! ### The order of the table -/

section Perm

variable {db' : List DatabaseColumn}

/-- What is found by a name does not hang on the order of the columns. -/
theorem columnNamed?_perm (hdb : (db.map (·.name)).Nodup) (h : db.Perm db') (name : String) :
    columnNamed? db' name = columnNamed? db name := by
  have hdb' : (db'.map (·.name)).Nodup := (h.map _).nodup_iff.mp hdb
  cases hfound : columnNamed? db name with
  | none =>
    have hlacks := columnNamed?_eq_none.mp hfound
    exact columnNamed?_eq_none.mpr fun c hc => hlacks c (h.mem_iff.mpr hc)
  | some c =>
    obtain ⟨hc, rfl⟩ := of_columnNamed?_eq_some hfound
    exact columnNamed?_of_mem hdb' (h.mem_iff.mp hc)

theorem required?_perm (hdb : (db.map (·.name)).Nodup) (h : db.Perm db') :
    required? d db' = required? d db := by
  funext m
  rw [required?, required?, columnNamed?_perm hdb h]

theorem unwanted_perm (h : db.Perm db') : (unwanted db model).Perm (unwanted db' model) :=
  h.filter _

end Perm

/-- **A comparison lists the differences of a table in a fixed order and nothing else**: for each
column of the model what it asks for, in the order of the model, and then the drops in the order of
the table.  Each column is listed at most once.  If the table has its columns in another order, only
the order of the drops is another one. -/
theorem compareColumns_listing (hdb : (db.map (·.name)).Nodup)
    (hmodel : (model.map (·.name)).Nodup) :
    ∃ asked : List (Option Difference), List.Forall₂ (Asked d db) model asked ∧
      compareColumns d db model =
        asked.reduceOption ++ (unwanted db model).map Difference.drop ∧
      ((compareColumns d db model).map (·.column)).Nodup ∧
      ∀ db', db.Perm db' → (unwanted db model).Perm (unwanted db' model) ∧
        compareColumns d db' model =
          asked.reduceOption ++ (unwanted db' model).map Difference.drop := by
  have hasked : (model.map (required? d db)).reduceOption = model.filterMap (required? d db) := by
    rw [List.reduceOption, List.filterMap_map]
    rfl
  refine ⟨model.map (required? d db), ?_, ?_, nodup_column_compareColumns hdb hmodel, ?_⟩
  · exact forall₂_map_self fun m _ => asked_required? m
  · rw [hasked, compareColumns_eq]
  · intro db' hperm
    refine ⟨unwanted_perm hperm, ?_⟩
    -- names are distinct, so what the columns of the model ask for is the same
    rw [hasked, compareColumns_eq, required?_perm hdb hperm]

/-- Of two columns that the model lacks, one comes before those of the model and one after them; one
column is added, one is modified in two aspects, and one is kept. -/
theorem compareColumns_listing_of_sample :
    let old : DatabaseColumn := { name := "old", rawType := "text" }
    let id : DatabaseColumn :=
      { name := "id", rawType := "bigint", notNull := true, primaryKey := true,
        autoIncrement := true }
    let name : DatabaseColumn := { name := "name", rawType := "varchar(50)", length? := some 50 }
    let mail : DatabaseColumn := { name := "mail", rawType := "text" }
    let model : List ModelColumn :=
      [{ name := "name", type := .varchar 100, notNull := true },
        { name := "age", type := .int },
        { name := "id", type := .bigInt, primaryKey := true, autoIncrement := true }]
    ([old, id, name, mail].map (·.name)).Nodup ∧ (model.map (·.name)).Nodup ∧
      [old, id, name, mail].Perm [mail, name, id, old] ∧
      (compareColumns .mysql [old, id, name, mail] model).map
          (fun diff => (diff.column, diff.kind, diff.changes)) =
        [("name", .modify, [.length, .notNull]), ("age", .add, []), ("old", .drop, []),
          ("mail", .drop, [])] ∧
      ∃ asked : List (Option Difference),
        List.Forall₂ (Asked .mysql [old, id, name, mail]) model asked ∧
        compareColumns .mysql [old, id, name, mail] model =
          asked.reduceOption ++ [.drop old, .drop mail] ∧
        compareColumns .mysql [mail, name, id, old] model =
          asked.reduceOption ++ [.drop mail, .drop old] := by
  intro old id name mail model
  have hdb : ([old, id, name, mail].map (·.name)).Nodup := by decide
  have hmodel : (model.map (·.name)).Nodup := by decide
  have hperm : [old, id, name, mail].Perm [mail, name, id, old] := by decide
  have hunwanted : unwanted [old, id, name, mail] model = [old, mail] := by decide
  have hunwanted' : unwanted [mail, name, id, old] model = [mail, old] := by decide
  obtain ⟨asked, hasked, hlisted, -, hother⟩ :=
    compareColumns_listing (d := .mysql) hdb hmodel
  rw [hunwanted] at hlisted
  have hlisted' := (hother _ hperm).2
  rw [hunwanted'] at hlisted'
  exact ⟨hdb, hmodel, hperm, by decide +kernel, asked, hasked, hlisted, hlisted'⟩

end Comparison

end SchemaKeeper
