/-
Columns that CREATE TABLE declares.

`Table.declaredColumns` are the columns of a table that has just been created: each is
as the model wants it, and its type has the text that stands in the definition of the
column.

The text of a type is that of the model's type, but for one case: PostgreSQL writes
SERIAL for a key that counts up, and SERIAL is an INTEGER even where the model wants a
smaller type (`Dialect.Widens`).

* `sameType_columnTypeText_iff`: the text that a definition has for a type is one for
  that type, unless it is widened,
* `compareColumns_declaredColumns`: a created table is as its model wants it exactly if
  no key of it is widened.
-/
import SchemaKeeper.Proofs.Comparison.Stored
import SchemaKeeper.Schema.Table

namespace SchemaKeeper

open Comparison

namespace Dialect

/-! ### Types in definitions -/

/-- A key that counts up gets a type that is wider than the one of the model. -/
structure Widens (d : Dialect) (c : ModelColumn) : Prop where
  dialect : d = .postgres
  primaryKey : c.primaryKey = true
  autoIncrement : c.autoIncrement = true
  type : c.type = .smallInt ∨ c.type = .tinyInt

variable {d : Dialect} {c : ModelColumn}

/-- Of the types that PostgreSQL has for counting keys, only that of the small integers is another
type. -/
theorem sameType_serialType {t : ColumnType} {serial : String} (h : serialType? t = some serial) :
    postgres.sameType t serial = true ↔ ¬ (t = .smallInt ∨ t = .tinyInt) := by
  cases t with
  | int =>
    obtain rfl : "SERIAL" = serial := Option.some.inj h
    decide
  | smallInt =>
    obtain rfl : "SERIAL" = serial := Option.some.inj h
    decide
  | tinyInt =>
    obtain rfl : "SERIAL" = serial := Option.some.inj h
    decide
  | bigInt =>
    obtain rfl : "BIGSERIAL" = serial := Option.some.inj h
    decide
  | _ => cases h

/-- The type in a definition is that of the model, unless it is widened. -/
theorem sameType_columnTypeText_iff :
    d.sameType c.type (d.columnTypeText c) = true ↔ ¬ d.Widens c := by
  have hplain : d.columnTypeText c = d.typeText c.type → ¬ d.Widens c →
      (d.sameType c.type (d.columnTypeText c) = true ↔ ¬ d.Widens c) := by
    intro htext hnot
    rw [htext]
    exact iff_of_true (sameType_typeText d c.type) hnot
  cases d with
  | sqlite => exact hplain rfl fun h => by cases h.dialect
  | mysql => exact hplain rfl fun h => by cases h.dialect
  | postgres =>
    by_cases hcounts : (c.autoIncrement && c.primaryKey) = true
    · cases hserial : serialType? c.type with
      | none =>
        refine hplain ?_ fun h => ?_
        · rw [columnTypeText, if_pos hcounts, hserial]
          rfl
        · rcases h.type with ht | ht <;> rw [ht] at hserial <;> cases hserial
      | some serial =>
        rw [columnTypeText, if_pos hcounts, hserial, Option.getD_some, sameType_serialType hserial]
        rw [Bool.and_eq_true] at hcounts
        exact not_congr ⟨fun h => ⟨rfl, hcounts.2, hcounts.1, h⟩, fun h => h.type⟩
    · refine hplain (if_neg hcounts) fun h => hcounts ?_
      rw [h.autoIncrement, h.primaryKey]
      rfl

end Dialect

namespace Table

variable {d : Dialect} {t : Table}

/-! ### Declared columns -/

/-- A column as its definition shows it. -/
def defined (t : Table) (c : ModelColumn) : ModelColumn :=
  if t.tableKey.isEmpty then c else underTableKey t.tableKey c

theorem definedColumns_eq : t.definedColumns = t.columns.map t.defined := by
  unfold definedColumns
  split
  · next h =>
    refine (List.map_id'' (fun c => ?_) _).symm
    rw [defined, if_pos h]
  · next h =>
    refine List.map_congr_left fun c _ => ?_
    rw [defined, if_neg h]

theorem type_defined {c : ModelColumn} : (t.defined c).type = c.type := by
  unfold defined
  split <;> rfl

/-- The columns of the table once it has been created, with their types as their definitions write
them. -/
def declaredColumns (t : Table) (d : Dialect) : List DatabaseColumn :=
  t.columns.zipWith (fun c defined => d.stored (d.columnTypeText defined) c) t.definedColumns

theorem declaredColumns_eq :
    t.declaredColumns d = t.columns.map fun c => d.stored (d.columnTypeText (t.defined c)) c := by
  rw [declaredColumns, definedColumns_eq, List.zipWith_map_right, List.zipWith_self]

theorem map_name_declaredColumns :
    (t.declaredColumns d).map (·.name) = t.columns.map (·.name) := by
  rw [declaredColumns_eq, List.map_map]
  rfl

/-- A declared column differs from its model at most in its type, and it does if that is widened. -/
theorem differs_declared {c : ModelColumn} {a : Aspect} :
    Differs d (d.stored (d.columnTypeText (t.defined c)) c) c a ↔
      a = .type ∧ d.Widens (t.defined c) := by
  rw [Dialect.differs_stored, ← Bool.not_eq_true]
  refine and_congr_right fun _ => ?_
  rw [← type_defined (t := t), Dialect.sameType_columnTypeText_iff, not_not]

/-- **A table that has just been created is as its model wants it exactly if no key of it is
widened**; and a key is widened exactly if the text of its type is not one for the type of the
model. -/
theorem compareColumns_declaredColumns (hnodup : (t.columns.map (·.name)).Nodup) :
    (compareColumns d (t.declaredColumns d) t.columns = [] ↔
      ∀ c ∈ t.columns, ¬ d.Widens (t.defined c)) ∧
    ∀ c, d.sameType c.type (d.columnTypeText c) = true ↔ ¬ d.Widens c := by
  refine ⟨?_, fun c => Dialect.sameType_columnTypeText_iff⟩
  have hnames : ((t.declaredColumns d).map (·.name)).Nodup := by
    rwa [map_name_declaredColumns]
  have hmem : ∀ c ∈ t.columns,
      d.stored (d.columnTypeText (t.defined c)) c ∈ t.declaredColumns d := by
    intro c hc
    rw [declaredColumns_eq]
    exact List.mem_map_of_mem hc
  rw [compareColumns_eq_nil_iff hnames]
  constructor
  · rintro ⟨hthere, -⟩ c hc hwidens
    obtain ⟨c', hc', hname, hsame⟩ := hthere c hc
    -- no other column has the name, so this is the declared one
    rw [List.inj_on_of_nodup_map hnames hc' (hmem c hc) hname] at hsame
    exact hsame .type (differs_declared.mpr ⟨rfl, hwidens⟩)
  · intro hnone
    constructor
    · intro c hc
      exact ⟨_, hmem c hc, rfl, fun a ha => hnone c hc (differs_declared.mp ha).2⟩
    · intro c' hc'
      rw [declaredColumns_eq] at hc'
      obtain ⟨c, hc, rfl⟩ := List.mem_map.mp hc'
      exact ⟨c, hc, rfl⟩

/-- A key of two columns stands at the end of the definition, so that neither of them counts up in
it and neither is widened. -/
theorem compareColumns_declaredColumns_of_sample :
    let t : Table :=
      { name := "seats"
        columns :=
          [{ name := "row", type := .smallInt, notNull := true, primaryKey := true,
             autoIncrement := true },
            { name := "place", type := .tinyInt, primaryKey := true },
            { name := "price", type := .decimal 8 2, default? := some "9.50" }] }
    (t.columns.map (·.name)).Nodup ∧ (∀ c ∈ t.columns, ¬ Dialect.postgres.Widens (t.defined c)) ∧
      compareColumns .postgres (t.declaredColumns .postgres) t.columns = [] := by
  intro t
  have hnodup : (t.columns.map (·.name)).Nodup := by decide
  have hplain : ∀ c ∈ t.columns, (t.defined c).autoIncrement = false := by decide
  have hnone : ∀ c ∈ t.columns, ¬ Dialect.postgres.Widens (t.defined c) := by
    intro c hc hwidens
    exact Bool.false_ne_true ((hplain c hc).symm.trans hwidens.autoIncrement)
  exact ⟨hnodup, hnone, (compareColumns_declaredColumns hnodup).1.mpr hnone⟩

/-- A single key of small integers that counts up is created as SERIAL and then found to differ in
its type, though the model has not changed. -/
theorem compareColumns_declaredColumns_ne_nil :
    let t : Table :=
      { name := "counters"
        columns :=
          [{ name := "id", type := .smallInt, notNull := true, primaryKey := true,
             autoIncrement := true }] }
    (t.columns.map (·.name)).Nodup ∧
      (t.declaredColumns .postgres).map (·.rawType) = ["SERIAL"] ∧
      compareColumns .postgres (t.declaredColumns .postgres) t.columns ≠ [] := by
  decide

end Table

end SchemaKeeper
