/-
What a catalog does not report.

A comparison tells of what was reported and of nothing else.

* `told_compareColumns_bare`: SQLite reports neither sizes nor comments, and of two
  tables and two models that differ in these alone the same is told,
* `thinned_compareColumns`: if a catalog leaves sizes of some columns out, then what is
  told of them is at most missing: a modification may lose sizes, and is gone if it has
  lost all, and every other difference is told as before.
-/
import SchemaKeeper.Proofs.Column.Type
import SchemaKeeper.Proofs.Comparison.Aspects
import SchemaKeeper.Proofs.Lists

namespace SchemaKeeper

open Text Comparison

/-! ### Names of types -/

namespace ColumnType

/-- The type without its sizes, each of which is zero. -/
def bare : ColumnType → ColumnType
  | varchar _ => varchar 0
  | char _ => char 0
  | decimal _ _ => decimal 0 0
  | t => t

/-- What a type is called does not hang on its sizes. -/
theorem baseName_toText_bare (t : ColumnType) :
    TypeText.baseName t.bare.toText = TypeText.baseName t.toText := by
  have houtside : TypeText.outside 0 t.bare.toText.toList = TypeText.outside 0 t.toText.toList := by
    cases t with
    | varchar n =>
      rw [bare, toText_varchar, toText_varchar,
        TypeText.outside_parameterText (by decide) (by decide),
        TypeText.outside_parameterText (by decide) (by decide)]
    | char n =>
      rw [bare, toText_char, toText_char, TypeText.outside_parameterText (by decide) (by decide),
        TypeText.outside_parameterText (by decide) (by decide)]
    | decimal p s =>
      rw [bare, toText_decimal, toText_decimal,
        TypeText.outside_parameterText (by decide) (by decide),
        TypeText.outside_parameterText (by decide) (by decide)]
    | _ => rfl
  rw [TypeText.baseName, TypeText.baseName, TypeText.base, TypeText.base, houtside]

end ColumnType

theorem sqliteTypeText_bare (t : ColumnType) : sqliteTypeText t.bare = sqliteTypeText t := by
  cases t <;> rfl

theorem Dialect.sameType_sqlite_bare (t : ColumnType) (rawType : String) :
    sqlite.sameType t.bare rawType = sqlite.sameType t rawType := by
  simp only [sameType, typeText, sqliteTypeText_bare, ColumnType.baseName_toText_bare]

/-! ### What SQLite does not report -/

/-- What is told of a difference, without the two columns. -/
def Difference.told (diff : Difference) : String × ChangeKind × List Aspect × String :=
  (diff.column, diff.kind, diff.changes, diff.reason)

/-- The column without its sizes and without its comment. -/
def DatabaseColumn.bare (c : DatabaseColumn) : DatabaseColumn :=
  { c with length? := none, precision? := none, scale? := none, comment? := none }

/-- The column without the sizes of its type and without its comment. -/
def ModelColumn.bare (c : ModelColumn) : ModelColumn :=
  { c with type := c.type.bare, comment? := none }

namespace Comparison

theorem wantedDefault?_bare (m : ModelColumn) :
    wantedDefault? .sqlite m.bare = wantedDefault? .sqlite m := by
  simp [wantedDefault?, ModelColumn.bare, Dialect.writeDefault]

/-- Nothing that SQLite does not report is looked at. -/
theorem findings_sqlite_bare (c : DatabaseColumn) (m : ModelColumn) :
    findings .sqlite c.bare m.bare = findings .sqlite c m := by
  have htype : typeFindings .sqlite c.bare m.bare = typeFindings .sqlite c m := by
    show findingIf (!Dialect.sqlite.sameType m.type.bare c.rawType) .type
      ("type changed from " ++ c.rawType ++ " to " ++ sqliteTypeText m.type.bare) = _
    rw [Dialect.sameType_sqlite_bare, sqliteTypeText_bare]
    rfl
  -- neither sizes nor comments are compared at all
  have hparameters : ∀ c m, parameterFindings .sqlite c m = [] := by
    intro c m
    rw [parameterFindings]
    exact ite_self _
  have hdefault : defaultFindings .sqlite c.bare m.bare = defaultFindings .sqlite c m := by
    rw [defaultFindings, defaultFindings, wantedDefault?_bare]
    rfl
  have hcomment : ∀ c m, commentFindings .sqlite c m = [] := fun _ _ => rfl
  rw [findings, findings, htype, hparameters, hparameters, hdefault, hcomment, hcomment]
  rfl

theorem told_modification?_bare (c : DatabaseColumn) (m : ModelColumn) :
    (modification? .sqlite c.bare m.bare).map (·.told) =
      (modification? .sqlite c m).map (·.told) := by
  rw [modification?, modification?, findings_sqlite_bare]
  cases findings .sqlite c m <;> rfl

theorem columnNamed?_bare (db : List DatabaseColumn) (name : String) :
    columnNamed? (db.map (·.bare)) name = (columnNamed? db name).map (·.bare) := by
  rw [columnNamed?, List.filter_map, List.getLast?_map]
  rfl

theorem told_required?_bare (db : List DatabaseColumn) (m : ModelColumn) :
    (required? .sqlite (db.map (·.bare)) m.bare).map (·.told) =
      (required? .sqlite db m).map (·.told) := by
  have hfound : columnNamed? (db.map (·.bare)) m.bare.name =
      (columnNamed? db m.name).map (·.bare) := columnNamed?_bare db m.name
  rw [required?, required?, hfound]
  cases columnNamed? db m.name with
  | none => rfl
  | some c => exact told_modification?_bare c m

end Comparison

/-- The same is told whether SQLite looks at the columns or at what is left of them without sizes
and comments. -/
theorem told_compareColumns_bare (db : List DatabaseColumn) (model : List ModelColumn) :
    (compareColumns .sqlite (db.map (·.bare)) (model.map (·.bare))).map (·.told) =
      (compareColumns .sqlite db model).map (·.told) := by
  have hrequired : (model.map (·.bare)).filterMap
      (fun m => (required? .sqlite (db.map (·.bare)) m).map (·.told)) =
      model.filterMap fun m => (required? .sqlite db m).map (·.told) := by
    rw [List.filterMap_map]
    exact List.filterMap_congr fun m _ => told_required?_bare db m
  have hnamed : ∀ name, (model.map (·.bare)).any (·.name == name) = model.any (·.name == name) := by
    intro name
    rw [List.any_map]
    rfl
  rw [compareColumns, compareColumns, List.map_append, List.map_append, List.map_filterMap,
    List.map_filterMap, hrequired, List.filter_map, List.map_map, List.map_map, List.map_map]
  simp only [hnamed]
  rfl

/-! ### Sizes that are left out -/

/-- The aspects that are about sizes. -/
def Aspect.IsSize (a : Aspect) : Prop := a = .length ∨ a = .precision

/-- The column `c'` is `c` with some of its sizes left out. -/
structure DatabaseColumn.Omits (c c' : DatabaseColumn) : Prop where
  length : c'.length? = none ∨ c'.length? = c.length?
  precision : c'.precision? = none ∨ c'.precision? = c.precision?
  scale : c'.scale? = none ∨ c'.scale? = c.scale?
  /-- All else is reported as before. -/
  rest : c' = { c with length? := c'.length?, precision? := c'.precision?, scale? := c'.scale? }

/-- A modification has lost sizes among its changes, and others are left. -/
structure Difference.Eased (diff diff' : Difference) : Prop where
  column : diff'.column = diff.column
  kind : diff.kind = .modify
  kind' : diff'.kind = .modify
  /-- There was a size to lose. -/
  size : ∃ a ∈ diff.changes, a.IsSize
  changes : diff'.changes.Sublist diff.changes
  lost : ∀ a ∈ diff.changes, a ∉ diff'.changes → a.IsSize
  left : diff'.changes ≠ []

/-- The second list is the first, with sizes missing among the changes of modifications and without
the modifications that have no other changes. -/
inductive Thinned : List Difference → List Difference → Prop
  | nil : Thinned [] []
  | same {diff diff' : Difference} {diffs diffs' : List Difference} (told : diff'.told = diff.told)
      (rest : Thinned diffs diffs') : Thinned (diff :: diffs) (diff' :: diffs')
  | fewer {diff diff' : Difference} {diffs diffs' : List Difference} (eased : diff.Eased diff')
      (rest : Thinned diffs diffs') : Thinned (diff :: diffs) (diff' :: diffs')
  | gone {diff : Difference} {diffs diffs' : List Difference} (kind : diff.kind = .modify)
      (sizes : ∀ a ∈ diff.changes, a.IsSize) (rest : Thinned diffs diffs') :
      Thinned (diff :: diffs) diffs'

namespace Thinned

theorem append {ds es ds' es' : List Difference} (hd : Thinned ds ds') (he : Thinned es es') :
    Thinned (ds ++ es) (ds' ++ es') := by
  induction hd with
  | nil => exact he
  | same told _ ih => exact .same told ih
  | fewer eased _ ih => exact .fewer eased ih
  | gone kind sizes _ ih => exact .gone kind sizes ih

theorem filterMap {α : Type} {f f' : α → Option Difference}
    (h : ∀ x, Thinned (f x).toList (f' x).toList) (xs : List α) :
    Thinned (xs.filterMap f) (xs.filterMap f') := by
  rw [List.filterMap_eq_flatMap_toList, List.filterMap_eq_flatMap_toList]
  induction xs with
  | nil => exact .nil
  | cons x r ih => exact (h x).append ih

end Thinned

namespace Comparison

variable {d : Dialect} {c c' : DatabaseColumn} {m : ModelColumn}

/-- A size that is found to be another one after it may have been left out was so before. -/
theorem OtherThan.of_omitted {wanted : UInt32} {found? found?' : Option UInt32}
    (h : found?' = none ∨ found?' = found?) (hother : OtherThan wanted found?') :
    OtherThan wanted found? := by
  obtain ⟨found, hfound, hne⟩ := hother
  rcases h with hnone | hsame
  · rw [hnone] at hfound
    cases hfound
  · exact ⟨found, hsame ▸ hfound, hne⟩

theorem findingIf_sublist_of_imp {b b' : Bool} (h : b' = true → b = true) (a : Aspect)
    (reason reason' : String) :
    ((findingIf b' a reason').map (·.1)).Sublist ((findingIf b a reason).map (·.1)) := by
  cases b' with
  | false => exact List.nil_sublist _
  | true =>
    rw [h rfl]
    exact List.Sublist.refl _

theorem lengthFindings_sublist_of_omits (h : c.Omits c') :
    ((lengthFindings c' m).map (·.1)).Sublist ((lengthFindings c m).map (·.1)) := by
  rcases h.length with hnone | hsame
  · have hnil : lengthFindings c' m = [] := by
      rw [lengthFindings, hnone]
      cases m.type.length? <;> rfl
    rw [hnil]
    exact List.nil_sublist _
  · rw [lengthFindings, hsame, lengthFindings]

/-- Precision and scale are one aspect, which is found to differ while either of them does. -/
theorem precisionFindings_sublist_of_omits (h : c.Omits c') :
    ((precisionFindings c' m).map (·.1)).Sublist ((precisionFindings c m).map (·.1)) := by
  unfold precisionFindings
  cases m.type.precision? with
  | none => exact List.nil_sublist _
  | some p =>
    cases m.type.scale? with
    | none => exact List.nil_sublist _
    | some s =>
      refine findingIf_sublist_of_imp (fun hdiffers => ?_) ..
      rw [Bool.or_eq_true, any_ne_iff, any_ne_iff] at hdiffers ⊢
      exact hdiffers.imp (.of_omitted h.precision) (.of_omitted h.scale)

theorem parameterFindings_sublist_of_omits (h : c.Omits c') :
    ((parameterFindings d c' m).map (·.1)).Sublist ((parameterFindings d c m).map (·.1)) := by
  have htype : c'.rawType = c.rawType := by rw [h.rest]
  unfold parameterFindings
  rw [htype]
  by_cases hsame : d.sameType m.type c.rawType
  · rw [if_pos hsame, if_pos hsame, List.map_append, List.map_append]
    refine List.Sublist.append ?_ ?_
    · split
      · exact lengthFindings_sublist_of_omits h
      · exact List.Sublist.refl _
    · split
      · exact precisionFindings_sublist_of_omits h
      · exact List.Sublist.refl _
  · rw [if_neg hsame, if_neg hsame]

/-- Nothing but sizes is found to differ less. -/
theorem findings_of_omits (d : Dialect) (m : ModelColumn) (h : c.Omits c') :
    ∃ before after, findings d c m = before ++ parameterFindings d c m ++ after ∧
      findings d c' m = before ++ parameterFindings d c' m ++ after := by
  refine ⟨typeFindings d c m, constraintFindings c m ++ defaultFindings d c m ++
    commentFindings d c m, ?_, ?_⟩
  · simp only [findings, List.append_assoc]
  · rw [findings]
    simp only [List.append_assoc]
    rw [h.rest]
    rfl

theorem isSize_of_mem_parameterFindings {a : Aspect}
    (h : a ∈ (parameterFindings d c m).map (·.1)) : a.IsSize :=
  (mem_parameterFindings.mp h).1

/-- Unless it is about sizes, a change stays, and no change comes to those that are there. -/
theorem differing_of_omits (d : Dialect) (m : ModelColumn) (h : c.Omits c') :
    (differing d c' m).Sublist (differing d c m) ∧
      ∀ a ∈ differing d c m, a ∉ differing d c' m → a.IsSize := by
  obtain ⟨before, after, hfindings, hfindings'⟩ := findings_of_omits d m h
  rw [differing, differing, hfindings, hfindings']
  simp only [List.map_append]
  constructor
  · exact ((List.Sublist.refl _).append (parameterFindings_sublist_of_omits h)).append
      (List.Sublist.refl _)
  · intro a ha hlost
    simp only [List.mem_append, not_or] at ha hlost
    rcases ha with (ha | ha) | ha
    · exact absurd ha hlost.1.1
    · exact isSize_of_mem_parameterFindings ha
    · exact absurd ha hlost.2

/-- A column of which sizes are left out is modified as before, or in fewer sizes, or not at all if
it was to be modified in sizes alone. -/
theorem thinned_modification? (d : Dialect) (m : ModelColumn) (h : c.Omits c') :
    Thinned (modification? d c m).toList (modification? d c' m).toList := by
  obtain ⟨hfewer, hlost⟩ := differing_of_omits d m h
  by_cases hsizes : parameterFindings d c m = []
  · -- no size differs, and so all that is found is the same
    have hsizes' : parameterFindings d c' m = [] := by
      have hnil := parameterFindings_sublist_of_omits (d := d) (m := m) h
      rwa [hsizes, List.map_nil, List.sublist_nil, List.map_eq_nil_iff] at hnil
    have hsame : findings d c' m = findings d c m := by
      obtain ⟨before, after, hfindings, hfindings'⟩ := findings_of_omits d m h
      rw [hfindings, hfindings', hsizes, hsizes']
    rw [modification?, modification?, hsame]
    cases findings d c m with
    | nil => exact .nil
    | cons f r => exact .same rfl .nil
  · -- a size differs, and with it the modification may lose all its changes
    obtain ⟨f, hf⟩ := List.exists_mem_of_ne_nil _ hsizes
    have hsize : f.1.IsSize := isSize_of_mem_parameterFindings (List.mem_map_of_mem hf)
    have hmem : f.1 ∈ differing d c m := by
      obtain ⟨before, after, hfindings, -⟩ := findings_of_omits d m h
      rw [differing, hfindings]
      exact List.mem_map_of_mem (by simp [hf])
    rw [modification?_eq_some.mpr ⟨List.ne_nil_of_mem hmem, rfl⟩]
    by_cases hleft : differing d c' m = []
    · rw [modification?_eq_none.mpr (differing_eq_nil.mp hleft)]
      exact .gone rfl (fun a ha => hlost a ha (by simp [hleft])) .nil
    · rw [modification?_eq_some.mpr ⟨hleft, rfl⟩]
      exact .fewer ⟨rfl, rfl, rfl, ⟨f.1, hmem, hsize⟩, hfewer, hlost, hleft⟩ .nil

theorem name_of_omits (h : c.Omits c') : c'.name = c.name := by
  rw [h.rest]

variable {db db' : List DatabaseColumn}

theorem filter_of_omits (h : List.Forall₂ DatabaseColumn.Omits db db') (p : String → Bool) :
    List.Forall₂ DatabaseColumn.Omits (db.filter fun c => p c.name)
      (db'.filter fun c => p c.name) := by
  refine List.rel_filter ?_ h
  intro c c' hc
  beta_reduce
  rw [name_of_omits hc]

/-- The column of a name is found as before, with sizes left out. -/
theorem columnNamed?_of_omits (h : List.Forall₂ DatabaseColumn.Omits db db') (name : String) :
    Option.Rel DatabaseColumn.Omits (columnNamed? db name) (columnNamed? db' name) :=
  rel_getLast? (filter_of_omits h (· == name))

theorem thinned_required? (d : Dialect) (h : List.Forall₂ DatabaseColumn.Omits db db')
    (m : ModelColumn) : Thinned (required? d db m).toList (required? d db' m).toList := by
  have hfound := columnNamed?_of_omits h m.name
  unfold required?
  generalize columnNamed? db m.name = found? at hfound
  generalize columnNamed? db' m.name = found?' at hfound
  cases hfound with
  | none => exact .same rfl .nil
  | some hc => exact thinned_modification? d m hc

theorem thinned_drop (h : List.Forall₂ DatabaseColumn.Omits db db') :
    Thinned (db.map Difference.drop) (db'.map Difference.drop) := by
  induction h with
  | nil => exact .nil
  | cons hc _ ih =>
    refine .same ?_ ih
    simp [Difference.told, Difference.drop, name_of_omits hc]

end Comparison

/-- What a catalog leaves out of the sizes is at most missing among the differences. -/
theorem thinned_compareColumns (d : Dialect) (model : List ModelColumn)
    {db db' : List DatabaseColumn} (h : List.Forall₂ DatabaseColumn.Omits db db') :
    Thinned (compareColumns d db model) (compareColumns d db' model) :=
  (Thinned.filterMap (thinned_required? d h) model).append
    (thinned_drop (filter_of_omits h fun name => !model.any (·.name == name)))

/-- **What a dialect does not report never shows as a difference.**  On SQLite the same is told of
two tables and their models that are alike but for sizes and comments.  In every dialect, what a
catalog leaves out of the sizes takes nothing from the differences but sizes from the changes of
modifications, and the modifications that have no other changes. -/
theorem compareColumns_unreported :
    (∀ (db db' : List DatabaseColumn) (model model' : List ModelColumn),
      db.map (·.bare) = db'.map (·.bare) → model.map (·.bare) = model'.map (·.bare) →
      (compareColumns .sqlite db model).map (·.told) =
        (compareColumns .sqlite db' model').map (·.told)) ∧
    ∀ (d : Dialect) (db db' : List DatabaseColumn) (model : List ModelColumn),
      List.Forall₂ DatabaseColumn.Omits db db' →
      Thinned (compareColumns d db model) (compareColumns d db' model) := by
  constructor
  · intro db db' model model' hdb hmodel
    rw [← told_compareColumns_bare db, ← told_compareColumns_bare db', hdb, hmodel]
  · intro d db db' model h
    exact thinned_compareColumns d model h

/-- A length that is not the wanted one, a precision and a comment are looked at only where they are
reported. -/
theorem compareColumns_unreported_of_sample :
    let model : List ModelColumn :=
      [{ name := "code", type := .varchar 20, notNull := true },
        { name := "price", type := .decimal 12 2, comment? := some "net" }]
    let model' : List ModelColumn :=
      [{ name := "code", type := .varchar 99, notNull := true },
        { name := "price", type := .decimal 5 0 }]
    let db : List DatabaseColumn :=
      [{ name := "code", rawType := "varchar(10)", length? := some 10 },
        { name := "price", rawType := "decimal(10,2)", precision? := some 10, scale? := some 2,
          comment? := some "net" }]
    let db' : List DatabaseColumn :=
      [{ name := "code", rawType := "varchar(10)" },
        { name := "price", rawType := "decimal(10,2)", scale? := some 2, comment? := some "net" }]
    (db.map (·.bare) = db'.map (·.bare) ∧ model.map (·.bare) = model'.map (·.bare) ∧
      (compareColumns .sqlite db model).map (·.told) =
        (compareColumns .sqlite db' model').map (·.told) ∧
      (compareColumns .sqlite db model).map (·.told) =
        [("code", .modify, [.notNull], "column became NOT NULL")]) ∧
    List.Forall₂ DatabaseColumn.Omits db db' ∧
      Thinned (compareColumns .postgres db model) (compareColumns .postgres db' model) ∧
      (compareColumns .postgres db model).map (·.changes) = [[.length, .notNull], [.precision]] ∧
      (compareColumns .postgres db' model).map (·.changes) = [[.notNull]] := by
  intro model model' db db'
  have homits : List.Forall₂ DatabaseColumn.Omits db db' :=
    .cons ⟨.inl rfl, .inl rfl, .inl rfl, rfl⟩ (.cons ⟨.inl rfl, .inl rfl, .inr rfl, rfl⟩ .nil)
  exact ⟨⟨rfl, rfl, compareColumns_unreported.1 db db' model model' rfl rfl, by decide +kernel⟩,
    homits, compareColumns_unreported.2 .postgres db db' model homits, by decide +kernel,
    by decide +kernel⟩

end SchemaKeeper
